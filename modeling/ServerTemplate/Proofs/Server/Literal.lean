import Mathlib.Data.List.Forall2
import ServerTemplate.Proofs.Script.Digits
import ServerTemplate.Proofs.Server.Lexing
import ServerTemplate.Proofs.Server.Reading
import ServerTemplate.Proofs.Value.Integer

/-!
# Literals of the server language

`literal?` reads code as one literal, over its lexemes: a word, an integer, a text in quotes, or an
array, which is written with values between its brackets or with a key in front of each of them.

`Spells text value` says of a text that it is read as a value in front of whatever may close it.
There is one lemma for each kind of literal; an array is read as its entries one by one, whatever is
inside of them (`spells_arrayOf`).
-/

namespace ServerTemplate.Server

/-! ### Reading -/

/-- The natural number that a decimal integer stands for. It has no leading zero unless it is
zero. -/
def decimal? (spelling : String) : Option Nat :=
  match spelling.toList with
  | [] => none
  | d :: ds =>
    if (d :: ds).all Char.isDigit && (d != '0' || ds.isEmpty) then some (decimalValue (d :: ds))
    else none

/-- An entry of an array, with its key if it has one. -/
abbrev Entry := Option String × Json

/-- The value of an array with some entries: a list if none has a key, a record if all have one. -/
def ofEntries? (entries : List Entry) : Option Json :=
  if entries.all fun entry => entry.1.isNone then some (.list (entries.map fun entry => entry.2))
  else (entries.mapM fun entry : Entry => entry.1.map (·, entry.2)).map .record

/-- Reads an entry of an array: a value, or a text as its key and a value behind it. Values are read
by `inner`. -/
def entryFrom (inner : List Token → Option (Json × List Token)) (ts : List Token) :
    Option (Entry × List Token) := do
  let (value, rest) ← inner ts
  match expect (.sign "=>") rest, value with
  | none, value => some ((none, value), rest)
  | some rest, .str key => do
    let (value, rest) ← inner rest
    return ((some key, value), rest)
  | _, _ => none

mutual

/-- Reads a literal, and what is left of the lexemes behind it. Each step of reading takes one of
the steps that are left. -/
def literalFrom : Nat → List Token → Option (Json × List Token)
  | steps + 1, .word name :: rest =>
    if name = "null" then some (.null, rest)
    else if name = "true" then some (.bool true, rest)
    else if name = "false" then some (.bool false, rest)
    else if name = "array" then do
      let rest ← expect (.sign "(") rest
      match expect (.sign ")") rest with
      | some rest => some (.list [], rest)
      | none => do
        let (entries, rest) ← entriesFrom steps rest
        return (← ofEntries? entries, rest)
    else none
  | _ + 1, .numeral spelling :: rest => (decimal? spelling).map fun n => (.int n, rest)
  | _ + 1, .sign sign :: .numeral spelling :: rest =>
    if sign = "-" then (decimal? spelling).map fun n => (.int (-n), rest) else none
  | _ + 1, .quoted content :: rest => some (.str content, rest)
  | _, _ => none

/-- Reads the entries of an array up to its closing bracket. -/
def entriesFrom : Nat → List Token → Option (List Entry × List Token)
  | 0, _ => none
  | steps + 1, ts => do
    let (entry, rest) ← entryFrom (literalFrom steps) ts
    match expect (.sign ",") rest with
    | none => return ([entry], ← expect (.sign ")") rest)
    | some rest => do
      let (entries, rest) ← entriesFrom steps rest
      return (entry :: entries, rest)

end

/-- The value of code that is one literal. -/
def literal? (code : String) : Option Json := do
  let ts ← tokens? code
  match ← literalFrom (2 * ts.length) ts with
  | (value, []) => some value
  | _ => none

/-! ### What closes a literal -/

/-- Behind a literal there is nothing, or a comma, or a closing bracket. -/
def Closes (rest : List Char) : Prop := ∀ c ∈ rest.head?, c = ',' ∨ c = ')'

/-- A sign of one character in front of what is no part of it. -/
theorem tokensFrom_sign {c : Char} {rest : List Char} {sign : String} (solid : isSpace c = false)
    (h : token? (c :: rest) = some (.sign sign, 1)) :
    tokensFrom 0 (c :: rest) = (tokensFrom 0 rest).map (.sign sign :: ·) :=
  @tokensFrom_token c [] rest _ solid h

theorem tokensFrom_comma (rest : List Char) :
    tokensFrom 0 (',' :: rest) = (tokensFrom 0 rest).map (.sign "," :: ·) :=
  tokensFrom_sign rfl rfl

theorem tokensFrom_closing (rest : List Char) :
    tokensFrom 0 (')' :: rest) = (tokensFrom 0 rest).map (.sign ")" :: ·) :=
  tokensFrom_sign rfl rfl

theorem tokensFrom_opening (rest : List Char) :
    tokensFrom 0 ('(' :: rest) = (tokensFrom 0 rest).map (.sign "(" :: ·) :=
  tokensFrom_sign rfl rfl

theorem tokensFrom_arrow (rest : List Char) :
    tokensFrom 0 (" => ".toList ++ rest) = (tokensFrom 0 rest).map (.sign "=>" :: ·) := by
  have whole : " => ".toList ++ rest = ' ' :: ('=' :: ['>'] ++ ' ' :: rest) := rfl
  rw [whole]
  exact @tokensFrom_token '=' ['>'] (' ' :: rest) (.sign "=>") rfl rfl

/-- A minus sign in front of a number is a lexeme of its own. -/
theorem tokensFrom_minus {d : Char} (digit : d.isDigit = true) (rest : List Char) :
    tokensFrom 0 ('-' :: d :: rest) = (tokensFrom 0 (d :: rest)).map (.sign "-" :: ·) := by
  refine tokensFrom_sign rfl ?_
  have other {c : Char} (hc : c.isDigit = false) : (c == d) = false :=
    beq_eq_false_iff_ne.mpr (ne_of_isDigit digit hc).symm
  have first : signs.find? (fun sign => sign.toList.isPrefixOf ('-' :: d :: rest)) = some "-" := by
    simp [signs, List.isPrefixOf, other (c := '=') rfl, other (c := '-') rfl, other (c := '>') rfl]
  have token : token? ('-' :: d :: rest) = (signs.find? fun sign =>
      sign.toList.isPrefixOf ('-' :: d :: rest)).map fun sign => (.sign sign, sign.length) := rfl
  exact token.trans (congrArg _ first)

section Decimal

variable {ds rest : List Char}

theorem numeralLength_digits (nonempty : ds ≠ []) (digits : ∀ d ∈ ds, d.isDigit = true)
    (closes : Closes rest) : numeralLength (ds ++ rest) = ds.length := by
  have ends : Script.Ends Char.isDigit rest := fun c hc => by
    rcases closes c hc with rfl | rfl <;> decide
  have whole : Script.digitsLength Char.isDigit (ds ++ rest) = ds.length :=
    (Script.IsDigits.of_forall nonempty digits).digitsLength_append rfl ends
  have based : Script.prefixedLength (ds ++ rest) = 0 := by
    obtain ⟨d, ds, rfl⟩ := List.exists_cons_of_ne_nil nonempty
    refine Script.prefixedLength_eq_zero fun x hx => ?_
    cases ds with
    | nil => rcases closes x hx with rfl | rfl <;> decide
    | cons d' ds =>
      obtain rfl : d' = x := Option.some.inj hx
      exact Script.not_mem_baseMarks_of_isDigit (digits d' (.tail _ (.head _)))
  have fraction : fractionLength ds.length rest = 0 := by
    cases rest with
    | nil => rfl
    | cons c rest => rcases closes c rfl with rfl | rfl <;> rfl
  have power : Script.exponentLength rest = 0 := by
    cases rest with
    | nil => rfl
    | cons c rest => rcases closes c rfl with rfl | rfl <;> rfl
  have positive : ds.length ≠ 0 := mt List.length_eq_zero_iff.mp nonempty
  rw [numeralLength, based, decimalLength, whole, List.drop_left, fraction, Nat.add_zero,
    List.drop_left, power]
  simp [positive]

theorem tokensFrom_digits (nonempty : ds ≠ []) (digits : ∀ d ∈ ds, d.isDigit = true)
    (closes : Closes rest) :
    tokensFrom 0 (ds ++ rest) = (tokensFrom 0 rest).map (.numeral (.ofList ds) :: ·) := by
  have length := numeralLength_digits nonempty digits closes
  cases ds with
  | nil => exact absurd rfl nonempty
  | cons d ds =>
    have hd := digits d (.head _)
    have others : digitChars.all (fun c => !isSpace c && !isNameStart c) = true := by decide
    obtain ⟨solid, start⟩ : isSpace d = false ∧ isNameStart d = false := by
      simpa using List.all_eq_true.mp others d (mem_digitChars_of_isDigit hd)
    refine tokensFrom_token solid ?_
    rw [List.cons_append] at length
    rw [token?, if_neg (by simp [start]), if_pos (by rw [length]; exact Nat.succ_ne_zero _)]
    dsimp only
    rw [length, ← List.cons_append, List.take_left]
    rfl

end Decimal

/-! ### Texts and the values that they are read as -/

/-- In front of what closes it a text is cut into lexemes in one way. -/
def Cuts (text : String) (ts : List Token) : Prop :=
  ∀ rest, Closes rest → tokensFrom 0 (text.toList ++ rest) = (tokensFrom 0 rest).map (ts ++ ·)

/-- A text is read as a value in front of whatever closes it. -/
def Spells (text : String) (value : Json) : Prop :=
  ∃ ts, Cuts text ts ∧ ∀ steps, 2 * ts.length ≤ steps → ∀ rest,
    literalFrom steps (ts ++ rest) = some (value, rest)

/-- A text is read as an entry of an array. -/
def SpellsEntry (text : String) (entry : Entry) : Prop :=
  ∃ ts, Cuts text ts ∧ ∀ steps, 2 * ts.length ≤ steps → ∀ rest,
    expect (.sign "=>") rest = none →
      entryFrom (literalFrom steps) (ts ++ rest) = some (entry, rest)

theorem Spells.literal?_eq {text : String} {value : Json} (h : Spells text value) :
    literal? text = some value := by
  obtain ⟨ts, cuts, reads⟩ := h
  have all := cuts [] (by simp [Closes])
  have whole : tokens? text = some ts := by
    rw [List.append_nil] at all
    rw [tokens?, all]
    simp [tokensFrom]
  have read := reads (2 * ts.length) (Nat.le_refl _) []
  rw [List.append_nil] at read
  simp [literal?, whole, read]

theorem Closes.ends {rest : List Char} (h : Closes rest) :
    rest.head?.all (!isNamePart ·) = true := by
  cases rest with
  | nil => rfl
  | cons c rest => rcases h c rfl with rfl | rfl <;> rfl

/-- A literal that is read in one step. -/
theorem Cuts.spells {text : String} {token : Token} {ts : List Token} {value : Json}
    (h : Cuts text (token :: ts)) (read : ∀ steps rest,
      literalFrom (steps + 1) (token :: (ts ++ rest)) = some (value, rest)) :
    Spells text value := by
  refine ⟨token :: ts, h, fun steps enough rest => ?_⟩
  cases steps with
  | zero => simp at enough
  | succ steps => exact read steps rest

theorem spells_word {name : String} {value : Json} (h : IsName name) (other : name ≠ "instanceof")
    (read : ∀ steps rest, literalFrom (steps + 1) (.word name :: rest) = some (value, rest)) :
    Spells name value := by
  have cuts : Cuts name [.word name] := fun _ closes => h.tokensFrom_word other closes.ends
  exact cuts.spells read

theorem spells_null : Spells "null" .null :=
  spells_word (by decide) (by decide) fun steps rest => by simp [literalFrom]

theorem spells_bool (b : Bool) : Spells (Literal.ofBool b) (.bool b) := by
  cases b with
  | false =>
    exact spells_word (by decide) (by decide) fun steps rest => by
      simp [literalFrom, Literal.ofBool]
  | true =>
    exact spells_word (by decide) (by decide) fun steps rest => by
      simp [literalFrom, Literal.ofBool]

theorem spells_str (content : String) : Spells (Literal.ofText content) (.str content) := by
  have cuts : Cuts (Literal.ofText content) [.quoted content] :=
    fun rest _ => tokensFrom_ofText content rest
  exact cuts.spells fun _ _ => rfl

/-- The digits of a positive number do not begin with zero. -/
theorem head?_toDigits {n : Nat} (positive : 0 < n) : (Nat.toDigits 10 n).head? ≠ some '0' := by
  induction n using Nat.strongRecOn with
  | _ n ih =>
    obtain small | large := Nat.lt_or_ge n 10
    · have digits : ∀ d < 10, 0 < d → Nat.digitChar d ≠ '0' := by decide
      rw [Nat.toDigits_of_lt_base small]
      exact fun h => digits n small positive (Option.some.inj h)
    · have first := ih (n / 10) (Nat.div_lt_self positive (by decide)) (by omega)
      rw [Nat.toDigits_of_base_le (by decide) large]
      rwa [List.head?_append, Option.or_of_isSome (by simp [Nat.toDigits_ne_nil])]

theorem decimal?_toDigits (n : Nat) : decimal? (.ofList (Nat.toDigits 10 n)) = some n := by
  obtain rfl | positive := Nat.eq_zero_or_pos n
  · rfl
  have digits : (Nat.toDigits 10 n).all Char.isDigit = true :=
    List.all_eq_true.mpr fun _ => isDigit_of_mem_toDigits
  have first := head?_toDigits positive
  have value := decimalValue_toDigits n
  rw [decimal?, String.toList_ofList]
  cases hds : Nat.toDigits 10 n with
  | nil => exact absurd hds Nat.toDigits_ne_nil
  | cons d ds =>
    rw [hds] at digits first value
    have nonzero : d ≠ '0' := fun h => first (congrArg some h)
    dsimp only
    rw [if_pos (by simp [digits, nonzero]), value]

theorem cuts_nat (n : Nat) : Cuts n.repr [.numeral n.repr] := by
  intro rest closes
  rw [Nat.toList_repr,
    tokensFrom_digits Nat.toDigits_ne_nil (fun _ => isDigit_of_mem_toDigits) closes]
  rfl

theorem decimal?_repr (n : Nat) : decimal? n.repr = some n := decimal?_toDigits n

theorem spells_int (n : Int) : Spells (toString n) (.int n) := by
  cases n with
  | ofNat n =>
    refine (cuts_nat n).spells fun steps rest => ?_
    rw [literalFrom, decimal?_repr]
    rfl
  | negSucc n =>
    have cuts : Cuts (toString (Int.negSucc n)) [.sign "-", .numeral (n + 1).repr] := by
      intro rest closes
      have text : (toString (Int.negSucc n)).toList = '-' :: (n + 1).repr.toList :=
        String.toList_append ..
      have number := cuts_nat (n + 1) rest closes
      obtain ⟨d, ds, hds⟩ := List.exists_cons_of_ne_nil (Nat.toDigits_ne_nil (b := 10) (n := n + 1))
      have digit : d.isDigit = true := isDigit_of_mem_toDigits (n := n + 1) (by simp [hds])
      rw [Nat.toList_repr, hds] at number text
      rw [text, List.cons_append, List.cons_append, tokensFrom_minus digit, ← List.cons_append,
        number, Option.map_map]
      rfl
    refine cuts.spells fun steps rest => ?_
    rw [List.singleton_append, literalFrom, if_pos rfl, decimal?_repr]
    rfl

/-! ### Entries -/

theorem Spells.entry {text : String} {value : Json} (h : Spells text value) :
    SpellsEntry text (none, value) := by
  obtain ⟨ts, cuts, reads⟩ := h
  refine ⟨ts, cuts, fun steps enough rest noArrow => ?_⟩
  rw [entryFrom, reads steps enough]
  simp [noArrow]

theorem Spells.member {text : String} {value : Json} (h : Spells text value) (key : String) :
    SpellsEntry (Literal.ofText key ++ " => " ++ text) (some key, value) := by
  obtain ⟨ts, cuts, reads⟩ := h
  refine ⟨.quoted key :: .sign "=>" :: ts, fun rest closes => ?_, fun steps enough rest _ => ?_⟩
  · simp only [String.toList_append, List.append_assoc]
    rw [tokensFrom_ofText, tokensFrom_arrow, cuts rest closes, Option.map_map, Option.map_map]
    rfl
  · have key_read : literalFrom steps (.quoted key :: .sign "=>" :: (ts ++ rest)) =
        some (.str key, .sign "=>" :: (ts ++ rest)) := by
      cases steps with
      | zero => simp at enough
      | succ steps => rfl
    have value_read := reads steps (by simp at enough; omega) rest
    rw [entryFrom, List.cons_append, List.cons_append, key_read]
    simp [expect, value_read]

/-- No entry begins with a closing bracket. -/
theorem entriesFrom_closing (steps : Nat) (rest : List Token) :
    entriesFrom steps (.sign ")" :: rest) = none := by
  have literal (steps : Nat) : literalFrom steps (.sign ")" :: rest) = none := by
    cases steps with
    | zero => rfl
    | succ steps =>
      cases rest with
      | nil => rfl
      | cons token rest => cases token <;> simp [literalFrom]
  cases steps with
  | zero => rfl
  | succ steps => simp [entriesFrom, entryFrom, literal]

/-- The entries of an array are read one by one. -/
theorem entriesFrom_of_forall₂ {texts : List String} {entries : List Entry}
    (h : List.Forall₂ SpellsEntry texts entries) (nonempty : texts ≠ []) : ∃ ts : List Token,
      (∀ rest, tokensFrom 0 ((", ".intercalate texts).toList ++ ')' :: rest) =
        (tokensFrom 0 rest).map (ts ++ .sign ")" :: ·)) ∧
      ∀ steps, 2 * ts.length + 1 ≤ steps → ∀ rest,
        entriesFrom steps (ts ++ .sign ")" :: rest) = some (entries, rest) := by
  induction h with
  | nil => exact absurd rfl nonempty
  | @cons text entry texts entries first others ih =>
    obtain ⟨ts, cuts, reads⟩ := first
    cases others with
    | nil =>
      refine ⟨ts, fun rest => ?_, fun steps enough rest => ?_⟩
      · rw [String.intercalate_singleton, cuts _ (by simp [Closes]), tokensFrom_closing,
          Option.map_map]
        rfl
      · cases steps with
        | zero => simp at enough
        | succ steps =>
          have entry_read := reads steps (by omega) (.sign ")" :: rest) (by simp [expect])
          rw [entriesFrom, entry_read]
          simp [expect]
    | cons other others =>
      obtain ⟨us, cuts', reads'⟩ := ih (List.cons_ne_nil _ _)
      refine ⟨ts ++ .sign "," :: us, fun rest => ?_, fun steps enough rest => ?_⟩
      · have blank (cs : List Char) : tokensFrom 0 (' ' :: cs) = tokensFrom 0 cs := rfl
        have comma : ", ".toList = [',', ' '] := rfl
        rw [String.intercalate_cons_cons, String.toList_append, String.toList_append, comma]
        simp only [List.append_assoc, List.cons_append, List.nil_append]
        rw [cuts _ (by simp [Closes]), tokensFrom_comma, blank, cuts' rest, Option.map_map,
          Option.map_map]
        simp [Function.comp_def]
      · cases steps with
        | zero => simp at enough
        | succ steps =>
          simp only [List.length_append, List.length_cons] at enough
          have entry_read := reads steps (by omega) (.sign "," :: (us ++ .sign ")" :: rest))
            (by simp [expect])
          have others_read := reads' steps (by omega) rest
          rw [List.append_assoc, List.cons_append, entriesFrom, entry_read]
          simp [expect, others_read]

/-- The entries of an array between its brackets are the entries of its value. -/
theorem spells_arrayOf {texts : List String} {entries : List Entry} {value : Json}
    (h : List.Forall₂ SpellsEntry texts entries) (hvalue : ofEntries? entries = some value) :
    Spells (Literal.arrayOf texts) value := by
  have word (rest : List Char) : tokensFrom 0 ("array(".toList ++ rest) =
      (tokensFrom 0 rest).map ([.word "array", .sign "("] ++ ·) := by
    have name : IsName "array" := by decide
    have array : tokensFrom 0 ("array".toList ++ '(' :: rest) = _ :=
      name.tokensFrom_word (by decide) rfl
    refine array.trans ?_
    rw [tokensFrom_opening, Option.map_map]
    rfl
  cases h with
  | nil =>
    have cuts : Cuts "array()" [.word "array", .sign "(", .sign ")"] := by
      intro rest _
      refine (word (')' :: rest)).trans ?_
      rw [tokensFrom_closing, Option.map_map]
      rfl
    obtain rfl : Json.list [] = value := Option.some.inj hvalue
    exact cuts.spells fun steps rest => by simp [literalFrom, expect]
  | @cons text entry texts entries first others =>
    obtain ⟨ts, cuts, reads⟩ := entriesFrom_of_forall₂ (.cons first others) (List.cons_ne_nil _ _)
    refine ⟨.word "array" :: .sign "(" :: (ts ++ [.sign ")"]), fun rest _ => ?_,
      fun steps enough rest => ?_⟩
    · have whole : (Literal.arrayOf (text :: texts)).toList ++ rest =
          "array(".toList ++ ((", ".intercalate (text :: texts)).toList ++ ')' :: rest) := by
        rw [Literal.arrayOf, if_neg (by simp), String.toList_append, String.toList_append]
        simp only [List.append_assoc]
        rfl
      rw [whole, word, cuts, Option.map_map]
      simp [Function.comp_def]
    · cases steps with
      | zero => simp at enough
      | succ steps =>
        simp only [List.length_cons, List.length_append, List.length_nil] at enough
        have entries_read := reads steps (by omega) rest
        -- the first entry does not begin with a bracket
        have inside : expect (.sign ")") (ts ++ .sign ")" :: rest) = none := by
          cases hts : ts ++ .sign ")" :: rest with
          | nil => rfl
          | cons token left =>
            have other : token ≠ .sign ")" := fun closing => by
              rw [hts, closing, entriesFrom_closing] at entries_read
              cases entries_read
            rw [expect, if_neg other]
        have opens (ts : List Token) : expect (.sign "(") (.sign "(" :: ts) = some ts := by
          simp [expect]
        simp [literalFrom, opens, inside, entries_read, hvalue]

theorem ofEntries?_items (items : List Json) :
    ofEntries? (items.map (none, ·)) = some (.list items) := by
  have none : (items.map fun item => ((none, item) : Entry)).all (·.1.isNone) = true := by simp
  rw [ofEntries?, if_pos none, List.map_map]
  exact congrArg (some ∘ Json.list) (List.map_id items)

theorem ofEntries?_members {members : List (String × Json)} (nonempty : members ≠ []) :
    ofEntries? (members.map fun member => (some member.1, member.2)) = some (.record members) := by
  have keys : (members.map fun member => ((some member.1, member.2) : Entry)).all (·.1.isNone) ≠
      true := by
    obtain ⟨member, members, rfl⟩ := List.exists_cons_of_ne_nil nonempty
    simp
  have all : (members.map fun member => ((some member.1, member.2) : Entry)).mapM
      (fun entry : Entry => entry.1.map (·, entry.2)) = some members := by
    clear nonempty keys
    induction members with
    | nil => rfl
    | cons member members ih => simp [ih]
  rw [ofEntries?, if_neg keys, all]
  rfl

end ServerTemplate.Server
