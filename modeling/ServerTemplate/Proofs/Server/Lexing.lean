import ServerTemplate.Output.Literal
import ServerTemplate.Proofs.Server.Grammar
import ServerTemplate.Proofs.Server.Number

/-!
# Lexemes of server code

`tokens?` cuts code into lexemes, each as long as possible. `Lexes` says of a text that it is cut in
one way wherever it stands in front of a blank; texts with blanks between them are cut one by one
(`Lexes.spaced`). Generated code has a blank on both sides of every operator and inside of every
bracket, so the text of an expression is cut as the grammar writes it (`Tree.lexes_text`).
-/

namespace ServerTemplate.Server

/-! ### Lexemes -/

/-- A character that separates lexemes. -/
def isSpace (c : Char) : Bool := c == ' ' || c == '\t' || c == '\n' || c == '\r'

/-- A character that a name may begin with. -/
def isNameStart (c : Char) : Bool := c.isAlpha || c == '_' || 0x80 ≤ c.toNat

/-- A character that a name may go on with. -/
def isNamePart (c : Char) : Bool := isNameStart c || c.isDigit

/-- The operators and brackets, and what begins comments or ends code, the longer ones first. -/
def signs : List String :=
  ["===", "!==", "<=>", "**=", "??=", "<<=", ">>=", "...", "?->",
    "==", "!=", "<>", "<=", ">=", "&&", "||", "??", "**", "<<", ">>", "++", "--", "+=", "-=", "*=",
    "/=", ".=", "%=", "&=", "|=", "^=", "->", "=>", "::", "//", "/*", "?>",
    "+", "-", "*", "/", "%", "<", ">", "=", "!", "&", "|", "^", "~", "?", ":", "(", ")", "[", "]",
    ",", ".", "@", "#"]

/-- The text up to a closing quote, and its length with the quote. A backslash hides a quote or a
backslash, and stands for itself otherwise. -/
def unquoted? : List Char → Option (List Char × Nat)
  | [] => none
  | '\\' :: '\\' :: rest => (unquoted? rest).map fun a => ('\\' :: a.1, a.2 + 2)
  | '\\' :: '\x27' :: rest => (unquoted? rest).map fun a => ('\x27' :: a.1, a.2 + 2)
  | c :: rest =>
    if c = '\x27' then some ([], 1) else (unquoted? rest).map fun a => (c :: a.1, a.2 + 1)

/-- A word is a sign if it is an operator. -/
def Token.ofWord (word : String) : Token := if word = "instanceof" then .sign word else .word word

/-- The lexeme that begins here, and its length. -/
def token? : List Char → Option (Token × Nat)
  | [] => none
  | c :: rest =>
    if isNameStart c then
      let word := (c :: rest).takeWhile isNamePart
      some (.ofWord (.ofList word), word.length)
    else if numeralLength (c :: rest) ≠ 0 then
      let length := numeralLength (c :: rest)
      some (.numeral (.ofList ((c :: rest).take length)), length)
    else if c = '$' then
      let name := rest.takeWhile isNamePart
      if rest.head?.any isNameStart then some (.var (.ofList name), name.length + 1) else none
    else if c = '\x27' then
      (unquoted? rest).map fun a => (.quoted (.ofList a.1), a.2 + 1)
    else
      (signs.find? fun sign => sign.toList.isPrefixOf (c :: rest)).map fun sign =>
        (.sign sign, sign.length)

/-- The lexemes of code of which the first `taken` characters belong to one that has begun. -/
def tokensFrom : Nat → List Char → Option (List Token)
  | _, [] => some []
  | taken + 1, _ :: rest => tokensFrom taken rest
  | 0, c :: rest =>
    if isSpace c then tokensFrom 0 rest
    else (token? (c :: rest)).bind fun a => (tokensFrom (a.2 - 1) rest).map (a.1 :: ·)

/-- The lexemes of code. -/
def tokens? (code : String) : Option (List Token) := tokensFrom 0 code.toList

example : tokens? "$a['b'] ?? 'it\\'s' === 1.5e3" = some [.var "a", .sign "[", .quoted "b",
    .sign "]", .sign "??", .quoted "it's", .sign "===", .numeral "1.5e3"] := by decide +kernel

/-! ### Code in front of a blank -/

/-- In front of a blank a text is cut into lexemes in one way. -/
def Lexes (cs : List Char) (ts : List Token) : Prop :=
  ∀ rest, Spaced rest → tokensFrom 0 (cs ++ rest) = (tokensFrom 0 rest).map (ts ++ ·)

theorem tokensFrom_taken (word rest : List Char) :
    tokensFrom word.length (word ++ rest) = tokensFrom 0 rest := by
  induction word with
  | nil => rfl
  | cons c word ih => exact ih

/-- Code begins with a lexeme. -/
theorem tokensFrom_token {c : Char} {cs rest : List Char} {token : Token}
    (solid : isSpace c = false) (h : token? (c :: (cs ++ rest)) = some (token, cs.length + 1)) :
    tokensFrom 0 (c :: cs ++ rest) = (tokensFrom 0 rest).map (token :: ·) := by
  have taken := tokensFrom_taken cs rest
  rw [List.cons_append, tokensFrom, solid, h]
  exact congrArg (Option.map (token :: ·)) taken

namespace Lexes

variable {cs ds : List Char} {ts us : List Token}

theorem token {c : Char} {token : Token} (solid : isSpace c = false)
    (h : ∀ rest, Spaced rest → token? (c :: (cs ++ rest)) = some (token, cs.length + 1)) :
    Lexes (c :: cs) [token] :=
  fun rest spaced => tokensFrom_token solid (h rest spaced)

/-- A blank separates lexemes. -/
theorem spaced (h : Lexes cs ts) (h' : Lexes ds us) : Lexes (cs ++ ' ' :: ds) (ts ++ us) := by
  intro rest hrest
  have blank : tokensFrom 0 (' ' :: (ds ++ rest)) = tokensFrom 0 (ds ++ rest) := rfl
  rw [List.append_assoc, List.cons_append, h _ (.inr ⟨_, rfl⟩), blank, h' rest hrest,
    Option.map_map]
  exact congrArg (Option.map · _) (funext fun vs => (List.append_assoc ts us vs).symm)

theorem tokens?_eq {code : String} (h : Lexes code.toList ts) : tokens? code = some ts := by
  have all := h [] (.inl rfl)
  rw [List.append_nil] at all
  rw [tokens?, all]
  exact congrArg some (List.append_nil ts)

end Lexes

/-! ### Names -/

/-- A name of a variable, a function or a constant. -/
structure IsName (name : String) : Prop where
  start : name.toList.head?.any isNameStart = true
  parts : ∀ c ∈ name.toList, isNamePart c = true

instance (name : String) : Decidable (IsName name) :=
  decidable_of_iff (_ ∧ name.toList.all isNamePart = true)
    ⟨fun h => ⟨h.1, List.all_eq_true.mp h.2⟩, fun h => ⟨h.start, List.all_eq_true.mpr h.parts⟩⟩

theorem IsName.takeWhile_append {name : String} (h : IsName name) {rest : List Char}
    (ends : rest.head?.all (!isNamePart ·) = true) :
    (name.toList ++ rest).takeWhile isNamePart = name.toList := by
  have stopped : rest.takeWhile isNamePart = [] := by
    cases rest with
    | nil => rfl
    | cons c rest =>
      refine List.takeWhile_cons_of_neg ?_
      simpa using ends
  rw [List.takeWhile_append_of_pos h.parts, stopped, List.append_nil]

theorem token?_var {name : String} (h : IsName name) {rest : List Char}
    (ends : rest.head?.all (!isNamePart ·) = true) :
    token? ('$' :: (name.toList ++ rest)) = some (.var name, name.toList.length + 1) := by
  have dollar : token? ('$' :: (name.toList ++ rest)) =
      if (name.toList ++ rest).head?.any isNameStart then
        some (.var (.ofList ((name.toList ++ rest).takeWhile isNamePart)),
          ((name.toList ++ rest).takeWhile isNamePart).length + 1)
      else none := rfl
  have start : (name.toList ++ rest).head?.any isNameStart = true := by
    have start := h.start
    cases hname : name.toList with
    | nil => simp [hname] at start
    | cons c cs => simpa [hname] using start
  rw [dollar, start, h.takeWhile_append ends, String.ofList_toList]
  rfl

theorem token?_word {c : Char} {cs : List Char} (h : IsName (.ofList (c :: cs))) {rest : List Char}
    (ends : rest.head?.all (!isNamePart ·) = true) :
    token? (c :: (cs ++ rest)) = some (.ofWord (.ofList (c :: cs)), cs.length + 1) := by
  have taken := h.takeWhile_append ends
  have start := h.start
  rw [String.toList_ofList] at taken start
  rw [token?, if_pos (by simpa using start), ← List.cons_append, taken]
  rfl

/-- A word that is no operator, in front of what is no part of it. -/
theorem IsName.tokensFrom_word {name : String} (h : IsName name) (other : name ≠ "instanceof")
    {rest : List Char} (ends : rest.head?.all (!isNamePart ·) = true) :
    tokensFrom 0 (name.toList ++ rest) = (tokensFrom 0 rest).map (.word name :: ·) := by
  obtain ⟨c, cs, hcs⟩ := List.exists_cons_of_ne_nil fun hnil : name.toList = [] => by
    have start := h.start
    simp [hnil] at start
  obtain rfl : name = .ofList (c :: cs) := by rw [← hcs, String.ofList_toList]
  have solid : isSpace c = false := by
    have start := h.start
    rw [hcs] at start
    have blanks : [' ', '\t', '\n', '\r'].all (!isNameStart ·) = true := by decide
    refine Bool.eq_false_iff.mpr fun space => ?_
    have hc : c ∈ [' ', '\t', '\n', '\r'] := by simpa [isSpace, or_assoc] using space
    have start : isNameStart c = true := by simpa using start
    have other := List.all_eq_true.mp blanks c hc
    rw [start] at other
    cases other
  rw [hcs]
  refine tokensFrom_token solid ?_
  rw [token?_word h ends, Token.ofWord, if_neg other]

theorem Spaced.ends {rest : List Char} (h : Spaced rest) :
    rest.head?.all (!isNamePart ·) = true := by
  obtain rfl | ⟨rest, rfl⟩ := h <;> rfl

/-! ### Texts -/

theorem unquoted?_escapeQuotes (cs rest : List Char) :
    unquoted? (Literal.escapeQuotes cs ++ '\x27' :: rest) =
      some (cs, (Literal.escapeQuotes cs).length + 1) := by
  induction cs with
  | nil => rfl
  | cons c cs ih =>
    rw [Literal.escapeQuotes]
    by_cases hc : c = '\\' ∨ c = '\x27'
    · -- an escaped character is read with its backslash
      have escaped : unquoted? ('\\' :: c :: (Literal.escapeQuotes cs ++ '\x27' :: rest)) =
          (unquoted? (Literal.escapeQuotes cs ++ '\x27' :: rest)).map fun a =>
            (c :: a.1, a.2 + 2) := by
        rcases hc with rfl | rfl <;> rfl
      rw [if_pos (by simpa using hc), List.cons_append, List.cons_append, escaped, ih]
      rfl
    · obtain ⟨backslash, quote⟩ := not_or.mp hc
      rw [if_neg (by simpa using hc), List.cons_append, unquoted?, if_neg quote, ih]
      · rfl
      · exact fun _ h _ => backslash h
      · exact fun _ h _ => backslash h

theorem toList_ofText (content : String) : (Literal.ofText content).toList =
    '\x27' :: (Literal.escapeQuotes content.toList ++ ['\x27']) := by
  rw [Literal.ofText, String.toList_ofList]
  rfl

/-- A text in quotes is one lexeme, whatever is behind it. -/
theorem tokensFrom_ofText (content : String) (rest : List Char) :
    tokensFrom 0 ((Literal.ofText content).toList ++ rest) =
      (tokensFrom 0 rest).map (.quoted content :: ·) := by
  rw [toList_ofText]
  refine tokensFrom_token rfl ?_
  have quote (cs : List Char) : token? ('\x27' :: cs) =
      (unquoted? cs).map fun a => (.quoted (.ofList a.1), a.2 + 1) := rfl
  rw [quote, List.append_assoc, List.singleton_append, unquoted?_escapeQuotes, Option.map_some,
    String.ofList_toList, List.length_append]
  rfl

/-! ### Numbers -/

theorem IsNumeral.lexes {spelling : String} (h : IsNumeral spelling) :
    Lexes spelling.toList [.numeral spelling] := by
  have whole := h.whole
  obtain ⟨c, cs, hcs⟩ := List.exists_cons_of_ne_nil
    fun hnil : spelling.toList = [] => h.nonempty (String.toList_eq_nil_iff.mp hnil)
  rw [hcs] at whole ⊢
  -- neither a blank nor a name begins as a number does
  have other : isSpace c = false ∧ isNameStart c = false := by
    cases digit : c.isDigit with
    | false =>
      by_cases point : c = '.'
      · subst point
        decide
      · rw [numeralLength_eq_zero digit point] at whole
        cases whole
    | true =>
      have digits : ∀ n ∈ List.range' 48 10, isSpace (Char.ofNat n) = false ∧
          isNameStart (Char.ofNat n) = false := by decide
      rw [Char.isDigit, Bool.and_eq_true, decide_eq_true_eq, decide_eq_true_eq] at digit
      rw [← Char.ofNat_toNat c]
      refine digits _ (List.mem_range'_1.mpr ⟨UInt32.le_iff_toNat_le.mp digit.1, ?_⟩)
      exact Nat.lt_succ_of_le (UInt32.le_iff_toNat_le.mp digit.2)
  refine .token other.1 fun rest spaced => ?_
  have length : numeralLength (c :: (cs ++ rest)) = (c :: cs).length :=
    (numeralLength_append spaced (c :: cs)).trans whole
  rw [token?, if_neg (by simp [other.2]), if_pos (by rw [length]; exact Nat.succ_ne_zero _)]
  dsimp only
  rw [length, ← List.cons_append, List.take_left, ← hcs, String.ofList_toList]
  simp [hcs]

/-! ### Operators -/

theorem lexes_operator {operator : String} {level : Nat} (h : level? operator = some level) :
    Lexes operator.toList [.sign operator] := by
  unfold level? at h
  split at h
  all_goals first
    | exact .token rfl (by rintro _ (rfl | ⟨rest, rfl⟩) <;> rfl)
    | cases h

theorem lexes_bracket {bracket : String} (h : bracket ∈ ["(", ")", "?", ":"]) :
    Lexes bracket.toList [.sign bracket] := by
  simp only [List.mem_cons, List.not_mem_nil, or_false] at h
  rcases h with rfl | rfl | rfl | rfl <;>
    exact .token rfl (by rintro _ (rfl | ⟨rest, rfl⟩) <;> rfl)

/-! ### Expressions -/

namespace Tree

/-- The text of an expression in generated code. -/
def text : Tree → String
  | var name => "$" ++ name
  | element array key => "$" ++ array ++ "[" ++ Literal.ofText key ++ "]"
  | constant name => name
  | numeral spelling => spelling
  | quoted content => Literal.ofText content
  | call function argument => function ++ "( " ++ argument.text ++ " )"
  | parens inner => "( " ++ inner.text ++ " )"
  | binary operator left right => left.text ++ " " ++ operator ++ " " ++ right.text
  | conditional test consequent alternate =>
    test.text ++ " ? " ++ consequent.text ++ " : " ++ alternate.text

/-- Whether the names, numbers and operators of an expression are such of the server language. -/
def Spelled : Tree → Prop
  | var name | element name _ => IsName name
  | constant name => IsName name ∧ name ≠ "instanceof"
  | numeral spelling => IsNumeral spelling
  | quoted _ => True
  | call function argument => (IsName function ∧ function ≠ "instanceof") ∧ argument.Spelled
  | parens inner => inner.Spelled
  | binary operator left right =>
    (level? operator).isSome = true ∧ left.Spelled ∧ right.Spelled
  | conditional test consequent alternate =>
    test.Spelled ∧ consequent.Spelled ∧ alternate.Spelled

def decidableSpelled : (tree : Tree) → Decidable tree.Spelled
  | var name | element name _ => inferInstanceAs (Decidable (IsName name))
  | constant _ => inferInstanceAs (Decidable (_ ∧ _))
  | numeral spelling => inferInstanceAs (Decidable (IsNumeral spelling))
  | quoted _ => isTrue trivial
  | call _ argument =>
    have := argument.decidableSpelled
    inferInstanceAs (Decidable ((_ ∧ _) ∧ _))
  | parens inner => inner.decidableSpelled
  | binary _ left right =>
    have := left.decidableSpelled
    have := right.decidableSpelled
    inferInstanceAs (Decidable (_ ∧ _ ∧ _))
  | conditional test consequent alternate =>
    have := test.decidableSpelled
    have := consequent.decidableSpelled
    have := alternate.decidableSpelled
    inferInstanceAs (Decidable (_ ∧ _ ∧ _))

instance : DecidablePred Spelled := decidableSpelled

/-- The text of an expression is cut into its lexemes. -/
theorem lexes_text {tree : Tree} (spelled : tree.Spelled) : Lexes tree.text.toList tree.tokens := by
  have opening : Lexes ['('] [.sign "("] := lexes_bracket (by decide : "(" ∈ _)
  have closing : Lexes [')'] [.sign ")"] := lexes_bracket (by decide : ")" ∈ _)
  induction tree with
  | var name =>
    rw [text, String.toList_append]
    exact .token rfl fun rest spaced => token?_var spelled spaced.ends
  | element array key =>
    intro rest spaced
    have name : tokensFrom 0 ('$' :: array.toList ++ '[' :: ((Literal.ofText key).toList ++
        ']' :: rest)) = _ := tokensFrom_token rfl (token?_var spelled rfl)
    have opens (cs : List Char) : tokensFrom 0 (['['] ++ cs) =
        (tokensFrom 0 cs).map (.sign "[" :: ·) := tokensFrom_token rfl rfl
    have closes : tokensFrom 0 ([']'] ++ rest) = (tokensFrom 0 rest).map (.sign "]" :: ·) :=
      tokensFrom_token rfl rfl
    have same : (element array key).text.toList ++ rest =
        '$' :: array.toList ++ '[' :: ((Literal.ofText key).toList ++ ']' :: rest) := by
      simp [text]
    rw [same, name, ← List.singleton_append, opens, tokensFrom_ofText, ← List.singleton_append,
      closes]
    simp only [Option.map_map]
    rfl
  | constant name => exact fun rest spaced => spelled.1.tokensFrom_word spelled.2 spaced.ends
  | numeral spelling => exact IsNumeral.lexes spelled
  | quoted content => exact fun rest _ => tokensFrom_ofText content rest
  | call function argument ih =>
    have called : Lexes (function.toList ++ ['(']) [.word function, .sign "("] := by
      intro rest spaced
      rw [List.append_assoc, spelled.1.1.tokensFrom_word spelled.1.2 rfl, opening rest spaced,
        Option.map_map]
      rfl
    have whole := (called.spaced (ih spelled.2)).spaced closing
    have same : (call function argument).text.toList =
        function.toList ++ ['('] ++ ' ' :: argument.text.toList ++ ' ' :: [')'] := by
      simp [text]
    rw [same, tokens]
    simpa using whole
  | parens inner ih =>
    have whole := (opening.spaced (ih spelled)).spaced closing
    have same : (parens inner).text.toList =
        ['('] ++ ' ' :: inner.text.toList ++ ' ' :: [')'] := by
      simp [text]
    rw [same]
    exact whole
  | binary operator left right ihl ihr =>
    obtain ⟨level, hlevel⟩ := Option.isSome_iff_exists.mp spelled.1
    have whole := ((ihl spelled.2.1).spaced (lexes_operator hlevel)).spaced (ihr spelled.2.2)
    have same : (binary operator left right).text.toList =
        left.text.toList ++ ' ' :: operator.toList ++ ' ' :: right.text.toList := by
      simp [text]
    rw [same, tokens]
    simpa using whole
  | conditional test consequent alternate iht ihc iha =>
    have question : Lexes ['?'] [.sign "?"] := lexes_bracket (by decide : "?" ∈ _)
    have colon : Lexes [':'] [.sign ":"] := lexes_bracket (by decide : ":" ∈ _)
    have whole := ((((iht spelled.1).spaced question).spaced (ihc spelled.2.1)).spaced colon).spaced
      (iha spelled.2.2)
    have same : (conditional test consequent alternate).text.toList =
        test.text.toList ++ ' ' :: ['?'] ++ ' ' :: consequent.text.toList ++ ' ' :: [':'] ++
          ' ' :: alternate.text.toList := by
      simp [text]
    rw [same, tokens]
    simpa using whole

end Tree

end ServerTemplate.Server
