import ServerTemplate.Proofs.Emission.Step
import ServerTemplate.Proofs.Script.NumberLiteral
import ServerTemplate.Template.FromScript

/-!
# Values of number tokens

The underscores of a token are dropped before it is read as a decimal, and each of them stands
between two digits. So every token has a number as its value, except those of big integers, whose
mark neither of the readers of numbers knows. A number is written in code as it is spelled, and a
big integer as a text (`IsNumber.code_numberValue`).
-/

namespace ServerTemplate

open Script Binary64

/-! ### Underscores -/

section Grouping

variable {before last c : Char} {cs left ds : List Char}

/-- Whether all characters are decimal digits. -/
def ArePlainDigits (ds : List Char) : Prop := ∀ d ∈ ds, d.isDigit = true

/-- Characters behind others are left as they are but for their underscores, and `last` is the
character that is left in front of what follows. -/
def Ungroups (before : Char) (cs : List Char) (last : Char) (left : List Char) : Prop :=
  last ≠ '_' ∧ ∀ rest, dropGrouping? before (cs ++ rest) = (dropGrouping? last rest).map (left ++ ·)

theorem Ungroups.nil (first : before ≠ '_') : Ungroups before [] before [] :=
  ⟨first, fun rest => by simp⟩

theorem Ungroups.cons {tail : List Char} (other : c ≠ '_') (first : before ≠ '_')
    (h : Ungroups c tail last left) : Ungroups before (c :: tail) last (c :: left) := by
  refine ⟨h.1, fun rest => ?_⟩
  rw [List.cons_append, dropGrouping?_cons other first, h.2, Option.map_map]
  rfl

theorem Ungroups.append {middle : Char} {tail more : List Char}
    (h : Ungroups before cs middle left) (ht : Ungroups middle tail last more) :
    Ungroups before (cs ++ tail) last (left ++ more) := by
  refine ⟨ht.1, fun rest => ?_⟩
  rw [List.append_assoc, h.2, ht.2, Option.map_map]
  simp [Function.comp_def]

theorem Ungroups.dropGrouping?_eq (h : Ungroups before cs last left) :
    dropGrouping? before cs = some left := by
  have all := h.2 []
  rw [List.append_nil, dropGrouping?_eq_some h.1 (List.not_mem_nil)] at all
  simpa using all

theorem Ungroups.cons_digit {tail : List Char} (digit : c.isDigit = true)
    (h : Ungroups c tail last left) : Ungroups before (c :: tail) last (c :: left) := by
  have other : c ≠ '_' := ne_of_isDigit digit rfl
  refine ⟨h.1, fun rest => ?_⟩
  have first : dropGrouping? before (c :: (tail ++ rest)) =
      (dropGrouping? c (tail ++ rest)).map (c :: ·) := by
    simp [dropGrouping?, other, digit]
  rw [List.cons_append, first, h.2, Option.map_map]
  rfl

theorem Ungroups.cons_underscore {tail : List Char} (digit : before.isDigit = true)
    (h : Ungroups '_' tail last left) : Ungroups before ('_' :: tail) last left := by
  refine ⟨h.1, fun rest => ?_⟩
  rw [← h.2, List.cons_append]
  simp [dropGrouping?, digit]

/-- Of digits with underscores the digits are left. -/
theorem Script.IsDigits.exists_ungroups (h : IsDigits Char.isDigit ds) :
    ∃ last left, left ≠ [] ∧ ArePlainDigits left ∧ ∀ before, Ungroups before ds last left := by
  induction h with
  | @single d hd =>
    exact ⟨d, [d], nofun, List.forall_mem_singleton.mpr hd,
      fun _ => .cons_digit hd (.nil (ne_of_isDigit hd rfl))⟩
  | @cons d ds hd _ ih =>
    obtain ⟨last, left, -, plain, ungroups⟩ := ih
    exact ⟨last, d :: left, nofun, List.forall_mem_cons.mpr ⟨hd, plain⟩,
      fun _ => .cons_digit hd (ungroups d)⟩
  | @grouped d ds hd _ ih =>
    obtain ⟨last, left, -, plain, ungroups⟩ := ih
    exact ⟨last, d :: left, nofun, List.forall_mem_cons.mpr ⟨hd, plain⟩,
      fun _ => .cons_digit hd (.cons_underscore hd (ungroups '_'))⟩

/-- Of digits that may be missing the digits are left. -/
theorem exists_ungroups_digits (h : OrEmpty (IsDigits Char.isDigit) ds) (first : before ≠ '_') :
    ∃ last left, (ds ≠ [] → left ≠ []) ∧ ArePlainDigits left ∧ Ungroups before ds last left := by
  obtain rfl | h := h
  · exact ⟨before, [], fun some => absurd rfl some, List.forall_mem_nil _, .nil first⟩
  · obtain ⟨last, left, nonempty, plain, ungroups⟩ := h.exists_ungroups
    exact ⟨last, left, fun _ => nonempty, plain, ungroups before⟩

/-- An exponent without underscores, or nothing. -/
inductive IsPlainPower : List Char → Prop
  | none : IsPlainPower []
  | some {e : Char} {sign ds : List Char} : IsExponentMark e → IsSign sign → ds ≠ [] →
      ArePlainDigits ds → IsPlainPower (e :: (sign ++ ds))

theorem exists_ungroups_power {power : List Char} (h : OrEmpty IsExponent power)
    (first : before ≠ '_') : ∃ last left, IsPlainPower left ∧ Ungroups before power last left := by
  obtain rfl | h := h
  · exact ⟨before, [], .none, .nil first⟩
  · obtain @⟨e, sign, ds, he, hsign, digits⟩ := h
    obtain ⟨last, left, nonempty, plain, ungroups⟩ := digits.exists_ungroups
    have mark : e ≠ '_' := by
      rintro rfl
      cases he
    have signed : ∃ last, Ungroups e sign last sign := by
      cases hsign with
      | none => exact ⟨e, .nil mark⟩
      | plus => exact ⟨'+', .cons (by decide) mark (.nil (by decide))⟩
      | minus => exact ⟨'-', .cons (by decide) mark (.nil (by decide))⟩
    obtain ⟨_, signed⟩ := signed
    exact ⟨last, _, .some he hsign nonempty plain, .cons mark first (signed.append (ungroups _))⟩

end Grouping

/-! ### Decimals -/

section Decimals

variable {whole fraction power cs : List Char} {c : Char} {negative : Bool}

theorem ArePlainDigits.span (h : ArePlainDigits whole) (rest : List Char)
    (ends : ∀ c ∈ rest.head?, c.isDigit = false) :
    (whole ++ rest).takeWhile Char.isDigit = whole ∧
      (whole ++ rest).dropWhile Char.isDigit = rest := by
  have stops : rest.takeWhile Char.isDigit = [] ∧ rest.dropWhile Char.isDigit = rest := by
    cases rest with
    | nil => exact ⟨rfl, rfl⟩
    | cons c rest => simp [ends c rfl]
  rw [List.takeWhile_append_of_pos h, List.dropWhile_append_of_pos h, stops.1, stops.2,
    List.append_nil]
  exact ⟨rfl, rfl⟩

theorem IsPlainPower.noDigit (h : IsPlainPower power) : ∀ c ∈ power.head?, c.isDigit = false := by
  cases h with
  | none => exact nofun
  | @some e _ _ he _ _ _ =>
    have noDigit : e.isDigit = false := by cases he <;> rfl
    exact fun c hc => Option.some.inj hc ▸ noDigit

theorem splitSign_append {sign : List Char} (hsign : IsSign sign) (h : ArePlainDigits whole) :
    (splitSign (sign ++ whole)).2 = whole := by
  cases hsign with
  | none => rw [List.nil_append, splitSign_digits h]
  | plus | minus => rfl

theorem IsPlainPower.cons (h : IsPlainPower (c :: cs)) :
    (c.toLower == 'e' && !(splitSign cs).2.isEmpty && (splitSign cs).2.all Char.isDigit) = true ∧
      c ≠ '.' := by
  generalize eq : c :: cs = power at h
  cases h with
  | none => cases eq
  | @some e sign ds he hsign nonempty plain =>
    obtain ⟨rfl, rfl⟩ := List.cons.inj eq
    have mark : (c.toLower == 'e') = true ∧ c ≠ '.' := by cases he <;> decide
    refine ⟨?_, mark.2⟩
    rw [splitSign_append hsign plain, mark.1, List.all_eq_true.mpr plain]
    simpa using nonempty

/-- A decimal with a point is read. -/
theorem isSome_ofUnsigned?_pointed (hwhole : ArePlainDigits whole)
    (hfraction : ArePlainDigits fraction) (nonempty : whole ≠ [] ∨ fraction ≠ [])
    (hpower : IsPlainPower power) :
    (ofUnsigned? negative (whole ++ '.' :: (fraction ++ power))).isSome = true := by
  have front := hwhole.span ('.' :: (fraction ++ power)) fun c hc => by
    obtain rfl : '.' = c := Option.some.inj hc
    rfl
  have back := hfraction.span power hpower.noDigit
  have digits : ¬(whole.isEmpty && fraction.isEmpty) = true := by
    simpa using not_and_or.mpr nonempty
  simp only [ofUnsigned?, front, back]
  rw [if_neg digits]
  cases power with
  | nil => rfl
  | cons c cs =>
    dsimp only
    rw [if_pos hpower.cons.1]
    rfl

/-- A decimal without a point is read. -/
theorem isSome_ofUnsigned?_scaled (hwhole : ArePlainDigits whole) (nonempty : whole ≠ [])
    (hpower : IsPlainPower power) : (ofUnsigned? negative (whole ++ power)).isSome = true := by
  have front := hwhole.span power hpower.noDigit
  cases power with
  | nil =>
    rw [List.append_nil, ofUnsigned?_digits nonempty hwhole]
    rfl
  | cons c cs =>
    obtain ⟨follows, noPoint⟩ := hpower.cons
    simp only [ofUnsigned?, front]
    split
    · next eq => exact absurd (List.cons.inj eq).1 noPoint
    · rw [if_neg (by simpa using nonempty)]
      dsimp only
      rw [if_pos follows]
      rfl

end Decimals

/-! ### Characters -/

section Characters

variable {cs ds power : List Char} {big : Bool}

/-- Digits and underscores are characters of numbers. -/
theorem Script.IsDigits.mem_numberChars {p : Char → Bool} (h : IsDigits p ds)
    (digits : ∀ c, p c = true → c ∈ hexDigitChars) : ∀ c ∈ ds, c ∈ numberChars := by
  have all : hexDigitChars.all (fun c => numberChars.contains c) = true := by decide
  intro c hc
  obtain digit | rfl := h.forall_mem c hc
  · simpa using List.all_eq_true.mp all c (digits c digit)
  · decide

theorem Script.IsInteger.mem_numberChars (h : IsInteger cs) : ∀ c ∈ cs, c ∈ numberChars := by
  cases h with
  | decimal h => exact h.mem_numberChars fun _ => mem_hexDigitChars_of_isDigit
  | @based base upper ds h =>
    have mark : base.mark upper ∈ numberChars := by cases base <;> cases upper <;> decide
    have digits := h.mem_numberChars fun _ => base.mem_of_isDigit
    exact List.forall_mem_cons.mpr ⟨by decide, List.forall_mem_cons.mpr ⟨mark, digits⟩⟩

theorem Script.IsExponent.mem_numberChars (h : IsExponent power) :
    ∀ c ∈ power, c ∈ numberChars := by
  obtain @⟨e, sign, ds, he, hsign, h⟩ := h
  have mark : e ∈ numberChars := by cases he <;> decide
  have signs : ∀ c ∈ sign, c ∈ numberChars := by
    cases hsign with
    | none => exact List.forall_mem_nil _
    | plus | minus => exact List.forall_mem_singleton.mpr (by decide)
  have digits := h.mem_numberChars fun _ => mem_hexDigitChars_of_isDigit
  exact List.forall_mem_cons.mpr ⟨mark, List.forall_mem_append.mpr ⟨signs, digits⟩⟩

theorem Script.IsDecimal.mem_numberChars (h : IsDecimal cs) : ∀ c ∈ cs, c ∈ numberChars := by
  have digits {ds : List Char} (h : OrEmpty (IsDigits Char.isDigit) ds) :
      ∀ c ∈ ds, c ∈ numberChars := by
    obtain rfl | h := h
    · exact List.forall_mem_nil _
    · exact h.mem_numberChars fun _ => mem_hexDigitChars_of_isDigit
  cases h with
  | @pointed whole fraction power hwhole hfraction _ hpower =>
    have power : ∀ c ∈ power, c ∈ numberChars := by
      obtain rfl | h := hpower
      · exact List.forall_mem_nil _
      · exact h.mem_numberChars
    refine List.forall_mem_append.mpr ⟨digits hwhole, ?_⟩
    refine List.forall_mem_cons.mpr ⟨by decide, ?_⟩
    exact List.forall_mem_append.mpr ⟨digits hfraction, power⟩
  | scaled hwhole hpower =>
    exact List.forall_mem_append.mpr ⟨digits (.inr hwhole), hpower.mem_numberChars⟩

/-- A token of a number has no other characters. -/
theorem Script.IsNumber.mem_numberChars (h : IsNumber big cs) : ∀ c ∈ cs, c ∈ numberChars := by
  cases h with
  | integer h => exact h.mem_numberChars
  | decimal h => exact h.mem_numberChars
  | big h =>
    exact List.forall_mem_append.mpr ⟨h.mem_numberChars, List.forall_mem_singleton.mpr (by decide)⟩

theorem Script.IsInteger.exists_digit (h : IsInteger cs) : ∃ c ∈ cs, c.isDigit = true := by
  cases h with
  | decimal h =>
    obtain ⟨d, tail, rfl, hd⟩ := h.exists_cons
    exact ⟨d, .head _, hd⟩
  | based _ => exact ⟨'0', .head _, rfl⟩

theorem Script.IsDecimal.exists_digit (h : IsDecimal cs) : ∃ c ∈ cs, c.isDigit = true := by
  cases h with
  | pointed hwhole hfraction nonempty _ =>
    obtain some | some := nonempty
    · obtain ⟨d, tail, rfl, hd⟩ := (hwhole.resolve_left some).exists_cons
      exact ⟨d, .head _, hd⟩
    · obtain ⟨d, tail, rfl, hd⟩ := (hfraction.resolve_left some).exists_cons
      exact ⟨d, List.mem_append_right _ (.tail _ (.head _)), hd⟩
  | scaled hwhole _ =>
    obtain ⟨d, tail, rfl, hd⟩ := hwhole.exists_cons
    exact ⟨d, .head _, hd⟩

end Characters

/-! ### Values -/

section Values

variable {cs ds : List Char} {big : Bool}

/-- Digits of a base are read in that base. -/
theorem Script.IsDigits.isSome_groupedDigits? {p : Char → Bool} {radix : Nat} (h : IsDigits p ds)
    (digits : ∀ c, p c = true → ∃ d, Text.hexDigit? c = some d ∧ d < radix) :
    (groupedDigits? radix ds).isSome = true := by
  have digit {c : Char} (hc : p c = true) (afterDigit : Bool) (rest : List Char) :
      groupedDigits?.go radix afterDigit (c :: rest) =
        (groupedDigits?.go radix true rest).map ((Text.hexDigit? c).getD 0 :: ·) := by
    obtain ⟨d, hd, lt⟩ := digits c hc
    have other : c ≠ '_' := by
      rintro rfl
      cases hd
    rw [groupedDigits?.go, hd]
    · simp [lt]
    · exact other
  have all : ∀ afterDigit, (groupedDigits?.go radix afterDigit ds).isSome = true := by
    induction h with
    | single hd =>
      intro afterDigit
      rw [digit hd]
      rfl
    | cons hd _ ih =>
      intro afterDigit
      rw [digit hd, Option.isSome_map]
      exact ih true
    | grouped hd _ ih =>
      intro afterDigit
      rw [digit hd, Option.isSome_map]
      exact ih false
  exact all false

/-- No digits of a base have a character in them that is neither digit nor underscore. -/
theorem groupedDigits?_eq_none {radix : Nat} {c : Char} (hc : c ∈ cs)
    (noDigit : Text.hexDigit? c = none) (other : c ≠ '_') : groupedDigits? radix cs = none := by
  have all : ∀ afterDigit, groupedDigits?.go radix afterDigit cs = none := by
    induction cs with
    | nil => cases hc
    | cons d cs ih =>
      intro afterDigit
      unfold groupedDigits?.go
      split
      · next eq => cases eq
      · next rest eq =>
        obtain ⟨rfl, rfl⟩ := List.cons.inj eq
        have behind := (List.mem_cons.mp hc).resolve_left other
        rw [ih behind, ite_self]
      · next d' rest _ eq =>
        obtain ⟨rfl, rfl⟩ := List.cons.inj eq
        obtain rfl | behind := List.mem_cons.mp hc
        · rw [noDigit]
        · rw [ih behind]
          split
          · exact ite_self _
          · rfl
  exact all false

/-- The value of a base. -/
def Script.Base.radix : Base → Nat
  | .hexadecimal => 16
  | .octal => 8
  | .binary => 2

theorem Script.Base.exists_hexDigit? {base : Base} {c : Char} (h : base.isDigit c = true) :
    ∃ d, Text.hexDigit? c = some d ∧ d < base.radix := by
  have values : hexDigitChars.all (fun c => (Text.hexDigit? c).any fun d =>
      d < 16 && (!isOctalDigit c || d < 8) && (!isBinaryDigit c || d < 2)) = true := by decide
  have value := List.all_eq_true.mp values c (base.mem_of_isDigit h)
  cases hd : Text.hexDigit? c with
  | none =>
    rw [hd] at value
    cases value
  | some d =>
    refine ⟨d, rfl, ?_⟩
    rw [hd] at value
    cases base <;> simp_all [Script.Base.isDigit, Script.Base.radix]

/-- An integer of another base is read. -/
theorem isSome_integerToken?_based {base : Base} {upper : Bool} (h : IsDigits base.isDigit ds) :
    (integerToken? ('0' :: base.mark upper :: ds)).isSome = true := by
  have token : integerToken? ('0' :: base.mark upper :: ds) =
      (groupedDigits? base.radix ds).map (Text.valueOf base.radix) := by
    cases base <;> cases upper <;> rfl
  rw [token, Option.isSome_map]
  exact h.isSome_groupedDigits? fun _ => base.exists_hexDigit?

/-- No integer is read that has the mark of big ones in it. -/
theorem integerToken?_eq_none (h : 'n' ∈ cs) : integerToken? cs = none := by
  have none {cs : List Char} (h : 'n' ∈ cs) (radix : Nat) : groupedDigits? radix cs = none :=
    groupedDigits?_eq_none h rfl (by decide)
  unfold integerToken?
  dsimp only
  split
  -- behind the two characters of a base, the mark is still to come
  case h_7 => rw [none h]
  all_goals rw [none (by simpa using h), Option.map_none]

/-- No decimal is read that has the mark of big integers in it. -/
theorem ofUnsigned?_eq_none {negative : Bool} (h : 'n' ∈ cs) : ofUnsigned? negative cs = none := by
  have behind {cs : List Char} (h : 'n' ∈ cs) : 'n' ∈ cs.dropWhile Char.isDigit := by
    rw [← List.takeWhile_append_dropWhile (p := Char.isDigit) (l := cs)] at h
    refine (List.mem_append.mp h).resolve_left fun mem => ?_
    have digit := List.mem_takeWhile_imp mem
    cases digit
  have noPower {e : Char} {rest : List Char} (h : 'n' ∈ e :: rest) : ¬(e.toLower == 'e' &&
      !(splitSign rest).2.isEmpty && (splitSign rest).2.all Char.isDigit) = true := by
    intro power
    obtain ⟨⟨mark, -⟩, digits⟩ := by simpa only [Bool.and_eq_true] using power
    obtain rfl | h := List.mem_cons.mp h
    · cases mark
    · have digit := List.all_eq_true.mp digits 'n' (mem_of_splitSign h (by decide) (by decide))
      cases digit
  have after := behind h
  unfold ofUnsigned?
  dsimp only
  generalize cs.dropWhile Char.isDigit = afterWhole at after
  split
  · next rest =>
    have left := behind ((List.mem_cons.mp after).resolve_left (by decide))
    obtain ⟨e, power, eq⟩ := List.exists_cons_of_ne_nil (List.ne_nil_of_mem left)
    rw [eq] at left ⊢
    dsimp only
    rw [if_neg (noPower left), ite_self]
  · obtain ⟨e, power, rfl⟩ := List.exists_cons_of_ne_nil (List.ne_nil_of_mem after)
    dsimp only
    rw [if_neg (noPower after), ite_self]

/-- Digits are read as a decimal. -/
theorem Script.IsDigits.isSome_ofText? (h : IsDigits Char.isDigit ds) :
    (ofText? (.ofList ds)).isSome = true := by
  obtain ⟨c, hc, digit⟩ := (IsInteger.decimal h).exists_digit
  obtain ⟨_, left, nonempty, plain, ungroups⟩ := h.exists_ungroups
  rw [ofText?_ofList (IsInteger.decimal h).mem_numberChars hc digit,
    (ungroups ' ').dropGrouping?_eq, Option.bind_some, splitSign_digits plain,
    ofUnsigned?_digits nonempty plain]
  rfl

/-- A decimal is read. -/
theorem Script.IsDecimal.isSome_ofText? (h : IsDecimal cs) :
    (ofText? (.ofList cs)).isSome = true := by
  obtain ⟨c, hc, digit⟩ := h.exists_digit
  rw [ofText?_ofList h.mem_numberChars hc digit]
  cases h with
  | @pointed whole fraction power hwhole hfraction nonempty hpower =>
    have noBlank : ' ' ≠ '_' := by decide
    have noPoint : '.' ≠ '_' := by decide
    obtain ⟨_, whole', wholeKept, plainWhole, ungroupsWhole⟩ :=
      exists_ungroups_digits hwhole noBlank
    obtain ⟨_, fraction', fractionKept, plainFraction, ungroupsFraction⟩ :=
      exists_ungroups_digits hfraction noPoint
    obtain ⟨_, power', plainPower, ungroupsPower⟩ :=
      exists_ungroups_power hpower ungroupsFraction.1
    have ungroups := ungroupsWhole.append
      (.cons noPoint ungroupsWhole.1 (ungroupsFraction.append ungroupsPower))
    have unsigned : splitSign (whole' ++ '.' :: (fraction' ++ power')) =
        (false, whole' ++ '.' :: (fraction' ++ power')) := by
      cases whole' with
      | nil => exact splitSign_cons_digit (.inr rfl)
      | cons d _ => exact splitSign_cons_digit (.inl (plainWhole d (.head _)))
    rw [ungroups.dropGrouping?_eq, Option.bind_some, unsigned]
    exact isSome_ofUnsigned?_pointed plainWhole plainFraction
      (nonempty.imp wholeKept fractionKept) plainPower
  | @scaled whole power hwhole hpower =>
    obtain ⟨_, whole', nonempty, plainWhole, ungroupsWhole⟩ := hwhole.exists_ungroups
    obtain ⟨_, power', plainPower, ungroupsPower⟩ :=
      exists_ungroups_power (.inr hpower) (ungroupsWhole ' ').1
    have ungroups := (ungroupsWhole ' ').append ungroupsPower
    have unsigned : splitSign (whole' ++ power') = (false, whole' ++ power') := by
      obtain ⟨d, tail, rfl⟩ := List.exists_cons_of_ne_nil nonempty
      exact splitSign_cons_digit (.inl (plainWhole d (.head _)))
    rw [ungroups.dropGrouping?_eq, Option.bind_some, unsigned]
    exact isSome_ofUnsigned?_scaled plainWhole nonempty plainPower

theorem Script.IsInteger.ofText?_big (h : IsInteger cs) :
    ofText? (.ofList (cs ++ ['n'])) = none := by
  obtain ⟨c, hc, digit⟩ := h.exists_digit
  rw [ofText?_ofList (IsNumber.big h).mem_numberChars (List.mem_append_left _ hc) digit,
    Option.bind_eq_none_iff]
  intro left hleft
  have mark := mem_of_dropGrouping? hleft (List.mem_append_right _ (.head _)) (by decide)
  exact ofUnsigned?_eq_none (mem_of_splitSign mark (by decide) (by decide))

theorem Script.IsInteger.numberValue_big (h : IsInteger cs) :
    numberValue (.ofList (cs ++ ['n'])) = .text (.ofList (cs ++ ['n'])) := by
  have noInteger : integerToken? (cs ++ ['n']) = none :=
    integerToken?_eq_none (List.mem_append_right _ (.head _))
  rw [numberValue, String.toList_ofList, noInteger, h.ofText?_big]

/-- A number is written in code as it is spelled. -/
theorem code_numberValue_of_isSome (nonempty : cs ≠ [])
    (h : (integerToken? cs).isSome = true ∨ (ofText? (.ofList cs)).isSome = true) :
    (numberValue (.ofList cs)).code (.ofList cs) = .ofList cs := by
  have spelled : String.ofList cs ≠ "" := by simpa using nonempty
  rw [numberValue, String.toList_ofList]
  cases integer : integerToken? cs with
  | some n => exact if_neg spelled
  | none =>
    obtain ⟨x, number⟩ := Option.isSome_iff_exists.mp (h.resolve_left (by simp [integer]))
    rw [number]
    exact if_neg spelled

/-- A number is written in code as it is spelled, and a big integer as a text. -/
theorem Script.IsNumber.code_numberValue (h : IsNumber big cs) :
    (numberValue (.ofList cs)).code (.ofList cs) =
      if big then Literal.ofText (.ofList cs) else .ofList cs := by
  cases h with
  | integer h =>
    refine code_numberValue_of_isSome h.ne_nil ?_
    cases h with
    | decimal digits => exact .inr digits.isSome_ofText?
    | based digits => exact .inl (isSome_integerToken?_based digits)
  | decimal h =>
    obtain ⟨c, hc, -⟩ := h.exists_digit
    exact code_numberValue_of_isSome (List.ne_nil_of_mem hc) (.inr h.isSome_ofText?)
  | big h =>
    rw [h.numberValue_big]
    rfl

end Values

end ServerTemplate
