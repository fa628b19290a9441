import ServerTemplate.Script.Lexeme

/-!
# Numbers of server code

A number is spelled in digits, with a fraction or an exponent, or in digits of another base behind a
mark. Its digits, with single underscores between them, its exponents and its bases are those of
numbers in scripts, and `numeralLength` says how long a number is that begins here. A blank ends
it (`numeralLength_append`).
-/

namespace ServerTemplate.Server

/-- The length of the fraction of a number behind digits, zero if there is none. -/
def fractionLength (whole : Nat) : List Char → Nat
  | '.' :: rest =>
    let digits := Script.digitsLength Char.isDigit rest
    if whole = 0 ∧ digits = 0 then 0 else digits + 1
  | _ => 0

/-- The length of a decimal number, zero if there is none. -/
def decimalLength (cs : List Char) : Nat :=
  let whole := Script.digitsLength Char.isDigit cs
  let mantissa := whole + fractionLength whole (cs.drop whole)
  if mantissa = 0 then 0 else mantissa + Script.exponentLength (cs.drop mantissa)

/-- The length of a number, zero if there is none. -/
def numeralLength (cs : List Char) : Nat := max (Script.prefixedLength cs) (decimalLength cs)

/-- A text that begins with a blank, if with anything. -/
def Spaced (cs : List Char) : Prop := cs = [] ∨ ∃ rest, cs = ' ' :: rest

/-! ### Numbers in front of a blank -/

section Numbers

variable {cs rest : List Char} {p : Char → Bool}

theorem digitsRest_cons {d : Char} (hd : d ≠ '_') (cs : List Char) :
    Script.digitsRest p (d :: cs) = if p d then Script.digitsRest p cs + 1 else 0 := by
  rw [Script.digitsRest]
  exact fun _ _ h _ => hd h

/-- Digits do not go on behind a blank. -/
theorem digitsRest_append (blank : p ' ' = false) (mark : p '_' = false) (h : Spaced rest)
    (cs : List Char) : Script.digitsRest p (cs ++ rest) = Script.digitsRest p cs := by
  induction cs using Script.digitsRest.induct p with
  | case1 =>
    obtain rfl | ⟨rest, rfl⟩ := h
    · rfl
    · rw [List.nil_append, digitsRest_cons (by decide), blank]
      rfl
  | case2 d cs hd ih => simp [Script.digitsRest, hd, ih]
  | case3 d cs hd => simp [Script.digitsRest, hd]
  | case4 d cs _ hd ih =>
    have other : d ≠ '_' := fun h => by
      rw [h, mark] at hd
      cases hd
    rw [List.cons_append, digitsRest_cons other, digitsRest_cons other, ih]
  | case5 d cs single hd =>
    by_cases other : d = '_'
    · subst other
      cases cs with
      | nil => obtain rfl | ⟨rest, rfl⟩ := h <;> simp [Script.digitsRest, blank, mark]
      | cons d' cs => exact (single d' cs rfl rfl).elim
    · rw [List.cons_append, digitsRest_cons other, digitsRest_cons other, if_neg hd, if_neg hd]

theorem digitsLength_append (blank : p ' ' = false) (mark : p '_' = false) (h : Spaced rest)
    (cs : List Char) : Script.digitsLength p (cs ++ rest) = Script.digitsLength p cs := by
  cases cs with
  | nil =>
    obtain rfl | ⟨rest, rfl⟩ := h
    · rfl
    · simp [Script.digitsLength, blank]
  | cons d cs => rw [List.cons_append, Script.digitsLength, Script.digitsLength,
      digitsRest_append blank mark h]

theorem digitsRest_le (cs : List Char) : Script.digitsRest p cs ≤ cs.length := by
  induction cs using Script.digitsRest.induct p with
  | case1 => exact Nat.le_refl 0
  | case2 d cs hd ih =>
    rw [Script.digitsRest, if_pos hd]
    simp only [List.length_cons]
    omega
  | case3 d cs hd =>
    rw [Script.digitsRest, if_neg hd]
    exact Nat.zero_le _
  | case4 d cs single hd ih =>
    rw [Script.digitsRest, if_pos hd]
    · exact Nat.succ_le_succ ih
    · exact single
  | case5 d cs single hd =>
    rw [Script.digitsRest, if_neg hd]
    · exact Nat.zero_le _
    · exact single

theorem digitsLength_le (cs : List Char) : Script.digitsLength p cs ≤ cs.length := by
  cases cs with
  | nil => exact Nat.le_refl 0
  | cons d cs =>
    rw [Script.digitsLength]
    split
    · exact Nat.succ_le_succ (digitsRest_le cs)
    · exact Nat.zero_le _

theorem fractionLength_append (h : Spaced rest) (whole : Nat) (cs : List Char) :
    fractionLength whole (cs ++ rest) = fractionLength whole cs := by
  cases cs with
  | nil => obtain rfl | ⟨rest, rfl⟩ := h <;> rfl
  | cons c cs =>
    by_cases dot : c = '.'
    · subst dot
      rw [List.cons_append, fractionLength, fractionLength, digitsLength_append rfl rfl h]
    · rw [List.cons_append, fractionLength, fractionLength] <;> exact fun _ h => dot (by simp_all)

theorem fractionLength_le (whole : Nat) (cs : List Char) :
    fractionLength whole cs ≤ cs.length := by
  unfold fractionLength
  split
  · dsimp only
    split
    · exact Nat.zero_le _
    · exact Nat.succ_le_succ (digitsLength_le _)
  · exact Nat.zero_le _

/-- An exponent is a sign, of which there is one at most, and digits behind it. -/
theorem exponentLength_cons (e c : Char) : ∃ sign ≤ 1, ∀ cs, Script.exponentLength (e :: c :: cs) =
    if e == 'e' || e == 'E' then
      if Script.digitsLength Char.isDigit ((c :: cs).drop sign) = 0 then 0
      else 1 + sign + Script.digitsLength Char.isDigit ((c :: cs).drop sign)
    else 0 := by
  by_cases plus : c = '+'
  · exact ⟨1, Nat.le_refl 1, fun cs => by subst plus; rfl⟩
  by_cases minus : c = '-'
  · exact ⟨1, Nat.le_refl 1, fun cs => by subst minus; rfl⟩
  · refine ⟨0, Nat.zero_le 1, fun cs => ?_⟩
    rw [Script.exponentLength]
    · exact fun _ h => plus (List.cons.inj h).1
    · exact fun _ h => minus (List.cons.inj h).1

theorem exponentLength_append (h : Spaced rest) (cs : List Char) :
    Script.exponentLength (cs ++ rest) = Script.exponentLength cs := by
  match cs with
  | [] => obtain rfl | ⟨rest, rfl⟩ := h <;> rfl
  | [e] => obtain rfl | ⟨rest, rfl⟩ := h <;> simp [Script.exponentLength, Script.digitsLength]
  | e :: c :: cs =>
    obtain ⟨sign, one, exponent⟩ := exponentLength_cons e c
    have short : sign ≤ (c :: cs).length := Nat.le_trans one (by simp)
    have drop : (c :: (cs ++ rest)).drop sign = (c :: cs).drop sign ++ rest :=
      List.drop_append_of_le_length short
    rw [List.cons_append, List.cons_append, exponent, exponent, drop,
      digitsLength_append rfl rfl h]

theorem prefixedLength_append (h : Spaced rest) (cs : List Char) :
    Script.prefixedLength (cs ++ rest) = Script.prefixedLength cs := by
  have other {c : Char} (hc : c ≠ '0') (cs : List Char) : Script.prefixedLength (c :: cs) = 0 := by
    rw [Script.prefixedLength]
    exact fun _ _ h => hc (by simp_all)
  match cs with
  | [] => obtain rfl | ⟨rest, rfl⟩ := h <;> rfl
  | [c] =>
    by_cases hc : c = '0'
    · subst hc
      obtain rfl | ⟨rest, rfl⟩ := h <;> rfl
    · rw [List.singleton_append, other hc, other hc]
  | c :: x :: cs =>
    by_cases hc : c = '0'
    · subst hc
      rw [List.cons_append, List.cons_append, Script.prefixedLength, Script.prefixedLength,
        digitsLength_append rfl rfl h, digitsLength_append rfl rfl h, digitsLength_append rfl rfl h]
    · rw [List.cons_append, other hc, other hc]

/-- A number does not go on behind a blank. -/
theorem numeralLength_append (h : Spaced rest) (cs : List Char) :
    numeralLength (cs ++ rest) = numeralLength cs := by
  have decimal : decimalLength (cs ++ rest) = decimalLength cs := by
    have whole_le : Script.digitsLength Char.isDigit cs ≤ cs.length := digitsLength_le cs
    rw [decimalLength, decimalLength, digitsLength_append rfl rfl h]
    generalize Script.digitsLength Char.isDigit cs = whole at whole_le
    have fraction_le := fractionLength_le whole (cs.drop whole)
    rw [List.length_drop] at fraction_le
    rw [List.drop_append_of_le_length whole_le, fractionLength_append h]
    generalize fractionLength whole (cs.drop whole) = fraction at fraction_le
    rw [List.drop_append_of_le_length (by omega), exponentLength_append h]
  rw [numeralLength, numeralLength, prefixedLength_append h, decimal]

/-- A number begins with a digit or a point. -/
theorem numeralLength_eq_zero {c : Char} (digit : c.isDigit = false) (point : c ≠ '.')
    (cs : List Char) : numeralLength (c :: cs) = 0 := by
  have zero : c ≠ '0' := by
    rintro rfl
    cases digit
  have based : Script.prefixedLength (c :: cs) = 0 := by
    rw [Script.prefixedLength]
    exact fun _ _ h => zero (List.cons.inj h).1
  have whole : Script.digitsLength Char.isDigit (c :: cs) = 0 := by
    rw [Script.digitsLength, digit]
    rfl
  have fraction : fractionLength 0 (c :: cs) = 0 := by
    rw [fractionLength]
    exact fun _ h => point (List.cons.inj h).1
  rw [numeralLength, based, decimalLength, whole, List.drop_zero, fraction]
  rfl

end Numbers

/-- A number as it is spelled in code. -/
structure IsNumeral (spelling : String) : Prop where
  nonempty : spelling ≠ ""
  whole : numeralLength spelling.toList = spelling.toList.length

instance (spelling : String) : Decidable (IsNumeral spelling) :=
  decidable_of_iff (_ ∧ _) ⟨fun h => ⟨h.1, h.2⟩, fun h => ⟨h.nonempty, h.whole⟩⟩

end ServerTemplate.Server
