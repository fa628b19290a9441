import ServerTemplate.Output.Literal
import ServerTemplate.Proofs.Number.Nearest
import ServerTemplate.Proofs.Number.Reading

/-!
# Literals of integers

An integer is written as the nearest integer of 53 binary digits (`Literal.ofInt_eq`). So its
literal is its own text exactly for those integers that a finite floating-point number is equal to
(`Literal.ofInt_eq_ok_iff`), and from `2 ^ 1024 - 2 ^ 970` on it has none
(`Literal.ofInt_eq_error_iff`). The decimal text of an integer is written like the integer itself
(`Literal.asNumber_decimal_iff`), except that there is always a literal: zero for a text that is too
large.
-/

namespace ServerTemplate

open Binary64 (signed nearest Exact)

/-! ### Integers and their texts -/

/-- A natural number is the value of its digits. -/
theorem decimalValue_toDigits (n : Nat) : decimalValue (Nat.toDigits 10 n) = n := by
  have value (cs : List Char) : decimalValue cs = Nat.ofDigitChars 10 cs 0 := by
    rw [decimalValue, Text.valueOf, List.foldl_map, Nat.ofDigitChars_eq_foldl]
    exact congrArg (cs.foldl · 0) (funext fun n => funext fun c => by rw [Nat.mul_comm]; rfl)
  rw [value, Nat.ofDigitChars_ten_toDigits]

theorem isDigit_of_mem_toDigits {n : Nat} {c : Char} (h : c ∈ Nat.toDigits 10 n) :
    c.isDigit = true :=
  Nat.isDigit_of_mem_toDigits (by decide) (by decide) h

/-- An integer is what its sign and its digits say. -/
theorem signed_splitSign (n : Int) :
    signed (splitSign (toString n).toList).1 (decimalValue (splitSign (toString n).toList).2) =
      n := by
  cases n with
  | ofNat n =>
    have digits : (toString (Int.ofNat n)).toList = Nat.toDigits 10 n := Nat.toList_repr
    rw [digits, splitSign_digits fun _ => isDigit_of_mem_toDigits]
    exact congrArg Int.ofNat (decimalValue_toDigits n)
  | negSucc n =>
    have digits : (toString (Int.negSucc n)).toList = '-' :: Nat.toDigits 10 (n + 1) := by
      exact (String.toList_append ..).trans (congrArg _ Nat.toList_repr)
    rw [digits, splitSign, decimalValue_toDigits]
    rfl

/-- Integers have different texts. -/
theorem toString_int_inj {m n : Int} : toString m = toString n ↔ m = n := by
  refine ⟨fun h => ?_, congrArg _⟩
  rw [← signed_splitSign m, ← signed_splitSign n, h]

theorem natAbs_signed (negative : Bool) (n : Nat) : (signed negative n).natAbs = n := by
  cases negative <;> simp [signed]

theorem signed_natAbs (n : Int) : signed (n < 0) n.natAbs = n := by
  unfold signed
  by_cases negative : n < 0
  · rw [if_pos (decide_eq_true negative)]
    omega
  · rw [if_neg (by simpa using negative)]
    omega

theorem signed_inj {negative : Bool} {m n : Nat} :
    signed negative m = signed negative n ↔ m = n := by
  refine ⟨fun h => ?_, congrArg _⟩
  rw [← natAbs_signed negative m, h, natAbs_signed]

namespace Literal

/-! ### Numbers without a fraction -/

/-- The integer that is written for one. -/
def rounded (n : Int) : Int := signed (n < 0) (nearest n.natAbs)

theorem ofNumber_of_toInt? {x : Binary64} {n : Int} (h : x.toInt? = some n) :
    ofNumber x = toString n := by
  cases x with
  | nan | infinite => cases h
  | finite negative significand exponent => rw [ofNumber, h]

theorem ofInt_eq (n : Int) : ofInt n =
    if nearest n.natAbs < 2 ^ 1024 then .ok (toString (rounded n))
    else .error .integerOutOfRange := by
  split
  · next finite =>
    have exact := Binary64.toInt?_ofRatio finite (decide (n < 0))
    rw [ofInt, Binary64.ofInt?]
    cases hx : Binary64.ofRatio (decide (n < 0)) n.natAbs 1 with
    | nan | infinite =>
      rw [hx] at exact
      cases exact
    | finite negative significand exponent =>
      rw [hx] at exact
      exact congrArg Except.ok (ofNumber_of_toInt? exact)
  · next large =>
    rw [ofInt, Binary64.ofInt?, Binary64.ofRatio_eq_infinite large]

theorem rounded_eq_iff {n : Int} : rounded n = n ↔ nearest n.natAbs = n.natAbs := by
  rw [← signed_inj, ← rounded, signed_natAbs]

/-- An integer that a finite number is equal to is written as it is, and no other. -/
theorem ofInt_eq_ok_iff {n : Int} : ofInt n = .ok (toString n) ↔ Exact n.natAbs := by
  rw [ofInt_eq, Binary64.exact_iff, ← rounded_eq_iff]
  split
  · next finite => rw [Except.ok.injEq, toString_int_inj, and_iff_left finite]
  · next large => exact iff_of_false nofun fun h => large h.2

/-- An integer has no literal if it is half a unit of the last place below `2 ^ 1024` or beyond. -/
theorem ofInt_eq_error_iff {n : Int} :
    ofInt n = .error .integerOutOfRange ↔ 2 ^ 1024 - 2 ^ 970 ≤ n.natAbs := by
  rw [ofInt_eq, ← @Binary64.pow_le_nearest_iff _ 970 1024 rfl, ← Nat.not_lt]
  split
  · next finite => exact iff_of_false nofun fun large => large finite
  · next large => exact iff_of_true rfl large

/-! ### Decimal texts -/

/-- A decimal integer as it is spelled: a sign or none, and digits. -/
structure DecimalInteger where
  sign : Option Bool
  digits : List Char
  nonempty : digits ≠ []
  decimal : ∀ c ∈ digits, c.isDigit = true

namespace DecimalInteger

variable (spelled : DecimalInteger)

def negative : Bool := spelled.sign == some true

/-- The characters of a decimal integer. -/
def chars : List Char :=
  (spelled.sign.elim [] fun negative => [if negative then '-' else '+']) ++ spelled.digits

/-- The integer that is spelled. -/
def value : Int := signed spelled.negative (decimalValue spelled.digits)

theorem splitSign_chars : splitSign spelled.chars = (spelled.negative, spelled.digits) := by
  cases hsign : spelled.sign with
  | none => simpa [chars, negative, hsign] using splitSign_digits spelled.decimal
  | some negative => cases negative <;> simp [chars, DecimalInteger.negative, hsign, splitSign]

theorem mem_numberChars {c : Char} (h : c ∈ spelled.chars) : c ∈ numberChars ∧ c ≠ '_' := by
  obtain hsign | hdigit := List.mem_append.mp h
  · obtain ⟨negative, rfl⟩ : ∃ negative : Bool, c = if negative then '-' else '+' := by
      cases hs : spelled.sign with
      | none => simp [hs] at hsign
      | some negative => exact ⟨negative, by simpa [hs] using hsign⟩
    cases negative <;> decide
  · have digit := spelled.decimal c hdigit
    exact ⟨mem_numberChars_of_isDigit digit, ne_of_isDigit digit (by decide)⟩

theorem ofText?_chars : Binary64.ofText? (.ofList spelled.chars) =
    some (Binary64.ofDecimal spelled.negative (decimalValue spelled.digits) 0) := by
  have grouping : dropGrouping? ' ' spelled.chars = some spelled.chars :=
    dropGrouping?_eq_some (by decide) fun h => (spelled.mem_numberChars h).2 rfl
  obtain ⟨d, hd⟩ := List.exists_mem_of_ne_nil _ spelled.nonempty
  rw [Binary64.ofText?_ofList (fun c hc => (spelled.mem_numberChars hc).1)
    (List.mem_append_right _ hd) (spelled.decimal d hd), grouping]
  simp only [Option.bind_some, splitSign_chars]
  exact Binary64.ofUnsigned?_digits spelled.nonempty spelled.decimal _

end DecimalInteger

theorem ofNumber_ofDecimal (negative : Bool) (n : Nat) : ofNumber (.ofDecimal negative n 0) =
    if nearest n < 2 ^ 1024 then toString (signed negative (nearest n)) else "0" := by
  rw [Binary64.ofDecimal_eq_ofRatio]
  split
  · next finite => exact ofNumber_of_toInt? (Binary64.toInt?_ofRatio finite negative)
  · next large => rw [Binary64.ofRatio_eq_infinite large, ofNumber]

/-- A decimal text is written as it is if a finite number is equal to its value. -/
theorem asNumber_decimal_iff (spelled : DecimalInteger) :
    asNumber (.str (.ofList spelled.chars)) = .ok (toString spelled.value) ↔
      Exact spelled.value.natAbs := by
  rw [asNumber, spelled.ofText?_chars, Option.elim_some, ofNumber_ofDecimal, Except.ok.injEq,
    DecimalInteger.value, natAbs_signed, Binary64.exact_iff]
  split
  · next finite => rw [toString_int_inj, signed_inj, and_iff_left finite]
  · next large =>
    have nonzero : decimalValue spelled.digits ≠ 0 := fun zero => large <| by
      rw [zero]
      exact (Binary64.exact_iff.mp Binary64.exact_zero).2
    refine iff_of_false (fun h => nonzero ?_) fun h => large h.2
    have zero : 0 = signed spelled.negative (decimalValue spelled.digits) := toString_int_inj.mp h
    rw [← natAbs_signed spelled.negative (decimalValue _), ← zero]
    rfl

end Literal

end ServerTemplate
