import ServerTemplate.Proofs.Number.Reading
import ServerTemplate.Proofs.Script.Digits

/-!
# Tokens of numbers

`IsNumber` is the grammar of the number tokens of a script. Integers are spelled in digits of base
ten, whatever they begin with, or behind a mark in digits of another base (`IsInteger`); a mark
behind an integer makes it a big one. Decimals have a fraction or an exponent (`IsDecimal`); their
whole part, too, may begin with any digits.
-/

namespace ServerTemplate.Script

/-! ### The grammar -/

/-- A base other than ten. -/
inductive Base where
  | hexadecimal
  | octal
  | binary

namespace Base

/-- The letter that stands between the zero and the digits of an integer of a base. -/
def mark (base : Base) (upper : Bool) : Char :=
  match base with
  | hexadecimal => if upper then 'X' else 'x'
  | octal => if upper then 'O' else 'o'
  | binary => if upper then 'B' else 'b'

/-- The digits of a base. -/
def isDigit : Base → Char → Bool
  | hexadecimal => isHexDigit
  | octal => isOctalDigit
  | binary => isBinaryDigit

end Base

/-- An integer in base ten or another base. -/
inductive IsInteger : List Char → Prop
  | decimal {ds : List Char} : IsDigits Char.isDigit ds → IsInteger ds
  | based {base : Base} {upper : Bool} {ds : List Char} : IsDigits base.isDigit ds →
      IsInteger ('0' :: base.mark upper :: ds)

/-- A letter that an exponent begins with. -/
inductive IsExponentMark : Char → Prop
  | lower : IsExponentMark 'e'
  | upper : IsExponentMark 'E'

/-- The sign of an exponent, which may be missing. -/
inductive IsSign : List Char → Prop
  | none : IsSign []
  | plus : IsSign ['+']
  | minus : IsSign ['-']

/-- The exponent of a decimal. -/
inductive IsExponent : List Char → Prop
  | mk {e : Char} {sign ds : List Char} : IsExponentMark e → IsSign sign →
      IsDigits Char.isDigit ds → IsExponent (e :: (sign ++ ds))

/-- A part of a token that may be missing. -/
def OrEmpty (p : List Char → Prop) (cs : List Char) : Prop := cs = [] ∨ p cs

/-- A decimal with a point or an exponent. On one side of the point there may be no digits. -/
inductive IsDecimal : List Char → Prop
  | pointed {whole fraction power : List Char} : OrEmpty (IsDigits Char.isDigit) whole →
      OrEmpty (IsDigits Char.isDigit) fraction → whole ≠ [] ∨ fraction ≠ [] →
      OrEmpty IsExponent power → IsDecimal (whole ++ '.' :: (fraction ++ power))
  | scaled {whole power : List Char} : IsDigits Char.isDigit whole → IsExponent power →
      IsDecimal (whole ++ power)

/-- A number token, of a big integer or not. -/
inductive IsNumber : Bool → List Char → Prop
  | integer {cs : List Char} : IsInteger cs → IsNumber false cs
  | decimal {cs : List Char} : IsDecimal cs → IsNumber false cs
  | big {cs : List Char} : IsInteger cs → IsNumber true (cs ++ ['n'])

theorem IsInteger.ne_nil {ds : List Char} (h : IsInteger ds) : ds ≠ [] := by
  cases h with
  | decimal digits => exact digits.ne_nil
  | based _ => exact nofun

/-! ### Digits of all bases -/

variable {c : Char}

/-- The digits of all bases. -/
def hexDigitChars : List Char := "0123456789abcdefABCDEF".toList

theorem mem_hexDigitChars_of_isHexDigit (h : isHexDigit c = true) : c ∈ hexDigitChars := by
  have lower : ∀ n ∈ List.range' 97 6, Char.ofNat n ∈ hexDigitChars := by decide
  have upper : ∀ n ∈ List.range' 65 6, Char.ofNat n ∈ hexDigitChars := by decide
  have digits : ∀ n ∈ List.range' 48 10, Char.ofNat n ∈ hexDigitChars := by decide
  unfold isHexDigit Text.hexDigit? at h
  rw [← Char.ofNat_toNat c]
  split at h
  · next range =>
    exact digits _ (List.mem_range'_1.mpr ⟨range.1, Nat.lt_succ_of_le range.2⟩)
  split at h
  · next range => exact lower _ (List.mem_range'_1.mpr ⟨range.1, Nat.lt_succ_of_le range.2⟩)
  split at h
  · next range => exact upper _ (List.mem_range'_1.mpr ⟨range.1, Nat.lt_succ_of_le range.2⟩)
  · cases h

theorem mem_hexDigitChars_of_isDigit (h : c.isDigit = true) : c ∈ hexDigitChars :=
  List.mem_append_left "abcdefABCDEF".toList (mem_digitChars_of_isDigit h)

/-- Each base has digits of base sixteen. -/
theorem Base.mem_of_isDigit (base : Base) (h : base.isDigit c = true) : c ∈ hexDigitChars := by
  cases base with
  | hexadecimal => exact mem_hexDigitChars_of_isHexDigit h
  | octal =>
    obtain ⟨lower, upper⟩ : '0' ≤ c ∧ c ≤ '7' := by simpa [isDigit, isOctalDigit] using h
    have digit : c.isDigit = true := by
      rw [Char.isDigit, Bool.and_eq_true, decide_eq_true_eq, decide_eq_true_eq]
      exact ⟨lower, Nat.le_trans upper (by decide)⟩
    exact mem_hexDigitChars_of_isDigit digit
  | binary =>
    obtain rfl | rfl : c = '0' ∨ c = '1' := by simpa [isDigit, isBinaryDigit] using h
    · decide
    · decide

end ServerTemplate.Script
