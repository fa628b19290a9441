import ServerTemplate.Text.Digit

/-!
# Code units

An escape denotes a code unit of sixteen bits or a code point. Two code units that are the halves of
a pair denote one character beyond the first plane; `joinPairs` joins them where they follow one
another.
-/

namespace ServerTemplate.Text

/-- The code unit that four hexadecimal digits spell. -/
def codeUnit? (a b c d : Char) : Option Nat :=
  match hexDigit? a, hexDigit? b, hexDigit? c, hexDigit? d with
  | some a, some b, some c, some d => some (valueOf 16 [a, b, c, d])
  | _, _, _, _ => none

/-- Whether a code unit is the first half of a pair. -/
def isHighHalf (unit : Nat) : Bool := 0xD800 ≤ unit && unit < 0xDC00

/-- Whether a code unit is the second half of a pair. -/
def isLowHalf (unit : Nat) : Bool := 0xDC00 ≤ unit && unit < 0xE000

/-- Whether a code unit is half of a pair. -/
def isHalf (unit : Nat) : Bool := isHighHalf unit || isLowHalf unit

/-- The character of a pair of code units. -/
def joinHalves (high low : Nat) : Char :=
  Char.ofNat (0x10000 + (high - 0xD800) * 0x400 + (low - 0xDC00))

/-- The character of a code unit that stands alone. Half of a pair becomes the replacement
character. -/
def unitChar (unit : Nat) : Char :=
  if isHalf unit then '\ufffd' else Char.ofNat unit

/-- The characters of a sequence of code points and code units, in which the halves of a pair that
follow one another are joined. -/
def joinPairs : List Nat → List Char
  | [] => []
  | [unit] => [unitChar unit]
  | high :: low :: rest =>
    if isHighHalf high && isLowHalf low then joinHalves high low :: joinPairs rest
    else unitChar high :: joinPairs (low :: rest)

example : joinPairs [0x41, 0xD83D, 0xDE00, 0x42] = ['A', '😀', 'B'] := by decide

end ServerTemplate.Text
