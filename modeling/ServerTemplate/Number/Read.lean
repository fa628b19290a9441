import ServerTemplate.Number.Binary64
import ServerTemplate.Text.Blank
import ServerTemplate.Text.Digit

/-!
# Reading numbers

`Binary64.ofText?` reads the text of a default value as a floating-point number. Blanks around it
are dropped, the digits may come from any script, an underscore may stand between two digits, and
the words for infinity and for "not a number" are known in any case.

`integerToken?` reads an integer token of a script. A decimal one has no leading zero unless it is
zero, and no more than `maxDecimalDigits` digits.
-/

namespace ServerTemplate

/-- The greatest number of digits of a decimal integer that is read. -/
def maxDecimalDigits : Nat := 4300

/-- The characters with the digits of other scripts replaced by ASCII ones. -/
def asciiDigits (cs : List Char) : List Char :=
  cs.map fun c =>
    match Text.decimalDigit? c with
    | some d => Char.ofNat (0x30 + d)
    | none => c

/-- The characters without underscores, each of which must stand between two digits; `before` is the
character in front. -/
def dropGrouping? (before : Char) : List Char → Option (List Char)
  | [] => if before == '_' then none else some []
  | c :: rest =>
    if c == '_' then
      if before.isDigit then dropGrouping? c rest else none
    else if before == '_' && !c.isDigit then none
    else (dropGrouping? c rest).map (c :: ·)

/-- The value of decimal digits. -/
def decimalValue (digits : List Char) : Nat :=
  Text.valueOf 10 (digits.map fun c => c.toNat - 0x30)

/-- The sign in front of a number and what follows it. -/
def splitSign : List Char → Bool × List Char
  | '-' :: rest => (true, rest)
  | '+' :: rest => (false, rest)
  | rest => (false, rest)

namespace Binary64

/-- A decimal without sign: digits, a point, digits, an exponent. The point and the exponent may be
missing, and so may the digits on one side of the point. -/
def ofUnsigned? (negative : Bool) (cs : List Char) : Option Binary64 :=
  let whole := cs.takeWhile Char.isDigit
  let afterWhole := cs.dropWhile Char.isDigit
  let (fraction, afterFraction) :=
    match afterWhole with
    | '.' :: rest => (rest.takeWhile Char.isDigit, rest.dropWhile Char.isDigit)
    | rest => ([], rest)
  let value (power : Int) :=
    some (ofDecimal negative (decimalValue (whole ++ fraction)) (power - fraction.length))
  if whole.isEmpty && fraction.isEmpty then none
  else
    match afterFraction with
    | [] => value 0
    | e :: rest =>
      let (down, power) := splitSign rest
      if e.toLower == 'e' && !power.isEmpty && power.all Char.isDigit then
        value (if down then -(decimalValue power : Int) else decimalValue power)
      else none

/-- The number that a text denotes. -/
def ofText? (s : String) : Option Binary64 :=
  match dropGrouping? ' ' (asciiDigits (Text.trimBoth Text.isNumberBlank s.toList)) with
  | none => none
  | some cs =>
    let (negative, rest) := splitSign cs
    let word := String.ofList (rest.map Char.toLower)
    if word = "inf" ∨ word = "infinity" then some (infinite negative)
    else if word = "nan" then some nan
    else ofUnsigned? negative rest

end Binary64

/-- The value of digits of a base, at most one underscore between two of them. -/
def groupedDigits? (base : Nat) (cs : List Char) : Option (List Nat) :=
  let rec go (afterDigit : Bool) : List Char → Option (List Nat)
    | [] => if afterDigit then some [] else none
    | '_' :: rest => if afterDigit then go false rest else none
    | c :: rest =>
      match Text.hexDigit? c with
      | some d => if d < base then (go true rest).map (d :: ·) else none
      | none => none
  go false cs

/-- The integer that a token denotes, in base ten or, after `0x`, `0o` or `0b`, in another. -/
def integerToken? (token : List Char) : Option Nat :=
  let inBase (base : Nat) (cs : List Char) := (groupedDigits? base cs).map (Text.valueOf base)
  match token with
  | '0' :: 'x' :: rest | '0' :: 'X' :: rest => inBase 16 rest
  | '0' :: 'o' :: rest | '0' :: 'O' :: rest => inBase 8 rest
  | '0' :: 'b' :: rest | '0' :: 'B' :: rest => inBase 2 rest
  | _ =>
    match groupedDigits? 10 token with
    | none => none
    | some digits =>
      if maxDecimalDigits < digits.length then none
      else if digits.head? = some 0 ∧ digits.any (· ≠ 0) then none
      else some (Text.valueOf 10 digits)

example : integerToken? "0x1F".toList = some 31 ∧ integerToken? "1_000".toList = some 1000
    ∧ integerToken? "000".toList = some 0 ∧ integerToken? "010".toList = none
    ∧ integerToken? "10n".toList = none := by decide +kernel

end ServerTemplate
