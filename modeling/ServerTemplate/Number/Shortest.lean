import ServerTemplate.Number.Binary64

/-!
# Shortest decimal text

A floating-point number is written with the fewest significant digits that read back as the same
number; of several such texts the nearest to the number is taken, and of two equally near ones the
one with an even last digit. `Binary64.shortest` finds the
digits by exact arithmetic: it tries one digit, two digits and so on, and of each grid of decimals
only the two neighbours of the number, since any decimal between one that reads back and the number
reads back as well. `DecimalNotation` says how the digits are then laid out.
-/

namespace ServerTemplate

/-- The decimal `significand * 10 ^ exponent`. -/
structure Decimal where
  significand : Nat
  exponent : Int
  deriving DecidableEq, Repr

namespace Binary64

/-- The number of decimal digits of a natural number. -/
def decimalLength (n : Nat) : Nat := (Nat.toDigits 10 n).length

/-- The greatest `k` with `10 ^ k ≤ num / den`, for positive numbers. -/
def floorLog10 (num den : Nat) : Int :=
  let k : Int := (decimalLength num : Int) - decimalLength den
  if den * Nat.pow 10 k.toNat ≤ num * Nat.pow 10 (-k).toNat then k else k - 1

/-- The decimals that read back as a number: its value and the two bounds, all in quarters of the
number's last binary place, and whether the bounds belong to them. -/
structure ReadingInterval where
  low : Nat
  value : Nat
  high : Nat
  closed : Bool
  exponent : Int

/-- The interval of a positive number. Below a power of two the spacing is half of that above. -/
def ReadingInterval.of (significand : Nat) (exponent : Int) : ReadingInterval :=
  let gap := if significand = Nat.pow 2 52 ∧ leastExponent < exponent then 1 else 2
  ⟨4 * significand - gap, 4 * significand, 4 * significand + 2, significand % 2 = 0, exponent - 2⟩

/-- A decimal and a multiple of a power of two, as natural numbers on a common scale. -/
def onCommonScale (d : Decimal) (quarters : Nat) (exponent : Int) : Nat × Nat :=
  (d.significand * Nat.pow 10 d.exponent.toNat * Nat.pow 2 (-exponent).toNat,
    quarters * Nat.pow 2 exponent.toNat * Nat.pow 10 (-d.exponent).toNat)

/-- Whether a decimal reads back as the number of the interval. -/
def ReadingInterval.holds (i : ReadingInterval) (d : Decimal) : Bool :=
  let (lowSide, low) := onCommonScale d i.low i.exponent
  let (highSide, high) := onCommonScale d i.high i.exponent
  if i.closed then low ≤ lowSide && highSide ≤ high else low < lowSide && highSide < high

/-- The distance of a decimal from the value, on the common scale. -/
def ReadingInterval.distance (i : ReadingInterval) (d : Decimal) : Nat :=
  let (x, y) := onCommonScale d i.value i.exponent
  (x - y) + (y - x)

/-- The nearer of the value's two neighbours among the multiples of `10 ^ exponent`, if it reads
back; of two equally near ones the even multiple. -/
def ReadingInterval.onGrid? (i : ReadingInterval) (exponent : Int) : Option Decimal :=
  let below : Nat := (i.value * Nat.pow 2 i.exponent.toNat * Nat.pow 10 (-exponent).toNat)
    / (Nat.pow 2 (-i.exponent).toNat * Nat.pow 10 exponent.toNat)
  let down : Decimal := ⟨below, exponent⟩
  let up : Decimal := ⟨below + 1, exponent⟩
  match i.holds down, i.holds up with
  | true, true =>
    let nearerUp := i.distance up < i.distance down
      || (i.distance up == i.distance down && below % 2 == 1)
    some (if nearerUp then up else down)
  | true, false => some down
  | false, true => some up
  | false, false => none

/-- The first grid with a hit, from the one with `digits` significant digits on. -/
def ReadingInterval.search (i : ReadingInterval) (magnitude : Int) : Nat → Nat → Decimal
  | 0, _ => ⟨0, 0⟩
  | fuel + 1, digits =>
    match i.onGrid? (magnitude - digits + 1) with
    | some d => d
    | none => search i magnitude fuel (digits + 1)

/-- The shortest decimal that reads back as the positive number. Seventeen digits always suffice. -/
def shortest (significand : Nat) (exponent : Int) : Decimal :=
  let i := ReadingInterval.of significand exponent
  let magnitude :=
    floorLog10 (significand * Nat.pow 2 exponent.toNat) (Nat.pow 2 (-exponent).toNat)
  i.search magnitude 17 1

end Binary64

/-- How the digits of a number are laid out. -/
structure DecimalNotation where
  /-- The least exponent of the first digit that is written without an exponent. -/
  positionalFrom : Int
  /-- The exponent of the first digit from which on an exponent is written. -/
  positionalBelow : Int
  /-- The least number of digits of an exponent. -/
  exponentDigits : Nat

namespace DecimalNotation

/-- Zero to fifteen digits behind the first one, and three zeros behind the point, are written out;
an exponent has a sign and at least two digits. -/
def standard : DecimalNotation := ⟨-4, 16, 2⟩

/-- The digits with `exponent` as the exponent of the first one. -/
def layOut (style : DecimalNotation) (digits : List Char) (exponent : Int) : List Char :=
  if style.positionalFrom ≤ exponent ∧ exponent < style.positionalBelow then
    if exponent < 0 then
      ['0', '.'] ++ List.replicate ((-exponent).toNat - 1) '0' ++ digits
    else
      let whole := exponent.toNat + 1
      let fraction := digits.drop whole
      digits.take whole ++ List.replicate (whole - digits.length) '0' ++ ['.']
        ++ (if fraction.isEmpty then ['0'] else fraction)
  else
    let power := Nat.toDigits 10 exponent.natAbs
    digits.take 1 ++ (if digits.length ≤ 1 then [] else '.' :: digits.drop 1)
      ++ ['e', if exponent < 0 then '-' else '+']
      ++ List.replicate (style.exponentDigits - power.length) '0' ++ power

/-- The text of a positive decimal. Zeros at the end of the significand are not written. -/
def write (style : DecimalNotation) (d : Decimal) : List Char :=
  let digits := Nat.toDigits 10 d.significand
  let trimmed := (digits.reverse.dropWhile (· == '0')).reverse
  style.layOut trimmed (d.exponent + digits.length - 1)

end DecimalNotation

/-- The text of a floating-point number. -/
def Binary64.text : Binary64 → String
  | nan => "nan"
  | infinite false => "inf"
  | infinite true => "-inf"
  | finite negative significand exponent =>
    let digits :=
      if significand = 0 then ['0', '.', '0']
      else DecimalNotation.standard.write (Binary64.shortest significand exponent)
    String.ofList (if negative then '-' :: digits else digits)

example : (Binary64.ofDecimal false 1 (-5)).text = "1e-05" := by decide +kernel
example : (Binary64.ofDecimal true 25 (-1)).text = "-2.5" := by decide +kernel
example : (Binary64.ofDecimal false 1 16).text = "1e+16" := by decide +kernel
example : (Binary64.ofDecimal false 1 15).text = "1000000000000000.0" := by decide +kernel
example : (Binary64.ofDecimal false 5 (-324)).text = "5e-324" := by decide +kernel

end ServerTemplate
