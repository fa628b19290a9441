/-!
# Binary floating-point numbers

The numbers of a declaration that are no integers are binary floating-point numbers of 64 bits. They
are kept by value, as a sign, a significand and a power of two, so that rounding is exact integer
arithmetic and can be reasoned about.

* `Binary64.ofRatio` rounds a quotient of natural numbers to the nearest number; of two equally near
  ones it takes the one with the even significand.
* `Binary64.ofDecimal` does the same for a decimal with an exponent.
* `Binary64.ofInt?` has no result where the nearest number would lie beyond the largest finite one.
-/

namespace ServerTemplate

/-- A binary floating-point number of 64 bits. A finite one is `significand * 2 ^ exponent`, where
the significand has 53 bits, or fewer with the least exponent. -/
inductive Binary64 where
  | nan
  | infinite (negative : Bool)
  | finite (negative : Bool) (significand : Nat) (exponent : Int)
  deriving DecidableEq, Repr

namespace Binary64

/-- The least exponent of a finite number. -/
def leastExponent : Int := -1074

/-- The greatest exponent of a finite number. -/
def greatestExponent : Int := 971

/-- The quotient rounded to the nearest integer, half-way cases to the even one. -/
def nearestEven (num den : Nat) : Nat :=
  let quotient := num / den
  let twice := 2 * (num % den)
  if den < twice ∨ (twice = den ∧ quotient % 2 = 1) then quotient + 1 else quotient

/-- The greatest `k` with `2 ^ k ≤ num / den`, for positive numbers. -/
def floorLog2 (num den : Nat) : Int :=
  let k : Int := (Nat.log2 num : Int) - Nat.log2 den
  if den * Nat.pow 2 k.toNat ≤ num * Nat.pow 2 (-k).toNat then k else k - 1

/-- The number nearest to `num / den`. -/
def ofRatio (negative : Bool) (num den : Nat) : Binary64 :=
  if num = 0 ∨ den = 0 then finite negative 0 leastExponent
  else
    let exponent := max (floorLog2 num den - 52) leastExponent
    let significand :=
      nearestEven (num * Nat.pow 2 (-exponent).toNat) (den * Nat.pow 2 exponent.toNat)
    let (significand, exponent) :=
      if significand = Nat.pow 2 53 then (Nat.pow 2 52, exponent + 1) else (significand, exponent)
    if greatestExponent < exponent then infinite negative
    else finite negative significand exponent

/-- The number nearest to `digits * 10 ^ exponent`. An exponent far outside the range of finite
numbers is not raised to a power. -/
def ofDecimal (negative : Bool) (digits : Nat) (exponent : Int) : Binary64 :=
  if digits = 0 then finite negative 0 leastExponent
  else
    let magnitude := exponent + (Nat.log2 digits : Int) / 4
    if 400 < magnitude then infinite negative
    else if exponent + (Nat.log2 digits : Int) < -400 then finite negative 0 leastExponent
    else ofRatio negative (digits * Nat.pow 10 exponent.toNat) (Nat.pow 10 (-exponent).toNat)

/-- The number nearest to an integer, unless it would be infinite. -/
def ofInt? (n : Int) : Option Binary64 :=
  match ofRatio (n < 0) n.natAbs 1 with
  | infinite _ => none
  | x => some x

/-- Whether the number is zero, of either sign. -/
def isZero : Binary64 → Bool
  | finite _ significand _ => significand == 0
  | _ => false

/-- The integer that a finite number is, if it is one. -/
def toInt? : Binary64 → Option Int
  | nan | infinite _ => none
  | finite negative significand exponent =>
    let num := significand * Nat.pow 2 exponent.toNat
    let den := Nat.pow 2 (-exponent).toNat
    if num % den = 0 then some (if negative then -((num / den : Nat) : Int) else (num / den : Nat))
    else none

example : ofRatio false 1 10 = finite false 7205759403792794 (-56) := by decide +kernel

example : ofDecimal false 5 (-324) = finite false 1 (-1074) := by decide +kernel

end Binary64

end ServerTemplate
