import Mathlib
import ServerTemplate.Number.Binary64

/-!
# Integers as floating-point numbers

`Binary64.nearest n` is the natural number that `n` becomes as a floating-point number: the nearest
one among those of 53 binary digits. The number is infinite if this has more than 1024 digits
(`toInt?_ofRatio`, `ofRatio_eq_infinite`), and that is so from half a unit of the last place below
`2 ^ 1024` on (`pow_le_nearest_iff`). Only the naturals that a finite number is equal to stay what
they are (`exact_iff`).
-/

namespace ServerTemplate.Binary64

/-! ### Rounding a quotient -/

section NearestEven

variable {num den : Nat}

theorem nearestEven_one (n : Nat) : nearestEven n 1 = n := by
  simp [nearestEven, Nat.mod_one]

theorem div_le_nearestEven : num / den ≤ nearestEven num den := by
  unfold nearestEven
  dsimp only
  split <;> omega

theorem nearestEven_le_succ : nearestEven num den ≤ num / den + 1 := by
  unfold nearestEven
  dsimp only
  split <;> omega

/-- Only a quotient without remainder is not changed. -/
theorem nearestEven_mul_eq_iff : nearestEven num den * den = num ↔ den ∣ num := by
  refine ⟨fun h => ⟨_, h.symm.trans (Nat.mul_comm _ _)⟩, fun h => ?_⟩
  obtain rfl | positive := Nat.eq_zero_or_pos den
  · rw [Nat.mul_zero, Nat.zero_dvd.mp h]
  have exact : num % den = 0 := Nat.mod_eq_zero_of_dvd h
  rw [nearestEven, exact, if_neg (by omega), Nat.div_mul_cancel h]

/-- A quotient half-way below an even number is rounded up to it. -/
theorem le_nearestEven_mul_iff {m : Nat} (positive : 0 < den) (even : m % 2 = 0) (hm : 0 < m) :
    m * den ≤ nearestEven num den * den ↔ (2 * m - 1) * den ≤ 2 * num := by
  rw [Nat.mul_le_mul_right_iff positive]
  have split : den * (num / den) + num % den = num := Nat.div_add_mod num den
  have small : num % den < den := Nat.mod_lt num positive
  have scale (k : Nat) : 2 * (num / den) * den + k * den = (2 * (num / den) + k) * den :=
    (Nat.add_mul _ _ _).symm
  rw [Nat.mul_assoc, Nat.mul_comm (num / den)] at scale
  obtain below | rfl | above : m ≤ num / den ∨ m = num / den + 1 ∨ num / den + 2 ≤ m := by omega
  · have scaled : (2 * m - 1) * den ≤ (2 * (num / den) + 0) * den :=
      Nat.mul_le_mul_right den (by omega)
    refine iff_of_true (Nat.le_trans below div_le_nearestEven) ?_
    rw [← scale] at scaled
    omega
  · have odd : num / den % 2 = 1 := by omega
    rw [show 2 * (num / den + 1) - 1 = 2 * (num / den) + 1 by omega, ← scale, nearestEven]
    split <;> omega
  · have scaled : (2 * (num / den) + 3) * den ≤ (2 * m - 1) * den :=
      Nat.mul_le_mul_right den (by omega)
    have rounded : nearestEven num den ≤ num / den + 1 := nearestEven_le_succ
    rw [← scale] at scaled
    exact iff_of_false (by omega) (by omega)

end NearestEven

/-! ### The nearest natural number -/

/-- The place of the last of the 53 binary digits that are kept. -/
def lastPlace (n : Nat) : Nat := n.log2 - 52

/-- The natural number nearest to one, among those of 53 binary digits. -/
def nearest (n : Nat) : Nat := nearestEven n (2 ^ lastPlace n) * 2 ^ lastPlace n

section Nearest

variable {n : Nat}

theorem nearest_of_log2_le (h : n.log2 ≤ 52) : nearest n = n := by
  rw [nearest, lastPlace, Nat.sub_eq_zero_of_le h, Nat.pow_zero, nearestEven_one, Nat.mul_one]

theorem ne_zero_of_lt_log2 {k : Nat} (h : k < n.log2) : n ≠ 0 := by
  rintro rfl
  simp at h

/-- A number of more than 53 digits is rounded to 53 digits, or to the next power of two. -/
theorem nearestEven_lastPlace (h : 52 < n.log2) :
    2 ^ 52 ≤ nearestEven n (2 ^ lastPlace n) ∧ nearestEven n (2 ^ lastPlace n) ≤ 2 ^ 53 := by
  have place : lastPlace n + 52 = n.log2 := Nat.sub_add_cancel (Nat.le_of_lt h)
  have scale : 0 < 2 ^ lastPlace n := Nat.two_pow_pos _
  constructor
  · refine Nat.le_trans ((Nat.le_div_iff_mul_le scale).mpr ?_) div_le_nearestEven
    rw [← Nat.pow_add, Nat.add_comm, place]
    exact Nat.log2_self_le (ne_zero_of_lt_log2 h)
  · refine Nat.le_trans nearestEven_le_succ ((Nat.div_lt_iff_lt_mul scale).mpr ?_)
    rw [← Nat.pow_add, Nat.add_comm, show lastPlace n + 53 = n.log2 + 1 by omega]
    exact Nat.lt_log2_self

private theorem log2_lt_of_lt (hn : n ≠ 0) (k : Nat) (h : n < 2 ^ k) : n.log2 < k :=
  (Nat.log2_lt hn).mpr h

private theorem two_pow_mono (j k : Nat) (h : j ≤ k) : 2 ^ j ≤ 2 ^ k :=
  Nat.pow_le_pow_right (by decide) h

/-- A number of more than 53 digits has as many when it is rounded, or one digit more. -/
theorem nearest_lt_pow_iff (long : 52 < n.log2) (t : Nat) : nearest n < 2 ^ t ↔
    lastPlace n + (if nearestEven n (2 ^ lastPlace n) = 2 ^ 53 then 53 else 52) < t := by
  obtain ⟨least, most⟩ := nearestEven_lastPlace long
  unfold nearest
  generalize nearestEven n (2 ^ lastPlace n) = significand at least most ⊢
  generalize lastPlace n = place
  have scale (k : Nat) : 2 ^ k * 2 ^ place < 2 ^ t ↔ place + k < t := by
    rw [← Nat.pow_add, Nat.pow_lt_pow_iff_right (by decide), Nat.add_comm]
  split
  · next carried => rw [carried, scale]
  · next other =>
    rw [← scale]
    refine ⟨Nat.lt_of_le_of_lt (Nat.mul_le_mul_right _ least), fun h => ?_⟩
    have bound : 2 ^ 53 * 2 ^ place ≤ 2 ^ t := by
      rw [← Nat.pow_add, Nat.pow_le_pow_iff_right (by decide)]
      have := (scale 52).mp h
      omega
    exact Nat.lt_of_lt_of_le
      (Nat.mul_lt_mul_of_pos_right (Nat.lt_of_le_of_ne most other) (Nat.two_pow_pos place)) bound

/-- A power of two is reached from half a unit of the last place below it on. -/
theorem pow_le_nearest_iff {k t : Nat} (h : k + 54 = t) :
    2 ^ t ≤ nearest n ↔ 2 ^ t - 2 ^ k ≤ n := by
  have double (j : Nat) : 2 ^ (j + 1) = 2 * 2 ^ j := by rw [Nat.pow_succ, Nat.mul_comm]
  have half : 2 ^ t = 2 * 2 ^ (k + 53) := by rw [← double, ← h]
  have unit : 2 ^ (k + 53) = 2 ^ 52 * 2 ^ (k + 1) := by rw [← Nat.pow_add, Nat.add_comm 52]
  have small : 2 ^ k < 2 ^ (k + 53) := Nat.pow_lt_pow_right (by decide) (by omega)
  -- a number below the power before is too small, and stays so when it is rounded
  have below (hn : n < 2 ^ (k + 53)) (rounded : nearest n < 2 ^ t) :
      2 ^ t ≤ nearest n ↔ 2 ^ t - 2 ^ k ≤ n :=
    iff_of_false (Nat.not_le.mpr rounded) (by omega)
  obtain long | short := Nat.lt_or_ge 52 n.log2
  · have reaches := nearest_lt_pow_iff long t
    obtain less | edge | more : n.log2 < k + 53 ∨ n.log2 = k + 53 ∨ t ≤ n.log2 := by omega
    · refine below (Nat.lt_of_lt_of_le Nat.lt_log2_self (two_pow_mono _ _ less)) (reaches.mpr ?_)
      unfold lastPlace
      split <;> omega
    · have place : lastPlace n = k + 1 := by
        unfold lastPlace
        omega
      have rounded := @le_nearestEven_mul_iff n (2 ^ (k + 1)) (2 ^ 53) (Nat.two_pow_pos _) rfl
        (by decide)
      have top : 2 ^ 53 * 2 ^ (k + 1) = 2 ^ t := by
        rw [half, unit]
        omega
      have twice := double k
      rw [top] at rounded
      rw [nearest, place, rounded]
      omega
    · have hn : 2 ^ t ≤ n :=
        Nat.le_trans (two_pow_mono _ _ more) (Nat.log2_self_le (ne_zero_of_lt_log2 long))
      refine iff_of_true (Nat.le_of_not_lt fun h => ?_) (Nat.le_trans (Nat.sub_le _ _) hn)
      have place := reaches.mp h
      unfold lastPlace at place
      split at place <;> omega
  · have hn : n < 2 ^ (k + 53) := Nat.lt_of_lt_of_le Nat.lt_log2_self (two_pow_mono _ _ (by omega))
    refine below hn ?_
    rw [nearest_of_log2_le short]
    omega

/-- A natural number that a finite number is equal to. -/
def Exact (n : Nat) : Prop :=
  ∃ significand < 2 ^ 53, ∃ exponent ≤ 971, n = significand * 2 ^ exponent

theorem exact_zero : Exact 0 := ⟨0, by decide, 0, by decide, rfl⟩

/-- The naturals that a finite number is equal to are those that do not change. -/
theorem exact_iff : Exact n ↔ nearest n = n ∧ nearest n < 2 ^ 1024 := by
  have whole : nearest n = n ↔ 2 ^ lastPlace n ∣ n := nearestEven_mul_eq_iff
  constructor
  · rintro ⟨significand, small, exponent, bound, rfl⟩
    have fits : significand * 2 ^ exponent < 2 ^ (53 + exponent) := by
      rw [Nat.pow_add]
      exact Nat.mul_lt_mul_of_pos_right small (Nat.two_pow_pos _)
    have divides : 2 ^ lastPlace (significand * 2 ^ exponent) ∣ significand * 2 ^ exponent := by
      refine Nat.dvd_trans (Nat.pow_dvd_pow 2 ?_) (Nat.dvd_mul_left _ significand)
      obtain rfl | positive := Nat.eq_zero_or_pos significand
      · simp [lastPlace]
      have nonzero := Nat.ne_of_gt (Nat.mul_pos positive (Nat.two_pow_pos exponent))
      have digits := log2_lt_of_lt nonzero _ fits
      unfold lastPlace
      omega
    rw [whole.mpr divides]
    exact ⟨rfl, Nat.lt_of_lt_of_le fits (two_pow_mono _ 1024 (by omega))⟩
  · intro h
    have finite : n < 2 ^ 1024 := h.1 ▸ h.2
    obtain rfl | positive := Nat.eq_zero_or_pos n
    · exact exact_zero
    have digits := log2_lt_of_lt (Nat.ne_of_gt positive) 1024 finite
    have place : lastPlace n ≤ 971 := Nat.sub_le_sub_right (Nat.le_of_lt_succ digits) 52
    obtain ⟨significand, hn⟩ := whole.mp h.1
    refine ⟨significand, ?_, lastPlace n, place, hn.trans (Nat.mul_comm _ _)⟩
    refine Nat.lt_of_mul_lt_mul_left (a := 2 ^ lastPlace n) ?_
    rw [← hn, ← Nat.pow_add]
    refine Nat.lt_of_lt_of_le Nat.lt_log2_self (two_pow_mono _ _ ?_)
    unfold lastPlace
    omega

/-! ### Natural numbers as floating-point numbers -/

/-- An integer by its sign and its size. -/
def signed (negative : Bool) (n : Nat) : Int := if negative then -(n : Int) else n

theorem toInt?_zero (negative : Bool) (exponent : Int) :
    (finite negative 0 exponent).toInt? = some 0 := by
  simp [toInt?]

theorem toInt?_finite (negative : Bool) (significand exponent : Nat) :
    (finite negative significand exponent).toInt? =
      some (signed negative (significand * 2 ^ exponent)) := by
  simp [toInt?, Nat.mod_one, signed]

theorem toInt?_fraction (negative : Bool) (n places : Nat) :
    (finite negative (n * 2 ^ places) (-places)).toInt? = some (signed negative n) := by
  simp [toInt?, signed, Nat.mul_mod_left, Nat.mul_div_cancel n (Nat.two_pow_pos places)]

theorem floorLog2_one (h : n ≠ 0) : floorLog2 n 1 = n.log2 := by
  have least : 2 ^ n.log2 ≤ n := Nat.log2_self_le h
  have one : Nat.log2 1 = 0 := rfl
  simp [floorLog2, one, least]

/-- The last step of rounding: a significand of 54 digits is a power of two. -/
def carried (negative : Bool) (significand : Nat) (exponent : Int) : Binary64 :=
  if significand = 2 ^ 53 then
    if greatestExponent < exponent + 1 then infinite negative
    else finite negative (2 ^ 52) (exponent + 1)
  else if greatestExponent < exponent then infinite negative
  else finite negative significand exponent

theorem ofRatio_one (h : n ≠ 0) {exponent : Int}
    (hexponent : max ((n.log2 : Int) - 52) leastExponent = exponent) (negative : Bool) :
    ofRatio negative n 1 = carried negative
      (nearestEven (n * 2 ^ (-exponent).toNat) (2 ^ exponent.toNat)) exponent := by
  have one (k : Nat) : 1 * Nat.pow 2 k = 2 ^ k := Nat.one_mul _
  have power (k : Nat) : Nat.pow 2 k = 2 ^ k := rfl
  simp only [ofRatio, floorLog2_one h, hexponent, one]
  rw [if_neg (by simp [h]), carried]
  simp only [power]
  by_cases up : nearestEven (n * 2 ^ (-exponent).toNat) (2 ^ exponent.toNat) = 2 ^ 53
  · rw [if_pos up, if_pos up]
  · rw [if_neg up, if_neg up]

theorem ofRatio_short (h : n ≠ 0) (short : n.log2 ≤ 52) (negative : Bool) :
    ofRatio negative n 1 = finite negative (n * 2 ^ (52 - n.log2)) (-(52 - n.log2 : Nat)) := by
  have exponent : max ((n.log2 : Int) - 52) leastExponent = -(52 - n.log2 : Nat) := by
    unfold leastExponent
    omega
  have places : (-(-(52 - n.log2 : Nat) : Int)).toNat = 52 - n.log2 := by omega
  have whole : (-(52 - n.log2 : Nat) : Int).toNat = 0 := by omega
  have small : n * 2 ^ (52 - n.log2) ≠ 2 ^ 53 := by
    have hn : n * 2 ^ (52 - n.log2) < 2 ^ (n.log2 + 1) * 2 ^ (52 - n.log2) :=
      Nat.mul_lt_mul_of_pos_right Nat.lt_log2_self (Nat.two_pow_pos _)
    rw [← Nat.pow_add, show n.log2 + 1 + (52 - n.log2) = 53 by omega] at hn
    exact Nat.ne_of_lt hn
  have finite : ¬ greatestExponent < (-(52 - n.log2 : Nat) : Int) := by
    unfold greatestExponent
    omega
  rw [ofRatio_one h exponent, places, whole, Nat.pow_zero, nearestEven_one, carried, if_neg small,
    if_neg finite]

theorem ofRatio_long (long : 52 < n.log2) (negative : Bool) :
    ofRatio negative n 1 =
      carried negative (nearestEven n (2 ^ lastPlace n)) (lastPlace n) := by
  have exponent : max ((n.log2 : Int) - 52) leastExponent = lastPlace n := by
    unfold leastExponent lastPlace
    omega
  have places : (-(lastPlace n : Int)).toNat = 0 := by omega
  rw [ofRatio_one (ne_zero_of_lt_log2 long) exponent, places, Nat.pow_zero, Nat.mul_one,
    Int.toNat_natCast]

/-- A natural number is finite as a floating-point number if the nearest one is small enough. -/
theorem toInt?_ofRatio (finite : nearest n < 2 ^ 1024) (negative : Bool) :
    (ofRatio negative n 1).toInt? = some (signed negative (nearest n)) := by
  obtain rfl | positive := Nat.eq_zero_or_pos n
  · have zero : nearest 0 = 0 := nearest_of_log2_le (by decide)
    have same : signed negative 0 = 0 := by cases negative <;> rfl
    rw [zero, same]
    exact toInt?_zero negative _
  obtain long | short := Nat.lt_or_ge 52 n.log2
  · have place := (nearest_lt_pow_iff long 1024).mp finite
    rw [ofRatio_long long, carried, nearest]
    unfold greatestExponent
    split at place
    · next up =>
      have power : 2 ^ 52 * 2 ^ (lastPlace n + 1) = 2 ^ 53 * 2 ^ lastPlace n := by
        rw [← Nat.pow_add, ← Nat.pow_add]
        exact congrArg (2 ^ ·) (by omega)
      have next : (lastPlace n : Int) + 1 = (lastPlace n + 1 : Nat) := rfl
      rw [if_pos up, if_neg (by omega), next, toInt?_finite, up, power]
    · next other => rw [if_neg other, if_neg (by omega), toInt?_finite]
  · rw [ofRatio_short (Nat.ne_of_gt positive) short, toInt?_fraction, nearest_of_log2_le short]

theorem ofRatio_eq_infinite (large : ¬ nearest n < 2 ^ 1024) (negative : Bool) :
    ofRatio negative n 1 = infinite negative := by
  obtain long | short := Nat.lt_or_ge 52 n.log2
  · have place := mt (nearest_lt_pow_iff long 1024).mpr large
    rw [ofRatio_long long, carried]
    unfold greatestExponent
    split at place
    · next up => rw [if_pos up, if_pos (by omega)]
    · next other => rw [if_neg other, if_pos (by omega)]
  · refine absurd ?_ large
    rw [nearest_of_log2_le short]
    exact Nat.lt_of_lt_of_le Nat.lt_log2_self (two_pow_mono _ 1024 (by omega))

/-- A number of more than 1024 digits is infinite. -/
theorem not_nearest_lt (h : 1024 ≤ n.log2) : ¬ nearest n < 2 ^ 1024 := by
  have place := nearest_lt_pow_iff (show 52 < n.log2 by omega) 1024
  unfold lastPlace at place
  split at place <;> omega

/-- A decimal without an exponent is the number nearest to its digits. -/
theorem ofDecimal_eq_ofRatio (negative : Bool) (n : Nat) :
    ofDecimal negative n 0 = ofRatio negative n 1 := by
  obtain rfl | positive := Nat.eq_zero_or_pos n
  · rfl
  have scale : n * Nat.pow 10 (0 : Int).toNat = n ∧ Nat.pow 10 (-(0 : Int)).toNat = 1 :=
    ⟨Nat.mul_one n, rfl⟩
  simp only [ofDecimal, if_neg (Nat.ne_of_gt positive), scale]
  split
  · next large => rw [ofRatio_eq_infinite (not_nearest_lt (by omega))]
  · rw [if_neg (by omega)]

end Nearest

end ServerTemplate.Binary64
