import Mathlib.Data.List.Induction
import ServerTemplate.Text.Lines
import ServerTemplate.Text.Utf8

/-!
# Texts and their octets

Reading the octets of a text gives the text (`decodeLossy_encodeUtf8`), and a text that is cut
between characters has its octets cut at the width of what is in front (`take_encodeUtf8`,
`drop_encodeUtf8`). No octet of another character is that of a line feed, so the last line begins in
the octets where it begins in the text (`behindLastFeed_encodeUtf8`).
-/

namespace ServerTemplate.Text

variable {c : Char} {cs before behind : List Char} {i j : Nat}

/-! ### Widths -/

/-- The number of octets of a text. -/
def width (cs : List Char) : Nat := (encodeUtf8 cs).length

theorem encodeUtf8_append :
    encodeUtf8 (before ++ behind) = encodeUtf8 before ++ encodeUtf8 behind :=
  List.flatMap_append

theorem width_append : width (before ++ behind) = width before + width behind := by
  rw [width, encodeUtf8_append, List.length_append]
  rfl

theorem width_singleton_pos (c : Char) : 0 < width [c] := by
  unfold width encodeUtf8 octetsOf
  dsimp only
  rw [List.flatMap_singleton]
  repeat' split
  all_goals exact Nat.zero_lt_succ _

/-- A text without width is empty. -/
theorem width_pos (h : cs ≠ []) : 0 < width cs := by
  cases cs with
  | nil => exact absurd rfl h
  | cons c cs =>
    rw [← List.singleton_append, width_append]
    exact Nat.add_pos_left (width_singleton_pos c) _

/-- What more of a text is wider by. -/
theorem width_take (le : i ≤ j) :
    width (cs.take j) = width (cs.take i) + width ((cs.take j).drop i) := by
  have front : (cs.take j).take i = cs.take i := by rw [List.take_take, Nat.min_eq_left le]
  rw [← width_append, ← front, List.take_append_drop]

/-- Of the beginnings of a text the longer one is wider. -/
theorem width_take_le_iff (hi : i ≤ cs.length) :
    width (cs.take i) ≤ width (cs.take j) ↔ i ≤ j := by
  constructor
  · intro le
    refine Nat.le_of_not_lt fun lt => ?_
    have nonempty : (cs.take i).drop j ≠ [] := by
      rw [Ne, List.drop_eq_nil_iff, List.length_take]
      omega
    have wider : width (cs.take i) = width (cs.take j) + width ((cs.take i).drop j) :=
      width_take (Nat.le_of_lt lt)
    have pos := width_pos nonempty
    omega
  · intro le
    rw [width_take le]
    exact Nat.le_add_right _ _

theorem take_encodeUtf8 :
    (encodeUtf8 (before ++ behind)).take (width before) = encodeUtf8 before := by
  rw [encodeUtf8_append]
  exact List.take_left

theorem drop_encodeUtf8 :
    (encodeUtf8 (before ++ behind)).drop (width before) = encodeUtf8 behind := by
  rw [encodeUtf8_append]
  exact List.drop_left

/-! ### Reading octets -/

/-- A tail has the two highest of its eight bits fixed, and six bits of the code point. -/
theorem areTails_singleton (bits : Nat) : areTails [0x80 + bits % 0x40] = true := by
  simp only [areTails, List.all_cons, List.all_nil, Bool.and_true, Bool.and_eq_true,
    decide_eq_true_eq]
  omega

theorem isFirstTail_iff {lead bits : Nat} : isFirstTail lead (0x80 + bits % 0x40) = true ↔
    (lead = 0xE0 → 0xA0 ≤ 0x80 + bits % 0x40) ∧ (lead = 0xED → 0x80 + bits % 0x40 < 0xA0) ∧
      (lead = 0xF0 → 0x90 ≤ 0x80 + bits % 0x40) ∧ (lead = 0xF4 → 0x80 + bits % 0x40 < 0x90) := by
  rw [isFirstTail, areTails_singleton]
  simp only [Bool.true_and, Bool.and_eq_true, Bool.not_eq_true', Bool.and_eq_false_iff,
    beq_eq_false_iff_ne, decide_eq_false_iff_not]
  omega

section Leads

variable {a b c' d : Nat} {rest : List Nat} (many : 0x80 ≤ a) (first : isFirstTail a b = true)

include many first

theorem decodeLossy_two (lead : tailsBehind a = 1) :
    decodeLossy (a :: b :: rest) = Char.ofNat (tailed (a - 0xC0) [b]) :: decodeLossy rest := by
  rw [decodeLossy.eq_def]
  dsimp only
  rw [if_neg (Nat.not_lt.mpr many), lead, if_neg (by decide), first, if_neg (by decide),
    if_pos (by decide)]

theorem decodeLossy_three (lead : tailsBehind a = 2) (second : areTails [c'] = true) :
    decodeLossy (a :: b :: c' :: rest) =
      Char.ofNat (tailed (a - 0xE0) [b, c']) :: decodeLossy rest := by
  rw [decodeLossy.eq_def]
  dsimp only
  rw [if_neg (Nat.not_lt.mpr many), lead, if_neg (by decide), first, if_neg (by decide),
    if_neg (by decide), second, if_neg (by decide), if_pos (by decide)]

theorem decodeLossy_four (lead : tailsBehind a = 3) (second : areTails [c'] = true)
    (third : areTails [d] = true) : decodeLossy (a :: b :: c' :: d :: rest) =
      Char.ofNat (tailed (a - 0xF0) [b, c', d]) :: decodeLossy rest := by
  rw [decodeLossy.eq_def]
  dsimp only
  rw [if_neg (Nat.not_lt.mpr many), lead, if_neg (by decide), first, if_neg (by decide),
    if_neg (by decide), second, if_neg (by decide), if_neg (by decide), third,
    if_neg (by decide)]

end Leads

/-- The octets of a character are read as that character, since it is no half of a pair. -/
theorem decodeLossy_octetsOf (c : Char) (rest : List Nat) :
    decodeLossy (octetsOf c ++ rest) = c :: decodeLossy rest := by
  have valid : c.toNat < 0xD800 ∨ 0xDFFF < c.toNat ∧ c.toNat < 0x110000 := c.valid
  have whole : Char.ofNat c.toNat = c := Char.ofNat_toNat c
  unfold octetsOf
  dsimp only
  generalize c.toNat = n at valid whole
  split
  · rename_i one
    rw [List.singleton_append, decodeLossy.eq_def]
    dsimp only
    rw [if_pos one, whole]
  split
  · have lead : tailsBehind (0xC0 + n / 0x40) = 1 := by
      simp only [tailsBehind, Bool.and_eq_true, decide_eq_true_eq]
      rw [if_pos (by omega)]
    have point : tailed (0xC0 + n / 0x40 - 0xC0) [0x80 + n % 0x40] = n := by
      simp only [tailed, List.foldl_cons, List.foldl_nil]
      omega
    simp only [List.cons_append, List.nil_append]
    rw [decodeLossy_two (by omega) (isFirstTail_iff.mpr (by omega)) lead, point, whole]
  split
  · have lead : tailsBehind (0xE0 + n / 0x1000) = 2 := by
      simp only [tailsBehind, Bool.and_eq_true, decide_eq_true_eq]
      rw [if_neg (by omega), if_pos (by omega)]
    have point : tailed (0xE0 + n / 0x1000 - 0xE0) [0x80 + n / 0x40 % 0x40, 0x80 + n % 0x40] =
        n := by
      simp only [tailed, List.foldl_cons, List.foldl_nil]
      omega
    simp only [List.cons_append, List.nil_append]
    rw [decodeLossy_three (by omega) (isFirstTail_iff.mpr (by omega)) lead (areTails_singleton _),
      point, whole]
  · have lead : tailsBehind (0xF0 + n / 0x40000) = 3 := by
      simp only [tailsBehind, Bool.and_eq_true, decide_eq_true_eq]
      rw [if_neg (by omega), if_neg (by omega), if_pos (by omega)]
    have point : tailed (0xF0 + n / 0x40000 - 0xF0)
        [0x80 + n / 0x1000 % 0x40, 0x80 + n / 0x40 % 0x40, 0x80 + n % 0x40] = n := by
      simp only [tailed, List.foldl_cons, List.foldl_nil]
      omega
    simp only [List.cons_append, List.nil_append]
    rw [decodeLossy_four (by omega) (isFirstTail_iff.mpr (by omega)) lead (areTails_singleton _)
      (areTails_singleton _), point, whole]

/-- The octets of a text are read as the text. -/
theorem decodeLossy_encodeUtf8 (cs : List Char) : decodeLossy (encodeUtf8 cs) = cs := by
  induction cs with
  | nil => rfl
  | cons c cs ih =>
    rw [encodeUtf8, List.flatMap_cons, decodeLossy_octetsOf]
    exact congrArg (c :: ·) ih

/-! ### Lines -/

/-- The line feed is in the octets of no other character. -/
theorem feed_notMem_octetsOf (h : c ≠ '\n') : 0x0A ∉ octetsOf c := by
  have other : c.toNat ≠ 0x0A := fun eq => h (by rw [← Char.ofNat_toNat c, eq])
  unfold octetsOf
  dsimp only
  generalize c.toNat = n at other
  repeat' split
  all_goals
    simp only [List.mem_cons, List.not_mem_nil, or_false, not_or]
    omega

/-- The last line of a text begins in the octets behind those of the lines in front. -/
theorem behindLastFeed_encodeUtf8 (cs : List Char) : behindLastFeed (encodeUtf8 cs) =
    width (cs.take (cs.length - columnAfter cs)) := by
  induction cs using List.reverseRecOn with
  | nil => rfl
  | append_singleton cs c ih =>
    unfold behindLastFeed columnAfter at ih ⊢
    have last : encodeUtf8 [c] = octetsOf c := List.flatMap_singleton _ _
    rw [encodeUtf8_append, last, List.reverse_append, List.reverse_append]
    by_cases feed : c = '\n'
    · -- behind a line feed there is no line yet
      subst feed
      have none : (octetsOf '\n').reverse = [0x0A] := by decide
      rw [none, List.reverse_singleton, List.singleton_append, List.singleton_append,
        List.takeWhile_cons_of_neg (by decide), List.takeWhile_cons_of_neg (by decide),
        List.length_nil, List.length_nil, Nat.sub_zero, Nat.sub_zero, List.take_length, width,
        encodeUtf8_append, last]
    · have others : ∀ b ∈ (octetsOf c).reverse, (b != 0x0A) = true := fun b mem =>
        bne_iff_ne.mpr fun eq => feed_notMem_octetsOf feed (eq ▸ List.mem_reverse.mp mem)
      have other : (c != '\n') = true := bne_iff_ne.mpr feed
      rw [List.takeWhile_append_of_pos others, List.reverse_singleton, List.singleton_append,
        List.takeWhile_cons, if_pos other, List.length_append, List.length_append,
        List.length_append, List.length_reverse, List.length_singleton, List.length_cons]
      have le : (cs.reverse.takeWhile (· != '\n')).length ≤ cs.length := by
        have := (List.takeWhile_sublist (l := cs.reverse) (· != '\n')).length_le
        rwa [List.length_reverse] at this
      have index : cs.length + 1 - ((cs.reverse.takeWhile (· != '\n')).length + 1) =
          cs.length - (cs.reverse.takeWhile (· != '\n')).length := by omega
      rw [index, List.take_append_of_le_length (Nat.sub_le _ _), ← ih]
      omega

end ServerTemplate.Text
