import Mathlib.Data.List.TakeWhile
import ServerTemplate.Text.Lines

/-!
# Two notions of a line

A script counts its lines by line feeds; a snippet ends them at any line end. `feedLines` are the
lines as a script counts them. A line with no further end in it is whole (`IsWhole`). As long as all
lines are, the two notions agree; in the first one that is not, a snippet shows what stands in front
of the first end in it (`show_lines`).
-/

namespace ServerTemplate.Text

/-- The lines of a text that line feeds end, without their ends. A carriage return in front of the
line feed belongs to the end, and something may follow the last end. -/
def feedLines : List Char → List (List Char)
  | [] => [[]]
  | '\n' :: rest => [] :: feedLines rest
  | '\r' :: '\n' :: rest => [] :: feedLines rest
  | c :: rest => (feedLines rest).modifyHead (c :: ·)

/-- The line on which a point of a text stands. -/
def feedLineAt? (cs : List Char) (point : Nat) : Option (List Char) :=
  (feedLines cs)[(cs.take point).count '\n']?

/-- Whether there is no line end in a line. -/
def IsWhole (line : List Char) : Prop := ∀ c ∈ line, isLineEnd c = false

instance (line : List Char) : Decidable (IsWhole line) := List.decidableBAll _ line

/-- Whether the lines in front of that on which a point stands are whole. -/
def AreWholeBefore (cs : List Char) (point : Nat) : Prop :=
  ∀ line ∈ (feedLines cs).take ((cs.take point).count '\n'), IsWhole line

instance (cs : List Char) (point : Nat) : Decidable (AreWholeBefore cs point) :=
  List.decidableBAll IsWhole _

variable {cs : List Char}

theorem length_feedLines : (feedLines cs).length = cs.count '\n' + 1 := by
  fun_induction feedLines cs with
  | case1 => rfl
  | case2 rest ih => rw [List.length_cons, ih, List.count_cons_self]
  | case3 rest ih =>
    rw [List.length_cons, ih, List.count_cons_of_ne (by decide), List.count_cons_self]
  | case4 c rest noFeed _ ih =>
    rw [List.length_modifyHead, ih, List.count_cons_of_ne]
    rintro rfl
    exact noFeed rfl

theorem feedLines_ne_nil : feedLines cs ≠ [] := fun h => by
  have length : (feedLines cs).length = cs.count '\n' + 1 := length_feedLines
  rw [h] at length
  cases length

theorem isWhole_cons {c : Char} {line : List Char} :
    IsWhole (c :: line) ↔ isLineEnd c = false ∧ IsWhole line := List.forall_mem_cons

/-- What stands in front of the first end in a line is all of it if the line is whole. -/
theorem takeWhile_eq_self_iff {line : List Char} :
    line.takeWhile (fun c => !isLineEnd c) = line ↔ IsWhole line := by
  rw [List.takeWhile_eq_self_iff]
  simp [IsWhole]

theorem lines_cons {c : Char} {rest : List Char}
    (alone : ∀ more, c = '\r' → rest = '\n' :: more → False) : lines (c :: rest) =
      if isLineEnd c then [] :: lines rest
      else (c :: (lines rest).headD []) :: (lines rest).tail := by
  rw [lines]
  · split
    · rfl
    · cases lines rest <;> rfl
  · exact alone

/-- Only of an empty text there is one line with nothing on it. -/
theorem eq_nil_of_feedLines (h : feedLines cs = [[]]) : cs = [] := by
  fun_cases feedLines cs with
  | case1 => rfl
  | case2 rest => simp [feedLines, feedLines_ne_nil] at h
  | case3 rest => simp [feedLines, feedLines_ne_nil] at h
  | case4 c rest noFeed alone =>
    rw [feedLines] at h
    · cases first : feedLines rest <;> simp [first] at h
    · exact noFeed
    · exact alone

/-- Whether lines show others: behind whole ones, what stands in front of the first end in a line. A
last line with nothing on it is not shown. -/
def Show (shown feed : List (List Char)) : Prop :=
  ∀ k line, (∀ l ∈ feed.take k, IsWhole l) → feed[k]? = some line →
    (k + 1 < feed.length ∨ line ≠ []) → shown[k]? = some (line.takeWhile fun c => !isLineEnd c)

section Show

variable {c : Char} {first : List Char} {shown feed more : List (List Char)}

theorem Show.cons_nil (h : Show shown feed) : Show ([] :: shown) ([] :: feed) := by
  intro k line before at_k last
  cases k with
  | zero =>
    cases at_k
    rfl
  | succ k =>
    rw [List.take_succ_cons, List.forall_mem_cons] at before
    refine h k line before.2 at_k (last.imp_left fun lt => ?_)
    exact Nat.lt_of_succ_lt_succ lt

/-- Behind a line that begins with an end nothing matters. -/
theorem show_of_isLineEnd (ends : isLineEnd c = true) :
    Show ([] :: shown) ((c :: first) :: more) := by
  intro k line before at_k _
  cases k with
  | zero =>
    cases at_k
    simp [ends]
  | succ k =>
    rw [List.take_succ_cons, List.forall_mem_cons, isWhole_cons, ends] at before
    cases before.1.1

/-- A character that is no end is shown in front of the first line. -/
theorem Show.cons (h : Show shown (first :: more)) (plain : isLineEnd c = false)
    (missing : first = [] → more = [] → shown = []) :
    Show ((c :: shown.headD []) :: shown.tail) ((c :: first) :: more) := by
  intro k line before at_k last
  cases k with
  | zero =>
    cases at_k
    have head : shown.headD [] = first.takeWhile fun c => !isLineEnd c := by
      by_cases empty : first = [] ∧ more = []
      · rw [missing empty.1 empty.2, empty.1]
        rfl
      · have line : 0 + 1 < (first :: more).length ∨ first ≠ [] := by
          rw [List.length_cons, Nat.add_lt_add_iff_right, List.length_pos_iff, ← not_and_or]
          exact fun both => empty both.symm
        have shows := h 0 first (List.forall_mem_nil _) rfl line
        rw [List.headD_eq_head?_getD, List.head?_eq_getElem?, shows]
        rfl
    rw [List.getElem?_cons_zero, head, List.takeWhile_cons, plain]
    rfl
  | succ k =>
    rw [List.take_succ_cons, List.forall_mem_cons, isWhole_cons] at before
    have shows := h (k + 1) line
      (by simpa using ⟨before.1.2, before.2⟩) at_k last
    rw [List.getElem?_cons_succ, List.getElem?_tail]
    exact shows

end Show

/-- Behind whole lines, a snippet shows what stands in front of the first end in a line. -/
theorem show_lines (cs : List Char) : Show (lines cs) (feedLines cs) := by
  fun_induction feedLines cs with
  | case1 =>
    intro k line _ at_k last
    cases k <;> simp_all
  | case2 rest ih =>
    rw [lines_cons (by simp)]
    exact ih.cons_nil
  | case3 rest ih =>
    rw [lines]
    exact ih.cons_nil
  | case4 c rest noFeed alone ih =>
    rw [lines_cons alone]
    cases eq : feedLines rest with
    | nil => exact absurd eq feedLines_ne_nil
    | cons first more =>
      rw [eq] at ih
      rw [List.modifyHead_cons]
      split
      · rename_i ends
        exact show_of_isLineEnd ends
      · rename_i plain
        refine ih.cons (by simpa using plain) ?_
        rintro rfl rfl
        rw [eq_nil_of_feedLines eq, lines]

/-- A point in a text stands on a line. If that is the last one, there is something on it. -/
theorem exists_feedLineAt? {point : Nat} (lt : point < cs.length) :
    ∃ line, feedLineAt? cs point = some line ∧
      ((cs.take point).count '\n' + 1 < (feedLines cs).length ∨ line ≠ []) := by
  unfold feedLineAt?
  fun_induction feedLines cs generalizing point with
  | case1 => exact absurd lt (Nat.not_lt_zero _)
  | case2 rest ih =>
    cases point with
    | zero => exact ⟨[], rfl, .inl (by simp [length_feedLines])⟩
    | succ point =>
      obtain ⟨line, found, last⟩ := ih (Nat.lt_of_succ_lt_succ lt)
      exact ⟨line, by simpa using found, by simpa using last⟩
  | case3 rest ih =>
    match point with
    | 0 | 1 => exact ⟨[], rfl, .inl (by simp [length_feedLines])⟩
    | point + 2 =>
      obtain ⟨line, found, last⟩ := ih (by simpa using lt)
      exact ⟨line, by simpa using found, by simpa using last⟩
  | case4 c rest noFeed alone ih =>
    cases eq : feedLines rest with
    | nil => exact absurd eq feedLines_ne_nil
    | cons first more =>
      rw [eq] at ih
      rw [List.modifyHead_cons]
      cases point with
      | zero => exact ⟨c :: first, rfl, .inr (List.cons_ne_nil c first)⟩
      | succ point =>
        obtain ⟨line, found, last⟩ := ih (Nat.lt_of_succ_lt_succ lt)
        have other : c ≠ '\n' := noFeed
        rw [List.take_succ_cons, List.count_cons_of_ne other]
        cases feeds : (rest.take point).count '\n' with
        | zero => exact ⟨c :: first, rfl, .inr (List.cons_ne_nil c first)⟩
        | succ k =>
          rw [feeds] at found last
          exact ⟨line, found, last⟩

end ServerTemplate.Text
