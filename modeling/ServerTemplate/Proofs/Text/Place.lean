import Mathlib.Data.List.TakeWhile
import ServerTemplate.Text.Lines

/-!
# Places and lines

A place is found again in the lines that line feeds separate: what stands from the place behind some
characters of a text on is what is left of the text behind them (`fromPlace?_after`).
-/

namespace ServerTemplate.Text

/-! ### The text from a place on -/

/-- What stands from a column of a line on, with the lines that follow. There is nothing from a
column that the line does not have. -/
def fromColumn? (lines : List (List Char)) (above column : Nat) : Option (List Char) :=
  match lines.drop above with
  | [] => none
  | line :: following =>
    if column ≤ line.length then some (['\n'].intercalate (line.drop column :: following)) else none

/-- What stands from a place on: the line of that number, without as many characters as the column
says, and the lines that follow. -/
def fromPlace? (cs : List Char) (place : Place) : Option (List Char) :=
  if 1 ≤ place.line ∧ 0 ≤ place.column then
    fromColumn? (cs.splitOn '\n') (place.line - 1).toNat place.column.toNat
  else none

variable {c : Char} {cs before : List Char} {line : List Char} {lines : List (List Char)}
  {above column point : Nat}

theorem fromColumn?_cons_succ :
    fromColumn? (line :: lines) (above + 1) column = fromColumn? lines above column := rfl

theorem fromColumn?_zero :
    fromColumn? (line :: lines) 0 0 = some (['\n'].intercalate (line :: lines)) := rfl

/-- A character in front of the line moves the column. -/
theorem fromColumn?_modifyHead_zero :
    fromColumn? (lines.modifyHead (c :: ·)) 0 (column + 1) = fromColumn? lines 0 column := by
  cases lines with
  | nil => rfl
  | cons line lines => simp [fromColumn?]

theorem fromColumn?_modifyHead_succ :
    fromColumn? (lines.modifyHead (c :: ·)) (above + 1) column =
      fromColumn? lines (above + 1) column := by
  cases lines <;> rfl

/-! ### Places behind characters -/

theorem columnAfter_of_count (single : before.count '\n' = 0) :
    columnAfter before = before.length := by
  have all : ∀ d ∈ before.reverse, (d != '\n') = true := fun d mem => bne_iff_ne.mpr fun feed =>
    List.count_eq_zero.mp single (feed ▸ List.mem_reverse.mp mem)
  rw [columnAfter, List.takeWhile_eq_self_iff.mpr all, List.length_reverse]

/-- What is in front of the last line does not count for the column. -/
theorem columnAfter_cons_of_count (later : before.count '\n' ≠ 0) :
    columnAfter (c :: before) = columnAfter before := by
  rw [columnAfter, columnAfter, List.reverse_cons, List.takeWhile_append, if_neg]
  intro whole
  have all := List.takeWhile_eq_self_iff.mp ((List.takeWhile_sublist _).eq_of_length whole)
  refine later (List.count_eq_zero.mpr fun mem => ?_)
  exact absurd (all '\n' (List.mem_reverse.mpr mem)) (by decide)

theorem columnAfter_feed_cons : columnAfter ('\n' :: before) = columnAfter before := by
  rw [columnAfter, columnAfter, List.reverse_cons, List.takeWhile_append]
  split
  · rename_i whole
    rw [whole]
    simp
  · rfl

/-- Behind a whole line it does not matter what is in front of that. -/
theorem columnAfter_append (later : before.count '\n' ≠ 0) :
    columnAfter (cs ++ before) = columnAfter before := by
  induction cs with
  | nil => rfl
  | cons c cs ih =>
    rw [List.cons_append, columnAfter_cons_of_count, ih]
    rw [List.count_append]
    omega

theorem fromColumn?_splitOn (le : point ≤ cs.length) :
    fromColumn? (cs.splitOn '\n') ((cs.take point).count '\n') (columnAfter (cs.take point)) =
      some (cs.drop point) := by
  induction cs generalizing point with
  | nil =>
    cases Nat.le_zero.mp le
    rfl
  | cons c cs ih =>
    cases point with
    | zero =>
      have whole : fromColumn? ((c :: cs).splitOn '\n') 0 0 = some (c :: cs) := by
        obtain ⟨line, lines, eq⟩ := List.exists_cons_of_ne_nil (List.splitOn_ne_nil '\n' (c :: cs))
        rw [eq, fromColumn?_zero, ← eq, List.intercalate_splitOn]
      exact whole
    | succ point =>
      have rest := ih (Nat.le_of_succ_le_succ le)
      rw [List.splitOn_cons_eq_if_modifyHead, List.take_succ_cons, List.drop_succ_cons, ← rest]
      split
      · -- the character ends a line: one line fewer is above
        rename_i feed
        rw [eq_of_beq feed, List.count_cons_self, columnAfter_feed_cons, fromColumn?_cons_succ]
      · rename_i other
        have other : c ≠ '\n' := by simpa using other
        rw [List.count_cons_of_ne other]
        -- it counts for the column if it is on the line of the place, and not at all above that
        by_cases single : (cs.take point).count '\n' = 0
        · have longer : (c :: cs.take point).count '\n' = 0 := by
            rw [List.count_cons_of_ne other, single]
          rw [columnAfter_of_count longer, columnAfter_of_count single, single, List.length_cons,
            fromColumn?_modifyHead_zero]
        · obtain ⟨above, eq⟩ := Nat.exists_eq_succ_of_ne_zero single
          rw [columnAfter_cons_of_count single, eq, fromColumn?_modifyHead_succ]

/-- From the place behind some characters on stands what is left behind them. -/
theorem fromPlace?_after (le : point ≤ cs.length) :
    fromPlace? cs (Place.after (cs.take point)) = some (cs.drop point) := by
  have above : (((cs.take point).count '\n' : Int) + 1 - 1).toNat = (cs.take point).count '\n' := by
    omega
  rw [fromPlace?, Place.after]
  dsimp only
  rw [if_pos ⟨by omega, by omega⟩, above, Int.toNat_natCast]
  exact fromColumn?_splitOn le

end ServerTemplate.Text
