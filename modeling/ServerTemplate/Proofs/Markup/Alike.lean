import ServerTemplate.Markup.Cursor

/-!
# Cursors that stand at the same place

A cursor keeps the last name and the last quote also where its state does not use them. Two cursors
are alike if they differ in such fields alone (`Cursor.Alike`). They stay alike over every text and
every value, and they name the same attribute.
-/

namespace ServerTemplate.Cursor

/-- The cursor without the fields that its state does not use. -/
def live (k : Cursor) : Cursor :=
  match k.state with
  | .text | .comment => { state := k.state }
  | .rawText | .tagName | .inTag => { state := k.state, tag := k.tag }
  | .attributeName | .afterAttributeName | .beforeValue =>
    { state := k.state, attr := k.attr, tag := k.tag }
  | .value => k

/-- Whether two cursors stand at the same place. -/
def Alike (k j : Cursor) : Prop := k.live = j.live

instance (k j : Cursor) : Decidable (k.Alike j) := by
  unfold Alike
  infer_instance

@[simp] theorem live_state (k : Cursor) : k.live.state = k.state := by
  unfold live
  split <;> rfl

theorem live_closeTag {k j : Cursor} (htag : k.tag = j.tag) :
    k.closeTag.live = j.closeTag.live := by
  unfold closeTag
  rw [htag]
  split <;> rfl

/-- A character moves a cursor to the same place as one without the fields that it does not use. -/
theorem advance_live (k : Cursor) (c : Char) (rest : List Char) :
    (k.live.advance c rest).1.live = (k.advance c rest).1.live ∧
      (k.live.advance c rest).2 = (k.advance c rest).2 := by
  obtain ⟨state, attr, quote, tag⟩ := k
  -- the fields of the cursor in the state, and then the cases of a transition from the state
  cases state with
  | text | comment =>
    change ((advance { state := _ } c rest).1.live = _ ∧ (advance { state := _ } c rest).2 = _)
    simp only [advance]
    repeat' split
    all_goals exact ⟨rfl, rfl⟩
  | rawText =>
    change ((advance { state := _, tag := tag } c rest).1.live = _ ∧
      (advance { state := _, tag := tag } c rest).2 = _)
    simp only [advance]
    split <;> exact ⟨rfl, rfl⟩
  | tagName | inTag =>
    change ((advance { state := _, tag := tag } c rest).1.live = _ ∧
      (advance { state := _, tag := tag } c rest).2 = _)
    simp only [advance]
    split
    · exact ⟨live_closeTag rfl, rfl⟩
    · split <;> exact ⟨rfl, rfl⟩
  | attributeName =>
    change ((advance { state := _, attr := attr, tag := tag } c rest).1.live = _ ∧
      (advance { state := _, attr := attr, tag := tag } c rest).2 = _)
    simp only [advance]
    split
    · exact ⟨rfl, rfl⟩
    split
    · exact ⟨live_closeTag rfl, rfl⟩
    split
    · exact ⟨rfl, rfl⟩
    · split <;> exact ⟨rfl, rfl⟩
  | afterAttributeName =>
    change ((advance { state := _, attr := attr, tag := tag } c rest).1.live = _ ∧
      (advance { state := _, attr := attr, tag := tag } c rest).2 = _)
    simp only [advance]
    split
    · exact ⟨live_closeTag rfl, rfl⟩
    split
    · exact ⟨rfl, rfl⟩
    · split <;> exact ⟨rfl, rfl⟩
  | beforeValue =>
    change ((advance { state := _, attr := attr, tag := tag } c rest).1.live = _ ∧
      (advance { state := _, attr := attr, tag := tag } c rest).2 = _)
    simp only [advance]
    split
    · exact ⟨rfl, rfl⟩
    split
    · exact ⟨live_closeTag rfl, rfl⟩
    · split <;> exact ⟨rfl, rfl⟩
  | value => exact ⟨rfl, rfl⟩

theorem feedFrom_live (taken : Nat) (k : Cursor) (cs : List Char) :
    (feedFrom taken k.live cs).live = (feedFrom taken k cs).live := by
  induction cs generalizing taken k with
  | nil =>
    obtain ⟨state, attr, quote, tag⟩ := k
    cases state <;> rfl
  | cons c rest ih =>
    cases taken with
    | succ taken => exact ih taken k
    | zero =>
      obtain ⟨same, taken⟩ := advance_live k c rest
      rw [feedFrom, feedFrom, taken, ← ih _ (k.live.advance c rest).1, same, ih]

namespace Alike

variable {k j : Cursor}

theorem refl (k : Cursor) : k.Alike k := rfl

theorem symm (h : k.Alike j) : j.Alike k := Eq.symm h

theorem trans {i : Cursor} (h : k.Alike j) (h' : j.Alike i) : k.Alike i := Eq.trans h h'

theorem state (h : k.Alike j) : k.state = j.state := by
  rw [← live_state k, h, live_state]

/-- Cursors at the same place are at the same place behind a text. -/
theorem feed (h : k.Alike j) (cs : List Char) : (k.feed cs).Alike (j.feed cs) := by
  have hk := feedFrom_live 0 k cs
  have hj := feedFrom_live 0 j cs
  exact hk.symm.trans ((congrArg (fun i => (feedFrom 0 i cs).live) h).trans hj)

/-- The name of the attribute is used wherever there is one. -/
theorem attributeName? (h : k.Alike j) : k.attributeName? = j.attributeName? := by
  have hstate := h.state
  obtain ⟨state, attr, quote, tag⟩ := k
  obtain ⟨state', attr', quote', tag'⟩ := j
  cases hstate
  cases state with
  | beforeValue | value =>
    cases h
    rfl
  | _ => rfl

/-- Cursors at the same place are at the same place behind a value. -/
theorem interpolated (h : k.Alike j) : k.interpolated.Alike j.interpolated := by
  have hstate := h.state
  obtain ⟨state, attr, quote, tag⟩ := k
  obtain ⟨state', attr', quote', tag'⟩ := j
  cases hstate
  cases state with
  | beforeValue =>
    cases h
    rfl
  | _ => exact h

end Alike

end ServerTemplate.Cursor
