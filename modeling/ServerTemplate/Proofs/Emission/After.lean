import ServerTemplate.Template.Emission

/-!
# What holds after a part of a conversion

`Emit.After x s good bad` says that the part `x` of a conversion, begun in the state `s`, ends in
`good` if it succeeds and in `bad` if it fails. For every operation of `Emit` there is one rule that
says what it comes to; a proof about a larger part composes these rules (`after_bind`) and never
unfolds the operations.

The states themselves are described by `Progress.noting`, `writing`, `texting`, `moving` and
`tracking`, one for each change that an operation makes.
-/

namespace ServerTemplate

/-- A check that is made of two passes if both pass. -/
theorem exists_ok_of_bind {ε α β : Type} {x : Except ε α} {f : α → Except ε β} {b : β}
    (h : (x >>= f) = .ok b) : ∃ a, x = .ok a ∧ f a = .ok b := by
  cases x with
  | ok a => exact ⟨a, rfl, h⟩
  | error d => cases h

/-- What passes and has some property, by evaluation. -/
theorem exists_ok_of_map_toOption {ε α β : Type} {x : Except ε α} {f : α → β} {b : β}
    (h : x.toOption.map f = some b) : ∃ a, x = .ok a ∧ f a = b := by
  cases x with
  | ok a => exact ⟨a, rfl, Option.some.inj h⟩
  | error d => cases h

theorem exists_ok_of_isSome {ε α : Type} {x : Except ε α} (h : x.toOption.isSome = true) :
    ∃ a, x = .ok a := by
  cases x with
  | ok a => exact ⟨a, rfl⟩
  | error d => cases h

theorem eq_ok_of_toOption {ε α : Type} {x : Except ε α} {a : α} (h : x.toOption = some a) :
    x = .ok a := by
  cases x with
  | ok b => exact congrArg Except.ok (Option.some.inj h)
  | error d => cases h

namespace Progress

/-- The state with one step more in the journal. -/
def noting (s : Progress) (event : Event) : Progress :=
  { s with journal := ⟨event, s.tracker, s.cursor, s.pieces⟩ :: s.journal }

/-- The state with one piece more. -/
def writing (s : Progress) (piece : Piece) : Progress := { s with pieces := piece :: s.pieces }

/-- The state with a literal text more, unless the text is empty. -/
def texting (s : Progress) (content : String) : Progress :=
  if content = "" then s else s.writing (.text content)

/-- The state with the cursor at another place. -/
def moving (s : Progress) (k : Cursor) : Progress := { s with cursor := k }

/-- The state with other scopes, which the journal takes down. -/
def tracking (s : Progress) (t : Tracker) : Progress := { s with tracker := t }.noting .scopes

section Fields

variable (s : Progress) (event : Event) (piece : Piece) (k : Cursor) (t : Tracker)

@[simp] theorem noting_tracker : (s.noting event).tracker = s.tracker := rfl
@[simp] theorem noting_pieces : (s.noting event).pieces = s.pieces := rfl
@[simp] theorem noting_journal :
    (s.noting event).journal = ⟨event, s.tracker, s.cursor, s.pieces⟩ :: s.journal := rfl

@[simp] theorem writing_tracker : (s.writing piece).tracker = s.tracker := rfl
@[simp] theorem writing_pieces : (s.writing piece).pieces = piece :: s.pieces := rfl
@[simp] theorem writing_journal : (s.writing piece).journal = s.journal := rfl

@[simp] theorem texting_tracker (content : String) : (s.texting content).tracker = s.tracker := by
  unfold texting
  split <;> rfl

@[simp] theorem texting_journal (content : String) : (s.texting content).journal = s.journal := by
  unfold texting
  split <;> rfl

theorem texting_pieces (content : String) : (s.texting content).pieces =
    if content = "" then s.pieces else .text content :: s.pieces := by
  unfold texting
  split <;> rfl

@[simp] theorem moving_tracker : (s.moving k).tracker = s.tracker := rfl

@[simp] theorem tracking_tracker : (s.tracking t).tracker = t := rfl
@[simp] theorem tracking_pieces : (s.tracking t).pieces = s.pieces := rfl
@[simp] theorem tracking_journal :
    (s.tracking t).journal = ⟨.scopes, t, s.cursor, s.pieces⟩ :: s.journal := rfl

end Fields

end Progress

namespace Emit

/-- What holds after a part of a conversion: `good` of its value and the state if it succeeds, and
`bad` of the diagnostic and the state if it fails. -/
def After {α : Type} (x : Emit α) (s : Progress) (good : α → Progress → Prop)
    (bad : Diagnostic → Progress → Prop) : Prop :=
  match x s with
  | .ok a s' => good a s'
  | .error d s' => bad d s'

section Rules

variable {α β : Type} {s : Progress} {bad : Diagnostic → Progress → Prop}

/-- What holds after a part holds of its result. -/
theorem After.of_ok {x : Emit α} {s' : Progress} {a : α} {good : α → Progress → Prop}
    (h : After x s good bad) (hx : x s = .ok a s') : good a s' := by
  rw [After, hx] at h
  exact h

/-- Where nothing is asked of a failure, only the results matter. -/
theorem after_of_ok {x : Emit α} {good : α → Progress → Prop}
    (h : ∀ a s', x s = .ok a s' → good a s') : After x s good fun _ _ => True := by
  unfold After
  cases hx : x s with
  | ok a s' => exact h a s' hx
  | error d s' => trivial

/-- What holds after a part may be weakened. -/
theorem After.mono {x : Emit α} {good good' : α → Progress → Prop}
    {bad' : Diagnostic → Progress → Prop} (h : After x s good bad)
    (hgood : ∀ a s', good a s' → good' a s') (hbad : ∀ d s', bad d s' → bad' d s') :
    After x s good' bad' := by
  unfold After at h ⊢
  cases hx : x s with
  | ok a s' => rw [hx] at h; exact hgood a s' h
  | error d s' => rw [hx] at h; exact hbad d s' h

/-- Of two parts one after the other, the second begins where the first ends. -/
@[simp] theorem after_bind {x : Emit α} {f : α → Emit β} {good : β → Progress → Prop} :
    After (x >>= f) s good bad ↔ After x s (fun a s' => After (f a) s' good bad) bad := by
  simp only [After, bind, EStateM.bind]
  cases x s <;> rfl

@[simp] theorem after_pure {a : α} {good : α → Progress → Prop} :
    After (pure a) s good bad ↔ good a s := Iff.rfl

@[simp] theorem after_throw {d : Diagnostic} {good : α → Progress → Prop} :
    After (throw d) s good bad ↔ bad d s := Iff.rfl

/-- A check passes with its value or fails with its diagnostic. -/
theorem after_ofExcept {r : Except Diagnostic α} {good : α → Progress → Prop}
    (hok : ∀ a, r = .ok a → good a s) (herror : ∀ d, r = .error d → bad d s) :
    After (ofExcept r) s good bad := by
  cases r with
  | ok a => exact hok a rfl
  | error d => exact herror d rfl

@[simp] theorem after_tracker {good : Tracker → Progress → Prop} :
    After tracker s good bad ↔ good s.tracker s := Iff.rfl

@[simp] theorem after_cursor {good : Cursor → Progress → Prop} :
    After cursor s good bad ↔ good s.cursor s := Iff.rfl

@[simp] theorem after_inCode {good : Bool → Progress → Prop} :
    After inCode s good bad ↔ good s.tracker.inCode s := Iff.rfl

@[simp] theorem after_note {event : Event} {good : Unit → Progress → Prop} :
    After (note event) s good bad ↔ good () (s.noting event) := Iff.rfl

@[simp] theorem after_write {piece : Piece} {good : Unit → Progress → Prop} :
    After (write piece) s good bad ↔ good () (s.writing piece) := Iff.rfl

@[simp] theorem after_moveCursor {f : Cursor → Cursor} {good : Unit → Progress → Prop} :
    After (moveCursor f) s good bad ↔ good () (s.moving (f s.cursor)) := Iff.rfl

@[simp] theorem after_setTracker {t : Tracker} {good : Unit → Progress → Prop} :
    After (setTracker t) s good bad ↔ good () (s.tracking t) := Iff.rfl

@[simp] theorem after_enterCode {good : Unit → Progress → Prop} :
    After enterCode s good bad ↔ good () (s.tracking s.tracker.enterCode) := Iff.rfl

/-- Leaving code takes the scopes without the innermost region, or fails where there is none. -/
theorem after_leaveCode {good : Unit → Progress → Prop}
    (hok : ∀ t, s.tracker.leaveCode = .ok t → good () (s.tracking t))
    (herror : ∀ d, s.tracker.leaveCode = .error d → bad d s) :
    After leaveCode s good bad := by
  simp only [leaveCode, after_bind, after_tracker]
  refine after_ofExcept (fun t ht => ?_) herror
  simpa only [after_setTracker] using hok t ht

/-- Leaving a frame takes the scopes around it, or fails where it cannot be left. -/
theorem after_exitScope {kind : FrameKind} {good : Unit → Progress → Prop}
    (hok : ∀ frame t, s.tracker.exit (some kind) = .ok (frame, t) → good () (s.tracking t))
    (herror : ∀ d, s.tracker.exit (some kind) = .error d → bad d s) :
    After (exitScope kind) s good bad := by
  simp only [exitScope, after_bind, after_tracker]
  refine after_ofExcept (fun r hr => ?_) herror
  simpa only [after_setTracker] using hok r.1 r.2 hr

/-- A frame without an item is opened and nothing else. -/
@[simp] theorem after_enterScope_none {kind : FrameKind} {good : Unit → Progress → Prop} :
    After (enterScope kind none none) s good bad ↔ good () (s.tracking (s.tracker.enter kind)) :=
  Iff.rfl

/-- The frame of a loop is opened and binds its item. -/
@[simp] theorem after_enterScope_some {kind : FrameKind} {item : String} {array : Option String}
    {good : Unit → Progress → Prop} :
    After (enterScope kind (some item) array) s good bad ↔
      good () ((s.tracking (s.tracker.enter kind (some item) array)).tracking
        ((s.tracker.enter kind (some item) array).bind item .loopItem)) :=
  Iff.rfl

end Rules

end Emit

end ServerTemplate
