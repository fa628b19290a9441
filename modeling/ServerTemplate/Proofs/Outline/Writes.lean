import ServerTemplate.Proofs.Outline.MarkerFree
import ServerTemplate.Proofs.Outline.Scopes

/-!
# Parts that write an outline

`Emit.WritesCode s x r` says that the part `x` of a conversion, begun in the state `s`, writes the
code that `r` gives, or fails as `r` does; `Emit.Renders s x r` says it of an outline in markup. In
both the scopes are in the end what they were in the beginning. A part is followed by another
through `WritesCode.then` and `Renders.then`.
-/

namespace ServerTemplate

open Emit

/-- The pieces written from one state to another, which has the same scopes. -/
structure Wrote (s : Progress) (pieces : List Piece) (s' : Progress) : Prop where
  pieces : s'.pieces = pieces.reverse ++ s.pieces
  tracker : s'.tracker = s.tracker

namespace Wrote

variable {s s' s'' : Progress} {ps qs : List Piece}

theorem refl (s : Progress) : Wrote s [] s := ⟨rfl, rfl⟩

theorem trans (h : Wrote s ps s') (h' : Wrote s' qs s'') : Wrote s (ps ++ qs) s'' where
  pieces := by rw [h'.pieces, h.pieces, List.reverse_append, List.append_assoc]
  tracker := h'.tracker.trans h.tracker

theorem writing (s : Progress) (piece : Piece) : Wrote s [piece] (s.writing piece) := ⟨rfl, rfl⟩

/-- A step in the journal writes nothing. -/
theorem of_noting {event : Event} (h : Wrote (s.noting event) ps s') : Wrote s ps s' :=
  ⟨h.pieces, h.tracker⟩

/-- Nor does a move of the cursor. -/
theorem moving (h : Wrote s ps s') (k : Cursor) : Wrote s ps (s'.moving k) := ⟨h.pieces, h.tracker⟩

theorem texting (s : Progress) (content : String) :
    Wrote s (Outline.text content).pieces (s.texting content) where
  pieces := by
    rw [Progress.texting_pieces, Outline.pieces]
    split <;> rfl
  tracker := Progress.texting_tracker s content

/-- Pieces written inside a frame, once it has been left again. -/
theorem within {t : Tracker} (h : Wrote (s.tracking t) ps s') :
    Wrote s ps (s'.tracking s.tracker) :=
  ⟨h.pieces, rfl⟩

end Wrote

/-! ### Frames and regions are left as they were entered -/

namespace Tracker

variable {t : Tracker}

/-- Scopes that differ in one more frame alone become the same when it is left. -/
theorem exit_of_frames (t' : Tracker) {frame : Frame} (nonempty : t.frames ≠ [])
    (hframes : t'.frames = frame :: t.frames) (hdepth : frame.regionDepth = t'.regions.length)
    (same : { t' with frames := t.frames } = t) :
    t'.exit (some frame.kind) = .ok (frame, t) := by
  obtain ⟨next, outer, hnext⟩ := List.exists_cons_of_ne_nil nonempty
  have expected : (some frame.kind).filter (fun kind => kind != frame.kind) = none := by simp
  rw [hnext] at same
  unfold exit
  rw [hframes, hnext]
  dsimp only
  rw [expected]
  dsimp only
  rw [if_pos hdepth, same]

theorem exit_enter (nonempty : t.frames ≠ []) (kind : FrameKind) :
    ∃ frame, (t.enter kind).exit (some kind) = .ok (frame, t) := by
  have left := exit_of_frames (t.enter kind) nonempty rfl rfl rfl
  exact ⟨_, left⟩

theorem exit_enterLoop (nonempty : t.frames ≠ []) (item array : String) :
    ∃ frame, ((t.enter .loop (some item) (some array)).bind item .loopItem).exit (some .loop) =
      .ok (frame, t) := by
  obtain ⟨next, outer, hnext⟩ := List.exists_cons_of_ne_nil nonempty
  have hbind : (t.enter .loop (some item) (some array)).bind item .loopItem =
      { t with frames := ⟨.loop, [(item, .loopItem)], some (t.frames.length - 1), some item,
        some array, t.regions.length⟩ :: t.frames } := by
    simp [enter, bind, hnext, Frame.bind, Frame.binds]
  rw [hbind]
  have left := exit_of_frames { t with frames := ⟨.loop, [(item, .loopItem)],
    some (t.frames.length - 1), some item, some array, t.regions.length⟩ :: t.frames }
    nonempty rfl rfl rfl
  exact ⟨_, left⟩

theorem leaveCode_enterCode : t.enterCode.leaveCode = .ok t := rfl

end Tracker

namespace Emit

section Rules

variable {α : Type} {s : Progress} {bad : Diagnostic → Progress → Prop}

/-- A check passes or fails before what comes behind it. -/
theorem after_check {r : Except Diagnostic α} {f : α → Emit Unit}
    {good : Unit → Progress → Prop} :
    After (ofExcept r >>= f) s good bad ↔
      match r with
      | .ok a => After (f a) s good bad
      | .error d => bad d s := by
  rw [after_bind]
  cases r <;> rfl

end Rules

/-- A part writes the code that `r` gives, or fails as `r` does. The cursor stays where it is. -/
def WritesCode (s : Progress) (x : Emit Unit) (r : Except Diagnostic (List Piece)) : Prop :=
  After x s (fun _ s' => ∃ ps, r = .ok ps ∧ Wrote s ps s' ∧ s'.cursor = s.cursor)
    fun d _ => r = .error d

/-- A part writes the outline that `r` gives and moves the cursor behind it, or it fails as `r`. -/
def Renders (s : Progress) (x : Emit Unit) (r : Except Diagnostic (Outline × Cursor)) : Prop :=
  After x s (fun _ s' => ∃ o, r = .ok (o, s'.cursor) ∧ Wrote s o.pieces s')
    fun d _ => r = .error d

variable {s : Progress} {x : Emit Unit} {f : Unit → Emit Unit} {good : Unit → Progress → Prop}
  {failure : Diagnostic → Prop}

/-- What comes behind code begins where the code has been written. -/
theorem WritesCode.then {r : Except Diagnostic (List Piece)} (h : WritesCode s x r)
    (hok : ∀ ps s', r = .ok ps → Wrote s ps s' → s'.cursor = s.cursor →
      After (f ()) s' good fun d _ => failure d)
    (herror : ∀ d, r = .error d → failure d) :
    After (x >>= f) s good fun d _ => failure d :=
  after_bind.mpr <| h.mono (fun _ s' ⟨ps, hr, hw, hk⟩ => hok ps s' hr hw hk)
    fun d _ hd => herror d hd

/-- What comes behind an outline begins where the outline has been written. -/
theorem Renders.then {r : Except Diagnostic (Outline × Cursor)} (h : Renders s x r)
    (hok : ∀ o s', r = .ok (o, s'.cursor) → Wrote s o.pieces s' →
      After (f ()) s' good fun d _ => failure d)
    (herror : ∀ d, r = .error d → failure d) :
    After (x >>= f) s good fun d _ => failure d :=
  after_bind.mpr <| h.mono (fun _ s' ⟨o, hr, hw⟩ => hok o s' hr hw) fun d _ hd => herror d hd

end Emit

end ServerTemplate
