import Mathlib.Data.List.Find
import Mathlib.Logic.Relation
import ServerTemplate.Scope.Tracker

/-!
# How scopes change

`Tracker.Move` lists the changes that a conversion makes to its scopes: regions of code are opened
and left, frames are entered and left, and a loop is entered together with its item.
`Tracker.Sound` is what they keep: only a loop binds a name, and it binds its item and nothing else.
A name is therefore bound by the innermost open loop whose item it is
(`Sound.bindingFrame?_eq_loopFrame?`).
-/

namespace ServerTemplate

open Relation (ReflTransGen)

/-- Only a loop binds a name. It has an item and an array, and binds its item. -/
def Frame.Sound (frame : Frame) : Prop :=
  match frame.kind with
  | .loop => ∃ item array, frame.item = some item ∧ frame.arrayName = some array ∧
      frame.bound = [(item, .loopItem)]
  | _ => frame.bound = []

/-- A sound frame binds a name if it is a loop over items of this name. -/
theorem Frame.Sound.binds_eq {frame : Frame} (sound : frame.Sound) (name : String) :
    frame.binds name = (frame.kind == .loop && frame.item == some name) := by
  unfold Frame.Sound at sound
  split at sound
  · rename_i hkind
    obtain ⟨item, array, hitem, -, hbound⟩ := sound
    simp [Frame.binds, hkind, hitem, hbound]
  · rename_i hkind
    have : (frame.kind == FrameKind.loop) = false := by simpa using hkind
    rw [this, Bool.false_and, Frame.binds, sound]
    rfl

/-- A sound loop has an array. -/
theorem Frame.Sound.exists_arrayName {frame : Frame} (sound : frame.Sound)
    (loop : frame.kind = .loop) : ∃ array, frame.arrayName = some array := by
  unfold Frame.Sound at sound
  rw [loop] at sound
  obtain ⟨_, array, -, harray, -⟩ := sound
  exact ⟨array, harray⟩

namespace Tracker

/-- A change that a conversion makes to its scopes. -/
inductive Move : Tracker → Tracker → Prop
  | enterCode (t : Tracker) : Move t t.enterCode
  | leaveCode {t t' : Tracker} (left : t.leaveCode = .ok t') : Move t t'
  | enter (t : Tracker) {kind : FrameKind} (noLoop : kind ≠ .loop) : Move t (t.enter kind)
  | enterLoop (t : Tracker) (item array : String) :
      Move t ((t.enter .loop (some item) (some array)).bind item .loopItem)
  | exit {t t' : Tracker} {kind : FrameKind} {frame : Frame}
      (left : t.exit (some kind) = .ok (frame, t')) : Move t t'

/-- Any number of changes. -/
abbrev Moves : Tracker → Tracker → Prop := ReflTransGen Move

/-- Some frame is open, and all open frames are sound. -/
structure Sound (t : Tracker) : Prop where
  nonempty : t.frames ≠ []
  frames : ∀ frame ∈ t.frames, frame.Sound

theorem sound_start (parameters : List String) (component : Option String) :
    (start parameters component).Sound where
  nonempty := List.cons_ne_nil _ _
  frames frame h := by
    rw [List.mem_singleton.mp h]
    rfl

/-- The frame of a loop is opened around the others and binds the item. -/
theorem frames_enterLoop {t : Tracker} (h : t.frames ≠ []) (item array : String) :
    ((t.enter .loop (some item) (some array)).bind item .loopItem).frames =
      ⟨.loop, [(item, .loopItem)], some (t.frames.length - 1), some item, some array,
        t.regions.length⟩ :: t.frames := by
  obtain ⟨frame, outer, hframes⟩ := List.exists_cons_of_ne_nil h
  simp [enter, bind, hframes, Frame.bind, Frame.binds]

theorem frames_leaveCode {t t' : Tracker} (h : t.leaveCode = .ok t') : t'.frames = t.frames := by
  unfold leaveCode at h
  split at h
  · cases h
    rfl
  · cases h

/-- Leaving a frame leaves the frames around it, of which there is at least one. -/
theorem frames_exit {t t' : Tracker} {kind : Option FrameKind} {frame : Frame}
    (h : t.exit kind = .ok (frame, t')) : t.frames = frame :: t'.frames ∧ t'.frames ≠ [] := by
  unfold exit at h
  split at h
  · rename_i hframes
    split at h
    · cases h
    · split at h
      · cases h
        exact ⟨hframes, List.cons_ne_nil _ _⟩
      · cases h
  · cases h

/-- The frame that is left is of the expected kind, and the regions opened in it are left. -/
theorem exit_frame {t t' : Tracker} {kind : FrameKind} {frame : Frame}
    (h : t.exit (some kind) = .ok (frame, t')) :
    frame.kind = kind ∧ frame.regionDepth = t.regions.length ∧ t'.regions = t.regions := by
  unfold exit at h
  split at h
  · split at h
    · cases h
    · rename_i expected
      split at h
      · rename_i depth
        cases h
        have same : (kind != frame.kind) = false := by
          rw [Option.filter_some] at expected
          split at expected
          · cases expected
          · rename_i hkind
            exact Bool.eq_false_iff.mpr hkind
        exact ⟨(bne_eq_false_iff_eq.mp same).symm, depth, rfl⟩
      · cases h
  · cases h

namespace Sound

variable {t t' : Tracker}

/-- A sound frame may be opened. -/
theorem cons (sound : t.Sound) {frame : Frame} (h : frame.Sound)
    (hframes : t'.frames = frame :: t.frames) : t'.Sound where
  nonempty := hframes ▸ List.cons_ne_nil _ _
  frames frame' h' := by
    rcases List.mem_cons.mp (hframes ▸ h') with rfl | h'
    · exact h
    · exact sound.frames _ h'

/-- Every change keeps the frames sound. -/
theorem move (sound : t.Sound) (h : Move t t') : t'.Sound := by
  cases h with
  | enterCode => exact ⟨sound.nonempty, sound.frames⟩
  | leaveCode left =>
    have same := frames_leaveCode left
    exact ⟨same ▸ sound.nonempty, same ▸ sound.frames⟩
  | enter noLoop =>
    refine sound.cons ?_ rfl
    unfold Frame.Sound
    split
    · exact absurd ‹_› noLoop
    · rfl
  | enterLoop item array =>
    have h : (⟨.loop, [(item, .loopItem)], some (t.frames.length - 1), some item, some array,
        t.regions.length⟩ : Frame).Sound := ⟨item, array, rfl, rfl, rfl⟩
    exact sound.cons h (frames_enterLoop sound.nonempty item array)
  | exit left =>
    obtain ⟨hframes, nonempty⟩ := frames_exit left
    exact ⟨nonempty, fun frame h => sound.frames frame (hframes ▸ List.mem_cons_of_mem _ h)⟩

theorem moves (sound : t.Sound) (h : Moves t t') : t'.Sound := by
  induction h with
  | refl => exact sound
  | tail _ h ih => exact ih.move h

end Sound

/-! ### The loop of an item -/

/-- The innermost open loop whose item has a name. -/
def loopFrame? (t : Tracker) (item : String) : Option Frame :=
  t.frames.find? fun frame => frame.kind == .loop && frame.item == some item

/-- The array of the innermost open loop whose item has a name. -/
def loopArray? (t : Tracker) (item : String) : Option String :=
  (t.loopFrame? item).bind Frame.arrayName

namespace Sound

variable {t : Tracker} (sound : t.Sound)

include sound

/-- A name that an open frame binds is the item of a loop. -/
theorem bindingFrame?_eq_loopFrame? (name : String) : t.bindingFrame? name = t.loopFrame? name := by
  unfold bindingFrame? loopFrame?
  refine List.find?_congr fun frame h => ?_
  exact (sound.frames frame h).binds_eq name

/-- So it makes no difference whether only loops are looked at. -/
theorem filter_bindingFrame? (name : String) :
    (t.bindingFrame? name).filter (fun frame => frame.kind == .loop) = t.loopFrame? name := by
  rw [sound.bindingFrame?_eq_loopFrame?]
  cases h : t.loopFrame? name with
  | none => rfl
  | some frame =>
    have := List.find?_some h
    rw [Bool.and_eq_true] at this
    rw [Option.filter_some, if_pos this.1]

/-- The loop of an item has an array. -/
theorem loopArray?_of_loopFrame? {name : String} {frame : Frame}
    (h : t.loopFrame? name = some frame) :
    ∃ array, frame.arrayName = some array ∧ t.loopArray? name = some array := by
  have loop := List.find?_some h
  rw [Bool.and_eq_true, beq_iff_eq] at loop
  have sound_frame := sound.frames frame (List.mem_of_find?_eq_some h)
  obtain ⟨array, harray⟩ := sound_frame.exists_arrayName loop.1
  refine ⟨array, harray, ?_⟩
  rw [loopArray?, h, Option.bind_some, harray]

end Sound

end Tracker

end ServerTemplate
