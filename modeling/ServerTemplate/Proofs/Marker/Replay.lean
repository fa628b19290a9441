import ServerTemplate.Proofs.Literal.Puts
import ServerTemplate.Proofs.Region.Blocks
import ServerTemplate.Proofs.Region.Scan
import ServerTemplate.Proofs.Scope.Shadow

/-!
# What a replayed text comes to

`Segment.replay?` is what a literal text does to the scopes and to the cursor, without the
conversion around it: markers change the scopes, and texts in markup move the cursor
(`Emit.after_text_replay`).

No region of code is ever open in another (`Tracker.Flat`), so the region behind a marker is the one
that the scanner takes it for.
-/

namespace ServerTemplate

open Emit

/-- The scopes and the cursor behind the segments of a text, unless a marker does not fit. -/
def Segment.replay? : List Segment → Tracker → Cursor → Option (Tracker × Cursor)
  | [], t, k => some (t, k)
  | .text content :: rest, t, k => replay? rest t (if t.inCode then k else k.feed content)
  | .marker found :: rest, t, k => (t.behind found).toOption.bind fun t' => replay? rest t' k

namespace Emit

/-- A marker leads to the scopes behind it, or fails as they do, and changes neither the cursor nor
the output. -/
theorem after_replay_behind (found : Marker) (s : Progress) :
    After (replay found) s
      (fun _ s' => s.tracker.behind found = .ok s'.tracker ∧ s'.cursor = s.cursor ∧
        s'.pieces = s.pieces)
      fun d _ => s.tracker.behind found = .error d := by
  have leave (kind : FrameKind) : After (exitScope kind) s
      (fun _ s' => (s.tracker.exit (some kind)).map Prod.snd = .ok s'.tracker ∧
        s'.cursor = s.cursor ∧ s'.pieces = s.pieces)
      fun d _ => (s.tracker.exit (some kind)).map Prod.snd = .error d :=
    after_exitScope (fun _ _ left => ⟨by rw [left]; rfl, rfl, rfl⟩) fun d left => by rw [left]; rfl
  unfold replay
  rw [after_bind, after_tracker]
  cases found with
  | quoted => exact after_pure.mpr ⟨rfl, rfl, rfl⟩
  | openCode =>
    dsimp only
    split
    · rename_i code
      exact after_throw.mpr (by rw [Tracker.behind, if_pos code])
    · rename_i markup
      exact after_enterCode.mpr ⟨by rw [Tracker.behind, if_neg markup]; rfl, rfl, rfl⟩
  | closeCode =>
    dsimp only
    split
    · rename_i code
      rw [Tracker.behind, if_pos code]
      exact after_leaveCode (fun _ left => ⟨left, rfl, rfl⟩) fun _ left => left
    · rename_i markup
      exact after_throw.mpr (by rw [Tracker.behind, if_neg markup])
  | loop array item =>
    rw [after_bind, Tracker.behind]
    refine after_ofExcept (fun _ seen => ?_) fun d unseen => by rw [unseen]; rfl
    exact after_enterScope_some.mpr ⟨by rw [seen]; rfl, rfl, rfl⟩
  | endLoop => exact leave .loop
  | conditional => exact after_enterScope_none.mpr ⟨rfl, rfl, rfl⟩
  | endConditional => exact leave .conditional

/-- Segments are replayed one after the other. -/
theorem after_replayAll_replay (xs : List Segment) (s : Progress) :
    After (replayAll xs) s
      (fun _ s' => Segment.replay? xs s.tracker s.cursor = some (s'.tracker, s'.cursor) ∧
        s'.pieces = s.pieces)
      fun _ _ => Segment.replay? xs s.tracker s.cursor = none := by
  induction xs generalizing s with
  | nil => exact after_pure.mpr ⟨rfl, rfl⟩
  | cons x xs ih =>
    unfold replayAll
    cases x with
    | text content =>
      rw [after_bind, after_inCode, Segment.replay?]
      cases s.tracker.inCode with
      | true => exact ih s
      | false => exact ih (s.moving (s.cursor.feed content))
    | marker found =>
      rw [after_bind, Segment.replay?]
      refine (after_replay_behind found s).mono ?_ ?_
      · rintro _ s₁ ⟨behind, hcursor, hpieces⟩
        rw [behind, ← hcursor, ← hpieces]
        exact ih s₁
      · rintro _ _ behind
        rw [behind]
        rfl

/-- A literal text is written and replayed, or fails where it cannot be replayed. -/
theorem after_text_replay (content : String) (s : Progress) :
    After (text content) s
      (fun _ s' => Segment.replay? (s.tracker.segments content) s.tracker s.cursor =
          some (s'.tracker, s'.cursor) ∧ s'.written = s.written ++ content)
      fun _ _ => Segment.replay? (s.tracker.segments content) s.tracker s.cursor = none := by
  have run := after_replayAll_replay (s.tracker.segments content) (s.texting content)
  have cursor : (s.texting content).cursor = s.cursor := by
    unfold Progress.texting
    split <;> rfl
  rw [Progress.texting_tracker, cursor] at run
  unfold After
  rw [text_eq]
  refine run.mono (fun _ s' ⟨replayed, hpieces⟩ => ⟨replayed, ?_⟩) fun _ _ failed => failed
  rw [Progress.written, hpieces]
  exact s.written_texting content

end Emit

/-! ### Regions -/

namespace Tracker

variable {t t' : Tracker} {frame : Frame} {found : Marker}

/-- No region of code is open in another. -/
def Flat (t : Tracker) : Prop := t.regions = if t.inCode then [.code, .markup] else [.markup]

namespace Flat

theorem markup (flat : t.Flat) (h : t.inCode = false) : t.regions = [.markup] := by
  rw [flat, h]
  rfl

theorem code (flat : t.Flat) (h : t.inCode = true) : t.regions = [.code, .markup] := by
  rw [flat, h]
  rfl

theorem of_regions (flat : t.Flat) (same : t'.regions = t.regions) :
    t'.Flat ∧ t'.inCode = t.inCode := by
  have code := inCode_congr same
  refine ⟨?_, code⟩
  rw [Flat, code, same]
  exact flat

theorem enterCode (flat : t.Flat) (h : t.inCode = false) : t.enterCode.Flat := by
  change Region.code :: t.regions = [.code, .markup]
  rw [flat.markup h]

theorem leaveCode (flat : t.Flat) (left : t.leaveCode = .ok t') :
    t'.Flat ∧ t.inCode = true ∧ t'.inCode = false := by
  unfold Tracker.leaveCode at left
  split at left
  · rename_i outer hregions
    cases left
    have code : t.inCode = true := by rw [inCode, hregions]
    have regions := flat.code code
    rw [hregions] at regions
    obtain ⟨-, houter⟩ := List.cons_eq_cons.mp regions
    subst houter
    exact ⟨rfl, code, rfl⟩
  · cases left

end Flat

/-- The end of a loop or a conditional leaves its frame. -/
theorem exists_exit_of_map {kind : FrameKind}
    (h : (t.exit (some kind)).map Prod.snd = .ok t') :
    ∃ frame, t.exit (some kind) = .ok (frame, t') := by
  cases left : t.exit (some kind) with
  | error d => rw [left] at h; cases h
  | ok r =>
    rw [left] at h
    cases h
    exact ⟨r.1, rfl⟩

/-- The scopes behind a marker are those that the marker changes. -/
theorem Flat.behind (flat : t.Flat) (h : t.behind found = .ok t') :
    t'.Flat ∧ t'.inCode = found.codeAfter t.inCode := by
  cases found with
  | quoted =>
    cases h
    exact ⟨flat, rfl⟩
  | openCode =>
    rw [Tracker.behind] at h
    split at h
    · cases h
    · rename_i markup
      cases h
      exact ⟨flat.enterCode (Bool.eq_false_iff.mpr markup), rfl⟩
  | closeCode =>
    rw [Tracker.behind] at h
    split at h
    · obtain ⟨flat', -, markup⟩ := flat.leaveCode h
      exact ⟨flat', markup⟩
    · cases h
  | loop array item =>
    rw [Tracker.behind] at h
    cases seen : t.requireVisible array "template-foreach" with
    | error d => rw [seen] at h; cases h
    | ok _ =>
      rw [seen] at h
      cases h
      exact flat.of_regions (regions_bind _ item .loopItem)
  | conditional =>
    cases h
    exact flat.of_regions rfl
  | endLoop | endConditional =>
    obtain ⟨frame, left⟩ := exists_exit_of_map h
    exact flat.of_regions (exit_frame left).2.2

/-- So are the scopes behind the segments of a text. -/
theorem Flat.replay? {xs : List Segment} {k k' : Cursor} (flat : t.Flat)
    (h : Segment.replay? xs t k = some (t', k')) :
    t'.Flat ∧ t'.inCode = Segment.codeAfter t.inCode xs := by
  induction xs generalizing t k with
  | nil =>
    cases h
    exact ⟨flat, rfl⟩
  | cons x xs ih =>
    cases x with
    | text content => exact ih flat h
    | marker found =>
      obtain ⟨t₁, behind, h⟩ := Option.bind_eq_some_iff.mp h
      obtain ⟨flat₁, region⟩ := flat.behind (eq_ok_of_toOption behind)
      rw [Segment.codeAfter, ← region]
      exact ih flat₁ h

end Tracker

end ServerTemplate
