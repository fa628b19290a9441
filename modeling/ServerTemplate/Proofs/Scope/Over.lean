import ServerTemplate.Proofs.Marker.Replay

/-!
# Scopes over others

A frame remembers how many regions were open when it was opened, and is left with as many. So a
frame that was opened in markup is left in markup, and in markup only blocks leave frames. The
scopes of a conversion therefore stay over those at any point where a frame has just been opened in
markup: the frames of that point stay, others come and go above them. `Tracker.Over` counts those of
the others that were opened in markup.

A part of a conversion never leaves fewer of them than it has found (`Runs.over`). Where it leaves
no more, every block in it has been left by itself.
-/

namespace ServerTemplate

open Emit

/-- Whether a frame was opened in markup. -/
def Frame.inMarkup (frame : Frame) : Bool := frame.regionDepth == 1

namespace Tracker

/-- The innermost frame was opened in markup. -/
def Firm (t : Tracker) : Prop := t.frames.head?.any Frame.inMarkup = true

/-- The frames of one tracker are the outer ones of another, and of the inner ones `n` were opened
in markup. -/
structure Over (base : Tracker) (n : Nat) (t : Tracker) : Prop where
  flat : t.Flat
  frames : ∃ inner, t.frames = inner ++ base.frames ∧ inner.countP Frame.inMarkup = n
  parameters : t.parameters = base.parameters
  component : t.component = base.component

variable {base t t' : Tracker} {frame : Frame} {n m : Nat}

/-- What is opened in code is not opened in markup. -/
theorem Flat.inMarkup_eq (flat : t.Flat) (depth : frame.regionDepth = t.regions.length) :
    frame.inMarkup = !t.inCode := by
  rw [Frame.inMarkup, depth, flat]
  cases t.inCode <;> rfl

/-- A change of the scopes leaves the parameters and the name of the component alone. -/
theorem Move.parameters (h : Move t t') (nonempty : t.frames ≠ []) :
    t'.parameters = t.parameters ∧ t'.component = t.component := by
  cases h with
  | enterCode | enter => exact ⟨rfl, rfl⟩
  | leaveCode left =>
    unfold Tracker.leaveCode at left
    split at left <;> cases left
    exact ⟨rfl, rfl⟩
  | enterLoop item array =>
    obtain ⟨frame, outer, hframes⟩ := List.exists_cons_of_ne_nil nonempty
    rw [bind, Tracker.enter, hframes]
    exact ⟨rfl, rfl⟩
  | exit left =>
    unfold Tracker.exit at left
    split at left
    · split at left
      · cases left
      · split at left <;> cases left
        exact ⟨rfl, rfl⟩
    · cases left

theorem Firm.nonempty (firm : t.Firm) : t.frames ≠ [] := by
  intro h
  rw [Firm, h] at firm
  cases firm

/-- A frame that has just been opened in markup. -/
theorem Firm.of_cons (hframes : t.frames = frame :: t'.frames) (flat : t'.Flat)
    (markup : t'.inCode = false) (depth : frame.regionDepth = t'.regions.length) : t.Firm := by
  rw [Firm, hframes, List.head?_cons, Option.any_some, flat.inMarkup_eq depth, markup]
  rfl

/-! ### Changes over a firm frame -/

namespace Over

theorem refl (flat : base.Flat) : base.Over 0 base := ⟨flat, ⟨[], rfl, rfl⟩, rfl, rfl⟩

theorem trans (h : base.Over n t) (h' : t.Over m t') : base.Over (n + m) t' where
  flat := h'.flat
  frames := by
    obtain ⟨inner, hframes, hcount⟩ := h.frames
    obtain ⟨inner', hframes', hcount'⟩ := h'.frames
    refine ⟨inner' ++ inner, ?_, ?_⟩
    · rw [hframes', hframes, List.append_assoc]
    · rw [List.countP_append, hcount, hcount', Nat.add_comm]
  parameters := h'.parameters.trans h.parameters
  component := h'.component.trans h.component

/-- How many frames more were opened in markup can be counted in one way only. -/
theorem unique (h : base.Over n t) (h' : base.Over m t) : n = m := by
  obtain ⟨inner, hframes, rfl⟩ := h.frames
  obtain ⟨inner', hframes', rfl⟩ := h'.frames
  rw [List.append_cancel_right (hframes.symm.trans hframes')]

/-- Scopes over others with the same frames and regions are those scopes. -/
theorem eq_of_frames (h : base.Over n t) (frames : t.frames = base.frames)
    (regions : t.regions = base.regions) : t = base := by
  have component := h.component
  have parameters := h.parameters
  cases t
  cases base
  cases component
  cases parameters
  cases frames
  cases regions
  rfl

theorem nonempty (firm : base.Firm) (h : base.Over n t) : t.frames ≠ [] := by
  obtain ⟨inner, hframes, -⟩ := h.frames
  rw [hframes]
  exact List.append_ne_nil_of_right_ne_nil inner firm.nonempty

/-- A change that leaves the frames as they are. -/
theorem region (firm : base.Firm) (h : base.Over n t) (move : Move t t') (flat : t'.Flat)
    (hframes : t'.frames = t.frames) : base.Over n t' := by
  obtain ⟨parameters, component⟩ := move.parameters (h.nonempty firm)
  exact ⟨flat, hframes ▸ h.frames, parameters.trans h.parameters, component.trans h.component⟩

/-- A frame more. -/
theorem push (firm : base.Firm) (h : base.Over n t) (move : Move t t')
    (hframes : t'.frames = frame :: t.frames) (depth : frame.regionDepth = t.regions.length)
    (hregions : t'.regions = t.regions) :
    base.Over (n + if t.inCode then 0 else 1) t' := by
  obtain ⟨parameters, component⟩ := move.parameters (h.nonempty firm)
  refine ⟨(h.flat.of_regions hregions).1, ?_, parameters.trans h.parameters,
    component.trans h.component⟩
  obtain ⟨inner, hinner, hcount⟩ := h.frames
  refine ⟨frame :: inner, by rw [hframes, hinner]; rfl, ?_⟩
  rw [List.countP_cons, hcount, h.flat.inMarkup_eq depth]
  cases t.inCode <;> rfl

theorem enter (firm : base.Firm) (h : base.Over n t) (kind : FrameKind) (noLoop : kind ≠ .loop) :
    base.Over (n + if t.inCode then 0 else 1) (t.enter kind) :=
  h.push firm (.enter t noLoop) rfl rfl rfl

theorem enterLoop (firm : base.Firm) (h : base.Over n t) (item array : String) :
    base.Over (n + if t.inCode then 0 else 1)
      ((t.enter .loop (some item) (some array)).bind item .loopItem) := by
  have nonempty := h.nonempty firm
  exact h.push firm (.enterLoop t item array) (frames_enterLoop nonempty item array) rfl
    (regions_bind _ item .loopItem)

/-- In code no frame is left that was opened in markup. -/
theorem exit_code (firm : base.Firm) (h : base.Over n t) (code : t.inCode = true)
    {kind : FrameKind} (left : t.exit (some kind) = .ok (frame, t')) : base.Over n t' := by
  obtain ⟨parameters, component⟩ := (Move.exit left).parameters (h.nonempty firm)
  obtain ⟨hframes, -⟩ := frames_exit left
  obtain ⟨-, depth, hregions⟩ := exit_frame left
  have outside := h.flat.inMarkup_eq depth
  rw [code] at outside
  refine ⟨(h.flat.of_regions hregions).1, ?_, parameters.trans h.parameters,
    component.trans h.component⟩
  obtain ⟨inner, hinner, hcount⟩ := h.frames
  rw [hframes] at hinner
  cases inner with
  | nil =>
    -- the frame would be the firm one
    rw [Firm, ← List.nil_append base.frames, ← hinner, List.head?_cons, Option.any_some,
      outside] at firm
    cases firm
  | cons first inner =>
    obtain ⟨rfl, houter⟩ := List.cons_eq_cons.mp hinner
    refine ⟨inner, houter, ?_⟩
    rw [List.countP_cons, outside] at hcount
    exact hcount

/-- In markup one frame less is open that was opened in markup. -/
theorem exit_markup (firm : base.Firm) (h : base.Over (n + 1) t) (markup : t.inCode = false)
    {kind : FrameKind} (left : t.exit (some kind) = .ok (frame, t')) : base.Over n t' := by
  obtain ⟨parameters, component⟩ := (Move.exit left).parameters (h.nonempty firm)
  obtain ⟨hframes, -⟩ := frames_exit left
  obtain ⟨-, depth, hregions⟩ := exit_frame left
  have inside := h.flat.inMarkup_eq depth
  rw [markup] at inside
  refine ⟨(h.flat.of_regions hregions).1, ?_, parameters.trans h.parameters,
    component.trans h.component⟩
  obtain ⟨inner, hinner, hcount⟩ := h.frames
  rw [hframes] at hinner
  cases inner with
  | nil => cases hcount
  | cons first inner =>
    obtain ⟨rfl, houter⟩ := List.cons_eq_cons.mp hinner
    refine ⟨inner, houter, ?_⟩
    rw [List.countP_cons, inside] at hcount
    exact Nat.succ.inj hcount

/-- The frame that is left in markup is the firm one, if no other was opened there. -/
theorem frames_of_exit (h : base.Over 0 t) (markup : t.inCode = false) {kind : FrameKind}
    (left : t.exit (some kind) = .ok (frame, t')) : t.frames = base.frames := by
  obtain ⟨hframes, -⟩ := frames_exit left
  obtain ⟨-, depth, -⟩ := exit_frame left
  have inside := h.flat.inMarkup_eq depth
  rw [markup] at inside
  obtain ⟨inner, hinner, hcount⟩ := h.frames
  cases inner with
  | nil => exact hinner
  | cons first inner =>
    rw [hframes] at hinner
    obtain ⟨rfl, -⟩ := List.cons_eq_cons.mp hinner
    rw [List.countP_cons, inside] at hcount
    cases hcount

/-! ### Literal text -/

/-- The markers of a literal text open and leave frames in code only. -/
theorem behind (firm : base.Firm) (h : base.Over n t) {found : Marker} (fits : found.Fits t.inCode)
    (changed : t.behind found = .ok t') : base.Over n t' := by
  have flat := (h.flat.behind changed).1
  cases found with
  | quoted =>
    cases changed
    exact h
  | openCode =>
    rw [Tracker.behind] at changed
    split at changed
    · cases changed
    · cases changed
      exact h.region firm (.enterCode t) flat rfl
  | closeCode =>
    rw [Tracker.behind] at changed
    split at changed
    · exact h.region firm (.leaveCode changed) flat (frames_leaveCode changed)
    · cases changed
  | loop array item =>
    rw [Tracker.behind] at changed
    have opened := h.enterLoop firm item array
    have code : t.inCode = true := fits.1
    rw [code] at opened
    cases seen : t.requireVisible array "template-foreach" with
    | error d => rw [seen] at changed; cases changed
    | ok _ =>
      rw [seen] at changed
      cases changed
      exact opened
  | conditional =>
    cases changed
    have opened := h.enter firm .conditional (by decide)
    have code : t.inCode = true := fits
    rw [code] at opened
    exact opened
  | endLoop | endConditional =>
    obtain ⟨frame, left⟩ := exists_exit_of_map changed
    exact h.exit_code firm fits left

theorem replay? (firm : base.Firm) {xs : List Segment} {k k' : Cursor} (h : base.Over n t)
    (fit : Segment.Fit t.inCode xs) (changed : Segment.replay? xs t k = some (t', k')) :
    base.Over n t' := by
  induction xs generalizing t k with
  | nil =>
    cases changed
    exact h
  | cons x xs ih =>
    cases x with
    | text content => exact ih h fit changed
    | marker found =>
      obtain ⟨t₁, hbehind, changed⟩ := Option.bind_eq_some_iff.mp changed
      have hbehind := eq_ok_of_toOption hbehind
      refine ih (h.behind firm fit.1 hbehind) ?_ changed
      rw [(h.flat.behind hbehind).2]
      exact fit.2

end Over

end Tracker

/-! ### Parts of a conversion -/

variable {job : Job} {P : Expr → Prop} {base : Tracker} {s s' : Progress} {n : Nat}

/-- A literal text opens and leaves no frame in markup. -/
theorem Tracker.Over.text {event : Event} {content : String} (firm : base.Firm)
    (above : base.Over n s.tracker)
    (h : (do note event; Emit.text content : Emit Unit) s = .ok () s') :
    base.Over n s'.tracker := by
  have run := (after_text_replay content (s.noting event)).of_ok h
  exact above.replay? firm (fit_segmentsFrom s.tracker.inCode none 0 content.toList) run.1

/-- A step opens and leaves no frame in markup. -/
theorem Step.over (h : Step job P s s') (firm : base.Firm) (above : base.Over n s.tracker) :
    base.Over n s'.tracker := by
  cases h with
  | chunk replayed => exact above.text firm replayed
  | constantText replayed => exact above.text firm replayed
  | openCondition markup =>
    exact above.region firm (.enterCode _) (above.flat.enterCode markup) rfl
  | closeCondition left =>
    exact above.region firm (.leaveCode left) (above.flat.leaveCode left).1
      (Tracker.frames_leaveCode left)
  | enter code =>
    have opened := above.enter firm .conditional (by decide)
    rw [code] at opened
    exact opened
  | leave code left => exact above.exit_code firm code left
  | _ => exact above

/-- A block opens its frame in markup. -/
theorem Opens.over (h : Opens job P s s') (firm : base.Firm) (above : base.Over n s.tracker) :
    base.Over (n + 1) s'.tracker := by
  cases h with
  | conditional markup =>
    have opened := above.enter firm .conditional (by decide)
    rw [markup] at opened
    exact opened
  | loop known markup =>
    rename_i array item _ _ _ _
    have opened := above.enterLoop firm item array
    rw [markup] at opened
    exact opened

/-- The end of a block leaves one frame that was opened in markup, unless the block ends in code. -/
theorem Closes.over (h : Closes s s') (firm : base.Firm) (above : base.Over (n + 1) s.tracker) :
    base.Over (n + if s.tracker.inCode then 1 else 0) s'.tracker := by
  obtain ⟨left, -⟩ := h
  cases code : s.tracker.inCode with
  | true => exact above.exit_code firm code left
  | false => exact above.exit_markup firm code left

/-- A part of a conversion leaves at least as many frames that were opened in markup as it found. -/
theorem Runs.over (h : Runs job P s s') (firm : base.Firm) (above : base.Over n s.tracker) :
    ∃ m, n ≤ m ∧ base.Over m s'.tracker := by
  induction h generalizing n with
  | refl => exact ⟨n, Nat.le_refl n, above⟩
  | step step => exact ⟨n, Nat.le_refl n, step.over firm above⟩
  | trans _ _ ih₁ ih₂ =>
    obtain ⟨m, le, above₁⟩ := ih₁ above
    obtain ⟨m', le', above₂⟩ := ih₂ above₁
    exact ⟨m', le.trans le', above₂⟩
  | @block s s₁ s₂ s' opened _ closed ih =>
    obtain ⟨m, le, above₂⟩ := ih (opened.over firm above)
    obtain ⟨m, rfl⟩ : ∃ m', m = m' + 1 :=
      Nat.exists_eq_add_one.mpr (Nat.lt_of_lt_of_le n.succ_pos le)
    have closed := closed.over firm above₂
    refine ⟨_, (Nat.le_of_succ_le_succ le).trans (Nat.le_add_right _ _), closed⟩

end ServerTemplate
