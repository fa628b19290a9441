import ServerTemplate.Proofs.Marker.Leftmost
import ServerTemplate.Proofs.Marker.Replay
import ServerTemplate.Proofs.Scope.Over

/-!
# Balanced server code in literal text

A text without holes is scanned from left to right for its markers, which are the leftmost matches
(`Marker.Leftmost`). `Nesting` is all that the scan has to remember: whether code is open, and which
loops and conditionals are. `Nesting.behind` is one step of it, and `balance` the scan of all
markers, which fails where a marker does not fit or something stays open.

The conversion keeps frames and regions instead, and each frame the number of regions around it. On
markers where the scanner finds them the two agree (`Job.Mirrors`): a frame is opened and left in
code, with two regions open, so a block may go on over several regions and none may cross another.
A text is therefore converted if and only if it is balanced (`convert_literalText`).
-/

namespace ServerTemplate

open Emit

/-! ### Balanced texts -/

/-- A loop or a conditional that a text has opened. -/
inductive Opening where
  | loop (item : String)
  | conditional
  deriving DecidableEq, Repr

/-- What is open in a text. -/
structure Nesting where
  inCode : Bool := false
  /-- The open loops and conditionals, the innermost first. -/
  openings : List Opening := []
  deriving DecidableEq, Repr

/-- Why a text is not balanced. -/
inductive NestingFault where
  /-- A region, a loop or a conditional is left open, or closed where it is not open. -/
  | imbalance
  /-- A loop is over an array that is neither a parameter nor the item of an open loop. -/
  | unknownArray (array : String)
  deriving DecidableEq, Repr

namespace Opening

/-- The item of a loop. -/
def item? : Opening → Option String
  | loop item => some item
  | conditional => none

/-- Whether a loop is open. -/
def isLoop (o : Opening) : Bool := o.item?.isSome

end Opening

namespace Nesting

/-- Opens a loop or a conditional. -/
def opening (n : Nesting) (o : Opening) : Nesting := { n with openings := o :: n.openings }

/-- Closes what was opened last, which must be a loop or must be a conditional. -/
def closing (n : Nesting) (loop : Bool) : Except NestingFault Nesting :=
  match n.openings with
  | o :: outer => if o.isLoop = loop then .ok { n with openings := outer } else .error .imbalance
  | [] => .error .imbalance

/-- What is open behind a marker, where the component has some parameters. -/
def behind (parameters : List String) (n : Nesting) : Marker → Except NestingFault Nesting
  | .quoted => .ok n
  | .openCode => if n.inCode then .error .imbalance else .ok { n with inCode := true }
  | .closeCode => if n.inCode then .ok { n with inCode := false } else .error .imbalance
  | .loop array item =>
    if array ∈ parameters ∨ array ∈ n.openings.filterMap Opening.item? then
      .ok (n.opening (.loop item))
    else .error (.unknownArray array)
  | .endLoop => n.closing true
  | .conditional => .ok (n.opening .conditional)
  | .endConditional => n.closing false

/-- Code is open behind a marker where the scanner takes it to be. -/
theorem inCode_behind {parameters : List String} {found : Marker} {n n' : Nesting}
    (h : n.behind parameters found = .ok n') : n'.inCode = found.codeAfter n.inCode := by
  have closed {loop : Bool} (h : n.closing loop = .ok n') : n'.inCode = n.inCode := by
    unfold closing at h
    split at h
    · split at h
      · cases h; rfl
      · cases h
    · cases h
  unfold behind at h
  split at h
  · cases h; rfl
  · split at h
    · cases h
    · cases h; rfl
  · split at h
    · cases h; rfl
    · cases h
  · split at h
    · cases h; rfl
    · cases h
  · exact closed h
  · cases h; rfl
  · exact closed h

/-- What is open behind some markers. -/
def behindAll (parameters : List String) (n : Nesting) (ms : List Marker) :
    Except NestingFault Nesting :=
  ms.foldlM (behind parameters) n

end Nesting

/-- Scans the markers of a text from left to right. It begins and ends in markup, with nothing
open. -/
def balance (parameters : List String) (ms : List Marker) : Except NestingFault Unit := do
  let n ← Nesting.behindAll parameters {} ms
  if n = {} then pure () else throw .imbalance

section Balance

variable {parameters : List String} {ms : List Marker}

theorem balance_of_ok {n : Nesting} (h : Nesting.behindAll parameters {} ms = .ok n) :
    balance parameters ms = if n = {} then .ok () else .error .imbalance := by
  rw [balance, h]
  rfl

theorem balance_of_error {fault : NestingFault}
    (h : Nesting.behindAll parameters {} ms = .error fault) :
    balance parameters ms = .error fault := by
  rw [balance, h]
  rfl

end Balance

/-! ### Leaving frames -/

namespace Tracker

variable {t : Tracker} {frame next : Frame} {outer : List Frame} {kind : FrameKind}

/-- The innermost frame is left if it is of the kind and no region is open in it. -/
theorem exit_eq_ok (htop : t.frames = frame :: next :: outer) (same : frame.kind = kind)
    (depth : frame.regionDepth = t.regions.length) :
    t.exit (some kind) = .ok (frame, { t with frames := next :: outer }) := by
  have noOther : (kind != frame.kind) = false := bne_eq_false_iff_eq.mpr same.symm
  rw [exit, htop]
  simp [Option.filter_some, noOther, depth]

/-- A frame of another kind cannot be left. -/
theorem exit_eq_error (htop : t.frames = frame :: next :: outer) (differ : frame.kind ≠ kind) :
    t.exit (some kind) = .error (t.imbalance (.wrongScope kind frame.kind)) := by
  rw [exit, htop]
  simp only [Option.filter_some, bne_iff_ne.mpr differ.symm, if_true]

end Tracker

/-! ### One marker -/

/-- Whether a diagnostic is about a fault. -/
def NestingFault.Reported (d : Diagnostic) : NestingFault → Prop
  | imbalance => ∃ fault, d.cause = .imbalance fault
  | unknownArray array => ∃ visible, d.cause = .unresolved array "template-foreach" visible

/-- The kind of frame of a loop or of a conditional. -/
def FrameKind.ofLoop (loop : Bool) : FrameKind := if loop then .loop else .conditional

theorem FrameKind.ofLoop_inj {loop loop' : Bool} : ofLoop loop = ofLoop loop' ↔ loop = loop' := by
  decide +revert

/-- Whether a frame is that of a loop or a conditional which was opened in code. -/
def Opening.HasFrame (o : Opening) (frame : Frame) : Prop :=
  frame.kind = .ofLoop o.isLoop ∧ frame.bound.map Prod.fst = o.item?.toList ∧ frame.regionDepth = 2

/-- Whether the scopes of a conversion are those of a nesting inside the template. -/
structure Job.Mirrors (job : Job) (n : Nesting) (t : Tracker) : Prop where
  parameters : t.parameters = job.declaration.parameterNames
  regions : t.regions = if n.inCode then [.code, .markup] else [.markup]
  frames : ∃ frames, t.frames = frames ++ job.inner.frames ∧
    List.Forall₂ Opening.HasFrame n.openings frames

/-- Whether a step of the scan and the same step of a conversion come to the same. -/
def Job.Agree (job : Job) : Except NestingFault Nesting → Except Diagnostic Tracker → Prop
  | .ok n, .ok t => job.Mirrors n t
  | .error fault, .error d => fault.Reported d
  | _, _ => False

namespace Job.Mirrors

variable {job : Job} {n : Nesting} {t t' : Tracker}

theorem inner (job : Job) : job.Mirrors {} job.inner := ⟨rfl, rfl, [], rfl, .nil⟩

theorem inCode (h : job.Mirrors n t) : t.inCode = n.inCode := by
  rw [Tracker.inCode, h.regions]
  cases n.inCode <;> rfl

theorem nonempty (h : job.Mirrors n t) : t.frames ≠ [] := by
  obtain ⟨frames, hframes, -⟩ := h.frames
  rw [hframes]
  exact List.append_ne_nil_of_right_ne_nil _ (List.cons_ne_nil _ _)

/-- The names that open frames bind are the items of the open loops. -/
theorem boundNames (h : job.Mirrors n t) :
    t.boundNames = n.openings.filterMap Opening.item? := by
  obtain ⟨frames, hframes, opened⟩ := h.frames
  rw [Tracker.boundNames, hframes, List.flatMap_append]
  refine (List.append_nil _).trans ?_
  generalize n.openings = openings at opened
  clear hframes
  induction opened with
  | nil => rfl
  | @cons o frame _ _ head _ ih =>
    rw [List.flatMap_cons, ih, head.2.1]
    cases o <;> rfl

theorem isVisible_iff (h : job.Mirrors n t) (array : String) : t.isVisible array = true ↔
    array ∈ job.declaration.parameterNames ∨ array ∈ n.openings.filterMap Opening.item? := by
  rw [Tracker.isVisible, Bool.or_eq_true, Tracker.bindingFrame?_isSome_iff, h.boundNames,
    Tracker.isParameter, h.parameters, List.contains_iff_mem, or_comm]

/-- The same frames in another region. -/
theorem region (h : job.Mirrors n t) (code : Bool) (parameters : t'.parameters = t.parameters)
    (frames : t'.frames = t.frames)
    (regions : t'.regions = if code then [.code, .markup] else [.markup]) :
    job.Mirrors { n with inCode := code } t' :=
  ⟨parameters.trans h.parameters, regions, frames ▸ h.frames⟩

/-- A frame more, opened in code. -/
theorem push (h : job.Mirrors n t) {o : Opening} {frame : Frame} (hasFrame : o.HasFrame frame)
    (parameters : t'.parameters = t.parameters) (frames : t'.frames = frame :: t.frames)
    (regions : t'.regions = t.regions) : job.Mirrors (n.opening o) t' := by
  obtain ⟨outer, houter, opened⟩ := h.frames
  refine ⟨parameters.trans h.parameters, regions.trans h.regions, frame :: outer, ?_,
    .cons hasFrame opened⟩
  rw [frames, houter]
  rfl

/-- What was opened last has the innermost frame, and the others are around it. -/
theorem innermost (h : job.Mirrors n t) {o : Opening} {outer : List Opening}
    (hn : n.openings = o :: outer) : ∃ frame next more, t.frames = frame :: next :: more ∧
      o.HasFrame frame ∧
      job.Mirrors { n with openings := outer } { t with frames := next :: more } := by
  obtain ⟨frames, hframes, opened⟩ := h.frames
  rw [hn] at opened
  cases opened with
  | @cons _ frame _ frames' head rest =>
    obtain ⟨next, more, hmore⟩ : ∃ next more, frames' ++ job.inner.frames = next :: more :=
      List.exists_cons_of_ne_nil (List.append_ne_nil_of_right_ne_nil _ (List.cons_ne_nil _ _))
    refine ⟨frame, next, more, ?_, head, h.parameters, h.regions, frames', hmore.symm, rest⟩
    rw [hframes, List.cons_append, hmore]

/-- With no loop and no conditional open there are the frames of the template. -/
theorem outermost (h : job.Mirrors n t) (hn : n.openings = []) : t.frames = job.inner.frames := by
  obtain ⟨frames, hframes, opened⟩ := h.frames
  rw [hn] at opened
  cases opened with
  | nil => exact hframes

/-- The innermost frame is left in code exactly where the scan closes what was opened last. -/
theorem exit (h : job.Mirrors n t) (code : n.inCode = true) (loop : Bool) :
    job.Agree (n.closing loop) ((t.exit (some (.ofLoop loop))).map Prod.snd) := by
  have regions : t.regions = [.code, .markup] := by rw [h.regions, code]; rfl
  rw [Nesting.closing]
  cases hn : n.openings with
  | nil =>
    have other : FrameKind.template ≠ .ofLoop loop := by cases loop <;> exact FrameKind.noConfusion
    rw [Tracker.exit_eq_error (h.outermost hn) other]
    exact ⟨_, rfl⟩
  | cons o outer =>
    obtain ⟨frame, next, more, htop, ⟨kind, -, depth⟩, rest⟩ := h.innermost hn
    by_cases same : o.isLoop = loop
    · rw [Tracker.exit_eq_ok htop (kind.trans (congrArg _ same)) (by rw [depth, regions]; rfl)]
      simp only [if_pos same]
      exact rest
    · have differ : frame.kind ≠ .ofLoop loop := by rwa [kind, ne_eq, FrameKind.ofLoop_inj]
      rw [Tracker.exit_eq_error htop differ]
      simp only [if_neg same]
      exact ⟨_, rfl⟩

/-- At a marker where it may stand the scan and a conversion take the same step. -/
theorem behind (h : job.Mirrors n t) {found : Marker} (fits : found.Fits n.inCode) :
    job.Agree (n.behind job.declaration.parameterNames found) (t.behind found) := by
  have code := h.inCode
  cases found with
  | quoted => exact h
  | openCode =>
    rw [Nesting.behind, Tracker.behind, code]
    cases hcode : n.inCode with
    | true => exact ⟨_, rfl⟩
    | false =>
      refine h.region true rfl rfl ?_
      rw [Tracker.enterCode, h.regions, hcode]
      rfl
  | closeCode =>
    rw [Nesting.behind, Tracker.behind, code]
    cases hcode : n.inCode with
    | false => exact ⟨_, rfl⟩
    | true =>
      have left : t.leaveCode = .ok { t with regions := [.markup] } := by
        rw [Tracker.leaveCode, h.regions, hcode]
        rfl
      rw [if_pos rfl, if_pos rfl, left]
      exact h.region false rfl rfl rfl
  | loop array item =>
    rw [Nesting.behind, Tracker.behind, Tracker.requireVisible]
    by_cases seen : t.isVisible array = true
    · rw [if_pos ((h.isVisible_iff array).mp seen), if_pos seen]
      refine h.push ⟨rfl, rfl, ?_⟩ ?_ (Tracker.frames_enterLoop h.nonempty item array)
        (Tracker.regions_bind _ item .loopItem)
      · have fits : n.inCode = true := fits.1
        rw [h.regions, fits]
        rfl
      · exact ((Tracker.Move.enterLoop t item array).parameters h.nonempty).1
    · rw [if_neg fun known => seen ((h.isVisible_iff array).mpr known), if_neg seen]
      exact ⟨_, rfl⟩
  | conditional =>
    refine h.push ⟨rfl, rfl, ?_⟩ rfl rfl rfl
    have fits : n.inCode = true := fits
    rw [h.regions, fits]
    rfl
  | endLoop =>
    exact h.exit fits true
  | endConditional =>
    exact h.exit fits false

end Job.Mirrors

/-! ### Whole texts -/

section Run

variable {job : Job} {n : Nesting} {s : Progress}

/-- Over the segments of a text the scan and a conversion go on alike, or fail alike. -/
theorem Job.Mirrors.replayAll {xs : List Segment} (h : job.Mirrors n s.tracker)
    (fit : Segment.Fit n.inCode xs) : After (replayAll xs) s
      (fun _ s' => s'.pieces = s.pieces ∧ ∃ n', job.Mirrors n' s'.tracker ∧
        n.behindAll job.declaration.parameterNames (Segment.markers xs) = .ok n')
      fun d _ => ∃ fault : NestingFault, fault.Reported d ∧
        n.behindAll job.declaration.parameterNames (Segment.markers xs) = .error fault := by
  induction xs generalizing n s with
  | nil => exact after_pure.mpr ⟨rfl, n, h, rfl⟩
  | cons x xs ih =>
    unfold Emit.replayAll
    cases x with
    | text content =>
      rw [after_bind, after_inCode]
      cases s.tracker.inCode with
      | true => exact ih h fit
      | false => exact ih (s := s.moving (s.cursor.feed content)) h fit
    | marker found =>
      have step := h.behind fit.1
      rw [Segment.markers, Nesting.behindAll, List.foldlM_cons, after_bind]
      refine (after_replay_behind found s).mono ?_ ?_
      · rintro _ s₁ ⟨behind, -, pieces⟩
        rw [behind] at step
        cases hn : n.behind job.declaration.parameterNames found with
        | error fault => rw [hn] at step; exact step.elim
        | ok n₁ =>
          rw [hn] at step
          have code : n₁.inCode = found.codeAfter n.inCode := n.inCode_behind hn
          rw [← pieces]
          exact ih step (code ▸ fit.2)
      · rintro d _ behind
        rw [behind] at step
        cases hn : n.behind job.declaration.parameterNames found with
        | error fault => rw [hn] at step; exact ⟨fault, step, rfl⟩
        | ok n₁ => rw [hn] at step; exact step.elim

/-- A conversion ends where nothing is open, and fails elsewhere. -/
theorem Job.Mirrors.conclude (h : job.Mirrors n s.tracker) :
    After (do exitScope .template; ofExcept (← tracker).finish) s
      (fun _ s' => n = {} ∧ s'.pieces = s.pieces)
      fun d _ => n ≠ {} ∧ NestingFault.imbalance.Reported d := by
  have fails {fault : Imbalance} (open_ : n ≠ {})
      (failed : s.tracker.exit (some .template) = .error (s.tracker.imbalance fault)) :
      After (exitScope .template) s
        (fun _ s₁ => After (do ofExcept (← tracker).finish) s₁
          (fun _ s' => n = {} ∧ s'.pieces = s.pieces)
          fun d _ => n ≠ {} ∧ NestingFault.imbalance.Reported d)
        fun d _ => n ≠ {} ∧ NestingFault.imbalance.Reported d := by
    refine after_exitScope (fun _ _ left => ?_) fun d left => ⟨open_, fault, ?_⟩
    · rw [failed] at left
      cases left
    · rw [failed] at left
      cases left
      rfl
  rw [after_bind]
  cases hn : n.openings with
  | cons o outer =>
    obtain ⟨frame, next, more, htop, ⟨kind, -, -⟩, -⟩ := h.innermost hn
    have other : frame.kind ≠ .template := by
      rw [kind]
      cases o.isLoop <;> exact FrameKind.noConfusion
    exact fails (fun none => by rw [none] at hn; cases hn) (Tracker.exit_eq_error htop other)
  | nil =>
    have htop := h.outermost hn
    have regions := h.regions
    cases code : n.inCode with
    | true =>
      have left : s.tracker.exit (some .template) =
          .error (s.tracker.imbalance (.regionLeftInScope .template)) := by
        rw [Tracker.exit, htop, regions, code]
        rfl
      exact fails (fun none => by rw [none] at code; cases code) left
    | false =>
      have markup : s.tracker.regions = [.markup] := by rw [regions, code]; rfl
      have left := Tracker.exit_eq_ok htop rfl (by rw [markup]; rfl)
      refine after_exitScope (fun _ t ht => ?_) fun d hd => ?_
      · rw [left] at ht
        cases ht
        have finished : ({ s.tracker with frames := job.start.tracker.frames } : Tracker).finish =
            .ok () := by
          unfold Tracker.finish
          rw [markup]
          rfl
        rw [after_bind, after_tracker]
        refine after_ofExcept (fun _ _ => ⟨?_, rfl⟩) fun d failed => ?_
        · obtain ⟨inCode, openings⟩ := n
          cases code
          cases hn
          rfl
        · cases finished.symm.trans failed
      · rw [left] at hd
        cases hd

end Run

/-- The conversion of a text does what its scan does. -/
theorem after_lowerTemplate_text (job : Job) (content : String) :
    After (lowerTemplate job { chunks := [content], holes := [] }) job.start
      (fun _ s => s.written = content ∧
        balance job.declaration.parameterNames (Marker.scanned false none content.toList) = .ok ())
      fun d _ => ∃ fault : NestingFault, fault.Reported d ∧
        balance job.declaration.parameterNames (Marker.scanned false none content.toList) =
          .error fault := by
  have parts : lowerParts job "" 0 [] [content] = chunk content := bind_pure_unit
  have begun : job.Mirrors {}
      (((job.start.tracking job.inner).noting (.chunk content)).texting content).tracker := by
    rw [Progress.texting_tracker]
    exact .inner job
  have written : (((job.start.tracking job.inner).noting (.chunk content)).texting
      content).written = content :=
    (Progress.written_texting _ content).trans String.empty_append
  unfold lowerTemplate
  rw [after_bind, after_enterScope_none, after_bind, parts]
  unfold chunk
  rw [after_bind, after_note, After, text_eq]
  refine (begun.replayAll (fit_segmentsFrom false none 0 content.toList)).mono ?_ ?_
  · rintro _ s ⟨pieces, n, mirrors, scanned⟩
    refine mirrors.conclude.mono ?_ ?_
    · rintro _ s' ⟨rfl, pieces'⟩
      refine ⟨?_, balance_of_ok scanned⟩
      rw [Progress.written, pieces', pieces]
      exact written
    · rintro d _ ⟨left, reported⟩
      exact ⟨.imbalance, reported, (balance_of_ok scanned).trans (if_neg left)⟩
  · rintro d _ ⟨fault, reported, scanned⟩
    exact ⟨fault, reported, balance_of_error scanned⟩

/-- A diagnostic is about one fault at most. -/
theorem NestingFault.Reported.unique {fault fault' : NestingFault} {d : Diagnostic}
    (h : fault.Reported d) (h' : fault'.Reported d) : fault = fault' := by
  obtain ⟨cause, site⟩ := d
  cases fault <;> cases fault' <;> obtain ⟨_, rfl⟩ := h <;> obtain ⟨_, same⟩ := h' <;>
    cases same <;> rfl

/-- **Text without holes.** A template that is one text has just one list of markers that are the
leftmost matches one behind the other. It is converted if and only if the scan of these markers is
balanced, and then to the text itself. Where the scan meets a loop over an unknown array, the
conversion fails with that name unresolved; at every other fault of the scan it fails with an
imbalance. -/
theorem convert_literalText (job : Job) (content : String) :
    ∃ ms, (∀ ms', Marker.Leftmost false none content.toList ms' ↔ ms' = ms) ∧
      (∀ output, job.convert { chunks := [content], holes := [] } = .ok output ↔
        balance job.declaration.parameterNames ms = .ok () ∧ output = content) ∧
      ∀ fault : NestingFault,
        (∃ d, job.convert { chunks := [content], holes := [] } = .error d ∧ fault.Reported d) ↔
          balance job.declaration.parameterNames ms = .error fault := by
  refine ⟨Marker.scanned false none content.toList, fun ms => Marker.leftmost_iff, ?_⟩
  have run := after_lowerTemplate_text job content
  unfold Job.convert Job.pieces
  unfold After at run
  cases hrun : lowerTemplate job { chunks := [content], holes := [] } job.start with
  | ok _ s =>
    rw [hrun] at run
    obtain ⟨written, balanced⟩ := run
    rw [balanced]
    refine ⟨fun output => ⟨fun converted => ⟨rfl, ?_⟩, ?_⟩, fun fault => ⟨?_, nofun⟩⟩
    · exact (Except.ok.inj converted).symm.trans written
    · rintro ⟨-, rfl⟩
      exact congrArg Except.ok written
    · rintro ⟨d, failed, -⟩
      cases failed
  | error d s =>
    rw [hrun] at run
    obtain ⟨fault, reported, failed⟩ := run
    rw [failed]
    refine ⟨fun output => ⟨nofun, nofun⟩, fun fault' => ⟨?_, ?_⟩⟩
    · rintro ⟨d', converted, reported'⟩
      cases converted
      rw [reported.unique reported']
    · intro same
      cases same
      exact ⟨d, rfl, reported⟩

/-- A loop and a conditional closed in order, with a quoted end of a region between them. -/
def nestedMarkers : String :=
  "<?php foreach ( $items as $item ) : if ( $item ) : echo '?>'; ?>,<?php endif; endforeach; ?>"

/-- The same, with the loop closed in front of the conditional. -/
def crossedMarkers : String :=
  "<?php foreach ( $items as $item ) : if ( $item ) : ?>,<?php endforeach; endif; ?>"

/-- A nested text is converted to itself, and a crossed one fails with an imbalance. -/
theorem convert_nestedMarkers :
    Marker.Leftmost false none nestedMarkers.toList [.openCode, .loop "items" "item", .conditional,
      .quoted, .closeCode, .openCode, .endConditional, .endLoop, .closeCode] ∧
    listJob.convert { chunks := [nestedMarkers], holes := [] } = .ok nestedMarkers ∧
    ∃ d, listJob.convert { chunks := [crossedMarkers], holes := [] } = .error d ∧
      NestingFault.imbalance.Reported d := by
  obtain ⟨ms, only, converts, -⟩ := convert_literalText listJob nestedMarkers
  obtain ⟨ms', only', -, fails⟩ := convert_literalText listJob crossedMarkers
  have nested : ms = Marker.scanned false none nestedMarkers.toList :=
    ((only _).mp (Marker.leftmost_scanned ..)).symm
  have crossed : ms' = Marker.scanned false none crossedMarkers.toList :=
    ((only' _).mp (Marker.leftmost_scanned ..)).symm
  refine ⟨(only _).mpr ?_, (converts _).mpr ⟨?_, rfl⟩, (fails .imbalance).mpr ?_⟩
  · rw [nested]
    decide +kernel
  · rw [nested]
    decide +kernel
  · rw [crossed]
    decide +kernel

end ServerTemplate
