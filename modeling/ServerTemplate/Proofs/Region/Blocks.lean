import ServerTemplate.Proofs.Emission.Effects
import ServerTemplate.Proofs.Region.Pieces

/-!
# Open blocks

A block opens its frame in markup, when no region of code is open, and a literal text opens frames
in code only. A frame is left with as many regions open as when it was entered. So the frame of a
block can only be left in markup, and a block that ends in code leaves its own frame open, which
nothing closes later (`Runs.regular`). Where a conversion leaves none open at its end, every block
has therefore ended in markup (`Closes.markup`).

`Tracker.Regular` is what every step keeps: no region of code in another, the root frame around all
others, and plain names for the items of loops.
-/

namespace ServerTemplate

/-- Whether a frame was opened by a block, in markup. -/
def Frame.isBlock (frame : Frame) : Bool :=
  frame.regionDepth == 1 && (frame.kind == .loop || frame.kind == .conditional)

theorem Frame.isBlock_of_kind {frame : Frame} (h : frame.kind = .root ∨ frame.kind = .template) :
    frame.isBlock = false := by
  rw [isBlock]
  rcases h with h | h <;> (rw [h]; exact Bool.and_false _)

namespace Tracker

variable {t t' : Tracker} {frame : Frame}

/-- The number of open blocks. -/
def blocks (t : Tracker) : Nat := t.frames.countP Frame.isBlock

/-- No region of code is open in another, the root frame is around all others, and every item of a
loop has a plain name. -/
structure Regular (t : Tracker) : Prop where
  regions : t.regions = if t.inCode then [.code, .markup] else [.markup]
  root : t.frames.getLast?.map Frame.kind = some .root
  items : ∀ frame ∈ t.frames, ∀ item, frame.item = some item → Plain item

theorem regular_start (parameters : List String) (component : Option String) :
    (start parameters component).Regular where
  regions := rfl
  root := rfl
  items frame h item hitem := by
    rw [List.mem_singleton.mp h] at hitem
    cases hitem

theorem regions_bind (t : Tracker) (name : String) (kind : BindingKind) :
    (t.bind name kind).regions = t.regions := by
  unfold bind
  split
  · rfl
  · split <;> rfl

theorem inCode_congr (h : t'.regions = t.regions) : t'.inCode = t.inCode := by
  rw [inCode, h, inCode]

theorem blocks_congr (h : t'.frames = t.frames) : t'.blocks = t.blocks := by
  rw [blocks, h, blocks]

/-- A frame more is a block more, or not. -/
theorem blocks_cons (h : t'.frames = frame :: t.frames) :
    t'.blocks = t.blocks + if frame.isBlock then 1 else 0 := by
  rw [blocks, h, List.countP_cons, blocks]

namespace Regular

variable (regular : t.Regular)

include regular

theorem nonempty : t.frames ≠ [] := by
  intro h
  have root := regular.root
  rw [h] at root
  cases root

/-- A frame that is opened in code is no block. -/
theorem isBlock_eq_false (code : t.inCode = true) (depth : frame.regionDepth = t.regions.length) :
    frame.isBlock = false := by
  rw [Frame.isBlock, depth, regular.regions, code]
  rfl

theorem isBlock_eq_true (markup : t.inCode = false) (depth : frame.regionDepth = t.regions.length)
    (kind : frame.kind = .loop ∨ frame.kind = .conditional) : frame.isBlock = true := by
  rw [Frame.isBlock, depth, regular.regions, markup]
  rcases kind with h | h <;> rw [h] <;> rfl

/-- The same frames in another region. -/
theorem region (hframes : t'.frames = t.frames)
    (hregions : t'.regions = if t'.inCode then [.code, .markup] else [.markup]) : t'.Regular where
  regions := hregions
  root := hframes ▸ regular.root
  items := hframes ▸ regular.items

theorem enterCode (markup : t.inCode = false) : t.enterCode.Regular := by
  refine regular.region rfl ?_
  change Region.code :: t.regions = [.code, .markup]
  rw [regular.regions, markup]
  rfl

theorem leaveCode (left : t.leaveCode = .ok t') :
    t'.Regular ∧ t'.inCode = false ∧ t.inCode = true := by
  have hframes := frames_leaveCode left
  have regions := regular.regions
  unfold Tracker.leaveCode at left
  split at left
  · rename_i outer hregions
    cases left
    have code : t.inCode = true := by rw [inCode, hregions]
    rw [hregions, code] at regions
    obtain ⟨_, houter⟩ := List.cons_eq_cons.mp regions
    subst houter
    exact ⟨regular.region hframes rfl, rfl, code⟩
  · cases left

/-- A frame more. -/
theorem push (hframes : t'.frames = frame :: t.frames) (hregions : t'.regions = t.regions)
    (plain : ∀ item, frame.item = some item → Plain item) : t'.Regular where
  regions := by rw [hregions, inCode_congr hregions, regular.regions]
  root := by
    obtain ⟨next, outer, hnext⟩ := List.exists_cons_of_ne_nil regular.nonempty
    rw [hframes, hnext, List.getLast?_cons_cons, ← hnext]
    exact regular.root
  items frame' h := by
    rw [hframes] at h
    rcases List.mem_cons.mp h with rfl | h
    · exact plain
    · exact regular.items frame' h

theorem enter (kind : FrameKind) : (t.enter kind).Regular :=
  regular.push rfl rfl nofun

theorem enterLoop {item : String} (plain : Plain item) (array : String) :
    ((t.enter .loop (some item) (some array)).bind item .loopItem).Regular := by
  refine regular.push (frames_enterLoop regular.nonempty item array) ?_ ?_
  · exact regions_bind _ item .loopItem
  · intro item' h
    cases h
    exact plain

theorem exit {kind : FrameKind} (left : t.exit (some kind) = .ok (frame, t')) : t'.Regular := by
  obtain ⟨hframes, nonempty⟩ := frames_exit left
  obtain ⟨-, -, hregions⟩ := exit_frame left
  refine ⟨by rw [hregions, inCode_congr hregions, regular.regions], ?_, ?_⟩
  · obtain ⟨next, outer, hnext⟩ := List.exists_cons_of_ne_nil nonempty
    have root := regular.root
    rw [hframes, hnext, List.getLast?_cons_cons, ← hnext] at root
    exact root
  · intro frame' h
    exact regular.items frame' (hframes ▸ List.mem_cons_of_mem _ h)

/-- The root frame is no block. -/
theorem blocks_eq_zero (alone : t.frames.length = 1) : t.blocks = 0 := by
  obtain ⟨root, hroot⟩ := List.length_eq_one_iff.mp alone
  have kind : root.kind = .root := by
    have h := regular.root
    rw [hroot] at h
    exact Option.some.inj h
  rw [blocks, hroot, List.countP_singleton, Frame.isBlock_of_kind (.inl kind)]
  rfl

/-- The item of the innermost loop has a plain name. -/
theorem plain_currentItem? {item : String} (h : t.currentItem? = some item) : Plain item := by
  obtain ⟨frame, hframe, hitem⟩ := Option.bind_eq_some_iff.mp h
  exact regular.items frame (List.mem_of_find?_eq_some hframe) item hitem

end Regular

/-- Scopes that stay regular, and as many open blocks as before. -/
structure Keeps (t t' : Tracker) : Prop where
  regular : t'.Regular
  blocks : t'.blocks = t.blocks

namespace Keeps

variable {t'' : Tracker}

theorem refl (regular : t.Regular) : t.Keeps t := ⟨regular, rfl⟩

theorem trans (h : t.Keeps t') (h' : t'.Keeps t'') : t.Keeps t'' :=
  ⟨h'.regular, h'.blocks.trans h.blocks⟩

/-- In code, a frame that is opened is no block. -/
theorem enter (regular : t.Regular) (code : t.inCode = true) (kind : FrameKind) :
    t.Keeps (t.enter kind) where
  regular := regular.enter kind
  blocks := by
    rw [blocks_cons (t := t) rfl, regular.isBlock_eq_false code rfl]
    rfl

theorem enterLoop (regular : t.Regular) (code : t.inCode = true) {item : String}
    (plain : Plain item) (array : String) :
    t.Keeps ((t.enter .loop (some item) (some array)).bind item .loopItem) where
  regular := regular.enterLoop plain array
  blocks := by
    rw [blocks_cons (frames_enterLoop regular.nonempty item array),
      regular.isBlock_eq_false code rfl]
    rfl

/-- In code, a frame that is left is no block. -/
theorem exit (regular : t.Regular) (code : t.inCode = true) {kind : FrameKind}
    (left : t.exit (some kind) = .ok (frame, t')) : t.Keeps t' where
  regular := regular.exit left
  blocks := by
    obtain ⟨-, depth, -⟩ := exit_frame left
    rw [blocks_cons (frames_exit left).1, regular.isBlock_eq_false code depth]
    rfl

end Keeps

end Tracker

open Emit

/-! ### Literal text -/

/-- The state after a replay: the markers are tags that fit the region, and another region follows
them. -/
structure Replays (s : Progress) (ts : List Tag) (after : Bool) (s' : Progress) : Prop where
  keeps : s.tracker.Keeps s'.tracker
  region : s'.tracker.inCode = after
  tags : Tag.follow s.tracker.inCode ts = some after

variable {job : Job} {P : Expr → Prop} {s s' s'' : Progress}

theorem Replays.trans {ts us : List Tag} {b b' : Bool} (h : Replays s ts b s')
    (h' : Replays s' us b' s'') : Replays s (ts ++ us) b' s'' where
  keeps := h.keeps.trans h'.keeps
  region := h'.region
  tags := by
    rw [Tag.follow_append, h.tags, Option.bind_some, ← h.region]
    exact h'.tags

theorem after_replay_tags {marker : Marker} (regular : s.tracker.Regular)
    (fits : marker.Fits s.tracker.inCode) :
    After (replay marker) s
      (fun _ s' => Replays s marker.tag?.toList (marker.codeAfter s.tracker.inCode) s')
      fun _ _ => True := by
  -- the end of a loop and of a conditional leave a frame, in code
  have leave (kind : FrameKind) (code : s.tracker.inCode = true) : After (exitScope kind) s
      (fun _ s' => Replays s [] s.tracker.inCode s') fun _ _ => True := by
    refine after_exitScope (fun frame t left => ?_) fun _ _ => trivial
    exact ⟨.exit regular code left, Tracker.inCode_congr (Tracker.exit_frame left).2.2, rfl⟩
  unfold replay
  rw [after_bind, after_tracker]
  cases marker with
  | quoted => exact after_pure.mpr ⟨.refl regular, rfl, rfl⟩
  | openCode =>
    dsimp only
    split
    · exact after_throw.mpr trivial
    · rename_i markup
      have markup := Bool.eq_false_iff.mpr markup
      refine after_enterCode.mpr ⟨⟨regular.enterCode markup, rfl⟩, rfl, ?_⟩
      rw [markup]
      rfl
  | closeCode =>
    dsimp only
    split
    · rename_i code
      refine after_leaveCode (fun t left => ?_) fun _ _ => trivial
      obtain ⟨regular', markup', -⟩ := regular.leaveCode left
      refine ⟨⟨regular', Tracker.blocks_congr (Tracker.frames_leaveCode left)⟩, markup', ?_⟩
      rw [code]
      rfl
    · exact after_throw.mpr trivial
  | loop array item =>
    refine after_bind.mpr (after_ofExcept (fun _ _ => ?_) fun _ _ => trivial)
    refine after_enterScope_some.mpr ⟨.enterLoop regular fits.1 fits.2 array, ?_, rfl⟩
    exact Tracker.inCode_congr (Tracker.regions_bind _ item .loopItem)
  | endLoop => exact leave .loop fits
  | conditional =>
    exact after_enterScope_none.mpr ⟨.enter regular fits .conditional, rfl, rfl⟩
  | endConditional => exact leave .conditional fits

theorem after_replayAll_tags {parts : List Segment} (regular : s.tracker.Regular)
    (fit : Segment.Fit s.tracker.inCode parts) :
    After (replayAll parts) s
      (fun _ s' => Replays s (Segment.tags parts) (Segment.codeAfter s.tracker.inCode parts) s')
      fun _ _ => True := by
  induction parts generalizing s with
  | nil => exact after_pure.mpr ⟨.refl regular, rfl, rfl⟩
  | cons part rest ih =>
    unfold replayAll
    cases part with
    | text content =>
      rw [after_bind, after_inCode]
      split
      · rw [after_bind, after_moveCursor]
        exact After.mono (ih regular fit) (fun _ _ h => ⟨h.keeps, h.region, h.tags⟩) fun _ _ h => h
      · exact ih regular fit
    | marker marker =>
      rw [after_bind]
      refine After.mono (after_replay_tags regular fit.1) (fun _ s₁ h₁ => ?_) fun _ _ h => h
      have rest_fit := fit.2
      rw [← h₁.region] at rest_fit
      refine After.mono (ih h₁.keeps.regular rest_fit) (fun _ s₂ h₂ => ?_) fun _ _ h => h
      rw [h₁.region] at h₂
      exact h₁.trans h₂

/-- A literal text is replayed marker by marker. -/
theorem after_text_tags (content : String) (regular : s.tracker.Regular) :
    After (text content) s
      (fun _ s' => Replays s (Segment.tags (segments s.tracker.inCode content.toList))
        (Segment.codeAfter s.tracker.inCode (segments s.tracker.inCode content.toList)) s')
      fun _ _ => True := by
  unfold text
  split
  · rename_i empty
    rw [empty]
    exact after_pure.mpr ⟨.refl regular, rfl, rfl⟩
  · rw [after_bind, after_write, after_bind, after_inCode]
    have fit := fit_segmentsFrom s.tracker.inCode none 0 content.toList
    exact After.mono (after_replayAll_tags (s := s.writing (.text content)) regular fit)
      (fun _ _ h => ⟨h.keeps, h.region, h.tags⟩) fun _ _ h => h

/-- What a literal text does to the scopes, whether it stands in the template or in a constant. -/
theorem replays_of_text {event : Event} {content : String} (regular : s.tracker.Regular)
    (h : (do note event; text content : Emit Unit) s = .ok () s') :
    Replays s (Segment.tags (segments s.tracker.inCode content.toList))
      (Segment.codeAfter s.tracker.inCode (segments s.tracker.inCode content.toList)) s' := by
  have run := (after_text_tags (s := s.noting event) content regular).of_ok h
  exact ⟨run.keeps, run.region, run.tags⟩

/-! ### Steps and blocks -/

/-- A step opens and closes no block. -/
theorem Step.keeps (h : Step job Expr.Spelled s s') (regular : s.tracker.Regular) :
    s.tracker.Keeps s'.tracker := by
  cases h with
  | chunk replayed => exact (replays_of_text regular replayed).keeps
  | constantText replayed => exact (replays_of_text regular replayed).keeps
  | openCondition markup => exact ⟨regular.enterCode markup, rfl⟩
  | closeCondition left =>
    exact ⟨(regular.leaveCode left).1, Tracker.blocks_congr (Tracker.frames_leaveCode left)⟩
  | enter code => exact .enter regular code .conditional
  | leave code left => exact .exit regular code left
  | _ => exact .refl regular

theorem Opens.regular (h : Opens job Expr.Spelled s s') (regular : s.tracker.Regular) :
    s'.tracker.Regular ∧ s'.tracker.blocks = s.tracker.blocks + 1 ∧ s'.tracker.inCode = false := by
  cases h with
  | conditional markup =>
    refine ⟨regular.enter .conditional, ?_, markup⟩
    have hframes : (s.tracker.enter .conditional).frames = _ :: s.tracker.frames := rfl
    rw [Progress.tracking_tracker, Tracker.blocks_cons hframes,
      regular.isBlock_eq_true markup rfl (.inr rfl)]
    rfl
  | loop known markup =>
    rename_i array item _ _ _ _
    have hframes := Tracker.frames_enterLoop regular.nonempty item array
    refine ⟨regular.enterLoop (known item (List.mem_singleton_self _)) array, ?_, ?_⟩
    · rw [Progress.tracking_tracker, Tracker.blocks_cons hframes,
        regular.isBlock_eq_true markup rfl (.inl rfl)]
      rfl
    · exact (Tracker.inCode_congr (Tracker.regions_bind _ item .loopItem)).trans markup

/-- The end of a block closes one block at most, and none in code. -/
theorem Closes.regular (h : Closes s s') (regular : s.tracker.Regular) :
    s'.tracker.Regular ∧ s.tracker.blocks ≤ s'.tracker.blocks + 1 ∧
      (s.tracker.inCode = true → s.tracker.blocks = s'.tracker.blocks) := by
  obtain ⟨left, _⟩ := h
  have count := Tracker.blocks_cons (Tracker.frames_exit left).1
  refine ⟨regular.exit left, ?_, fun code => ?_⟩
  · rw [count, Progress.writing_tracker, Progress.tracking_tracker]
    split <;> omega
  · exact (Tracker.Keeps.exit regular code left).blocks.symm

/-- What a part opens it closes again, or leaves open. -/
theorem Runs.regular (h : Runs job Expr.Spelled s s') (regular : s.tracker.Regular) :
    s'.tracker.Regular ∧ s.tracker.blocks ≤ s'.tracker.blocks := by
  induction h with
  | refl => exact ⟨regular, Nat.le_refl _⟩
  | step step => exact ⟨(step.keeps regular).regular, (step.keeps regular).blocks.ge⟩
  | trans _ _ ih₁ ih₂ =>
    obtain ⟨regular₁, le₁⟩ := ih₁ regular
    obtain ⟨regular₂, le₂⟩ := ih₂ regular₁
    exact ⟨regular₂, le₁.trans le₂⟩
  | block opened _ closed ih =>
    obtain ⟨regular₁, count₁, -⟩ := opened.regular regular
    obtain ⟨regular₂, le₂⟩ := ih regular₁
    obtain ⟨regular', le', -⟩ := closed.regular regular₂
    exact ⟨regular', by omega⟩

/-- A block that leaves no more open than there was before ends in markup, and what stands in it
leaves no more open than the block. -/
theorem Closes.markup {s₁ s₂ : Progress} (opened : Opens job Expr.Spelled s s₁)
    (inner : Runs job Expr.Spelled s₁ s₂) (closed : Closes s₂ s') (regular : s.tracker.Regular)
    (balanced : s'.tracker.blocks ≤ s.tracker.blocks) :
    s₂.tracker.inCode = false ∧ s₂.tracker.blocks ≤ s₁.tracker.blocks := by
  obtain ⟨regular₁, count₁, -⟩ := opened.regular regular
  obtain ⟨regular₂, le₂⟩ := inner.regular regular₁
  obtain ⟨-, le', inCode⟩ := closed.regular regular₂
  refine ⟨Bool.eq_false_iff.mpr fun code => ?_, by omega⟩
  -- in code the frame of the block would be left open, one more than there was before
  have := inCode code
  omega

end ServerTemplate
