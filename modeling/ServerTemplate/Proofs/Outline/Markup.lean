import ServerTemplate.Proofs.Outline.Code

/-!
# Parts of markup agree with the reference translation

`Stands` is what the state of a conversion and the arguments of the reference translation have to do
with each other. It holds again behind every part, since a part leaves the scopes as they were. Here
are the parts by themselves: texts without markers, heads of conditionals and blocks.
-/

namespace ServerTemplate

open Emit

variable {job : Job} {loops : Loops} {k : Cursor} {s : Progress} {label : String} {e : Expr}
  {use : Use}

/-- A conversion stands in markup, at a cursor and inside loops. -/
structure Job.Stands (job : Job) (loops : Loops) (k : Cursor) (s : Progress) : Prop where
  represents : job.Represents loops s.tracker
  markup : s.tracker.inCode = false
  cursor : s.cursor = k

theorem Job.Stands.of_wrote {s' : Progress} {ps : List Piece} (h : job.Stands loops k s)
    (w : Wrote s ps s') : job.Stands loops s'.cursor s' :=
  ⟨w.tracker ▸ h.represents, w.tracker ▸ h.markup, rfl⟩

theorem Job.Stands.noting (h : job.Stands loops k s) (event : Event) :
    job.Stands loops k (s.noting event) :=
  ⟨h.represents, h.markup, h.cursor⟩

theorem Job.Stands.writing (h : job.Stands loops k s) (piece : Piece) :
    job.Stands loops k (s.writing piece) :=
  ⟨h.represents, h.markup, h.cursor⟩

namespace Emit

/-- An expression in markup renders what is rendered behind its beginning. -/
theorem Renders.begin {f : Bool → Emit Unit} {r : Except Diagnostic (Outline × Cursor)}
    (huse : use ≠ .operand) (markup : s.tracker.inCode = false)
    (h : Renders (s.noting (.expression e label false)) (f false) r) :
    Renders s (begin use e label >>= f) r := by
  have bare : (use == .operand || s.tracker.inCode) = false := by
    rw [markup, Bool.or_false]
    exact beq_false_of_ne huse
  unfold Renders
  rw [after_bind, after_begin, bare]
  exact h.mono (fun _ _ ⟨o, hr, w⟩ => ⟨o, hr, w.of_noting⟩) fun _ _ h => h

theorem Renders.refuse {construct : Unsupported} (h : job.Represents loops s.tracker) :
    Renders s (Emit.refuse job e label construct) (.error (job.refusal e label construct)) :=
  (after_refuse h).mpr rfl

/-- A piece that moves nothing. -/
theorem Renders.code (piece : Piece) :
    Renders s (write piece) (.ok (.code piece, s.cursor)) :=
  ⟨_, rfl, .writing s piece⟩

/-! ### Texts -/

/-- A text without markers is written and moves the cursor. -/
theorem renders_text {event : Event} {content : String} (free : MarkerFree content.toList)
    (h : job.Stands loops k s) :
    Renders s (do note event; text content) (.ok (.text content, k.feed content.toList)) := by
  unfold Renders After
  have run : (do note event; text content : Emit Unit) s =
      .ok () (((s.noting event).texting content).moving (s.cursor.feed content.toList)) :=
    text_of_markerFree (s := s.noting event) free h.markup
  rw [run]
  refine ⟨.text content, by rw [← h.cursor]; rfl, ?_⟩
  exact ((Wrote.texting (s.noting event) content).moving _).of_noting

theorem renders_chunk {content : String} (free : MarkerFree content.toList)
    (h : job.Stands loops k s) :
    Renders s (chunk content) (.ok (.text content, k.feed content.toList)) :=
  renders_text free h

theorem renders_constantText {content : String} (free : MarkerFree content.toList)
    (h : job.Stands loops k s) :
    Renders s (constantText content) (.ok (.text content, k.feed content.toList)) :=
  renders_text free h

theorem renders_chunks {texts : List String} (free : ∀ content ∈ texts, MarkerFree content.toList)
    (h : job.Stands loops k s) :
    Renders s (chunks texts) (.ok (Outline.ofTexts k texts)) := by
  induction texts generalizing s k with
  | nil => exact ⟨.empty, by rw [← h.cursor]; rfl, .refl s⟩
  | cons content texts ih =>
    refine (renders_chunk (free content (List.mem_cons_self ..)) h).then (fun o s₁ h₁ w₁ => ?_)
      fun d hd => by cases hd
    obtain ⟨ho, hk⟩ := Prod.mk.inj (Except.ok.inj h₁)
    subst ho
    have rest := ih (fun c hc => free c (List.mem_cons_of_mem _ hc)) (hk ▸ h.of_wrote w₁)
    exact rest.mono (fun _ s₂ ⟨o, h₂, w₂⟩ => ⟨.seq (.text content) o, by
      rw [Outline.ofTexts, Except.ok.inj h₂], w₁.trans w₂⟩) fun _ _ hd => by cases hd

/-! ### Blocks -/

/-- The head of a conditional is code within markup. -/
theorem writesCode_condition {test : Expr} (h : job.Represents loops s.tracker) :
    WritesCode s (condition (lower job .operand label test))
      (do return .ifStart :: (← job.operandOf loops label test) ++ [.ifTested]) := by
  unfold WritesCode condition
  rw [after_bind, after_write, after_bind, after_enterCode]
  have inner := writesCode_lower job loops label test
    ((s.writing .ifStart).tracking s.tracker.enterCode) h.enterCode rfl
  refine inner.then (fun t s₁ h₁ w₁ k₁ => ?_) fun d hd => by rw [hd]; rfl
  have same : s₁.tracker = s.tracker.enterCode := w₁.tracker
  refine after_bind.mpr (after_leaveCode (fun t' ht' => ?_) fun d hd => ?_)
  · rw [same, Tracker.leaveCode_enterCode] at ht'
    cases ht'
    rw [after_write]
    have wrote := ((Wrote.writing s .ifStart).trans w₁.within).trans
      (.writing (s₁.tracking s.tracker) .ifTested)
    exact ⟨_, by rw [h₁]; rfl, wrote, k₁⟩
  · rw [same, Tracker.leaveCode_enterCode] at hd
    cases hd

theorem after_branches {start : Cursor} {branch : Emit Unit} {rest : List (List Piece × Emit Unit)}
    {good : Unit → Progress → Prop} {bad : Diagnostic → Progress → Prop} :
    After (branches start (([], branch) :: rest)) s good bad ↔
      After branch (s.moving start) (fun _ s' => After (branches start rest) s' good bad) bad := by
  rw [branches, after_bind]
  change After (moveCursor _ >>= _) s _ _ ↔ _
  rw [after_bind, after_moveCursor, after_bind]

theorem after_branches_otherwise {start : Cursor} {branch : Emit Unit}
    {good : Unit → Progress → Prop} {bad : Diagnostic → Progress → Prop} :
    After (branches start [([.otherwise], branch)]) s good bad ↔
      After branch ((s.writing .otherwise).moving start) good bad := by
  rw [branches, after_bind]
  change After (moveCursor _ >>= _) (s.writing .otherwise) _ _ ↔ _
  rw [after_bind, after_moveCursor, after_bind]
  rfl

/-- The end of a block leaves its frame. -/
theorem after_closeBlock {kind : FrameKind} {closer : Piece} {t : Tracker}
    {good : Unit → Progress → Prop} {bad : Diagnostic → Progress → Prop}
    (left : ∃ frame, s.tracker.exit (some kind) = .ok (frame, t))
    (h : good () ((s.tracking t).writing closer)) :
    After (do exitScope kind; write closer) s good bad := by
  obtain ⟨frame, left⟩ := left
  refine after_bind.mpr (after_exitScope (fun _ t' ht' => ?_) fun d hd => ?_)
  · rw [left] at ht'
    cases ht'
    exact after_write.mpr h
  · rw [left] at hd
    cases hd

/-- A block with one branch, inside a frame that can be left. -/
theorem after_oneBranch {body : Emit Unit} {r : Except Diagnostic (Outline × Cursor)}
    {kind : FrameKind} {closer : Piece} {t : Tracker} (hbody : Renders s body r)
    (left : ∃ frame, s.tracker.exit (some kind) = .ok (frame, t)) :
    After (do branches (← cursor) [([], body)]; exitScope kind; write closer) s
      (fun _ s' => ∃ o, r = .ok (o, s'.cursor) ∧
        s'.pieces = (o.pieces ++ [closer]).reverse ++ s.pieces ∧ s'.tracker = t)
      fun d _ => r = .error d := by
  rw [after_bind, after_cursor, after_bind, after_branches]
  refine hbody.mono (fun _ s₁ ⟨o, hr, w⟩ => ?_) fun _ _ h => h
  refine after_closeBlock (w.tracker ▸ left) ⟨o, hr, ?_, rfl⟩
  change closer :: s₁.pieces = _
  rw [w.pieces, List.reverse_append]
  rfl

/-- A block with two branches, each from the same place. -/
theorem after_twoBranches {first second : Emit Unit} {r₁ r₂ : Except Diagnostic (Outline × Cursor)}
    {kind : FrameKind} {closer : Piece} {t : Tracker} (hfirst : Renders s first r₁)
    (hsecond : ∀ s', s'.tracker = s.tracker → s'.cursor = s.cursor → Renders s' second r₂)
    (left : ∃ frame, s.tracker.exit (some kind) = .ok (frame, t)) :
    After (do
        branches (← cursor) [([], first), ([.otherwise], second)]
        exitScope kind
        write closer) s
      (fun _ s' => ∃ a k a', r₁ = .ok (a, k) ∧ r₂ = .ok (a', s'.cursor) ∧
        s'.pieces = (a.pieces ++ .otherwise :: a'.pieces ++ [closer]).reverse ++ s.pieces ∧
          s'.tracker = t)
      fun d _ => r₁ = .error d ∨ ∃ a, r₁ = .ok a ∧ r₂ = .error d := by
  rw [after_bind, after_cursor, after_bind, after_branches]
  refine hfirst.mono (fun _ s₁ ⟨a, hr₁, w₁⟩ => ?_) fun _ _ h => .inl h
  rw [after_branches_otherwise]
  have second := hsecond ((s₁.writing .otherwise).moving s.cursor) w₁.tracker rfl
  refine second.mono (fun _ s₂ ⟨a', hr₂, w₂⟩ => ?_) fun _ _ h => .inr ⟨_, hr₁, h⟩
  have same : s₂.tracker = s.tracker := w₂.tracker.trans w₁.tracker
  refine after_closeBlock (same ▸ left) ⟨a, _, a', hr₁, hr₂, ?_, rfl⟩
  change closer :: s₂.pieces = _
  rw [w₂.pieces]
  change closer :: (_ ++ .otherwise :: s₁.pieces) = _
  rw [w₁.pieces]
  simp

end Emit

end ServerTemplate
