import Mathlib.Data.List.Forall2
import ServerTemplate.Proofs.Outline.Agreement
import ServerTemplate.Proofs.Scope.Visits

/-!
# Parts that follow a list of visits

`Emit.Follows job t us vs x` says of the part `x` of a conversion: begun in the scopes `t` and
behind the visits `us`, it makes the visits `vs`, each in scopes that represent the loops of the
visit, and leaves the scopes as they are; or it breaks off in the last of the visits made so far
(`Job.Breaks`), because the check of that visit fails or for a reason that has nothing to do with
names. Parts are followed by other parts through `Follows.bind`.
-/

namespace ServerTemplate

/-- Whether at this moment an expression is visited. -/
def Moment.isVisit (m : Moment) : Bool :=
  match m.event with
  | .expression .. => true
  | _ => false

/-- The moments at which an expression has been visited, in order. -/
def Progress.visited (s : Progress) : List Moment := (s.journal.filter Moment.isVisit).reverse

/-- At this moment an expression is visited inside the loops of the visit. -/
structure Moment.Visits (job : Job) (m : Moment) (v : Visit) : Prop where
  event : m.event = .expression v.e v.label v.bare
  represents : job.Represents v.loops m.tracker

namespace Progress

variable (s : Progress) (k : Cursor) (content : String)

@[simp] theorem visited_moving : (s.moving k).visited = s.visited := rfl

@[simp] theorem visited_texting : (s.texting content).visited = s.visited := by
  rw [visited, texting_journal, visited]

theorem visited_noting_expression (e : Expr) (label : String) (bare : Bool) :
    (s.noting (.expression e label bare)).visited =
      s.visited ++ [⟨.expression e label bare, s.tracker, s.cursor, s.pieces⟩] := by
  rw [visited, noting_journal, List.filter_cons_of_pos rfl, List.reverse_cons, visited]

end Progress

/-- Whether a diagnostic is about a name that is not visible or a loop that is missing. -/
def Diagnostic.IsScoping (d : Diagnostic) : Prop :=
  (∃ name context names, d.cause = .unresolved name context names) ∨
    ∃ reference context, d.cause = .outsideLoop reference context

/-- Behind the visits `us`, all of which pass, in the scopes `t`. -/
structure Job.Passed (job : Job) (t : Tracker) (us : List Visit) (s : Progress) : Prop where
  tracker : s.tracker = t
  visited : List.Forall₂ (Moment.Visits job) s.visited us
  checks : ∀ u ∈ us, job.check u = .ok ()

/-- In the visit `v` behind the visits `us`, in the scopes `t`. -/
structure Job.Visiting (job : Job) (t : Tracker) (us : List Visit) (v : Visit) (s : Progress) :
    Prop where
  tracker : s.tracker = t
  visited : List.Forall₂ (Moment.Visits job) s.visited (us ++ [v])
  checks : ∀ u ∈ us, job.check u = .ok ()

/-- A conversion breaks off in one of the visits `ws`. Those before it pass, and it fails its check,
or passes it and fails for a reason that is not about names. -/
def Job.Breaks (job : Job) (ws : List Visit) (d : Diagnostic) (s : Progress) : Prop :=
  ∃ us v, us ++ [v] <+: ws ∧ List.Forall₂ (Moment.Visits job) s.visited (us ++ [v]) ∧
    (∀ u ∈ us, job.check u = .ok ()) ∧
    (job.check v = .error d ∨ job.check v = .ok () ∧ ¬ d.IsScoping)

namespace Job

variable {job : Job} {t t' : Tracker} {us vs ws : List Visit} {v : Visit} {s s' : Progress}
  {d : Diagnostic}

theorem Breaks.append (h : job.Breaks us d s) : job.Breaks (us ++ vs) d s := by
  obtain ⟨front, v, hprefix, rest⟩ := h
  exact ⟨front, v, hprefix.trans (List.prefix_append us vs), rest⟩

namespace Passed

/-- What does not concern the journal keeps the visits. -/
theorem of_visited (h : job.Passed t us s) (same : s'.tracker = t')
    (visited : s'.visited = s.visited) : job.Passed t' us s' :=
  ⟨same, visited ▸ h.visited, h.checks⟩

theorem writing (h : job.Passed t us s) (piece : Piece) : job.Passed t us (s.writing piece) :=
  h.of_visited h.tracker rfl

theorem moving (h : job.Passed t us s) (k : Cursor) : job.Passed t us (s.moving k) :=
  h.of_visited h.tracker rfl

theorem tracking (h : job.Passed t us s) (t' : Tracker) : job.Passed t' us (s.tracking t') :=
  h.of_visited rfl rfl

/-- A failure that has nothing to do with names breaks off in the last visit. -/
theorem breaks (h : job.Passed t us s) (nonempty : us ≠ []) (other : ¬ d.IsScoping) :
    job.Breaks us d s := by
  obtain ⟨front, v, rfl⟩ := (List.eq_nil_or_concat' us).resolve_left nonempty
  refine ⟨front, v, List.prefix_rfl, h.visited, fun u hu => h.checks u ?_, .inr ⟨?_, other⟩⟩
  · exact List.mem_append_left _ hu
  · exact h.checks v (List.mem_append_right _ (List.mem_singleton_self v))

end Passed

namespace Visiting

/-- A visit begins in scopes that represent its loops. -/
theorem of_passed (h : job.Passed t us s) (represents : job.Represents v.loops t) :
    job.Visiting t us v (s.noting (.expression v.e v.label v.bare)) where
  tracker := h.tracker
  visited := by
    rw [Progress.visited_noting_expression]
    refine List.rel_append h.visited (.cons ⟨rfl, ?_⟩ .nil)
    exact h.tracker.symm ▸ represents
  checks := h.checks

theorem passed (h : job.Visiting t us v s) (check : job.check v = .ok ()) :
    job.Passed t (us ++ [v]) s where
  tracker := h.tracker
  visited := h.visited
  checks u hu := by
    rcases List.mem_append.mp hu with hu | hu
    · exact h.checks u hu
    · rw [List.mem_singleton.mp hu, check]

theorem breaks (h : job.Visiting t us v s) (check : job.check v = .error d) :
    job.Breaks (us ++ [v]) d s :=
  ⟨us, v, List.prefix_rfl, h.visited, h.checks, .inl check⟩

end Visiting

end Job

namespace Emit

/-- Begun in the scopes `t` and behind the visits `us`, a part makes the visits `vs` and leaves the
scopes as they are, or breaks off in one of the visits. -/
def Follows (job : Job) (t : Tracker) (us vs : List Visit) (x : Emit Unit) : Prop :=
  ∀ s, job.Passed t us s →
    After x s (fun _ s' => job.Passed t (us ++ vs) s') (job.Breaks (us ++ vs))

variable {job : Job} {t : Tracker} {us vs ws : List Visit} {x y : Emit Unit} {loops : Loops}
  {use : Use} {label : String} {e : Expr}

namespace Follows

theorem bind {f : Unit → Emit Unit} (hx : Follows job t us vs x)
    (hf : Follows job t (us ++ vs) ws (f ())) : Follows job t us (vs ++ ws) (x >>= f) := by
  intro s h
  rw [after_bind, ← List.append_assoc]
  exact (hx s h).mono (fun _ s' h' => hf s' h') fun _ _ h' => h'.append

/-- A part that makes no visit. -/
theorem quiet (h : ∀ s, job.Passed t us s →
    After x s (fun _ s' => job.Passed t us s') (job.Breaks us)) : Follows job t us [] x := by
  unfold Follows
  rw [List.append_nil]
  exact h

theorem pure : Follows job t us [] (Pure.pure ()) := quiet fun _ h => after_pure.mpr h

theorem write (piece : Piece) : Follows job t us [] (Emit.write piece) :=
  quiet fun _ h => after_write.mpr (h.writing piece)

theorem moveCursor (f : Cursor → Cursor) : Follows job t us [] (Emit.moveCursor f) :=
  quiet fun _ h => after_moveCursor.mpr (h.moving _)

/-- A piece in front of a part. -/
theorem write_then {piece : Piece} {f : Unit → Emit Unit} (h : Follows job t us vs (f ())) :
    Follows job t us vs (Emit.write piece >>= f) :=
  (write piece).bind (by rwa [List.append_nil])

/-- A part with something behind it that makes no visit. -/
theorem bind_quiet {f : Unit → Emit Unit} (hx : Follows job t us vs x)
    (hf : Follows job t (us ++ vs) [] (f ())) : Follows job t us vs (x >>= f) := by
  simpa using hx.bind hf

/-- A construct that is refused breaks off in the last visit. -/
theorem after_refuse {s : Progress} {construct : Unsupported} {good : Unit → Progress → Prop}
    (hs : job.Passed t us s) (nonempty : us ≠ []) :
    After (Emit.refuse job e label construct) s good (job.Breaks us) := by
  unfold Emit.refuse
  rw [after_bind, after_tracker, after_throw]
  refine hs.breaks nonempty ?_
  rintro (⟨_, _, _, ⟨⟩⟩ | ⟨_, _, ⟨⟩⟩)

theorem refuse {construct : Unsupported} (nonempty : us ≠ []) :
    Follows job t us vs (Emit.refuse job e label construct) := by
  intro s hs
  have refused : After (Emit.refuse job e label construct) s (fun _ _ => False) (job.Breaks us) :=
    after_refuse hs nonempty
  exact refused.mono (fun _ _ h => h.elim) fun _ _ hd => hd.append

/-- Texts without markers make no visits. -/
theorem text {event : Event} {content : String} (free : MarkerFree content.toList)
    (markup : t.inCode = false) (hevent : ∀ e label bare, event ≠ .expression e label bare) :
    Follows job t us [] (do note event; Emit.text content) := by
  refine quiet fun s h => ?_
  have run : (do note event; Emit.text content : Emit Unit) s =
      .ok () (((s.noting event).texting content).moving (s.cursor.feed content.toList)) :=
    text_of_markerFree (s := s.noting event) free (h.tracker.symm ▸ markup)
  unfold After
  rw [run]
  refine h.of_visited ?_ ?_
  · rw [Progress.moving_tracker, Progress.texting_tracker]
    exact h.tracker
  · rw [Progress.visited_moving, Progress.visited_texting]
    cases event with
    | expression e label bare => exact (hevent e label bare rfl).elim
    | _ => rfl

theorem chunk {content : String} (free : MarkerFree content.toList) (markup : t.inCode = false) :
    Follows job t us [] (Emit.chunk content) :=
  text free markup nofun

theorem constantText {content : String} (free : MarkerFree content.toList)
    (markup : t.inCode = false) : Follows job t us [] (Emit.constantText content) :=
  text free markup nofun

theorem chunks {texts : List String} (free : ∀ content ∈ texts, MarkerFree content.toList)
    (markup : t.inCode = false) : Follows job t us [] (Emit.chunks texts) := by
  induction texts with
  | nil => exact pure
  | cons content texts ih =>
    refine (chunk (free content (List.mem_cons_self ..)) markup).bind ?_
    rw [List.append_nil]
    exact ih fun c hc => free c (List.mem_cons_of_mem _ hc)

/-- Whether code is written at some point is a matter of the scopes. -/
theorem inCode {f : Bool → Emit Unit} (h : Follows job t us vs (f t.inCode)) :
    Follows job t us vs (Emit.inCode >>= f) := by
  intro s hs
  rw [after_bind, after_inCode, hs.tracker]
  exact h s hs

/-! ### Visits -/

/-- A visit and what is done in it. -/
theorem visit {f : Bool → Emit Unit} (represents : job.Represents loops t)
    (code : t.inCode = (use == .operand))
    (h : ∀ s, job.Visiting t us (.of loops use label e) s →
      After (f (use == .operand)) s
        (fun _ s' => job.Passed t (us ++ .of loops use label e :: vs) s')
        (job.Breaks (us ++ .of loops use label e :: vs))) :
    Follows job t us (.of loops use label e :: vs) (begin use e label >>= f) := by
  intro s hs
  have bare : (use == .operand || s.tracker.inCode) = (use == .operand) := by
    rw [hs.tracker, code, Bool.or_self]
  rw [after_bind, after_begin, bare]
  exact h _ (.of_passed (v := .of loops use label e) hs represents)

/-- A visit that checks no names, and what is done in it. -/
theorem visit_unchecked {f : Bool → Emit Unit} (represents : job.Represents loops t)
    (code : t.inCode = (use == .operand)) (check : job.check (.of loops use label e) = .ok ())
    (h : Follows job t (us ++ [.of loops use label e]) vs (f (use == .operand))) :
    Follows job t us (.of loops use label e :: vs) (begin use e label >>= f) := by
  refine visit represents code fun s hs => ?_
  rw [List.append_cons]
  exact h s (hs.passed check)

/-- The expression in a hole. -/
theorem hole (h : Follows job t us vs x) : Follows job t us vs (Emit.hole e label x) := by
  intro s hs
  unfold Emit.hole
  rw [after_bind, after_inCode, after_bind, after_note, after_bind]
  have begun : job.Passed t us (s.noting (.hole e label)) := hs.of_visited hs.tracker rfl
  refine (h _ begun).mono (fun _ s' hs' => ?_) fun _ _ hd => hd
  split
  · exact after_moveCursor.mpr (hs'.moving _)
  · exact after_pure.mpr hs'

/-! ### Blocks -/

/-- The head of a conditional is code within markup. -/
theorem condition (h : Follows job t.enterCode us vs x) :
    Follows job t us vs (Emit.condition x) := by
  intro s hs
  unfold Emit.condition
  rw [after_bind, after_write, after_bind, after_enterCode, after_bind]
  have begun : job.Passed t.enterCode us ((s.writing .ifStart).tracking s.tracker.enterCode) := by
    rw [hs.tracker]
    exact (hs.writing _).tracking _
  refine (h _ begun).mono (fun _ s' hs' => ?_) fun _ _ hd => hd
  refine after_bind.mpr (after_leaveCode (fun t' left => ?_) fun d left => ?_)
  · rw [hs'.tracker, Tracker.leaveCode_enterCode] at left
    cases left
    exact after_write.mpr ((hs'.tracking t).writing _)
  · rw [hs'.tracker, Tracker.leaveCode_enterCode] at left
    cases left

/-- A frame is left as it was opened. -/
theorem exits {t' : Tracker} {kind : FrameKind} {s : Progress} (hs : job.Passed t' us s)
    (left : ∃ frame, t'.exit (some kind) = .ok (frame, t)) :
    After (exitScope kind) s (fun _ s' => job.Passed t us s') (job.Breaks us) := by
  obtain ⟨frame, left⟩ := left
  refine after_exitScope (fun _ t'' left' => ?_) fun d left' => ?_
  · rw [hs.tracker, left] at left'
    cases left'
    exact hs.tracking t
  · rw [hs.tracker, left] at left'
    cases left'

/-- The branches of a block in a frame, and the end of the block. -/
theorem closes {t' : Tracker} {kind : FrameKind} {closer : Piece} {s : Progress}
    (h : Follows job t' us vs x) (left : ∃ frame, t'.exit (some kind) = .ok (frame, t))
    (hs : job.Passed t' us s) :
    After (do x; exitScope kind; Emit.write closer) s (fun _ s' => job.Passed t (us ++ vs) s')
      (job.Breaks (us ++ vs)) := by
  rw [after_bind]
  refine (h s hs).mono (fun _ s' hs' => after_bind.mpr ?_) fun _ _ hd => hd
  exact (exits hs' left).mono (fun _ _ h' => after_write.mpr (h'.writing _)) fun _ _ hd => hd

/-- A conditional block. -/
theorem conditionalBlock {parts : List (List Piece × Emit Unit)} (nonempty : t.frames ≠ [])
    (h : ∀ k, Follows job (t.enter .conditional) us vs (branches k parts)) :
    Follows job t us vs (block .conditional none none parts .ifEnd) := by
  intro s hs
  unfold block
  rw [after_bind, after_enterScope_none, after_bind, after_cursor, hs.tracker]
  exact closes (h _) (Tracker.exit_enter nonempty .conditional) (hs.tracking _)

/-- A loop. -/
theorem loopBlock {item array : String} {parts : List (List Piece × Emit Unit)}
    (nonempty : t.frames ≠ [])
    (h : ∀ k, Follows job ((t.enter .loop (some item) (some array)).bind item .loopItem) us vs
      (branches k parts)) :
    Follows job t us vs (block .loop (some item) (some array) parts .loopEnd) := by
  intro s hs
  unfold block
  rw [after_bind, after_enterScope_some, after_bind, after_cursor, hs.tracker]
  exact closes (h _) (Tracker.exit_enterLoop nonempty item array) ((hs.tracking _).tracking _)

/-- A branch of a block, and the branches behind it. -/
theorem branches_cons {k : Cursor} {separator : List Piece}
    {rest : List (List Piece × Emit Unit)} (hx : Follows job t us vs x)
    (hrest : Follows job t (us ++ vs) ws (branches k rest)) :
    Follows job t us (vs ++ ws) (branches k ((separator, x) :: rest)) := by
  have separated : Follows job t us [] (separator.forM Emit.write) := by
    induction separator with
    | nil => exact pure
    | cons piece rest ih => exact write_then ih
  have moved : Follows job t us [] (Emit.moveCursor fun _ => k) := moveCursor _
  have both : Follows job t us (vs ++ ws) (do x; branches k rest) := hx.bind hrest
  have placed : Follows job t us ([] ++ (vs ++ ws))
      (do Emit.moveCursor fun _ => k; x; branches k rest) :=
    moved.bind (by rwa [List.append_nil])
  rw [branches]
  exact separated.bind (by rwa [List.append_nil])

/-- A block with one branch. -/
theorem oneBranch {k : Cursor} {separator : List Piece} (hx : Follows job t us vs x) :
    Follows job t us vs (branches k [(separator, x)]) := by
  have rest : Follows job t (us ++ vs) [] (branches k []) := pure
  simpa using branches_cons hx rest

/-- A conditional in code has a frame of its own. -/
theorem inlineConditional {test consequent alternate : Emit Unit} {vs₁ vs₂ vs₃ : List Visit}
    (nonempty : t.frames ≠ []) (htest : Follows job (t.enter .conditional) us vs₁ test)
    (hthen : Follows job (t.enter .conditional) (us ++ vs₁) vs₂ consequent)
    (helse : Follows job (t.enter .conditional) (us ++ vs₁ ++ vs₂) vs₃ alternate) :
    Follows job t us (vs₁ ++ vs₂ ++ vs₃) (Emit.inlineConditional test consequent alternate) := by
  intro s hs
  unfold Emit.inlineConditional
  rw [after_bind, after_enterScope_none, hs.tracker]
  have inner : Follows job (t.enter .conditional) us (vs₁ ++ vs₂ ++ vs₃) (do
      Emit.write (.symbol "( ")
      test
      Emit.write (.symbol " ) ? ")
      consequent
      Emit.write (.symbol " : ")
      alternate) := by
    rw [List.append_assoc]
    exact write_then (htest.bind (write_then (hthen.bind (write_then helse))))
  have left := (inner _ (hs.tracking _)).mono
    (fun _ s' hs' => exits hs' (Tracker.exit_enter nonempty .conditional)) fun _ _ hd => hd
  simpa only [after_bind] using left

end Follows

end Emit

end ServerTemplate
