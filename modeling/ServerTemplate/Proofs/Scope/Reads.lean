import ServerTemplate.Proofs.Scope.Shadow

/-!
# Reads through the component

A template reads a name through the component in `this.x`, in `this.x.length` and as the array of
`this.x.map(...)`. `Template.instanceReads` lists these expressions in order, as recursion on the
template gives them: templates that are not rendered and the arguments of helpers are left out.

`Emit.Reads job es x` says of the part `x` of a conversion that, if it succeeds, it begins exactly
the reads `es`, each in scopes in which the name is found. Parts are composed by `Reads.bind`.
-/

namespace ServerTemplate

open Emit

/-- The name that an expression reads through the component. -/
def Expr.instanceName? : Expr → Option String
  | .member _ (.this _) field _ => some field
  | .member _ (.member _ (.this _) array _) property _ =>
    if property = "length" then some array else none
  | .call _ callee _ =>
    match CallShape.of? callee with
    | some (.loop array) => some array
    | _ => none
  | _ => none

/-- The expression itself, if it reads a name through the component. -/
def Expr.ownReads (e : Expr) : List Expr := if e.instanceName?.isSome then [e] else []

mutual

/-- The parts of an expression that read a name through the component, in order. A template is
rendered only where an expression is used as a block. -/
def Expr.instanceReads (tag : String) (rendered : Bool) (e : Expr) : List Expr :=
  match e with
  | .group _ inner => inner.instanceReads tag rendered
  | .tagged _ tag' _ texts holes =>
    if rendered = true ∧ tag' = tag then Expr.instanceReadsOfParts tag holes texts else []
  | .binary _ _ left right => left.instanceReads tag false ++ right.instanceReads tag false
  | .logical _ _ left right => left.instanceReads tag false ++ right.instanceReads tag true
  | .conditional _ test consequent alternate =>
    test.instanceReads tag false ++ consequent.instanceReads tag true
      ++ alternate.instanceReads tag true
  | .call _ callee arguments =>
    e.ownReads ++
      match CallShape.of? callee, arguments with
      | some (.loop _), [.arrow _ [_] body] => body.instanceReads tag true
      | _, _ => []
  | .member .. => e.ownReads
  | .name .. | .this _ | .arrow .. | .constant .. | .template .. | .other .. => []

/-- The reads of the expressions between the texts of a template. -/
def Expr.instanceReadsOfParts (tag : String) : List Expr → List String → List Expr
  | [], _ => []
  | _ :: _, [] => []
  | e :: holes, _ :: texts =>
    e.instanceReads tag false ++ Expr.instanceReadsOfParts tag holes texts

end

namespace Expr

variable {tag item array : String} {rendered : Bool} {place arrow : Text.Place}
  {callee body : Expr} {arguments : List Expr}

theorem instanceName?_loop (shape : CallShape.of? callee = some (.loop array)) :
    (Expr.call place callee arguments).instanceName? = some array := by
  rw [instanceName?, shape]

theorem instanceName?_call (noLoop : ∀ array, CallShape.of? callee ≠ some (.loop array)) :
    (Expr.call place callee arguments).instanceName? = none := by
  rw [instanceName?]
  split
  · exact (noLoop _ ‹_›).elim
  · rfl

/-- A loop reads its array, and its body is rendered. -/
theorem instanceReads_loop (shape : CallShape.of? callee = some (.loop array)) :
    (Expr.call place callee [.arrow arrow [item] body]).instanceReads tag rendered =
      (Expr.call place callee [.arrow arrow [item] body]).ownReads ++
        body.instanceReads tag true := by
  rw [instanceReads]
  exacts [array, shape]

/-- Nothing in a call that is no loop is read through the component. -/
theorem instanceReads_call (noLoop : ∀ array arrow item body,
      CallShape.of? callee = some (.loop array) → arguments ≠ [.arrow arrow [item] body]) :
    (Expr.call place callee arguments).instanceReads tag rendered =
      (Expr.call place callee arguments).ownReads ++ [] := by
  rw [instanceReads]
  exact noLoop

end Expr

/-- The expressions of a template that read a name through the component, in order. -/
def Template.instanceReads (template : Template) (tag : String) : List Expr :=
  Expr.instanceReadsOfParts tag template.holes template.chunks

/-- The read through the component that begins at a moment, if one does. -/
def Moment.instanceReads (m : Moment) : List Expr :=
  match m.event with
  | .expression e _ _ => e.ownReads
  | _ => []

/-- The reads through the component that have begun, in order. -/
def Progress.instanceReads (s : Progress) : List Expr :=
  s.journal.reverse.flatMap Moment.instanceReads

/-- What is found under a name: a parameter, or the item of an open loop. -/
def Job.Finds (job : Job) (t : Tracker) (name : String) : Prop :=
  name ∈ job.declaration.parameterNames ∨
    ∃ frame ∈ t.frames, frame.kind = .loop ∧ frame.item = some name

/-- If at this moment a read through the component begins, its name is found. -/
def Moment.Found (job : Job) (m : Moment) : Prop :=
  ∀ e label bare name, m.event = .expression e label bare → e.instanceName? = some name →
    job.Finds m.tracker name

/-- From one state to another the reads `es` have begun, and all their names were found. -/
structure Job.Passes (job : Job) (es : List Expr) (s s' : Progress) : Prop where
  tracks : job.Tracks s'.tracker
  reads : s'.instanceReads = s.instanceReads ++ es
  found : ∀ m ∈ s'.journal, m ∈ s.journal ∨ m.Found job

variable {job : Job} {t : Tracker} {s s' s'' : Progress} {es es' : List Expr} {label : String}
  {e : Expr} {x : Emit Unit}

/-- A visible name is found. -/
theorem Job.Tracks.finds (tracks : job.Tracks t) {name : String} (h : t.isVisible name = true) :
    job.Finds t name := by
  rw [Tracker.isVisible, Bool.or_eq_true, Tracker.isParameter, tracks.parameters,
    List.contains_iff_mem] at h
  refine h.symm.imp_right fun bound => ?_
  obtain ⟨frame, hframe, binds⟩ := List.find?_isSome.mp bound
  rw [(tracks.sound.frames frame hframe).binds_eq, Bool.and_eq_true, beq_iff_eq,
    beq_iff_eq] at binds
  exact ⟨frame, hframe, binds.1, binds.2⟩

namespace Job.Passes

/-- What leaves the scopes and the journal as they are. -/
theorem of_same (tracks : job.Tracks s.tracker) (tracker : s'.tracker = s.tracker)
    (journal : s'.journal = s.journal) : job.Passes [] s s' where
  tracks := tracker ▸ tracks
  reads := by rw [Progress.instanceReads, journal, List.append_nil, Progress.instanceReads]
  found m hm := .inl (journal ▸ hm)

theorem trans (h : job.Passes es s s') (h' : job.Passes es' s' s'') :
    job.Passes (es ++ es') s s'' where
  tracks := h'.tracks
  reads := by rw [h'.reads, h.reads, List.append_assoc]
  found m hm := (h'.found m hm).elim (h.found m) .inr

/-- Where only the scopes change, no read begins. -/
theorem of_rescopes {fresh : Prop} (tracks : job.Tracks s.tracker) (h : Rescopes job fresh s s') :
    job.Passes [] s s' := by
  obtain ⟨new, scopes, grows⟩ := h
  have quiet : new.reverse.flatMap Moment.instanceReads = [] := by
    refine List.flatMap_eq_nil_iff.mpr fun m hm => ?_
    rw [Moment.instanceReads, scopes m (List.mem_reverse.mp hm)]
  refine ⟨tracks.moves grows.moves, ?_, fun m hm => ?_⟩
  · rw [Progress.instanceReads, grows.journal, List.reverse_append, List.flatMap_append, quiet,
      Progress.instanceReads]
  · rw [grows.journal] at hm
    refine (List.mem_append.mp hm).symm.imp_right fun hm _ _ _ _ hevent => ?_
    rw [scopes m hm] at hevent
    cases hevent

theorem tracking (tracks : job.Tracks t) : job.Passes [] s (s.tracking t) where
  tracks := tracks
  reads := by
    rw [Progress.instanceReads, Progress.tracking_journal, List.reverse_cons, List.flatMap_append,
      Progress.instanceReads]
    rfl
  found m hm := by
    refine (List.mem_cons.mp hm).symm.imp_right ?_
    rintro rfl _ _ _ _ ⟨⟩

/-- Something begins, and if it is a read through the component, its name is found. -/
theorem noting (tracks : job.Tracks s.tracker) {event : Event}
    (found : (⟨event, s.tracker, s.cursor, s.pieces⟩ : Moment).Found job) :
    job.Passes (Moment.instanceReads ⟨event, s.tracker, s.cursor, s.pieces⟩) s
      (s.noting event) where
  tracks := tracks
  reads := by
    rw [Progress.instanceReads, Progress.noting_journal, List.reverse_cons, List.flatMap_append,
      List.flatMap_singleton, Progress.instanceReads]
  found m hm := by
    refine (List.mem_cons.mp hm).symm.imp_right ?_
    rintro rfl
    exact found

theorem noting_quiet (tracks : job.Tracks s.tracker) {event : Event}
    (hevent : ∀ e label bare, event ≠ .expression e label bare) :
    job.Passes [] s (s.noting event) := by
  have quiet : Moment.instanceReads ⟨event, s.tracker, s.cursor, s.pieces⟩ = [] := by
    cases event with
    | expression e label bare => exact (hevent e label bare rfl).elim
    | _ => rfl
  rw [← quiet]
  exact .noting tracks fun e label bare _ h => (hevent e label bare h).elim

end Job.Passes

namespace Emit

/-- A part that succeeds begins the reads `es`, and all their names are found. -/
def Reads (job : Job) (es : List Expr) (x : Emit Unit) : Prop :=
  ∀ s, job.Tracks s.tracker → After x s (fun _ s' => job.Passes es s s') fun _ _ => True

namespace Reads

theorem bind {f : Unit → Emit Unit} (hx : Reads job es x) (hf : Reads job es' (f ())) :
    Reads job (es ++ es') (x >>= f) := by
  intro s tracks
  rw [after_bind]
  refine (hx s tracks).mono (fun _ s₁ first => ?_) fun _ _ h => h
  exact (hf s₁ first.tracks).mono (fun _ _ rest => first.trans rest) fun _ _ h => h

/-- A part with something in front of it that begins no read. -/
theorem quiet_bind {f : Unit → Emit Unit} (hx : Reads job [] x) (hf : Reads job es (f ())) :
    Reads job es (x >>= f) := hx.bind hf

/-- A part with something behind it that begins no read. -/
theorem bind_quiet {f : Unit → Emit Unit} (hx : Reads job es x) (hf : Reads job [] (f ())) :
    Reads job es (x >>= f) := by
  simpa using hx.bind hf

/-! ### Operations -/

theorem pure : Reads job [] (Pure.pure ()) := fun _ tracks =>
  after_pure.mpr (.of_same tracks rfl rfl)

theorem write (piece : Piece) : Reads job [] (Emit.write piece) := fun _ tracks =>
  after_write.mpr (.of_same tracks rfl rfl)

theorem moveCursor (f : Cursor → Cursor) : Reads job [] (Emit.moveCursor f) := fun _ tracks =>
  after_moveCursor.mpr (.of_same tracks rfl rfl)

theorem throw {d : Diagnostic} : Reads job es (throw d) := fun _ _ => after_throw.mpr trivial

/-- What is refused does not succeed. -/
theorem after_refuse {construct : Unsupported} {good : Unit → Progress → Prop} :
    After (Emit.refuse job e label construct) s good fun _ _ => True := by
  unfold Emit.refuse
  rw [after_bind, after_tracker, after_throw]
  trivial

theorem refuse {construct : Unsupported} : Reads job es (Emit.refuse job e label construct) :=
  fun _ _ => after_refuse

theorem tracker {f : Tracker → Emit Unit} (h : ∀ t, Reads job es (f t)) :
    Reads job es (Emit.tracker >>= f) := fun s tracks =>
  after_bind.mpr (after_tracker.mpr (h _ s tracks))

theorem cursor {f : Cursor → Emit Unit} (h : ∀ k, Reads job es (f k)) :
    Reads job es (Emit.cursor >>= f) := fun s tracks =>
  after_bind.mpr (after_cursor.mpr (h _ s tracks))

theorem inCode {f : Bool → Emit Unit} (h : ∀ code, Reads job es (f code)) :
    Reads job es (Emit.inCode >>= f) := fun s tracks =>
  after_bind.mpr (after_inCode.mpr (h _ s tracks))

/-- A check begins no read. -/
theorem check {α : Type} {r : Except Diagnostic α} {f : α → Emit Unit}
    (h : ∀ a, Reads job es (f a)) : Reads job es (ofExcept r >>= f) :=
  fun s tracks => after_bind.mpr (after_ofExcept (fun a _ => h a s tracks) fun _ _ => trivial)

/-- A check at the end of a part. -/
theorem checked {r : Except Diagnostic Unit} : Reads job [] (ofExcept r) := fun _ tracks =>
  after_ofExcept (fun _ _ => .of_same tracks rfl rfl) fun _ _ => trivial

/-! ### Scopes -/

theorem enter {kind : FrameKind} (noLoop : kind ≠ .loop) :
    Reads job [] (enterScope kind none none) := fun _ tracks =>
  after_enterScope_none.mpr (.tracking (tracks.move (.enter _ noLoop)))

theorem enterLoop (item array : String) :
    Reads job [] (enterScope .loop (some item) (some array)) := fun s tracks =>
  after_enterScope_some.mpr (.of_rescopes tracks (.enterLoop s item array))

theorem exit (kind : FrameKind) : Reads job [] (exitScope kind) := fun _ tracks =>
  after_exitScope (fun _ _ left => .tracking (tracks.move (.exit left))) fun _ _ => trivial

theorem enterCode : Reads job [] Emit.enterCode := fun _ tracks =>
  after_enterCode.mpr (.tracking (tracks.move (.enterCode _)))

theorem leaveCode : Reads job [] Emit.leaveCode := fun _ tracks =>
  after_leaveCode (fun _ left => .tracking (tracks.move (.leaveCode left))) fun _ _ => trivial

/-! ### Literal text -/

/-- In a literal text no read begins. -/
theorem text {event : Event} {content : String}
    (hevent : ∀ e label bare, event ≠ .expression e label bare) :
    Reads job [] (do note event; Emit.text content) := by
  intro s tracks
  rw [after_bind, after_note]
  refine after_of_ok fun _ s' replayed => ?_
  have noted : job.Passes [] s (s.noting event) := .noting_quiet tracks hevent
  exact noted.trans (.of_rescopes tracks (text_rescopes replayed))

theorem chunk {content : String} : Reads job [] (Emit.chunk content) := text nofun

theorem constantText {content : String} : Reads job [] (Emit.constantText content) := text nofun

theorem chunks (texts : List String) : Reads job [] (Emit.chunks texts) := by
  induction texts with
  | nil => exact pure
  | cons content texts ih => exact chunk.quiet_bind ih

/-! ### Expressions -/

/-- An expression begins. If it is a read through the component, its name is visible. -/
theorem begin {use : Use} {f : Bool → Emit Unit}
    (h : ∀ s, job.Tracks s.tracker →
      After (f (use == .operand || s.tracker.inCode)) s
        (fun _ s' => (∀ name, e.instanceName? = some name → s.tracker.isVisible name = true) ∧
          job.Passes es s s') fun _ _ => True) :
    Reads job (e.ownReads ++ es) (Emit.begin use e label >>= f) := by
  intro s tracks
  rw [after_bind, after_begin]
  have run := h (s.noting (.expression e label (use == .operand || s.tracker.inCode))) tracks
  refine run.mono (fun _ s' ⟨visible, rest⟩ => ?_) fun _ _ h => h
  refine (Job.Passes.noting tracks fun e' label' bare' name hevent hname => ?_).trans rest
  cases hevent
  exact tracks.finds (visible name hname)

/-- An expression begins that is no read through the component. -/
theorem begin_quiet {use : Use} {f : Bool → Emit Unit} (other : e.instanceName? = none)
    (h : ∀ bare, (use = .operand → bare = true) → Reads job es (f bare)) :
    Reads job es (Emit.begin use e label >>= f) := by
  have own : e.ownReads = [] := by rw [Expr.ownReads, other]; rfl
  rw [← List.nil_append es, ← own]
  refine begin fun s tracks => ?_
  have bare : use = .operand → (use == .operand || s.tracker.inCode) = true := by
    rintro rfl
    rfl
  refine (h _ bare s tracks).mono (fun _ s' passes => ⟨fun name hname => ?_, passes⟩) fun _ _ h => h
  rw [other] at hname
  cases hname

/-- The expression in a hole. -/
theorem hole (h : Reads job es x) : Reads job es (Emit.hole e label x) := by
  unfold Emit.hole
  refine inCode fun code => ?_
  have noted : Reads job [] (note (.hole e label)) := fun _ tracks =>
    after_note.mpr (.noting_quiet tracks nofun)
  refine noted.quiet_bind (h.bind_quiet ?_)
  split
  · exact moveCursor _
  · exact pure

/-! ### Blocks -/

theorem condition (h : Reads job es x) : Reads job es (Emit.condition x) :=
  (write _).quiet_bind (enterCode.quiet_bind (h.bind_quiet (leaveCode.bind_quiet (write _))))

/-- A branch of a block, and the branches behind it. -/
theorem branches_cons {k : Cursor} {separator : List Piece}
    {rest : List (List Piece × Emit Unit)} (hx : Reads job es x)
    (hrest : Reads job es' (branches k rest)) :
    Reads job (es ++ es') (branches k ((separator, x) :: rest)) := by
  have separated : Reads job [] (separator.forM Emit.write) := by
    induction separator with
    | nil => exact pure
    | cons piece rest ih => exact (write piece).quiet_bind ih
  exact separated.quiet_bind ((moveCursor _).quiet_bind (hx.bind hrest))

theorem oneBranch {k : Cursor} {separator : List Piece} (hx : Reads job es x) :
    Reads job es (branches k [(separator, x)]) := by
  have rest : Reads job [] (branches k []) := pure
  simpa using branches_cons hx rest

/-- The branches of a block in a frame of their own. -/
theorem block {kind : FrameKind} {item array : Option String} {closer : Piece}
    {parts : List (List Piece × Emit Unit)} (opens : Reads job [] (enterScope kind item array))
    (h : ∀ k, Reads job es (branches k parts)) :
    Reads job es (Emit.block kind item array parts closer) :=
  opens.quiet_bind (cursor fun k => (h k).bind_quiet ((exit kind).bind_quiet (write _)))

theorem inlineConditional {test consequent alternate : Emit Unit} {es₁ es₂ es₃ : List Expr}
    (htest : Reads job es₁ test) (hthen : Reads job es₂ consequent)
    (helse : Reads job es₃ alternate) :
    Reads job (es₁ ++ es₂ ++ es₃) (Emit.inlineConditional test consequent alternate) := by
  rw [List.append_assoc]
  refine (enter (by decide)).quiet_bind ((write _).quiet_bind (htest.bind ?_))
  exact (write _).quiet_bind (hthen.bind ((write _).quiet_bind (helse.bind_quiet (exit _))))

end Reads

end Emit

end ServerTemplate
