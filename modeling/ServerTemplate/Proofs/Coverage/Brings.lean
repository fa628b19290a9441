import ServerTemplate.Proofs.Coverage.Occurrence

/-!
# What a part of a conversion brings about

`Emit.Brings f x` says of the part `x` of a conversion that, if it succeeds, the fact `f` holds
behind it, and that nothing leaves the journal. Since facts last, parts are composed by
`Brings.bind`: what a part brings about still holds behind the parts that follow.
-/

namespace ServerTemplate

variable {α β : Type} {job : Job} {f g : Fact} {label : String} {e : Expr}

/-- What holds from the beginning. -/
def Fact.nothing : Fact := .known True

/-- A part that succeeds brings about a fact, and nothing leaves the journal. -/
def Emit.Brings (f : Fact) (x : Emit α) : Prop :=
  ∀ s, After x s (fun _ s' => s.journal <:+ s'.journal ∧ f.holds s') fun _ _ => True

namespace Emit.Brings

theorem mono {x : Emit α} (h : Brings f x) (weaker : ∀ s, f.holds s → g.holds s) : Brings g x :=
  fun s => (h s).mono (fun _ s' ⟨older, holds⟩ => ⟨older, weaker s' holds⟩) fun _ _ h => h

/-- What holds in any case holds behind a part that brings about nothing else. -/
theorem known {x : Emit α} (h : Brings .nothing x) (holds : ∀ s, f.holds s) : Brings f x :=
  h.mono fun s _ => holds s

theorem bind {x : Emit α} {k : α → Emit β} (hx : Brings f x) (hk : ∀ a, Brings g (k a)) :
    Brings (f.and g) (x >>= k) := by
  intro s
  rw [after_bind]
  refine (hx s).mono (fun a s₁ ⟨older, first⟩ => ?_) fun _ _ h => h
  refine (hk a s₁).mono (fun _ s₂ ⟨older', second⟩ => ?_) fun _ _ h => h
  exact ⟨older.trans older', f.lasts older' first, second⟩

/-- A part with something in front of it. -/
theorem quiet_bind {x : Emit α} {k : α → Emit β} (hx : Brings .nothing x)
    (hk : ∀ a, Brings g (k a)) : Brings g (x >>= k) :=
  (hx.bind hk).mono fun _ h => h.2

/-- A part with something behind it. -/
theorem bind_quiet {x : Emit α} {k : α → Emit β} (hx : Brings f x)
    (hk : ∀ a, Brings .nothing (k a)) : Brings f (x >>= k) :=
  (hx.bind hk).mono fun _ h => h.1

/-! ### Operations -/

theorem pure {a : α} : Brings .nothing (Pure.pure a : Emit α) := fun _ =>
  after_pure.mpr ⟨List.suffix_rfl, trivial⟩

theorem write (piece : Piece) : Brings .nothing (Emit.write piece) := fun _ =>
  after_write.mpr ⟨List.suffix_rfl, trivial⟩

theorem moveCursor (m : Cursor → Cursor) : Brings .nothing (Emit.moveCursor m) := fun _ =>
  after_moveCursor.mpr ⟨List.suffix_rfl, trivial⟩

/-- What fails brings about anything. -/
theorem throw {d : Diagnostic} : Brings f (throw d : Emit α) := fun _ => after_throw.mpr trivial

theorem tracker : Brings .nothing Emit.tracker := fun _ =>
  after_tracker.mpr ⟨List.suffix_rfl, trivial⟩

theorem cursor : Brings .nothing Emit.cursor := fun _ =>
  after_cursor.mpr ⟨List.suffix_rfl, trivial⟩

theorem inCode : Brings .nothing Emit.inCode := fun _ =>
  after_inCode.mpr ⟨List.suffix_rfl, trivial⟩

theorem refuse {construct : Unsupported} : Brings f (Emit.refuse job e label construct) :=
  tracker.quiet_bind fun _ => throw

/-- What comes behind a check may use that it has passed. -/
theorem check {r : Except Diagnostic α} {k : α → Emit β} (h : ∀ a, r = .ok a → Brings f (k a)) :
    Brings f (ofExcept r >>= k) := fun s =>
  after_bind.mpr (after_ofExcept (fun a ha => h a ha s) fun _ _ => trivial)

/-- A check at the end of a part. -/
theorem checked {r : Except Diagnostic α} : Brings .nothing (ofExcept r) := fun _ =>
  after_ofExcept (fun _ _ => ⟨List.suffix_rfl, trivial⟩) fun _ _ => trivial

theorem note (event : Event) : Brings (.happened event) (Emit.note event) := fun _ =>
  after_note.mpr ⟨List.suffix_cons _ _, _, List.mem_cons_self, rfl⟩

/-! ### Scopes -/

theorem setTracker (t : Tracker) : Brings .nothing (Emit.setTracker t) := fun _ =>
  after_setTracker.mpr ⟨List.suffix_cons _ _, trivial⟩

theorem enter (kind : FrameKind) (item array : Option String) :
    Brings .nothing (enterScope kind item array) := by
  refine tracker.quiet_bind fun t => (setTracker _).quiet_bind fun _ => ?_
  cases item with
  | none => exact pure
  | some item => exact tracker.quiet_bind fun _ => setTracker _

theorem exit (kind : FrameKind) : Brings .nothing (exitScope kind) :=
  tracker.quiet_bind fun _ => check fun r _ => setTracker r.2

theorem enterCode : Brings .nothing Emit.enterCode := tracker.quiet_bind fun _ => setTracker _

theorem leaveCode : Brings .nothing Emit.leaveCode :=
  tracker.quiet_bind fun _ => check fun _ _ => setTracker _

/-! ### Literal text -/

/-- A text leaves the journal as it is but for the scopes. -/
theorem text (content : String) : Brings .nothing (Emit.text content) := fun s =>
  (after_text content s).mono
    (fun _ _ replayed => ⟨Progress.texting_journal s content ▸ replayed.older, trivial⟩)
    fun _ _ _ => trivial

theorem chunk (content : String) : Brings (.happened (.chunk content)) (Emit.chunk content) :=
  (note _).bind_quiet fun _ => text content

theorem constantText (content : String) :
    Brings (.happened (.constantText content)) (Emit.constantText content) :=
  (note _).bind_quiet fun _ => text content

theorem chunks (texts : List String) : Brings (.written texts) (Emit.chunks texts) := by
  induction texts with
  | nil => exact pure.known fun _ => List.forall_mem_nil _
  | cons content texts ih =>
    exact ((chunk content).bind fun _ => ih).mono fun _ h => List.forall_mem_cons.mpr h

/-! ### Blocks -/

/-- The expression in a hole. -/
theorem hole {x : Emit Unit} (h : Brings f x) : Brings f (Emit.hole e label x) := by
  refine inCode.quiet_bind fun code => ?_
  refine ((note _).mono fun _ _ => trivial).quiet_bind fun _ => h.bind_quiet fun _ => ?_
  split
  · exact moveCursor _
  · exact pure

theorem condition {x : Emit Unit} (h : Brings f x) : Brings f (Emit.condition x) :=
  (write _).quiet_bind fun _ => enterCode.quiet_bind fun _ => h.bind_quiet fun _ =>
    leaveCode.bind_quiet fun _ => write _

/-- A branch of a block, and the branches behind it. -/
theorem branches_cons {start : Cursor} {separator : List Piece} {x : Emit Unit}
    {rest : List (List Piece × Emit Unit)} (hx : Brings f x)
    (hrest : Brings g (branches start rest)) :
    Brings (f.and g) (branches start ((separator, x) :: rest)) := by
  have separated : Brings .nothing (separator.forM Emit.write) := by
    induction separator with
    | nil => exact pure
    | cons piece rest ih => exact (write piece).quiet_bind fun _ => ih
  exact separated.quiet_bind fun _ => (moveCursor _).quiet_bind fun _ => hx.bind fun _ => hrest

theorem oneBranch {start : Cursor} {separator : List Piece} {x : Emit Unit} (hx : Brings f x) :
    Brings f (branches start [(separator, x)]) :=
  (branches_cons hx (pure : Brings .nothing (branches start []))).mono fun _ h => h.1

/-- The branches of a block in a frame of their own. -/
theorem block {kind : FrameKind} {item array : Option String} {closer : Piece}
    {parts : List (List Piece × Emit Unit)} (h : ∀ start, Brings f (branches start parts)) :
    Brings f (Emit.block kind item array parts closer) :=
  (enter kind item array).quiet_bind fun _ => cursor.quiet_bind fun start =>
    (h start).bind_quiet fun _ => (exit kind).bind_quiet fun _ => write _

theorem inlineConditional {test consequent alternate : Emit Unit} {f₁ f₂ f₃ : Fact}
    (htest : Brings f₁ test) (hthen : Brings f₂ consequent) (helse : Brings f₃ alternate) :
    Brings (f₁.and (f₂.and f₃)) (Emit.inlineConditional test consequent alternate) :=
  (enter _ _ _).quiet_bind fun _ => (write _).quiet_bind fun _ => htest.bind fun _ =>
    (write _).quiet_bind fun _ => hthen.bind fun _ => (write _).quiet_bind fun _ =>
      helse.bind_quiet fun _ => exit _

end Emit.Brings

end ServerTemplate
