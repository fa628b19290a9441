import ServerTemplate.Proofs.Emission.Lowered
import ServerTemplate.Proofs.Literal.Puts
import ServerTemplate.Proofs.Tandem.Lowered

/-!
# Conversions alongside one another

What a part of a conversion does depends on the scopes and on the place in the markup, and neither
on what has been written before nor on labels. `Progress.Beside front` relates two states at the
same place of which the second has written `front` and then what the first has written, and
`Emit.Alongside front` two parts that lead from such states to such states, or both fail.

Conversions in tandem, of which neither is given more than the other, go alongside one another
(`Emit.Alongside.of_tandem`). So every expression is converted alongside itself, under all labels
(`Job.alongside_lower`).
-/

namespace ServerTemplate

open Emit

/-- Two states with the same scopes and the same place in the markup. The second has written `front`
and then what the first has written. -/
structure Progress.Beside (front : String) (s s' : Progress) : Prop where
  tracker : s'.tracker = s.tracker
  cursor : s.cursor.Alike s'.cursor
  written : s'.written = front ++ s.written

namespace Emit

/-- Two results of parts of conversions: both parts succeed, with the same value and in such states,
or both fail. -/
inductive Parallel {α : Type} (front : String) :
    EStateM.Result Diagnostic Progress α → EStateM.Result Diagnostic Progress α → Prop
  | ok {a : α} {s s' : Progress} (beside : s.Beside front s') : Parallel front (.ok a s) (.ok a s')
  | error (d d' : Diagnostic) (s s' : Progress) : Parallel front (.error d s) (.error d' s')

/-- Two parts of conversions that write the same and lead to the same place, or both fail. -/
def Alongside {α : Type} (front : String) (x y : Emit α) : Prop :=
  ∀ s s' : Progress, s.Beside front s' → Parallel front (x s) (y s')

/-- What goes on alongside from parallel results leads to parallel results. -/
theorem Parallel.bind {α β : Type} {front : String} {x y : Emit α} {f g : α → Emit β}
    {s s' : Progress} (h : Parallel front (x s) (y s'))
    (hfg : ∀ a, Alongside front (f a) (g a)) :
    Parallel front ((x >>= f) s) ((y >>= g) s') := by
  simp only [Bind.bind, EStateM.bind]
  cases hx : x s with
  | ok a s₁ =>
    rw [hx] at h
    cases hy : y s' with
    | ok b s₁' =>
      rw [hy] at h
      cases h with
      | ok beside₁ => exact hfg a s₁ s₁' beside₁
    | error d s₁' => rw [hy] at h; cases h
  | error d s₁ =>
    rw [hx] at h
    cases hy : y s' with
    | ok b s₁' => rw [hy] at h; cases h
    | error d' s₁' => exact .error d d' s₁ s₁'

namespace Alongside

variable {α β : Type} {front : String} {x y : Emit α} {f g : α → Emit β}

/-- Parts in tandem write the same and lead to the same place. -/
theorem of_tandem (h : Tandem { front } x y) : Alongside front x y := by
  intro s s' beside
  have run := h s s' ⟨beside.tracker ▸ .refl _ _, beside.cursor, beside.written⟩
  cases hx : x s with
  | error d s₁ =>
    cases hy : y s' with
    | error d' s₁' => exact .error d d' s₁ s₁'
    | ok a s₁' =>
      rw [hx, hy] at run
      cases run with
      | excused excuse => exact excuse.elim
  | ok a s₁ =>
    rw [hx] at run
    obtain ⟨⟨b, s₁'⟩, hy, rfl, abreast⟩ := run.of_ok rfl
    cases hy' : y s' with
    | error d' s₂ =>
      rw [hy'] at hy
      cases hy
    | ok b' s₂ =>
      rw [hy'] at hy
      cases hy
      exact .ok ⟨abreast.tracker.eq_of_nil, abreast.cursor, abreast.written⟩

theorem bind (h : Alongside front x y) (hfg : ∀ a, Alongside front (f a) (g a)) :
    Alongside front (x >>= f) (y >>= g) :=
  fun s s' beside => (h s s' beside).bind hfg

theorem pure (a : α) : Alongside front (Pure.pure a) (Pure.pure a) := fun _ _ beside => .ok beside

theorem chunk (content : String) : Alongside front (Emit.chunk content) (Emit.chunk content) :=
  of_tandem (.chunk content)

/-- A hole is filled alongside another, whatever is written in it. -/
theorem hole {content content' : Emit Unit} {e e' : Expr} {label label' : String}
    (h : Alongside front content content') :
    Alongside front (Emit.hole e label content) (Emit.hole e' label' content') := by
  intro s s' beside
  have filled := h (s.noting (.hole e label)) (s'.noting (.hole e' label'))
    ⟨beside.tracker, beside.cursor, beside.written⟩
  have code : s'.tracker.inCode = s.tracker.inCode := congrArg Tracker.inCode beside.tracker
  change Parallel front
    ((content >>= fun _ =>
        if !s.tracker.inCode then moveCursor Cursor.interpolated else Pure.pure ())
      (s.noting (.hole e label)))
    ((content' >>= fun _ =>
      if !s'.tracker.inCode then moveCursor Cursor.interpolated else Pure.pure ())
      (s'.noting (.hole e' label')))
  rw [code]
  refine filled.bind fun _ => ?_
  split
  · exact fun _ _ beside => .ok ⟨beside.tracker, beside.cursor.interpolated, beside.written⟩
  · exact .pure ()

end Alongside

end Emit

/-! ### Expressions -/

/-- Every expression, and the parts of every template, are converted alongside themselves, under all
labels and with every numbering of the holes. -/
theorem Job.alongside_lower (job : Job) (front : String) :
    (∀ use label e, ∀ label',
      Alongside front (lower job use label e) (lower job use label' e)) ∧
    ∀ start index holes texts, ∀ start' index',
      Alongside front (lowerParts job start index holes texts)
        (lowerParts job start' index' holes texts) := by
  have paired : Job.Paired { front } job job := .of_source job job.source
  constructor
  · intro use label e label'
    exact .of_tandem
      (paired.tandem_lower.1 use label e e label' (.refl e) (.of_forall Expr.spares_nil e))
  · intro start index holes texts start' index'
    exact .of_tandem (paired.tandem_lower.2 start index holes texts holes start' index'
      (Expr.Alike.refl_list holes) (.of_forall Expr.spares_nil holes))

/-! ### Whole templates -/

/-- Leaves the frame of a template, and fails unless all is left in order. -/
def Emit.conclude : Emit Unit := do
  exitScope .template
  ofExcept (← tracker).finish

/-- What a conversion with a result has written. -/
def Emit.output? : EStateM.Result Diagnostic Progress Unit → Option String
  | .ok _ s => some s.written
  | .error _ _ => none

variable {job : Job} {front : String}

theorem Emit.Alongside.conclude : Alongside front Emit.conclude Emit.conclude :=
  of_tandem <| (Tandem.exitScope _).bind fun _ => .tracker fun _ _ within =>
    .ofExcept (within.finish _)

/-- Behind parts at the same place, the same texts and holes are written. -/
theorem Part.alongside_lowerRest (p : Part) (start start' : String) (index index' : Nat) :
    Alongside front (p.lowerRest job start index) (p.lowerRest job start' index') := by
  induction p generalizing index index' with
  | text content => exact .pure ()
  | hole content e rest ih =>
    exact (Alongside.hole ((job.alongside_lower front).1 .value _ e _)).bind fun _ =>
      (Alongside.chunk rest.first).bind fun _ => ih (index + 1) (index' + 1)

theorem Part.alongside_lower (p : Part) (start start' : String) (index index' : Nat) :
    Alongside front (p.lower job start index) (p.lower job start' index') :=
  (Alongside.chunk p.first).bind fun _ => p.alongside_lowerRest start start' index index'

/-- A part is converted in the frame of a template, and then this frame is left. -/
theorem Part.lowerTemplate_eq (p : Part) :
    lowerTemplate job p.template = (do
      enterScope .template
      p.lower job "" 0
      conclude) := by
  rw [← p.lowerParts_eq]
  rfl

theorem Job.output?_lowerTemplate (job : Job) (template : Template) :
    (job.convert template).toOption = output? (lowerTemplate job template job.start) := by
  unfold Job.convert Job.pieces
  cases lowerTemplate job template job.start <;> rfl

/-- Of two parallel results, the second has `front` and the output of the first. -/
theorem Emit.Parallel.output? {r r' : EStateM.Result Diagnostic Progress Unit}
    (h : Parallel front r r') : Emit.output? r' = (Emit.output? r).map (front ++ ·) := by
  cases h with
  | ok beside => exact congrArg some beside.written
  | error d d' s s' => rfl

end ServerTemplate
