import ServerTemplate.Proofs.Emission.Effects
import ServerTemplate.Proofs.Escaping.Function

/-!
# Reads are escaped

Whenever a conversion begins to convert a read in markup, it writes one echo next, with the
reference of the value and through the function that `Declaration.Escapes` names for the place and
the scopes at that moment. The reads of a conversion are found in its journal.

`ReadsEchoed` is the invariant: it holds at the start and every step keeps it. A conversion that
comes to a read which cannot be echoed breaks off there.
-/

namespace ServerTemplate

variable {job : Job} {P : Expr → Prop} {s s' : Progress}

/-- The scopes are sound, and so they were at every read in markup, which was echoed then. -/
structure ReadsEchoed (job : Job) (s : Progress) : Prop where
  sound : s.tracker.Sound
  echoed : ∀ m ∈ s.journal, ∀ e label, m.Reads e label →
    m.event = .expression e label false ∧ m.tracker.Sound ∧
      ∃ piece, job.echoOf m.tracker m.cursor label e = .ok piece ∧ piece :: m.written <:+ s.pieces

namespace ReadsEchoed

theorem start (job : Job) : ReadsEchoed job job.start :=
  ⟨Tracker.sound_start _ _, fun _ h => by cases h⟩

/-- Every step keeps the invariant. -/
theorem step (h : ReadsEchoed job s) (step : Act job P s s') : ReadsEchoed job s' where
  sound := h.sound.moves step.scopes
  echoed m hm e label read := by
    rcases step.journal m hm with old | other | ⟨e', label', piece, rfl, resolved, written⟩
    · obtain ⟨hevent, sound, piece, resolved, written⟩ := h.echoed m old e label read
      exact ⟨hevent, sound, piece, resolved, written.trans step.suffix⟩
    · exact absurd read (other e label)
    · obtain ⟨⟨bare, hevent⟩, -, -⟩ := read
      cases hevent
      exact ⟨rfl, h.sound, piece, resolved, written ▸ List.suffix_rfl⟩

theorem steps (h : ReadsEchoed job s) (steps : Steps job P s s') : ReadsEchoed job s' := by
  induction steps with
  | refl => exact h
  | tail _ step ih => exact ih.step step

end ReadsEchoed

/-! ### Whole conversions -/

/-- In a conversion that succeeds every read in markup has been echoed. -/
theorem echoed_of_pieces {template : Template} {pieces : List Piece}
    (h : job.pieces template = .ok pieces) {m : Moment} (hm : m ∈ (job.final template).journal)
    {e : Expr} {label : String} (read : m.Reads e label) :
    m.event = .expression e label false ∧ m.tracker.Sound ∧
      ∃ piece, job.echoOf m.tracker m.cursor label e = .ok piece ∧
        m.written.reverse ++ [piece] <+: pieces := by
  obtain ⟨done, hpieces⟩ :=
    Job.done_of_pieces (Expr.AllIn.of_forall (fun _ => trivial) template.holes) h
  obtain ⟨hevent, sound, piece, resolved, written⟩ :=
    ((ReadsEchoed.start job).steps done.steps).echoed m hm e label read
  refine ⟨hevent, sound, piece, resolved, ?_⟩
  rw [hpieces, ← List.reverse_cons]
  exact List.reverse_prefix.mpr written

/-- A read in markup that cannot be echoed is the end of the conversion. -/
theorem error_of_echoOf {template : Template} {m : Moment}
    (hm : m ∈ (job.final template).journal) {e : Expr} {label : String} (read : m.Reads e label) :
    m.tracker.Sound ∧ ∀ d, job.echoOf m.tracker m.cursor label e = .error d →
      job.pieces template = .error d := by
  cases h : job.pieces template with
  | ok pieces =>
    obtain ⟨-, sound, piece, resolved, -⟩ := echoed_of_pieces h hm read
    refine ⟨sound, fun d failed => ?_⟩
    rw [resolved] at failed
    cases failed
  | error d =>
    obtain ⟨s, steps, stop⟩ :=
      Job.halts_of_pieces (Expr.AllIn.of_forall (fun _ => trivial) template.holes) h
    have inv := (ReadsEchoed.start job).steps steps
    generalize job.final template = final at hm stop
    -- what was read before the end of the conversion has been echoed
    have old (hm : m ∈ s.journal) : m.tracker.Sound ∧
        ∀ d', job.echoOf m.tracker m.cursor label e = .error d' →
          (.error d : Except Diagnostic (List Piece)) = .error d' := by
      obtain ⟨-, sound, piece, resolved, -⟩ := inv.echoed m hm e label read
      refine ⟨sound, fun d' failed => ?_⟩
      rw [resolved] at failed
      cases failed
    cases stop with
    | read _ _ failed =>
      rcases List.mem_cons.mp hm with rfl | hm
      · obtain ⟨⟨bare, hevent⟩, -, -⟩ := read
        cases hevent
        refine ⟨inv.sound, fun d' failed' => ?_⟩
        rw [failed] at failed'
        cases failed'
        rfl
      · exact old hm
    | other quiet => exact (quiet m hm).elim old fun other => absurd read (other e label)

/-- The echo of a value, as it is written. -/
theorem Piece.written_echo (value : Operand) (function : Option String) :
    (Piece.echo value function).written =
      "<?php echo " ++ (match function with
        | some f => f ++ "( " ++ value.text ++ " )"
        | none => value.text) ++ "; ?>" := by
  have front : "<?php echo " = "<?php " ++ "echo " := by decide
  have behind : "; ?>" = ";" ++ " ?>" := by decide
  have bracket : " );" = " )" ++ ";" := by decide
  cases function with
  | none =>
    change "<?php " ++ ("echo " ++ value.text ++ ";") ++ " ?>" = _
    rw [front, behind]
    simp only [String.append_assoc]
  | some f =>
    change "<?php " ++ ("echo " ++ f ++ "( " ++ value.text ++ " );") ++ " ?>" = _
    rw [front, behind, bracket]
    simp only [String.append_assoc]

/-- Every value that is read in markup is escaped. In a conversion that succeeds, the output up to
the moment at which a read in markup begins is followed by the echo of its reference, through the
function for this place and these scopes. Whenever a read in markup is converted, it writes one
piece, and changes neither the scopes nor the cursor. And a conversion that comes to a read outside
attributes for which no policy is declared fails there: for want of the policy, unless the read has
no reference in the first place. -/
theorem reads_escaped (job : Job) (template : Template) :
    (∀ pieces, job.pieces template = .ok pieces →
      ∀ m ∈ (job.final template).journal, ∀ e label, m.Reads e label →
        ∃ reference function, e.reference? = some reference ∧
          job.declaration.Escapes m.tracker m.cursor e function ∧
          m.event = .expression e label false ∧
          m.written.reverse ++ [.echo reference function] <+: pieces ∧
          (Piece.echo reference function).written =
            "<?php echo " ++ (match function with
              | some f => f ++ "( " ++ reference.text ++ " )"
              | none => reference.text) ++ "; ?>") ∧
    (∀ (use : Use) (label : String) (e : Expr) (s s' : Progress), e.isRead = true →
      s.tracker.inCode = false → use ≠ .operand → lower job use label e s = .ok () s' →
        ∃ reference function, e.reference? = some reference ∧
          s' = (s.noting (.expression e label false)).writing (.echo reference function)) ∧
    (∀ m ∈ (job.final template).journal, ∀ e label, m.Reads e label →
      m.cursor.inAttribute = false → job.declaration.policyOf m.tracker e = none →
        ∃ d, job.pieces template = .error d ∧
          (job.reading m.tracker label e = .error d ∨
            ∃ r, job.reading m.tracker label e = .ok r ∧
              d = ⟨.noPolicy r.field (job.declaration.policyPath r.field r.array),
                { component := some job.declaration.title, line := some e.place.line }⟩)) := by
  refine ⟨fun pieces h m hm e label read => ?_, fun use label e s s' read markup huse h => ?_,
    fun m hm e label read outside missing => ?_⟩
  · obtain ⟨hevent, sound, piece, resolved, written⟩ := echoed_of_pieces h hm read
    obtain ⟨reference, function, rfl, hreference⟩ := Job.echo_of_echoOf read.2.1 resolved
    exact ⟨reference, function, hreference, Job.escapes_of_echoOf sound read.2.1 resolved, hevent,
      written, Piece.written_echo reference function⟩
  · rw [lower_read read markup huse] at h
    cases resolved : job.echoOf s.tracker s.cursor label e with
    | error d =>
      rw [resolved] at h
      cases h
    | ok piece =>
      rw [resolved] at h
      cases h
      obtain ⟨reference, function, rfl, hreference⟩ := Job.echo_of_echoOf read resolved
      exact ⟨reference, function, hreference, rfl⟩
  · obtain ⟨sound, fails⟩ := error_of_echoOf hm read
    obtain ⟨d, failed, cause⟩ := Job.echoOf_eq_error sound read.2.1 outside missing
    exact ⟨d, fails d failed, cause⟩

/-- A component with a parameter for an address and one without a policy. -/
def linkJob : Job where
  declaration :=
    { name := .str "Link"
      parameters := [⟨"target", "string", .null, some .html⟩, ⟨"title", "string", .null, none⟩] }
  source := ""
  tag := "html"
  labels := ⟨"none", "one", "many"⟩
  stars := 5

/-- The template `<a href="${this.target}">`. -/
def linkTemplate : Template where
  chunks := ["<a href=\"", "\">"]
  holes := [.member ⟨1, 0⟩ (.this ⟨1, 0⟩) "target" false]

/-- The template `<a>${this.title}`. -/
def titleTemplate : Template where
  chunks := ["<a>", ""]
  holes := [.member ⟨1, 0⟩ (.this ⟨1, 0⟩) "title" false]

/-- Whether a read in markup begins, as a test. -/
def Moment.isReadInMarkup (m : Moment) : Bool :=
  match m.event with
  | .expression e _ _ => e.isRead && !m.tracker.inCode
  | _ => false

theorem Moment.exists_reads {m : Moment} (h : m.isReadInMarkup = true) :
    ∃ e label bare, m.event = .expression e label bare ∧ m.Reads e label := by
  unfold isReadInMarkup at h
  split at h
  · rename_i e label bare hevent
    simp only [Bool.and_eq_true, Bool.not_eq_true'] at h
    exact ⟨e, label, bare, hevent, ⟨bare, hevent⟩, h⟩
  · cases h

/-- Whether a part of a conversion succeeds, as a test. -/
def Emit.succeeds (x : Emit Unit) (s : Progress) : Bool :=
  match x s with
  | .ok _ _ => true
  | .error _ _ => false

/-- In `<a href="${this.target}">` the declared policy makes no difference, and in
`<a>${this.title}` the missing one does. -/
theorem reads_escaped_link :
    (∃ pieces, linkJob.pieces linkTemplate = .ok pieces ∧
      ∃ m ∈ (linkJob.final linkTemplate).journal, ∃ e label, m.Reads e label ∧
        ∃ reference function, e.reference? = some reference ∧
          linkJob.declaration.Escapes m.tracker m.cursor e function ∧
          m.event = .expression e label false ∧
          m.written.reverse ++ [.echo reference function] <+: pieces) ∧
    (∃ s' reference function, lower linkJob .value "" (.member ⟨1, 0⟩ (.this ⟨1, 0⟩) "target" false)
        linkJob.start = .ok () s' ∧ s'.pieces = [.echo reference function]) ∧
    ∃ m ∈ (linkJob.final titleTemplate).journal, ∃ e label, m.Reads e label ∧
      m.cursor.inAttribute = false ∧ linkJob.declaration.policyOf m.tracker e = none ∧
        ∃ d, linkJob.pieces titleTemplate = .error d := by
  refine ⟨?_, ?_, ?_⟩
  · have ok : (linkJob.pieces linkTemplate).toOption.isSome = true := by decide +kernel
    have found : (linkJob.final linkTemplate).journal.any Moment.isReadInMarkup = true := by
      decide +kernel
    obtain ⟨m, hm, h⟩ := List.any_eq_true.mp found
    obtain ⟨e, label, -, -, read⟩ := Moment.exists_reads h
    cases h : linkJob.pieces linkTemplate with
    | error d => rw [h] at ok; cases ok
    | ok pieces =>
      obtain ⟨reference, function, hreference, escapes, hevent, written, -⟩ :=
        (reads_escaped linkJob linkTemplate).1 pieces h m hm e label read
      exact ⟨pieces, rfl, m, hm, e, label, read, reference, function, hreference, escapes, hevent,
        written⟩
  · have ok : Emit.succeeds (lower linkJob .value ""
        (.member ⟨1, 0⟩ (.this ⟨1, 0⟩) "target" false)) linkJob.start = true := by
      decide +kernel
    cases h : lower linkJob .value "" (.member ⟨1, 0⟩ (.this ⟨1, 0⟩) "target" false)
        linkJob.start with
    | error d s' => rw [Emit.succeeds, h] at ok; cases ok
    | ok _ s' =>
      obtain ⟨reference, function, -, rfl⟩ := (reads_escaped linkJob linkTemplate).2.1
        .value "" _ linkJob.start s' rfl rfl (by decide) h
      exact ⟨_, reference, function, rfl, rfl⟩
  · have found : (linkJob.final titleTemplate).journal.any (fun m => m.isReadInMarkup &&
        !m.cursor.inAttribute && (match m.event with
          | .expression e _ _ => (linkJob.declaration.policyOf m.tracker e).isNone
          | _ => false)) = true := by
      decide +kernel
    obtain ⟨m, hm, h⟩ := List.any_eq_true.mp found
    simp only [Bool.and_eq_true, Bool.not_eq_true'] at h
    obtain ⟨⟨hread, outside⟩, missing⟩ := h
    obtain ⟨e, label, bare, hevent, read⟩ := Moment.exists_reads hread
    rw [hevent] at missing
    have missing := Option.isNone_iff_eq_none.mp missing
    obtain ⟨d, failed, -⟩ :=
      (reads_escaped linkJob titleTemplate).2.2 m hm e label read outside missing
    exact ⟨m, hm, e, label, read, outside, missing, d, failed⟩

end ServerTemplate
