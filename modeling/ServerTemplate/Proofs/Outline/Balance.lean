import ServerTemplate.Proofs.Outline.Reference

/-!
# The reference translation finds no imbalance

The reference translation opens no frame and no region, and none of its diagnostics is about one
(`Job.balanced_outline`). A diagnostic comes from a check of a name, from a policy that is not
declared, or from an expression that has no form where it stands.
-/

namespace ServerTemplate

/-- Whether a diagnostic is about frames and regions that are not left as they were opened. -/
def Diagnostic.IsImbalance (d : Diagnostic) : Prop := ∃ fault, d.cause = .imbalance fault

/-- A result that is no diagnostic about frames and regions. -/
def Balanced {α : Type} (r : Except Diagnostic α) : Prop := ∀ d, r = .error d → ¬ d.IsImbalance

namespace Balanced

variable {α β : Type}

theorem ok (a : α) : Balanced (.ok a) := fun _ h => by cases h

theorem error {d : Diagnostic} (h : ¬ d.IsImbalance) :
    Balanced (.error d : Except Diagnostic α) := by
  rintro _ ⟨⟩
  exact h

theorem bind {x : Except Diagnostic α} {f : α → Except Diagnostic β} (hx : Balanced x)
    (hf : ∀ a, Balanced (f a)) : Balanced (x >>= f) := by
  cases x with
  | ok a => exact hf a
  | error d => exact error (hx d rfl)

end Balanced

namespace Job

variable {job : Job} {loops : Loops} {label : String} {e : Expr} {k : Cursor}

theorem balanced_refusal {α : Type} (construct : Unsupported) :
    Balanced (.error (job.refusal e label construct) : Except Diagnostic α) :=
  .error (by rintro ⟨_, ⟨⟩⟩)

theorem balanced_outsideLoop {α : Type} (reference : String) :
    Balanced (.error ⟨.outsideLoop reference label, job.siteOf e⟩ : Except Diagnostic α) :=
  .error (by rintro ⟨_, ⟨⟩⟩)

/-! ### Names, values and policies -/

theorem balanced_requireSeen {name : String} : Balanced (job.requireSeen loops e name label) := by
  unfold requireSeen
  split
  · exact .ok _
  · exact .error (by rintro ⟨_, ⟨⟩⟩)

theorem balanced_plain : Balanced (job.plain label e) := by
  unfold plain
  split
  · exact balanced_refusal _
  · exact .ok _

theorem balanced_plainOwner : Balanced (job.plainOwner label e) := by
  unfold plainOwner
  split
  · exact balanced_plain
  · exact .ok _

theorem balanced_readingIn : Balanced (job.readingIn loops label e) := by
  unfold readingIn
  refine balanced_plain.bind fun _ => ?_
  split
  · exact balanced_requireSeen.bind fun _ => .ok _
  · by_cases hempty : loops = []
    · rw [if_pos hempty]
      exact balanced_outsideLoop _
    · rw [if_neg hempty]
      refine balanced_requireSeen.bind fun _ => ?_
      split
      · exact .ok _
      · exact balanced_refusal _
  · exact balanced_requireSeen.bind fun _ => .ok _
  · exact balanced_refusal _

theorem balanced_accessIn : Balanced (job.accessIn loops label e) := by
  unfold accessIn
  refine balanced_plain.bind fun _ => ?_
  split
  · exact balanced_readingIn.bind fun _ => .ok _
  · split
    · exact balanced_readingIn.bind fun _ => .ok _
    · exact balanced_readingIn.bind fun _ => .ok _
  · exact balanced_readingIn.bind fun _ => .ok _

theorem balanced_ratingIn {item : String} {arguments : List Expr} :
    Balanced (job.ratingIn loops label item arguments) := by
  unfold ratingIn
  split
  · exact balanced_readingIn.bind fun _ => .ok _
  · exact balanced_readingIn.bind fun _ => .ok _
  · exact .ok _

theorem balanced_functionFor {field : String} {array : Option String} :
    Balanced (job.functionFor k field array e) := by
  refine Balanced.bind ?_ fun _ => .ok _
  unfold Declaration.resolve
  split
  · exact .ok _
  · split
    · exact .ok _
    · exact .error (by rintro ⟨_, ⟨⟩⟩)

/-! ### Expressions -/

theorem balanced_operandOf : Balanced (job.operandOf loops label e) := by
  induction label, e using operandOf.induct with
  | case1 | case2 =>
    rw [operandOf]
    exact balanced_accessIn.bind fun _ => .ok _
  | case3 =>
    rw [operandOf]
    exact .ok _
  | case4 label place inner ih =>
    rw [operandOf]
    exact ih.bind fun _ => .ok _
  | case5 label place operator left right hl hr | case6 label place operator left right hl hr =>
    rw [operandOf]
    exact hl.bind fun _ => hr.bind fun _ => .ok _
  | case7 label place test consequent alternate ht hc ha =>
    rw [operandOf]
    exact ht.bind fun _ => hc.bind fun _ => ha.bind fun _ => .ok _
  | case9 label place callee arguments =>
    rw [operandOf]
    refine balanced_plain.bind fun _ => balanced_plainOwner.bind fun _ => ?_
    split
    · exact balanced_refusal _
    · exact balanced_refusal _
    · exact balanced_refusal _
  | case8 | case10 | case11 | case12 | case13 =>
    rw [operandOf]
    exact balanced_refusal _

theorem balanced_accessAt {a : Access} : Balanced (job.accessAt k e a) := by
  cases a with
  | value r => exact balanced_functionFor.bind fun _ => .ok _
  | count operand => exact .ok _

theorem balanced_helperAt {name : String} {arguments : List Expr} :
    Balanced (job.helperAt loops k label e name arguments) := by
  unfold helperAt
  split
  · exact balanced_requireSeen.bind fun _ => balanced_functionFor.bind fun _ => .ok _
  · split
    · exact .ok _
    · split
      · exact balanced_outsideLoop _
      · exact balanced_ratingIn.bind fun _ => .ok _

theorem balanced_loopHeadIn {array : String} {item? : Option String} :
    Balanced (job.loopHeadIn loops label e array item?) := by
  refine balanced_requireSeen.bind fun _ => ?_
  split
  · exact balanced_refusal _
  · split
    · exact balanced_refusal _
    · exact .ok _

theorem balanced_outlineOf (job : Job) :
    (∀ loops rendered label k e, Balanced (job.outlineOf loops rendered label k e)) ∧
      ∀ loops front index k holes texts,
      Balanced (job.partsOf loops front index k holes texts) := by
  refine outlineOf.mutual_induct job _ _ ?name ?member ?text ?word ?group ?rendered ?foreign
    ?skipped ?binary ?guard ?operator ?conditional ?call ?this ?arrow ?template ?other ?nil ?lacking
    ?cons
  case name | member =>
    intros
    rw [outlineOf]
    exact balanced_accessIn.bind fun _ => balanced_accessAt.bind fun _ => .ok _
  case text =>
    intro _ _ _ _ _ _ _ _ htext
    rw [outlineOf, htext]
    exact .ok _
  case word =>
    intro _ _ _ _ _ _ _ hword
    rw [outlineOf, hword]
    exact balanced_refusal _
  case group =>
    intro _ _ _ _ _ _ ih
    rw [outlineOf]
    exact ih
  case rendered =>
    intro _ _ _ _ _ _ _ _ _ hrendered ih
    rw [outlineOf, if_pos hrendered]
    exact ih
  case foreign =>
    intro _ _ _ _ _ _ _ _ _ hskipped htag
    rw [outlineOf, if_neg hskipped, if_pos htag]
    exact balanced_refusal _
  case skipped =>
    intro _ _ _ _ _ _ _ _ _ hskipped htag
    rw [outlineOf, if_neg hskipped, if_neg htag]
    exact .ok _
  case guard =>
    intro _ _ _ _ _ _ _ _ hmarkup ih
    rw [outlineOf, if_pos hmarkup]
    exact balanced_operandOf.bind fun _ => ih.bind fun _ => .ok _
  case operator =>
    intro _ _ _ _ _ _ _ _ hmarkup
    rw [outlineOf, if_neg hmarkup]
    exact balanced_refusal _
  case conditional =>
    intro _ _ _ _ _ _ _ _ hthen helse
    rw [outlineOf]
    refine balanced_operandOf.bind fun _ => hthen.bind fun _ => ?_
    dsimp only
    split
    · exact .ok _
    · exact helse.bind fun _ => .ok _
  case call =>
    intro _ _ _ _ _ _ arguments ih
    rw [outlineOf]
    refine balanced_plain.bind fun _ => balanced_plainOwner.bind fun _ => ?_
    split
    · exact balanced_refusal _
    · exact balanced_helperAt.bind fun _ => .ok _
    · rename_i array hshape
      split
      · exact balanced_loopHeadIn.bind fun _ => (ih array).bind fun _ => .ok _
      · exact balanced_loopHeadIn.bind fun _ => .ok _
  case binary | this | arrow | template | other =>
    intros
    rw [outlineOf]
    exact balanced_refusal _
  case nil =>
    intros
    rw [partsOf]
    exact .ok _
  case lacking =>
    intros
    rw [partsOf]
    exact .ok _
  case cons =>
    intro _ _ _ _ _ _ _ _ hhole hrest
    rw [partsOf]
    exact hhole.bind fun r => (hrest r.2).bind fun _ => .ok _

/-- No diagnostic of the reference translation is about frames or regions. -/
theorem balanced_outline (job : Job) (template : Template) : Balanced (job.outline template) :=
  ((balanced_outlineOf job).2 _ _ _ _ _ _).bind fun _ => .ok _

end Job

end ServerTemplate
