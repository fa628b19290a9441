import ServerTemplate.Proofs.Emission.Step
import ServerTemplate.Proofs.Tandem.Basic

/-!
# Expressions in tandem

Two jobs are paired (`Job.Paired`) if they differ in the texts that snippets show, and otherwise in
what their leeway allows: the second may know more names, and policies where the first has none.
Then alike expressions are converted in tandem under all labels (`Job.Paired.tandem_lower`). The one
thing that an expression may not do is to bind an added name in a loop, since a loop may bind only
names that are not visible.
-/

namespace ServerTemplate

open Emit

/-- Two jobs that differ in what a leeway allows, and in the texts that snippets show. -/
structure Job.Paired (w : Leeway) (job job' : Job) : Prop where
  tag : job'.tag = job.tag
  labels : job'.labels = job.labels
  stars : job'.stars = job.stars
  start : job.start.tracker.Within w.added job'.start.tracker
  /-- The policies are the same, unless the first job has none. -/
  policy : ∀ field array,
    job'.declaration.declaredPolicy? field array = job.declaration.declaredPolicy? field array ∨
      (w.lenient ∧ job.declaration.declaredPolicy? field array = none)

/-- Every job is paired with itself, and with all that differ in what snippets show only. -/
theorem Job.Paired.of_source {w : Leeway} (job : Job) (source : String) :
    Job.Paired w job { job with source } where
  tag := rfl
  labels := rfl
  stars := rfl
  start := .refl _ _
  policy _ _ := .inl rfl

/-- Whether an expression is no function with one of some names as a parameter. Such functions are
what loops are given. -/
def Expr.Spares (names : List String) : Expr → Prop
  | .arrow _ parameters _ => ∀ name ∈ parameters, name ∉ names
  | _ => True

/-- Whether no loop in a template can bind one of some names. -/
def Template.Spares (template : Template) (names : List String) : Prop :=
  Expr.AllIn (Expr.Spares names) template.holes

/-- Where there are no names, all of them are spared. -/
theorem Expr.spares_nil (e : Expr) : e.Spares [] := by
  cases e with
  | arrow => exact fun _ _ => List.not_mem_nil
  | _ => exact trivial

instance (names : List String) : DecidablePred (Expr.Spares names)
  | .arrow _ parameters _ => inferInstanceAs (Decidable (∀ name ∈ parameters, name ∉ names))
  | .name .. | .this _ | .member .. | .call .. | .binary .. | .logical .. | .conditional ..
  | .group .. | .constant .. | .template .. | .tagged .. | .other .. => isTrue trivial

section

variable (P : Expr → Prop) [DecidablePred P]

mutual

def Expr.decidableAll : (e : Expr) → Decidable (e.All P)
  | .member _ object _ _ =>
    have := object.decidableAll
    inferInstanceAs (Decidable (_ ∧ _))
  | .call _ callee arguments =>
    have := callee.decidableAll
    have := Expr.decidableAllIn arguments
    inferInstanceAs (Decidable (_ ∧ _ ∧ _))
  | .arrow _ _ inner | .group _ inner =>
    have := inner.decidableAll
    inferInstanceAs (Decidable (_ ∧ _))
  | .binary _ _ left right | .logical _ _ left right =>
    have := left.decidableAll
    have := right.decidableAll
    inferInstanceAs (Decidable (_ ∧ _ ∧ _))
  | .conditional _ test consequent alternate =>
    have := test.decidableAll
    have := consequent.decidableAll
    have := alternate.decidableAll
    inferInstanceAs (Decidable (_ ∧ _ ∧ _ ∧ _))
  | .template _ _ holes | .tagged _ _ _ _ holes =>
    have := Expr.decidableAllIn holes
    inferInstanceAs (Decidable (_ ∧ _))
  | .name .. | .this _ | .constant .. | .other .. => inferInstanceAs (Decidable (P _))

def Expr.decidableAllIn : (es : List Expr) → Decidable (Expr.AllIn P es)
  | [] => isTrue trivial
  | e :: es =>
    have := e.decidableAll
    have := Expr.decidableAllIn es
    inferInstanceAs (Decidable (_ ∧ _))

end

end

instance (template : Template) (names : List String) : Decidable (template.Spares names) :=
  Expr.decidableAllIn _ template.holes

/-! ### Names and values -/

namespace Job.Paired

variable {w : Leeway} {job job' : Job} {t t' : Tracker} {k k' : Cursor} {label label' : String}
  {e e' : Expr}

theorem resolve (paired : Paired w job job') (field : String) (attrName array : Option String)
    {line line' : Option Int} (known : line'.isSome = line.isSome) :
    Concur Diagnostic.gist w.lenient Eq (job.declaration.resolve field attrName array line)
      (job'.declaration.resolve field attrName array line') := by
  unfold Declaration.resolve
  cases attrName with
  | some attrName => exact .ok rfl
  | none =>
    rcases paired.policy field array with same | ⟨excuse, missing⟩
    · rw [same]
      cases job.declaration.declaredPolicy? field array with
      | some policy => exact .ok rfl
      | none =>
        refine .error ?_
        rw [Diagnostic.gist, Diagnostic.hasLine]
        exact congrArg (fun known => (some ErrorCode.missingEscapeMetadata, known, true)) known
    · rw [missing]
      exact .excused excuse

theorem functionFor (paired : Paired w job job') (alike : k.Alike k') (field : String)
    (array : Option String) :
    Concur Diagnostic.gist w.lenient Eq (job.functionFor k field array e)
      (job'.functionFor k' field array e') := by
  unfold Job.functionFor
  rw [← alike.attributeName?]
  have known : (some e'.place.line).isSome = (some e.place.line).isSome := rfl
  exact (paired.resolve field k.attributeName? array known).bind_eq fun _ => .ok rfl

theorem requireVisible (within : t.Within w.added t') (name : String) :
    Concur Diagnostic.gist w.lenient Eq (job.requireVisible t e name label)
      (job'.requireVisible t' e' name label') := by
  unfold Job.requireVisible
  by_cases visible : t.isVisible name = true
  · rw [if_pos visible, if_pos (within.isVisible_of visible)]
    exact .ok rfl
  · rw [if_neg visible]
    by_cases visible' : t'.isVisible name = true
    · have excuse := within.lenient_of_isVisible visible' visible
      rw [Tracker.requireVisible, if_neg visible]
      exact .excused excuse
    · rw [if_neg visible']
      exact within.requireVisible rfl

theorem requirePlain (alike : e.Alike e') :
    Concur Diagnostic.gist w.lenient Eq (job.requirePlain t label e)
      (job'.requirePlain t' label' e') := by
  cases alike with
  | @member _ _ _ _ _ optional =>
    cases optional with
    | true => exact .error rfl
    | false => exact .ok rfl
  | _ => exact .ok rfl

theorem requirePlainOwner (alike : e.Alike e') :
    Concur Diagnostic.gist w.lenient Eq (job.requirePlainOwner t label e)
      (job'.requirePlainOwner t' label' e') := by
  cases alike with
  | member inner => exact requirePlain inner
  | _ => exact .ok rfl

/-- Alike expressions read the same value. -/
theorem reading (within : t.Within w.added t') (alike : e.Alike e') :
    Concur Diagnostic.gist w.lenient Eq (job.reading t label e) (job'.reading t' label' e') := by
  unfold Job.reading
  refine (requirePlain alike).bind_eq fun _ => ?_
  cases alike with
  | name =>
    refine (requireVisible within _).bind_eq fun _ => ?_
    rw [within.bindingFrame?]
    split <;> exact .ok rfl
  | member inner =>
    cases inner with
    | this => exact (requireVisible within _).bind_eq fun _ => .ok rfl
    | @name _ _ owner =>
      dsimp only
      rw [within.currentItem?, within.bindingFrame?]
      by_cases outside : t.currentItem?.isNone = true
      · rw [if_pos outside, if_pos outside]
        exact .error rfl
      · rw [if_neg outside, if_neg outside]
        refine (requireVisible within _).bind_eq fun _ => ?_
        split
        · exact .ok rfl
        · exact .error rfl
    | _ => exact .error rfl
  | _ => exact .error rfl

theorem ratingOperand (within : t.Within w.added t') (item : String)
    {arguments arguments' : List Expr} (given : List.Forall₂ Expr.Alike arguments arguments') :
    Concur Diagnostic.gist w.lenient Eq (job.ratingOperand t label item arguments)
      (job'.ratingOperand t' label' item arguments') := by
  unfold Job.ratingOperand
  cases given with
  | nil => exact .ok rfl
  | cons first rest =>
    cases rest with
    | cons => cases first <;> exact .ok rfl
    | nil =>
      have read : Concur Diagnostic.gist w.lenient Eq (job.reading t label _)
          (job'.reading t' label' _) := reading within first
      cases first with
      | name | member => exact read.bind_eq fun _ => .ok rfl
      | _ => exact .ok rfl

end Job.Paired

/-! ### Forms of expressions -/

namespace Emit.Tandem

variable {w : Leeway} {job job' : Job} {label label' : String} {e e' : Expr}

theorem refuse (construct construct' : Unsupported) :
    Tandem w (Emit.refuse job e label construct) (Emit.refuse job' e' label' construct') :=
  tracker fun _ _ _ => .throw rfl

theorem begin (use : Use) {f g : Bool → Emit Unit} (h : ∀ bare, Tandem w (f bare) (g bare)) :
    Tandem w (Emit.begin use e label >>= f) (Emit.begin use e' label' >>= g) := by
  refine Tandem.bind ?_ h
  exact inCode fun _ => (note _ _).bind fun _ => .pure _

/-- The function of a policy, and what is done with it. -/
theorem function (paired : Job.Paired w job job') (field : String) (array : Option String)
    {f g : Option String → Emit Unit} (h : ∀ function, Tandem w (f function) (g function)) :
    Tandem w (do f (← MonadExcept.ofExcept (job.functionFor (← Emit.cursor) field array e)))
      (do g (← MonadExcept.ofExcept (job'.functionFor (← Emit.cursor) field array e'))) :=
  cursor fun _ _ alike => check (paired.functionFor alike field array) h

theorem readValue (paired : Job.Paired w job job') (alike : e.Alike e') (bare : Bool) :
    Tandem w (Emit.readValue job e label bare) (Emit.readValue job' e' label' bare) := by
  refine tracker fun t t' within => check (Job.Paired.reading within alike) fun r => ?_
  unfold Emit.value
  split
  · exact write _
  · exact function paired r.field r.array fun _ => write _

theorem countOf (alike : e.Alike e') (bare : Bool) :
    Tandem w (Emit.countOf job e label bare) (Emit.countOf job' e' label' bare) :=
  tracker fun _ _ within => check (Job.Paired.reading within alike) fun _ => write _

theorem property (paired : Job.Paired w job job') {place place' : Text.Place}
    {object object' : Expr} {name : String} {optional : Bool} (inner : object.Alike object')
    (bare : Bool) :
    Tandem w (Emit.property job (.member place object name optional) object name label bare)
      (Emit.property job' (.member place' object' name optional) object' name label' bare) := by
  have whole : (Expr.member place object name optional).Alike
    (.member place' object' name optional) := .member inner
  refine tracker fun t t' within => check (Job.Paired.requirePlain whole) fun _ => ?_
  have other : Tandem w
      (if name = "length" then Emit.countOf job object label bare
        else Emit.readValue job (.member place object name optional) label bare)
      (if name = "length" then Emit.countOf job' object' label' bare
        else Emit.readValue job' (.member place' object' name optional) label' bare) := by
    split
    · exact countOf inner bare
    · exact readValue paired whole bare
  cases inner with
  | this => exact readValue paired whole bare
  | _ => exact other

theorem constant (v : Constant) (spelling : String) (bare : Bool) :
    Tandem w (Emit.constant job e v spelling label bare)
      (Emit.constant job' e' v spelling label' bare) := by
  cases bare with
  | true =>
    rcases v with _ | b | _ | _ | _
    case bool => cases b <;> exact write _
    all_goals exact write _
  | false =>
    rcases v with _ | b | _ | _ | _
    case null => exact refuse _ _
    case bool => cases b <;> exact refuse _ _
    all_goals exact constantText _

theorem helper (paired : Job.Paired w job job') (name : String) {arguments arguments' : List Expr}
    (given : List.Forall₂ Expr.Alike arguments arguments') :
    Tandem w (Emit.helper job e name label arguments)
      (Emit.helper job' e' name label' arguments') := by
  unfold Emit.helper
  rw [paired.labels, paired.stars]
  refine tracker fun t t' within => ?_
  rw [within.inCode, within.currentItem?]
  split
  · exact refuse _ _
  split
  · exact check (Job.Paired.requireVisible within _) fun _ =>
      function paired _ _ fun _ => write _
  split
  · exact write _
  split
  · exact .throw rfl
  · exact check (Job.Paired.ratingOperand within _ given) fun _ => write _

/-- The item of a loop is visible to both or to none, since it is not added. -/
theorem loopHead (array : String) (item? : Option String)
    (spared : ∀ item ∈ item?, item ∉ w.added) :
    Tandem w (Emit.loopHead job e array label item?)
      (Emit.loopHead job' e' array label' item?) := by
  refine tracker fun t t' within => ?_
  rw [within.inCode]
  split
  · exact refuse _ _
  refine check (Job.Paired.requireVisible within _) fun _ => ?_
  cases item? with
  | none => exact refuse _ _
  | some item =>
    dsimp only
    rw [within.isVisible_eq (spared item rfl)]
    split
    · exact refuse _ _
    · exact write _

theorem called (paired : Job.Paired w job job') {place place' : Text.Place}
    {callee callee' : Expr} {arguments arguments' : List Expr} (function : callee.Alike callee')
    (given : List.Forall₂ Expr.Alike arguments arguments')
    (spared : Expr.AllIn (Expr.Spares w.added) arguments)
    (h : ∀ arrow item body, arguments = [.arrow arrow [item] body] → ∀ body', body.Alike body' →
      Tandem w (lower job .block "map-loop-body" body)
        (lower job' .block "map-loop-body" body')) :
    Tandem w (Emit.called job label place callee arguments)
      (Emit.called job' label' place' callee' arguments') := by
  unfold Emit.called
  rw [function.callShape]
  split
  · exact refuse _ _
  · exact helper paired _ given
  · -- only one argument, an arrow function with one parameter, makes a loop
    have noLoop (array : String) : Tandem w
        (Emit.loopHead job (.call place callee arguments) array label none)
        (Emit.loopHead job' (.call place' callee' arguments') array label' none) :=
      loopHead array none fun _ absent => by cases absent
    cases given with
    | nil => exact noLoop _
    | cons first rest =>
      cases rest with
      | cons =>
        cases first with
        | @arrow _ _ parameters =>
          rcases parameters with _ | ⟨_, _ | ⟨_, _⟩⟩ <;> exact noLoop _
        | _ => exact noLoop _
      | nil =>
        cases first with
        | @arrow arrow _ parameters body body' inner =>
          rcases parameters with _ | ⟨item, _ | ⟨_, _⟩⟩
          · exact noLoop _
          · have spares : ∀ name ∈ [item], name ∉ w.added := spared.1.self
            refine (loopHead _ (some item) fun name hname => ?_).bind fun _ => ?_
            · exact spares name (List.mem_singleton.mpr (Option.mem_some_iff.mp hname).symm)
            · exact block _ _ _ _ (.cons ⟨rfl, h _ _ _ rfl _ inner⟩ .nil)
          · exact noLoop _
        | _ => exact noLoop _

end Emit.Tandem

/-! ### Expressions -/

/-- Alike expressions that bind no added name, and the parts of templates with such holes, are
converted in tandem, under all labels and with every numbering of the holes. -/
theorem Job.Paired.tandem_lower {w : Leeway} {job job' : Job} (paired : Paired w job job') :
    (∀ use label e, ∀ e' label', e.Alike e' → e.All (Expr.Spares w.added) →
      Tandem w (lower job use label e) (lower job' use label' e')) ∧
    ∀ start index holes texts, ∀ holes' start' index', List.Forall₂ Expr.Alike holes holes' →
      Expr.AllIn (Expr.Spares w.added) holes →
      Tandem w (lowerParts job start index holes texts)
        (lowerParts job' start' index' holes' texts) := by
  -- one case for each equation of the conversion
  refine lower.mutual_induct job _ _ ?groupInBlock ?group ?rendered ?skipped ?text ?halves ?constant
    ?name ?member ?binary ?logical ?conditional ?call ?this ?arrow ?template ?other ?nil ?lacking
    ?cons
  case groupInBlock =>
    intro label place inner ih e' label' alike spared
    cases alike with
    | group content =>
      rw [lower, lower, if_pos rfl, if_pos rfl]
      exact ih _ label' content spared.2
  case group =>
    intro use label place inner huse hoperand hvalue e' label' alike spared
    cases alike with
    | group content =>
      rw [lower, lower, if_neg huse, if_neg huse]
      refine .begin use fun bare => ?_
      split
      · exact (Tandem.write _).bind fun _ => (hoperand _ label' content spared.2).bind fun _ =>
          .write _
      · exact hvalue _ label' content spared.2
  case rendered =>
    intro use label place tag templatePlace texts holes huse ih e' label' alike spared
    cases alike with
    | tagged filled =>
      rw [lower, lower, paired.tag, if_pos huse, if_pos huse]
      exact ih _ _ _ filled spared.2
  case skipped =>
    intro use label place tag templatePlace texts holes huse e' label' alike spared
    cases alike with
    | tagged filled =>
      rw [lower, lower, paired.tag, if_neg huse, if_neg huse]
      refine .begin use fun bare => ?_
      split
      · exact .refuse _ _
      · exact .pure ()
  case text =>
    intro label place spelling content e' label' alike spared
    cases alike with
    | constant =>
      rw [lower, lower]
      exact .constantText content
  case halves =>
    intro label place spelling points e' label' alike spared
    cases alike with
    | constant =>
      rw [lower, lower]
      exact .constantText _
  case constant =>
    intro use label place v spelling hv hp e' label' alike spared
    cases alike with
    | constant =>
      rw [lower, lower]
      · exact .begin use fun bare => .constant v spelling bare
      · exact hv
      · exact hp
      · exact hv
      · exact hp
  case name =>
    intro use label place name e' label' alike spared
    cases alike with
    | name =>
      rw [lower, lower]
      exact .begin use fun bare => .readValue paired .name bare
  case member =>
    intro use label place object name optional e' label' alike spared
    cases alike with
    | member inner =>
      rw [lower, lower]
      exact .begin use fun bare => .property paired inner bare
  case binary =>
    intro use label place operator left right hl hr e' label' alike spared
    cases alike with
    | binary first second =>
      rw [lower, lower]
      refine .begin use fun bare => ?_
      split
      · exact (hl _ _ first spared.2.1).bind fun _ => (Tandem.write _).bind fun _ =>
          hr _ _ second spared.2.2
      · exact .refuse _ _
  case logical =>
    intro use label place operator left right hl hr htest hblock e' label' alike spared
    cases alike with
    | logical first second =>
      rw [lower, lower, paired.tag, second.isMarkup]
      refine .begin use fun bare => ?_
      split
      · exact (hl _ _ first spared.2.1).bind fun _ => (Tandem.write _).bind fun _ =>
          hr _ _ second spared.2.2
      · split
        · exact (Tandem.condition (htest _ _ first spared.2.1)).bind fun _ =>
            .block _ _ _ _ (.cons ⟨rfl, hblock _ _ second spared.2.2⟩ .nil)
        · exact .refuse _ _
  case conditional =>
    intro use label place test consequent alternate htest hthen helse hthen_block helse_block
      e' label' alike spared
    cases alike with
    | conditional condition first second =>
      obtain ⟨-, spared_test, spared_first, spared_second⟩ := spared
      rw [lower, lower, second.isEmptyText]
      refine .begin use fun _ => .inCode fun code => ?_
      split
      · exact .inlineConditional (htest _ _ condition spared_test)
          (hthen _ _ first spared_first) (helse _ _ second spared_second)
      · refine (Tandem.condition (htest _ _ condition spared_test)).bind fun _ =>
          .block _ _ _ _ ?_
        split
        · exact .cons ⟨rfl, hthen_block _ _ first spared_first⟩ .nil
        · exact .cons ⟨rfl, hthen_block _ _ first spared_first⟩
            (.cons ⟨rfl, helse_block _ _ second spared_second⟩ .nil)
  case call =>
    intro use label place callee arguments ih e' label' alike spared
    cases alike with
    | call function given =>
      rw [lower_call, lower_call]
      refine .begin use fun _ => .tracker fun t t' within => ?_
      refine Tandem.check (Job.Paired.requirePlain function) fun _ => ?_
      refine Tandem.check (Job.Paired.requirePlainOwner function) fun _ => ?_
      refine .called paired function given spared.2.2 ?_
      rintro arrow item body rfl body' inner
      exact ih _ _ inner spared.2.2.1.2
  case this | arrow | template | other =>
    intros
    rename_i alike _
    cases alike
    rw [lower, lower]
    exact .begin _ fun _ => .refuse _ _
  case nil =>
    intro start index texts holes' start' index' filled spared
    cases filled
    rw [lowerParts, lowerParts]
    exact .chunks texts
  case lacking =>
    intro start index e holes holes' start' index' filled spared
    cases filled
    rw [lowerParts, lowerParts]
    exact .pure ()
  case cons =>
    intro start index e holes content texts hhole hrest holes' start' index' filled spared
    cases filled with
    | cons first rest =>
      rw [lowerParts, lowerParts]
      exact (Tandem.chunk content).bind fun _ => (Tandem.hole (hhole _ _ first spared.1)).bind
        fun _ => hrest _ start' (index' + 1) rest spared.2

/-! ### Whole templates -/

/-- The fragment of a conversion, from the state in which it ends. -/
theorem Job.convert_eq (job : Job) (template : Template) : job.convert template =
    (outcome (lowerTemplate job template job.start)).map (·.2.written) := by
  unfold Job.convert Job.pieces
  cases lowerTemplate job template job.start <;> rfl

/-- Alike templates that bind no added name have the same fragment, up to leniency. -/
theorem Job.Paired.concur_convert {w : Leeway} {job job' : Job} (paired : Paired w job job')
    (front : w.front = "") {template template' : Template} (alike : template.Alike template')
    (spared : template.Spares w.added) :
    Concur Diagnostic.gist w.lenient Eq (job.convert template) (job'.convert template') := by
  have run : Tandem w (lowerTemplate job template) (lowerTemplate job' template') := by
    unfold lowerTemplate
    rw [alike.texts]
    exact (Tandem.enterScope _ _ _).bind fun _ =>
      (paired.tandem_lower.2 _ _ _ _ _ _ _ alike.holes spared).bind fun _ =>
        (Tandem.exitScope _).bind fun _ => .tracker fun _ _ within =>
          .ofExcept (within.finish w.lenient)
  have abreast : job.start.Abreast w job'.start :=
    ⟨paired.start, .refl _, by rw [front]; rfl⟩
  rw [Job.convert_eq, Job.convert_eq]
  refine (run job.start job'.start abreast).map fun r r' related => ?_
  rw [related.2.written, front, String.empty_append]

end ServerTemplate
