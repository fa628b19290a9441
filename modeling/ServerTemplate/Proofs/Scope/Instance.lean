import ServerTemplate.Proofs.Escaping.Reads
import ServerTemplate.Proofs.Scope.Reads

/-!
# What reads through the component find

A name that is read through the component is meant to be a parameter. A conversion looks it up among
all visible names, so the item of an open loop is found as well, and `this.item` is converted like
`item` (`instance_reads_find`). Only where the value is echoed outside attributes is a parameter
necessary, because the policy of the value is declared with it.
-/

namespace ServerTemplate

open Emit

variable {job : Job} {t : Tracker} {s : Progress} {use : Use} {label name : String}
  {place : Text.Place} {e object inner callee : Expr} {arguments : List Expr}

/-! ### Parts of expressions -/

/-- What is read through the component can be read only if its name is visible. -/
theorem Job.isVisible_of_reading {this : Text.Place} {optional : Bool} {r : Reading}
    (h : job.reading t label (.member place (.this this) name optional) = .ok r) :
    t.isVisible name = true := by
  obtain ⟨_, -, h⟩ := exists_ok_of_bind h
  obtain ⟨_, seen, -⟩ := exists_ok_of_bind h
  exact Job.isVisible_of_requireVisible seen

/-- A property reads a name through the component if it is one of the component, or the length of
one. -/
theorem Expr.eq_of_instanceName?_member {property : String} {optional : Bool}
    (h : (Expr.member place object property optional).instanceName? = some name) :
    (∃ this, object = .this this ∧ property = name) ∨
      property = "length" ∧ ∃ owner this optional',
        object = .member owner (.this this) name optional' := by
  cases object with
  | this this =>
    cases h
    exact .inl ⟨this, rfl, rfl⟩
  | member owner inner array optional' =>
    cases inner with
    | this this =>
      rw [instanceName?] at h
      split at h
      · rename_i length
        cases h
        exact .inr ⟨length, owner, this, optional', rfl⟩
      · cases h
    | _ => cases h
  | _ => cases h

/-- An empty text reads nothing. -/
theorem Expr.instanceReads_of_isEmptyText {tag : String} {rendered : Bool}
    (h : e.isEmptyText = true) : e.instanceReads tag rendered = [] := by
  induction e using Expr.ungrouped.induct with
  | case1 place inner ih =>
    rw [instanceReads]
    exact ih h
  | case2 e noGroup =>
    unfold isEmptyText at h
    cases e with
    | group place inner => exact (noGroup place inner rfl).elim
    | constant place v spelling => rw [instanceReads]
    | _ => cases h

namespace Emit.Reads

theorem value {bare : Bool} {r : Reading} : Reads job [] (Emit.value job e bare r) := by
  unfold Emit.value
  split
  · exact write _
  · exact cursor fun _ => check fun _ => write _

/-- What is made of a reading. If the reading is one through the component, its name is visible. -/
theorem after_reading {f : Reading → Emit Unit} (h : ∀ r, Reads job [] (f r))
    (tracks : job.Tracks s.tracker) :
    After (do f (← ofExcept (job.reading (← Emit.tracker) label e))) s
      (fun _ s' => (∀ p this name optional, e = .member p (.this this) name optional →
        s.tracker.isVisible name = true) ∧ job.Passes [] s s') fun _ _ => True := by
  rw [after_bind, after_tracker, after_bind]
  refine after_ofExcept (fun r hr => ?_) fun _ _ => trivial
  refine (h r s tracks).mono (fun _ s' passes => ⟨?_, passes⟩) fun _ _ h => h
  rintro p this name optional rfl
  exact Job.isVisible_of_reading hr

theorem after_readValue {bare : Bool} (tracks : job.Tracks s.tracker) :
    After (readValue job e label bare) s
      (fun _ s' => (∀ p this name optional, e = .member p (.this this) name optional →
        s.tracker.isVisible name = true) ∧ job.Passes [] s s') fun _ _ => True :=
  after_reading (fun _ => value) tracks

theorem after_countOf {bare : Bool} (tracks : job.Tracks s.tracker) :
    After (countOf job e label bare) s
      (fun _ s' => (∀ p this name optional, e = .member p (.this this) name optional →
        s.tracker.isVisible name = true) ∧ job.Passes [] s s') fun _ _ => True :=
  after_reading (fun _ => write _) tracks

/-- A property, for which the name that it reads through the component is visible. -/
theorem after_property {property : String} {optional bare : Bool} (tracks : job.Tracks s.tracker) :
    After (Emit.property job (.member place object property optional) object property label bare) s
      (fun _ s' => (∀ name, (Expr.member place object property optional).instanceName? = some name →
        s.tracker.isVisible name = true) ∧ job.Passes [] s s') fun _ _ => True := by
  unfold Emit.property
  rw [after_bind, after_tracker, after_bind]
  refine after_ofExcept (fun _ _ => ?_) fun _ _ => trivial
  split
  · rename_i this
    refine (after_readValue tracks).mono (fun _ s' ⟨visible, passes⟩ => ⟨?_, passes⟩) fun _ _ h => h
    rintro name ⟨⟩
    exact visible _ _ _ _ rfl
  · rename_i noThis
    split
    · refine (after_countOf tracks).mono (fun _ s' ⟨visible, passes⟩ => ⟨?_, passes⟩) fun _ _ h => h
      intro name hname
      rcases Expr.eq_of_instanceName?_member hname with ⟨this, rfl, -⟩ | ⟨-, _, _, _, hobject⟩
      · exact (noThis this rfl).elim
      · exact visible _ _ _ _ hobject
    · rename_i noLength
      refine (after_readValue tracks).mono (fun _ s' ⟨_, passes⟩ => ⟨?_, passes⟩) fun _ _ h => h
      intro name hname
      rcases Expr.eq_of_instanceName?_member hname with ⟨this, rfl, -⟩ | ⟨length, -⟩
      · exact (noThis this rfl).elim
      · exact (noLength length).elim

theorem constant {v : Constant} {spelling : String} {bare : Bool} :
    Reads job [] (Emit.constant job e v spelling label bare) := by
  have word {code name : String} : Reads job [] (
      if bare then Emit.write (.constant code)
      else Emit.refuse job e label (.constantInMarkup name)) := by
    split
    · exact write _
    · exact refuse
  have content {code content : String} : Reads job [] (
      if bare then Emit.write (.constant code) else Emit.constantText content) := by
    split
    · exact write _
    · exact constantText
  cases v with
  | null => exact word
  | bool value => cases value <;> exact word
  | int | float | text | halves => exact content

theorem helper {name : String} : Reads job [] (Emit.helper job e name label arguments) := by
  unfold Emit.helper
  refine tracker fun t => ?_
  split
  · exact refuse
  split
  · exact check fun _ => cursor fun _ => check fun _ => write _
  split
  · exact write _
  split
  · exact throw
  · exact check fun _ => write _

/-- The head of a loop, for which the array is visible. -/
theorem after_loopHead {array : String} {item? : Option String} (tracks : job.Tracks s.tracker) :
    After (loopHead job e array label item?) s
      (fun _ s' => s.tracker.isVisible array = true ∧ job.Passes [] s s') fun _ _ => True := by
  unfold loopHead
  rw [after_bind, after_tracker]
  split
  · exact after_refuse
  rw [after_bind]
  refine after_ofExcept (fun _ seen => ?_) fun _ _ => trivial
  have visible := Job.isVisible_of_requireVisible seen
  cases item? with
  | none => exact after_refuse
  | some item =>
    dsimp only
    split
    · exact after_refuse
    · exact (write _ s tracks).mono (fun _ _ passes => ⟨visible, passes⟩) fun _ _ h => h

end Emit.Reads

/-! ### Expressions -/

/-- Whether templates are rendered where an expression is used in some way. An operand cannot be a
template. -/
def Use.Renders (use : Use) (rendered : Bool) : Prop :=
  use = .operand ∨ rendered = (use == .block)

/-- What the conversion of an expression comes to: it begins the reads through the component that
stand in the expression. -/
def ReadsInstance (job : Job) (use : Use) (label : String) (e : Expr) : Prop :=
  ∀ rendered, use.Renders rendered →
    Emit.Reads job (e.instanceReads job.tag rendered) (lower job use label e)

namespace ReadsInstance

/-- The reads in an operand do not depend on whether templates are rendered. -/
theorem operand (h : ReadsInstance job .operand label e) (rendered : Bool) :
    Emit.Reads job (e.instanceReads job.tag rendered) (lower job .operand label e) :=
  h rendered (.inl rfl)

theorem value (h : ReadsInstance job .value label e) :
    Emit.Reads job (e.instanceReads job.tag false) (lower job .value label e) :=
  h false (.inr rfl)

theorem block (h : ReadsInstance job .block label e) :
    Emit.Reads job (e.instanceReads job.tag true) (lower job .block label e) :=
  h true (.inr rfl)

theorem group (huse : use ≠ .block) (hop : ReadsInstance job .operand label inner)
    (hval : ReadsInstance job .value label inner) :
    ReadsInstance job use label (.group place inner) := by
  intro rendered renders
  rw [lower, if_neg huse, Expr.instanceReads]
  refine Reads.begin_quiet rfl fun bare hbare => ?_
  cases bare with
  | true => exact (Reads.write _).quiet_bind ((hop.operand rendered).bind_quiet (Reads.write _))
  | false =>
    have notRendered : rendered = false := by
      rcases renders with hoperand | hrendered
      · cases hbare hoperand
      · rw [hrendered]
        exact beq_false_of_ne huse
    subst notRendered
    exact hval.value

/-- A template that is not rendered is skipped as a value and refused as an operand. -/
theorem skipped {tag : String} {templatePlace : Text.Place} {texts : List String}
    {holes : List Expr} (huse : ¬ (use = .block ∧ tag = job.tag)) :
    ReadsInstance job use label (.tagged place tag templatePlace texts holes) := by
  intro rendered renders
  rw [lower, if_neg huse]
  refine Reads.begin_quiet rfl fun bare hbare => ?_
  by_cases refused : tag ≠ job.tag ∨ bare = true
  · rw [if_pos refused]
    exact .refuse
  · have htag : tag = job.tag := Decidable.not_not.mp fun h => refused (.inl h)
    have notRendered : rendered ≠ true := by
      rintro rfl
      rcases renders with hoperand | hblock
      · exact refused (.inr (hbare hoperand))
      · exact huse ⟨eq_of_beq hblock.symm, htag⟩
    rw [if_neg refused, Expr.instanceReads, if_neg fun h => notRendered h.1]
    exact .pure

theorem bareName {field : String} : ReadsInstance job use label (.name place field) := by
  intro rendered _
  rw [lower, Expr.instanceReads]
  exact Reads.begin_quiet rfl fun _ _ => Reads.tracker fun _ => .check fun _ => .value

theorem member {property : String} {optional : Bool} :
    ReadsInstance job use label (.member place object property optional) := by
  intro rendered _
  rw [lower, Expr.instanceReads, ← List.append_nil (Expr.ownReads _)]
  exact .begin fun _ tracks => Reads.after_property tracks

theorem binary {operator : String} {left right : Expr}
    (hl : ReadsInstance job .operand (label ++ "-left") left)
    (hr : ReadsInstance job .operand (label ++ "-right") right) :
    ReadsInstance job use label (.binary place operator left right) := by
  intro rendered _
  rw [lower, Expr.instanceReads]
  refine Reads.begin_quiet rfl fun bare _ => ?_
  split
  · exact (hl.operand false).bind ((Reads.write _).quiet_bind (hr.operand false))
  · exact .refuse

theorem logical {operator : String} {left right : Expr}
    (hl : ReadsInstance job .operand (label ++ "-left") left)
    (hr : ReadsInstance job .operand (label ++ "-right") right)
    (htest : ReadsInstance job .operand (label ++ "-test") left)
    (hblock : ReadsInstance job .block (label ++ "-consequent") right) :
    ReadsInstance job use label (.logical place operator left right) := by
  intro rendered _
  rw [lower, Expr.instanceReads]
  refine Reads.begin_quiet rfl fun bare _ => ?_
  split
  · exact (hl.operand false).bind ((Reads.write _).quiet_bind (hr.operand true))
  split
  · refine (Reads.condition (htest.operand false)).bind ?_
    exact Reads.block (.enter (by decide)) fun _ => Reads.oneBranch hblock.block
  · exact .refuse

theorem conditional {test consequent alternate : Expr}
    (htest : ReadsInstance job .operand (label ++ "-test") test)
    (hthen : ReadsInstance job .operand (label ++ "-consequent") consequent)
    (helse : ReadsInstance job .operand (label ++ "-alternate") alternate)
    (hthen_block : ReadsInstance job .block (label ++ "-consequent") consequent)
    (helse_block : ReadsInstance job .block (label ++ "-alternate") alternate) :
    ReadsInstance job use label (.conditional place test consequent alternate) := by
  intro rendered _
  rw [lower, Expr.instanceReads]
  refine Reads.begin_quiet rfl fun _ _ => Reads.inCode fun code => ?_
  split
  · exact .inlineConditional (htest.operand false) (hthen.operand true) (helse.operand true)
  · rw [List.append_assoc]
    refine (Reads.condition (htest.operand false)).bind ?_
    refine Reads.block (.enter (by decide)) fun _ => ?_
    split
    · rename_i empty
      rw [Expr.instanceReads_of_isEmptyText empty, List.append_nil]
      exact .oneBranch hthen_block.block
    · exact .branches_cons hthen_block.block (.oneBranch helse_block.block)

/-- A loop reads its array, and then what stands in its body. -/
theorem after_called_loop {arrow : Text.Place} {array item : String} {body : Expr}
    (tracks : job.Tracks s.tracker) (shape : CallShape.of? callee = some (.loop array))
    (hbody : ReadsInstance job .block "map-loop-body" body) :
    After (called job label place callee [.arrow arrow [item] body]) s
      (fun _ s' => (∀ name,
          (Expr.call place callee [.arrow arrow [item] body]).instanceName? = some name →
            s.tracker.isVisible name = true) ∧
        job.Passes (body.instanceReads job.tag true) s s') fun _ _ => True := by
  have block : Emit.Reads job (body.instanceReads job.tag true)
      (Emit.block .loop (some item) (some array)
        [([], lower job .block "map-loop-body" body)] .loopEnd) :=
    .block (.enterLoop item array) fun _ => .oneBranch hbody.block
  unfold called
  rw [shape, Expr.instanceName?_loop shape]
  refine after_bind.mpr ((Reads.after_loopHead tracks).mono ?_ fun _ _ h => h)
  rintro _ s₁ ⟨visible, head⟩
  refine (block s₁ head.tracks).mono (fun _ _ rest => ⟨?_, head.trans rest⟩) fun _ _ h => h
  rintro _ ⟨⟩
  exact visible

/-- A call that is no loop begins no read in it. -/
theorem after_called_quiet (tracks : job.Tracks s.tracker)
    (noArrow : ∀ array arrow item body, CallShape.of? callee = some (.loop array) →
      arguments ≠ [.arrow arrow [item] body]) :
    After (called job label place callee arguments) s
      (fun _ s' => (∀ name, (Expr.call place callee arguments).instanceName? = some name →
        s.tracker.isVisible name = true) ∧ job.Passes [] s s') fun _ _ => True := by
  unfold called
  cases shape : CallShape.of? callee with
  | none => exact Reads.after_refuse
  | some form =>
    cases form with
    | helper helper =>
      refine (Reads.helper s tracks).mono (fun _ _ passes => ⟨fun name h => ?_, passes⟩)
        fun _ _ h => h
      rw [Expr.instanceName?_call fun array loop => by rw [shape] at loop; cases loop] at h
      cases h
    | loop array =>
      dsimp only
      split
      · exact (noArrow _ _ _ _ shape rfl).elim
      · refine (Reads.after_loopHead tracks).mono (fun _ _ ⟨visible, head⟩ => ⟨?_, head⟩)
          fun _ _ h => h
        rw [Expr.instanceName?_loop shape]
        rintro _ ⟨⟩
        exact visible

/-- A call reads its array, if it is a loop, and then what stands in the body. -/
theorem call (hbody : ∀ arrow item body, arguments = [.arrow arrow [item] body] →
      ReadsInstance job .block "map-loop-body" body) :
    ReadsInstance job use label (.call place callee arguments) := by
  intro rendered _
  -- the checks in front of the call begin no read
  have checked {es : List Expr}
      (h : ∀ s, job.Tracks s.tracker → After (called job label place callee arguments) s
        (fun _ s' => (∀ name, (Expr.call place callee arguments).instanceName? = some name →
          s.tracker.isVisible name = true) ∧ job.Passes es s s') fun _ _ => True) :
      Emit.Reads job ((Expr.call place callee arguments).ownReads ++ es)
        (lower job use label (.call place callee arguments)) := by
    rw [lower_call]
    refine .begin fun s tracks => ?_
    rw [after_bind, after_tracker, after_bind]
    refine after_ofExcept (fun _ _ => ?_) fun _ _ => trivial
    rw [after_bind]
    exact after_ofExcept (fun _ _ => h s tracks) fun _ _ => trivial
  by_cases loop : ∃ array arrow item body,
      CallShape.of? callee = some (.loop array) ∧ arguments = [.arrow arrow [item] body]
  · obtain ⟨array, arrow, item, body, shape, rfl⟩ := loop
    rw [Expr.instanceReads_loop shape]
    exact checked fun s tracks => after_called_loop tracks shape (hbody _ _ _ rfl)
  · have noArrow : ∀ array arrow item body, CallShape.of? callee = some (.loop array) →
        arguments ≠ [.arrow arrow [item] body] :=
      fun array arrow item body shape h => loop ⟨array, arrow, item, body, shape, h⟩
    rw [Expr.instanceReads_call noArrow]
    exact checked fun s tracks => after_called_quiet tracks noArrow

/-- What has no form at all is refused. -/
theorem refused {construct : Unsupported} (other : e.instanceName? = none)
    (hlower : lower job use label e = do
      let _ ← Emit.begin use e label
      refuse job e label construct) : ReadsInstance job use label e := by
  intro rendered _
  rw [hlower]
  exact .begin_quiet other fun _ _ => .refuse

end ReadsInstance

/-- Wherever an expression stands, and wherever texts with expressions between them stand, the
conversion begins the reads through the component that stand there. -/
theorem readsInstance (job : Job) :
    (∀ use label e, ReadsInstance job use label e) ∧
      ∀ front index holes texts, Emit.Reads job (Expr.instanceReadsOfParts job.tag holes texts)
        (lowerParts job front index holes texts) := by
  -- one case for each equation of the conversion
  refine lower.mutual_induct job _ _ ?groupInBlock ?group ?rendered ?skipped ?text ?halves ?constant
    ?name ?member ?binary ?logical ?conditional ?call ?this ?arrow ?template ?other ?nil ?lacking
    ?cons
  case groupInBlock =>
    intro label place inner ih rendered renders
    rw [lower, if_pos rfl, Expr.instanceReads]
    exact ih rendered renders
  case group => exact fun use label place inner huse hop hval => .group huse hop hval
  case rendered =>
    intro use label place tag templatePlace texts holes huse ih rendered renders
    obtain ⟨rfl, htag⟩ := huse
    have hrendered : rendered = true := renders.resolve_left (by decide)
    rw [lower, if_pos ⟨rfl, htag⟩, Expr.instanceReads, if_pos ⟨hrendered, htag⟩]
    exact ih
  case skipped => exact fun use label place tag templatePlace texts holes huse => .skipped huse
  case text =>
    intro label place spelling content rendered _
    rw [lower, Expr.instanceReads]
    exact .constantText
  case halves =>
    intro label place spelling points rendered _
    rw [lower, Expr.instanceReads]
    exact .constantText
  case constant =>
    intro use label place v spelling hv hp rendered _
    rw [lower, Expr.instanceReads]
    · exact .begin_quiet rfl fun _ _ => .constant
    · exact hv
    · exact hp
  case name => exact fun use label place name => .bareName
  case member => exact fun use label place object name optional => .member
  case binary => exact fun use label place operator left right hl hr => .binary hl hr
  case logical =>
    exact fun use label place operator left right hl hr htest hblock => .logical hl hr htest hblock
  case conditional =>
    exact fun use label place test consequent alternate h₁ h₂ h₃ h₄ h₅ =>
      .conditional h₁ h₂ h₃ h₄ h₅
  case call =>
    intro use label place callee arguments ih
    refine .call fun arrow item body h => ?_
    subst h
    exact ih
  case this | arrow | template | other =>
    intros
    exact .refused rfl (by rw [lower])
  case nil =>
    intro front index texts
    rw [lowerParts, Expr.instanceReadsOfParts]
    exact .chunks texts
  case lacking =>
    intro front index e holes
    rw [lowerParts, Expr.instanceReadsOfParts]
    exact .pure
  case cons =>
    intro front index e holes content texts he hrest
    rw [lowerParts, Expr.instanceReadsOfParts]
    exact Reads.chunk.quiet_bind ((Reads.hole he.value).bind hrest)

/-! ### Whole conversions -/

/-- A conversion that succeeds has begun the reads of the template, and found all their names. -/
theorem Job.passes_of_pieces {template : Template} {pieces : List Piece}
    (h : job.pieces template = .ok pieces) :
    job.Passes (template.instanceReads job.tag) job.start (job.final template) := by
  have reads : Emit.Reads job (template.instanceReads job.tag) (lowerTemplate job template) := by
    refine (Reads.enter (by decide)).quiet_bind ?_
    refine ((readsInstance job).2 "" 0 template.holes template.chunks).bind_quiet ?_
    exact (Reads.exit _).bind_quiet (.tracker fun _ => .checked)
  unfold Job.pieces at h
  unfold Job.final
  have run := reads job.start (.start job)
  cases result : lowerTemplate job template job.start with
  | ok _ s => exact run.of_ok result
  | error d s =>
    rw [result] at h
    cases h

/-- The policy of a value that is read through the component is declared with a parameter. -/
theorem Declaration.mem_parameterNames {d : Declaration} (read : e.isRead = true)
    (hname : e.instanceName? = some name) (declared : d.policyOf t e ≠ none) :
    name ∈ d.parameterNames := by
  cases e with
  | member place object property optional =>
    rcases Expr.eq_of_instanceName?_member hname with ⟨this, rfl, rfl⟩ | ⟨-, _, _, _, rfl⟩
    · rw [policyOf, declaredPolicy?] at declared
      cases found : d.parameter? property with
      | none =>
        rw [found] at declared
        exact (declared rfl).elim
      | some parameter =>
        have hproperty := List.find?_some found
        rw [beq_iff_eq] at hproperty
        exact List.mem_map.mpr ⟨parameter, List.mem_of_find?_eq_some found, hproperty⟩
    · cases read
  | name => cases hname
  | _ => cases read

/-- **Reads through the component.** A conversion that succeeds begins exactly the reads through the
component that the template determines, in order. Under each name it finds a parameter, or the item
of a loop that is open there; a value that is echoed outside attributes is a parameter. -/
theorem instance_reads_find (job : Job) (template : Template) (pieces : List Piece)
    (h : job.pieces template = .ok pieces) :
    (job.final template).instanceReads = template.instanceReads job.tag ∧
      ∀ m ∈ (job.final template).journal, ∀ e label bare name,
        m.event = .expression e label bare → e.instanceName? = some name →
          (name ∈ job.declaration.parameterNames ∨
            ∃ frame ∈ m.tracker.frames, frame.kind = .loop ∧ frame.item = some name) ∧
          (m.Reads e label → m.cursor.inAttribute = false →
            name ∈ job.declaration.parameterNames) := by
  have passes := Job.passes_of_pieces h
  refine ⟨passes.reads, fun m hm e label bare name hevent hname => ⟨?_, fun read outside => ?_⟩⟩
  · exact (passes.found m hm).resolve_left nofun e label bare name hevent hname
  · obtain ⟨-, sound, piece, resolved, -⟩ := echoed_of_pieces h hm read
    have declared : job.declaration.policyOf m.tracker e ≠ none := by
      intro missing
      obtain ⟨d, failed, -⟩ := Job.echoOf_eq_error sound read.2.1 outside missing
      rw [failed] at resolved
      cases resolved
    exact Declaration.mem_parameterNames read.2.1 hname declared

/-- A list reads its items and, in a condition and in its branch, its title through the component.
-/
theorem instance_reads_find_list :
    (listJob.final listTemplate).instanceReads.map Expr.instanceName? =
      [some "items", some "title", some "title"] := by
  have ok : ∃ pieces, listJob.pieces listTemplate = .ok pieces :=
    exists_ok_of_isSome (by decide +kernel)
  have names : (listTemplate.instanceReads listJob.tag).map Expr.instanceName? =
      [some "items", some "title", some "title"] := by
    decide +kernel
  obtain ⟨pieces, h⟩ := ok
  rw [(instance_reads_find listJob listTemplate pieces h).1, names]

/-- The template `${this.items.map(item => html`<a title="${this.item}">`)}`, which reads the item
of the loop through the component. -/
def itemTemplate : Template where
  chunks := ["", ""]
  holes :=
    [.call ⟨1, 0⟩ (.member ⟨1, 0⟩ (.member ⟨1, 0⟩ (.this ⟨1, 0⟩) "items" false) "map" false)
      [.arrow ⟨1, 0⟩ ["item"] (.tagged ⟨1, 0⟩ "html" ⟨1, 0⟩ ["<a title=\"", "\">"]
        [.member ⟨1, 0⟩ (.this ⟨1, 0⟩) "item" false])]]

/-- A name that is only the item of a loop is read through the component, and the conversion
succeeds. -/
theorem not_parameter_item :
    listJob.convert itemTemplate = .ok ("<?php foreach ( $items as $item ) : ?>"
      ++ "<a title=\"<?php echo esc_attr( $item ); ?>\"><?php endforeach; ?>") ∧
    ∃ e ∈ itemTemplate.instanceReads listJob.tag, ∃ name, e.instanceName? = some name ∧
      name ∉ listJob.declaration.parameterNames := by
  refine ⟨eq_ok_of_toOption (by decide +kernel), ?_⟩
  refine ⟨.member ⟨1, 0⟩ (.this ⟨1, 0⟩) "item" false, ?_, "item", rfl, by decide +kernel⟩
  exact List.mem_cons_of_mem _ (List.mem_singleton_self _)

end ServerTemplate
