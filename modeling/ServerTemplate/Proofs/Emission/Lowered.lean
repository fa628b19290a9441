import ServerTemplate.Proofs.Emission.Parts

/-!
# Expressions are converted in steps

`LowersInSteps` says of an expression that it is converted in steps, and that what is converted in
code keeps the regions. There is one lemma for each kind of expression; `lowersInSteps` puts them
together along the recursion of `lower`, and `after_lowerTemplate_steps` says it of whole templates.
-/

namespace ServerTemplate

open Emit

variable {job : Job} {P : Expr → Prop} {s : Progress} {label : String} {e : Expr}

/-! ### Expressions -/

/-- What the conversion of an expression comes to: it runs in steps, and what is converted in code
keeps the regions. -/
def LowersInSteps (job : Job) (P : Expr → Prop) (use : Use) (label : String) (e : Expr) : Prop :=
  e.All P → ∀ s : Progress, (use = .operand → s.tracker.inCode = true) →
    InSteps job P s (lower job use label e) fun _ s' =>
      s.tracker.inCode = true → use ≠ .block → s'.tracker.regions = s.tracker.regions

namespace LowersInSteps

/-- An operand is converted in code and keeps the regions. -/
theorem operand (h : LowersInSteps job P .operand label e) (known : e.All P) (s : Progress)
    (code : s.tracker.inCode = true) :
    InSteps job P s (lower job .operand label e)
      fun _ s' => s'.tracker.regions = s.tracker.regions :=
  (h known s fun _ => code).mono fun _ _ h => h code nofun

theorem value (h : LowersInSteps job P .value label e) (known : e.All P) (s : Progress) :
    InSteps job P s (lower job .value label e) fun _ _ => True :=
  (h known s nofun).mono fun _ _ _ => trivial

/-- A branch may do anything with the regions. -/
theorem block (h : LowersInSteps job P .block label e) (known : e.All P) (s : Progress) :
    InSteps job P s (lower job .block label e) fun _ _ => True :=
  (h known s nofun).mono fun _ _ _ => trivial

/-- A part of an expression in code begins and ends in the same regions. -/
theorem inCode_of_regions {s' : Progress} (code : s.tracker.inCode = true)
    (h : s'.tracker.regions = s.tracker.regions) : s'.tracker.inCode = true := by
  rw [Tracker.inCode, h]
  exact code

/-- A sign is written in code. -/
theorem sign {s' : Progress} {sign : String} (code : s.tracker.inCode = true)
    (h : s'.tracker.regions = s.tracker.regions)
    (step : s'.tracker.inCode = true → Step job P s' (s'.writing (.symbol sign))) :
    InSteps job P s' (write (.symbol sign)) fun _ s'' => s''.tracker.regions = s.tracker.regions :=
  InSteps.write (step (inCode_of_regions code h)) h

/-- Two operands with an operator between them. -/
theorem operator {left right : Expr} {l r : String} {sign : String}
    (hl : LowersInSteps job P .operand l left) (hr : LowersInSteps job P .operand r right)
    (known_left : left.All P) (known_right : right.All P) (code : s.tracker.inCode = true)
    (step : ∀ s', s'.tracker.inCode = true → Step job P s' (s'.writing (.symbol sign))) :
    InSteps job P s
      (do lower job .operand l left; write (.symbol sign); lower job .operand r right)
      fun _ s' => s'.tracker.regions = s.tracker.regions := by
  refine (hl.operand known_left s code).bind fun _ s₁ h₁ => ?_
  refine (LowersInSteps.sign code h₁ (step s₁)).bind fun _ s₂ h₂ => ?_
  exact (hr.operand known_right s₂ (inCode_of_regions code h₂)).mono fun _ _ h => h.trans h₂

theorem group {use : Use} {place : Text.Place} {inner : Expr} (huse : use ≠ .block)
    (hop : LowersInSteps job P .operand label inner)
    (hval : LowersInSteps job P .value label inner) :
    LowersInSteps job P use label (.group place inner) := by
  intro known s hcode
  rw [lower, if_neg huse]
  refine inSteps_begin_other known.1 hcode rfl fun s₀ h₀ => ?_
  cases code : s.tracker.inCode with
  | false => exact (hval.value known.2 s₀).mono fun _ _ _ code => absurd code Bool.false_ne_true
  | true =>
    have h₀ : s₀.tracker.regions = s.tracker.regions := congrArg _ h₀
    refine (LowersInSteps.sign code h₀ (.bracket (by decide))).bind fun _ s₁ h₁ => ?_
    refine (hop.operand known.2 s₁ (inCode_of_regions code h₁)).bind fun _ s₂ h₂ => ?_
    exact (LowersInSteps.sign code (h₂.trans h₁) (.bracket (by decide))).mono fun _ _ h _ _ => h

theorem logical {use : Use} {place : Text.Place} {operator : String} {left right : Expr}
    (hl : LowersInSteps job P .operand (label ++ "-left") left)
    (hr : LowersInSteps job P .operand (label ++ "-right") right)
    (htest : LowersInSteps job P .operand (label ++ "-test") left)
    (hblock : LowersInSteps job P .block (label ++ "-consequent") right) :
    LowersInSteps job P use label (.logical place operator left right) := by
  intro known s hcode
  rw [lower]
  refine inSteps_begin_other known.1 hcode rfl fun s₀ h₀ => ?_
  cases code : s.tracker.inCode with
  | true =>
    rw [← h₀] at code ⊢
    exact (LowersInSteps.operator hl hr known.2.1 known.2.2 code fun s' => .logical known.1).mono
      fun _ _ h _ _ => h
  | false =>
    rw [if_neg Bool.false_ne_true]
    split
    · refine (inSteps_condition (h₀ ▸ code) (htest.operand known.2.1)).bind fun _ s₁ markup => ?_
      refine (inSteps_conditionalBlock markup _ fun p hp => ?_).mono
          fun _ _ _ code => absurd code Bool.false_ne_true
      rw [List.mem_singleton] at hp
      subst hp
      exact ⟨.inl rfl, hblock.block known.2.2⟩
    · exact InSteps.refuse

theorem conditional {use : Use} {place : Text.Place} {test consequent alternate : Expr}
    (htest : LowersInSteps job P .operand (label ++ "-test") test)
    (hthen : LowersInSteps job P .operand (label ++ "-consequent") consequent)
    (helse : LowersInSteps job P .operand (label ++ "-alternate") alternate)
    (hthen_block : LowersInSteps job P .block (label ++ "-consequent") consequent)
    (helse_block : LowersInSteps job P .block (label ++ "-alternate") alternate) :
    LowersInSteps job P use label (.conditional place test consequent alternate) := by
  intro known s hcode
  rw [lower]
  refine inSteps_begin_other known.1 hcode rfl fun s₀ h₀ => InSteps.inCode ?_
  rw [h₀]
  cases code : s.tracker.inCode with
  | true =>
    refine (inSteps_inlineConditional (h₀ ▸ code) fun x hx s' hs' => ?_).mono
      fun _ _ h _ _ => h₀ ▸ h
    simp only [List.mem_cons, List.not_mem_nil, or_false] at hx
    rcases hx with rfl | rfl | rfl
    · exact htest.operand known.2.1 s' hs'
    · exact hthen.operand known.2.2.1 s' hs'
    · exact helse.operand known.2.2.2 s' hs'
  | false =>
    rw [if_neg Bool.false_ne_true]
    refine (inSteps_condition (h₀ ▸ code) (htest.operand known.2.1)).bind fun _ s₁ markup => ?_
    refine (inSteps_conditionalBlock markup _ fun p hp => ?_).mono
          fun _ _ _ code => absurd code Bool.false_ne_true
    have hp : p = ([], lower job .block (label ++ "-consequent") consequent) ∨
        p = ([.otherwise], lower job .block (label ++ "-alternate") alternate) := by
      split at hp <;> simp_all
    rcases hp with rfl | rfl
    · exact ⟨.inl rfl, hthen_block.block known.2.2.1⟩
    · exact ⟨.inr rfl, helse_block.block known.2.2.2⟩

/-- A loop over an array, with its body. -/
theorem loop {call receiver this arrow : Text.Place} {callee body : Expr} {arguments : List Expr}
    {array item : String} {optional : Bool}
    (known_array : P (.member receiver (.this this) array optional))
    (known : (Expr.arrow arrow [item] body).All P)
    (hbody : LowersInSteps job P .block "map-loop-body" body) :
    InSteps job P s
      (do loopHead job (.call call callee arguments) array label (some item)
          Emit.block .loop (some item) (some array)
            [([], lower job .block "map-loop-body" body)] .loopEnd)
      fun _ _ => s.tracker.inCode = false := by
  refine (inSteps_loopHead known_array known.1).bind fun _ s' ⟨same, markup, visible, fresh⟩ => ?_
  rw [← same] at markup visible fresh
  exact (inSteps_loopBlock known.1 markup visible fresh (hbody.block known.2)).mono
    fun _ _ _ => same ▸ markup

theorem call {use : Use} {place : Text.Place} {callee : Expr} {arguments : List Expr}
    (hbody : ∀ arrow item body, arguments = [.arrow arrow [item] body] →
      LowersInSteps job P .block "map-loop-body" body) :
    LowersInSteps job P use label (.call place callee arguments) := by
  intro known s hcode
  rw [lower_call]
  refine inSteps_begin_other known.1 hcode rfl fun s₀ h₀ => InSteps.tracker ?_
  refine (InSteps.ofExcept fun _ _ => ?_).bind fun _ s' h => h
  refine (InSteps.ofExcept fun _ _ => ?_).bind fun _ s' h => h
  -- a call has a form in markup only
  have shaped : InSteps job P s₀ (called job label place callee arguments)
      fun _ _ => s₀.tracker.inCode = false := by
    unfold called
    cases hshape : CallShape.of? callee with
    | none => exact InSteps.refuse
    | some shape =>
      cases shape with
      | helper name => exact inSteps_helper known
      | loop array =>
        obtain ⟨p, q, r, name, optional, optional', rfl⟩ := CallShape.of?_eq_loop hshape
        dsimp only
        split
        · exact LowersInSteps.loop known.2.1.2.1 known.2.2.1 (hbody _ _ _ rfl)
        · exact inSteps_loopHead_none
  exact shaped.mono fun _ _ markup code => absurd (h₀ ▸ code) (by simp [markup])

/-- A read in markup is one step, or breaks the conversion off. -/
theorem read {use : Use} (known : P e) (read : e.isRead = true) (markup : s.tracker.inCode = false)
    (hcode : use = .operand → s.tracker.inCode = true) {post : Unit → Progress → Prop}
    (h : ∀ s', post () s') : InSteps job P s (lower job use label e) post := by
  have huse : use ≠ .operand := fun h => absurd (hcode h) (by simp [markup])
  unfold InSteps After
  rw [lower_read read markup huse]
  cases resolved : job.echoOf s.tracker s.cursor label e with
  | ok piece => exact ⟨.step (.echo known read markup resolved), h _⟩
  | error d => exact ⟨s, .refl, .read read markup resolved⟩

theorem name {use : Use} {place : Text.Place} {name : String} :
    LowersInSteps job P use label (.name place name) := by
  intro known s hcode
  cases code : s.tracker.inCode with
  | true =>
    rw [lower]
    refine inSteps_begin known.self hcode (fun _ => code) fun s₀ h₀ => ?_
    rw [code]
    exact (inSteps_readValue_code known.self (h₀ ▸ code)).mono
      fun _ _ h _ _ => congrArg Tracker.regions (h.trans h₀)
  | false =>
    exact LowersInSteps.read known.self rfl code hcode fun _ code => absurd code Bool.false_ne_true

theorem member {use : Use} {place : Text.Place} {object : Expr} {name : String} {optional : Bool} :
    LowersInSteps job P use label (.member place object name optional) := by
  intro known s hcode
  by_cases other : (Expr.member place object name optional).isRead = true → s.tracker.inCode = true
  · rw [lower]
    refine inSteps_begin known.1 hcode other fun s₀ h₀ => ?_
    rw [← h₀] at other ⊢
    exact (inSteps_property known other).mono fun _ _ h _ _ => congrArg _ h
  · obtain ⟨read, markup⟩ := Classical.not_imp.mp other
    rw [Bool.not_eq_true] at markup
    exact LowersInSteps.read known.1 read markup hcode fun _ => by simp [markup]

theorem binary {use : Use} {place : Text.Place} {operator : String} {left right : Expr}
    (hl : LowersInSteps job P .operand (label ++ "-left") left)
    (hr : LowersInSteps job P .operand (label ++ "-right") right) :
    LowersInSteps job P use label (.binary place operator left right) := by
  intro known s hcode
  rw [lower]
  refine inSteps_begin_other known.1 hcode rfl fun s₀ h₀ => ?_
  cases code : s.tracker.inCode with
  | true =>
    rw [← h₀] at code ⊢
    exact (LowersInSteps.operator hl hr known.2.1 known.2.2 code fun s' => .binary known.1).mono
      fun _ _ h _ _ => h
  | false => exact InSteps.refuse

/-- What has no form at all is refused. -/
theorem refused {use : Use} {construct : Unsupported} (hread : e.isRead = false)
    (hlower : lower job use label e = do
      let _ ← begin use e label
      refuse job e label construct) : LowersInSteps job P use label e := by
  intro known s hcode
  rw [hlower]
  exact inSteps_begin known.self hcode (by simp [hread]) fun _ _ => InSteps.refuse

end LowersInSteps

/-- Expressions and the parts of templates are converted in steps. -/
theorem lowersInSteps (job : Job) (P : Expr → Prop) :
    (∀ use label e, LowersInSteps job P use label e) ∧
      ∀ front index holes texts, Expr.AllIn P holes →
        ∀ s, InSteps job P s (lowerParts job front index holes texts) fun _ _ => True := by
  -- one case for each equation of the conversion
  refine lower.mutual_induct job _ _ ?groupInBlock ?group ?rendered ?skipped ?text ?halves ?constant
    ?name ?member ?binary ?logical ?conditional ?call ?this ?arrow ?template ?other ?nil ?lacking
    ?cons
  case groupInBlock =>
    intro label place inner ih known s hcode
    rw [lower, if_pos rfl]
    exact ih known.2 s hcode
  case group => exact fun use label place inner huse hop hval => .group huse hop hval
  case rendered =>
    intro use label place tag templatePlace texts holes huse ih known s _
    rw [lower, if_pos huse]
    exact (ih known.2 s).mono fun _ _ _ _ h => (h huse.1).elim
  case skipped =>
    intro use label place tag templatePlace texts holes huse known s hcode
    rw [lower, if_neg huse]
    refine inSteps_begin_other known.1 hcode rfl fun s₀ h₀ => ?_
    split
    · exact InSteps.refuse
    · rename_i h
      exact InSteps.pure fun code => (h (.inr code)).elim
  case text =>
    intro label place spelling content known s _
    rw [lower]
    exact inSteps_constantText.mono fun _ _ _ _ h => (h rfl).elim
  case halves =>
    intro label place spelling points known s _
    rw [lower]
    exact inSteps_constantText.mono fun _ _ _ _ h => (h rfl).elim
  case constant =>
    intro use label place v spelling hv hp known s hcode
    rw [lower]
    · refine inSteps_begin_other known.self hcode rfl fun s₀ h₀ => ?_
      rw [← h₀]
      exact (inSteps_constant known.self).mono fun _ _ h code _ => congrArg _ (h code)
    · exact hv
    · exact hp
  case name => exact fun use label place name => .name
  case member => exact fun use label place object name optional => .member
  case binary => exact fun use label place operator left right hl hr => .binary hl hr
  case logical =>
    exact fun use label place operator left right hl hr htest hblock => .logical hl hr htest hblock
  case conditional =>
    exact fun use label place test consequent alternate h₁ h₂ h₃ h₄ h₅ =>
      .conditional h₁ h₂ h₃ h₄ h₅
  case call =>
    intro use label place callee arguments ih
    refine .call fun arrow item body h => ?_
    subst h
    exact ih
  case this => exact fun use label place => .refused rfl (by rw [lower])
  case arrow => exact fun use label place parameters body => .refused rfl (by rw [lower])
  case template => exact fun use label place chunks holes => .refused rfl (by rw [lower])
  case other => exact fun use label place kind source => .refused rfl (by rw [lower])
  case nil =>
    intro front index texts _ s
    rw [lowerParts]
    exact inSteps_chunks texts
  case lacking =>
    intro front index e holes _ s
    rw [lowerParts]
    exact InSteps.pure trivial
  case cons =>
    intro front index e holes content texts he hrest known s
    rw [lowerParts]
    refine inSteps_chunk.then fun _ s => ?_
    refine (inSteps_hole known.1.self fun s => ?_).then fun _ s => hrest known.2 s
    exact LowersInSteps.value he known.1 s

/-- What a conversion of a template has done that has succeeded. -/
structure Job.Done (job : Job) (P : Expr → Prop) (s : Progress) : Prop where
  /-- What stands in the frame of the template. -/
  inner : ∃ s₁ frame t, Runs job P (job.start.tracking (job.start.tracker.enter .template)) s₁ ∧
    s₁.tracker.exit (some .template) = .ok (frame, t) ∧ s = s₁.tracking t
  frames : s.tracker.frames.length = 1
  regions : s.tracker.regions = [.markup]

theorem Job.Done.steps {s : Progress} (h : job.Done P s) : Steps job P job.start s := by
  obtain ⟨s₁, frame, t, inner, left, rfl⟩ := h.inner
  have entered : Steps job P job.start (job.start.tracking (job.start.tracker.enter .template)) :=
    .single .enterTemplate
  exact (entered.trans inner.steps).tail (.leaveTemplate left)

/-- A whole template is converted in steps, and leaves nothing open if it succeeds. -/
theorem after_lowerTemplate_steps {template : Template} (known : Expr.AllIn P template.holes) :
    After (lowerTemplate job template) job.start (fun _ s => job.Done P s)
      (Halts job P job.start) := by
  have entered : Steps job P job.start (job.start.tracking (job.start.tracker.enter .template)) :=
    .single .enterTemplate
  unfold lowerTemplate
  rw [after_bind, after_enterScope_none, after_bind]
  refine After.mono ((lowersInSteps job P).2 "" 0 _ _ known _) (fun _ s₁ ⟨inner, _⟩ => ?_)
    fun _ _ h => h.of_steps entered
  have before := entered.trans inner.steps
  refine after_bind.mpr (after_exitScope (fun frame t left => ?_) fun d _ =>
    (Halts.here s₁ d).of_steps before)
  rw [after_bind, after_tracker]
  refine after_ofExcept (fun _ finished => ?_) fun d _ =>
    (Halts.here _ d).of_steps (before.tail (.leaveTemplate left))
  rw [Progress.tracking_tracker, Tracker.finish] at finished
  split at finished
  · cases finished
  · split at finished
    · cases finished
    · rename_i hframes hregions
      exact ⟨⟨s₁, frame, t, inner, left, rfl⟩, Decidable.not_not.mp hframes,
        Decidable.not_not.mp hregions⟩

/-! ### Whole conversions -/

/-- The state in which the conversion of a template ends, whether it succeeds or not. -/
def Job.final (job : Job) (template : Template) : Progress :=
  match lowerTemplate job template job.start with
  | .ok _ s => s
  | .error _ s => s

/-- A conversion that succeeds has run in steps and left nothing open. -/
theorem Job.done_of_pieces {template : Template} {pieces : List Piece}
    (known : Expr.AllIn P template.holes) (h : job.pieces template = .ok pieces) :
    job.Done P (job.final template) ∧ pieces = (job.final template).pieces.reverse := by
  have run : After (lowerTemplate job template) _ _ _ := after_lowerTemplate_steps known
  unfold Job.pieces at h
  unfold Job.final
  unfold After at run
  cases result : lowerTemplate job template job.start with
  | ok _ s =>
    rw [result] at h run
    cases h
    exact ⟨run, rfl⟩
  | error d s =>
    rw [result] at h
    cases h

/-- A conversion that fails has broken off after some steps. -/
theorem Job.halts_of_pieces {template : Template} {d : Diagnostic}
    (known : Expr.AllIn P template.holes) (h : job.pieces template = .error d) :
    Halts job P job.start d (job.final template) := by
  have run : After (lowerTemplate job template) _ _ _ := after_lowerTemplate_steps known
  unfold Job.pieces at h
  unfold Job.final
  unfold After at run
  cases result : lowerTemplate job template job.start with
  | ok _ s =>
    rw [result] at h
    cases h
  | error d' s =>
    rw [result] at h run
    cases h
    exact run

end ServerTemplate
