import ServerTemplate.Proofs.Emission.Stepwise

/-!
# The parts of a conversion run in steps

Reads, constants, helpers, conditions, blocks, the heads of loops and holes, each for whatever
stands inside. `lower_read` says exactly what a read in markup comes to.
-/

namespace ServerTemplate

open Emit

variable {job : Job} {P : Expr → Prop} {s : Progress} {label : String} {e : Expr}

/-! ### Checks -/

/-- Leaving a frame keeps the regions. -/
theorem Tracker.regions_of_exit {t t' : Tracker} {kind : Option FrameKind} {frame : Frame}
    (h : t.exit kind = .ok (frame, t')) : t'.regions = t.regions := by
  unfold Tracker.exit at h
  split at h
  · split at h
    · cases h
    · split at h
      · cases h
        rfl
      · cases h
  · cases h

theorem Job.isVisible_of_requireVisible {t : Tracker} {name : String}
    (h : job.requireVisible t e name label = .ok ()) : t.isVisible name = true := by
  unfold Job.requireVisible Tracker.requireVisible at h
  split at h
  · assumption
  · cases h

/-- A loop is a call of a property of an array of the component. -/
theorem CallShape.of?_eq_loop {callee : Expr} {array : String}
    (h : CallShape.of? callee = some (.loop array)) :
    ∃ call receiver this name optional optional', callee =
      .member call (.member receiver (.this this) array optional) name optional' := by
  unfold CallShape.of? at h
  split at h
  · split at h <;> cases h
  · split at h
    · cases h
      exact ⟨_, _, _, _, _, _, rfl⟩
    · cases h
  · cases h

/-! ### Reads -/

theorem Job.echoOf_of_error {t : Tracker} {k : Cursor} {d : Diagnostic}
    (h : job.reading t label e = .error d) : job.echoOf t k label e = .error d := by
  rw [Job.echoOf, h]
  rfl

theorem Job.echoOf_of_reading {t : Tracker} {k : Cursor} {r : Reading}
    (h : job.reading t label e = .ok r) :
    job.echoOf t k label e = (job.functionFor k r.field r.array e).map (.echo r.operand) := by
  rw [Job.echoOf, h]
  cases hf : job.functionFor k r.field r.array e <;> simp [hf, bind, Except.bind, Except.map, pure,
    Except.pure]

/-- An optional property is refused whatever it is a property of. -/
theorem Job.reading_of_requirePlain {t : Tracker} {d : Diagnostic}
    (h : job.requirePlain t label e = .error d) : job.reading t label e = .error d := by
  unfold Job.reading
  rw [h]
  rfl

namespace Emit

theorem after_begin {use : Use} {good : Bool → Progress → Prop}
    {bad : Diagnostic → Progress → Prop} :
    After (begin use e label) s good bad ↔
      good (use == .operand || s.tracker.inCode)
        (s.noting (.expression e label (use == .operand || s.tracker.inCode))) :=
  Iff.rfl

/-- A value that is read in markup is echoed through the function of its policy. -/
theorem readValue_markup :
    readValue job e label false s =
      match job.echoOf s.tracker s.cursor label e with
      | .ok piece => .ok () (s.writing piece)
      | .error d => .error d s := by
  change (ofExcept (job.reading s.tracker label e) >>= value job e false) s = _
  cases h : job.reading s.tracker label e with
  | error d => rw [Job.echoOf_of_error h]; rfl
  | ok r =>
    rw [Job.echoOf_of_reading h]
    change (ofExcept (job.functionFor s.cursor r.field r.array e) >>= fun f =>
      write (.echo r.operand f)) s = _
    cases job.functionFor s.cursor r.field r.array e <;> rfl

/-- A property that is read in markup is a value, unless it is a number of elements. -/
theorem property_markup {place : Text.Place} {object : Expr} {name : String} {optional : Bool}
    (read : (Expr.member place object name optional).isRead = true) :
    property job (.member place object name optional) object name label false s =
      readValue job (.member place object name optional) label false s := by
  have plain : ∀ x : Emit Unit, x = readValue job (.member place object name optional) label false →
      (ofExcept (job.requirePlain s.tracker label (.member place object name optional)) >>=
        fun _ => x) s = readValue job (.member place object name optional) label false s := by
    rintro x rfl
    cases h : job.requirePlain s.tracker label (.member place object name optional) with
    | ok _ => rfl
    | error d =>
      rw [readValue_markup, Job.echoOf_of_error (Job.reading_of_requirePlain h)]
      rfl
  cases object with
  | this => exact plain _ rfl
  | name =>
    refine plain _ ?_
    have : name ≠ "length" := by simpa [Expr.isRead] using read
    rw [if_neg this]
  | _ => cases read

end Emit

/-- A read in markup writes the echo of its value and nothing else. Where its name, its loop or its
policy is missing it fails. -/
theorem lower_read {use : Use} (read : e.isRead = true) (markup : s.tracker.inCode = false)
    (huse : use ≠ .operand) :
    lower job use label e s =
      match job.echoOf s.tracker s.cursor label e with
      | .ok piece => .ok () ((s.noting (.expression e label false)).writing piece)
      | .error d => .error d (s.noting (.expression e label false)) := by
  have bare : (use == .operand || s.tracker.inCode) = false := by
    rw [markup, Bool.or_false]
    exact beq_false_of_ne huse
  have begins : ∀ f : Bool → Emit Unit, (begin use e label >>= f) s =
      f false (s.noting (.expression e label false)) := by
    intro f
    change f _ (s.noting (.expression e label _)) = _
    rw [bare]
  cases e with
  | name place name =>
    rw [lower, begins, readValue_markup]
    rfl
  | member place object name optional =>
    rw [lower, begins, property_markup read, readValue_markup]
    rfl
  | _ => cases read

/-! ### The parts of an expression in code -/

namespace Emit

/-- An expression begins that is no read in markup. -/
theorem inSteps_begin {use : Use} {f : Bool → Emit Unit} {post : Unit → Progress → Prop}
    (known : P e) (code : use = .operand → s.tracker.inCode = true)
    (other : e.isRead = true → s.tracker.inCode = true)
    (h : ∀ s', s'.tracker = s.tracker → InSteps job P s' (f s.tracker.inCode) post) :
    InSteps job P s (begin use e label >>= f) post := by
  have bare : (use == .operand || s.tracker.inCode) = s.tracker.inCode := by
    cases use <;> simp_all
  have first : InSteps job P s (begin use e label)
      fun bare s' => bare = s.tracker.inCode ∧ s'.tracker = s.tracker := by
    refine after_begin.mpr ?_
    rw [bare]
    exact ⟨.step (.begins known other), rfl, rfl⟩
  refine first.bind fun bare s' hs => ?_
  rw [hs.1]
  exact h s' hs.2

/-- An expression begins that is no read at all. -/
theorem inSteps_begin_other {use : Use} {f : Bool → Emit Unit} {post : Unit → Progress → Prop}
    (known : P e) (code : use = .operand → s.tracker.inCode = true) (other : e.isRead = false)
    (h : ∀ s', s'.tracker = s.tracker → InSteps job P s' (f s.tracker.inCode) post) :
    InSteps job P s (begin use e label >>= f) post := by
  refine inSteps_begin known code (fun read => ?_) h
  rw [other] at read
  cases read

/-- A value that is read in code is written bare. -/
theorem inSteps_readValue_code (known : P e) (code : s.tracker.inCode = true) :
    InSteps job P s (readValue job e label true) fun _ s' => s'.tracker = s.tracker := by
  refine InSteps.tracker ((InSteps.ofExcept fun r hr => ?_).bind fun r s' h => h)
  exact InSteps.write (.operand known code hr) rfl

/-- A number of elements is written bare in code, and echoed as it is in markup. -/
theorem inSteps_countOf (known : P e) :
    InSteps job P s (countOf job e label s.tracker.inCode) fun _ s' => s'.tracker = s.tracker := by
  refine InSteps.tracker ((InSteps.ofExcept fun r hr => ?_).bind fun r s' h => h)
  cases code : s.tracker.inCode with
  | true => exact InSteps.write (.countOperand known code hr) rfl
  | false => exact InSteps.write (.count known code hr) rfl

/-- What is no reference cannot be read. -/
theorem inSteps_readValue_error {bare : Bool} {post : Unit → Progress → Prop}
    (h : ∃ d, job.reading s.tracker label e = .error d) :
    InSteps job P s (readValue job e label bare) post := by
  obtain ⟨d, hd⟩ := h
  refine InSteps.tracker ((InSteps.ofExcept fun r hr => ?_).bind fun r s' h => h)
  rw [hd] at hr
  cases hr

/-- A property in code, or a number of elements. -/
theorem inSteps_property {place : Text.Place} {object : Expr} {name : String} {optional : Bool}
    (known : (Expr.member place object name optional).All P)
    (other : (Expr.member place object name optional).isRead = true → s.tracker.inCode = true) :
    InSteps job P s
      (property job (.member place object name optional) object name label s.tracker.inCode)
      fun _ s' => s'.tracker = s.tracker := by
  have code (h : s.tracker.inCode = true) : InSteps job P s
      (readValue job (.member place object name optional) label s.tracker.inCode)
      fun _ s' => s'.tracker = s.tracker := by
    rw [h]
    exact inSteps_readValue_code known.self h
  refine InSteps.tracker ((InSteps.ofExcept fun _ plain => ?_).bind fun _ s' h => h)
  cases object with
  | this => exact code (other rfl)
  | name =>
    dsimp only
    split
    · exact inSteps_countOf known.2.self
    · rename_i h
      exact code (other (by simpa [Expr.isRead] using h))
  | _ =>
    dsimp only
    split
    · exact inSteps_countOf known.2.self
    · exact inSteps_readValue_error ⟨_, by unfold Job.reading; rw [plain]; rfl⟩

/-- A constant is code in code, and in markup text if it has one. -/
theorem inSteps_constant {place : Text.Place} {v : Constant} {spelling : String}
    (known : P (.constant place v spelling)) :
    InSteps job P s
      (constant job (.constant place v spelling) v spelling label s.tracker.inCode)
      fun _ s' => s.tracker.inCode = true → s'.tracker = s.tracker := by
  cases code : s.tracker.inCode with
  | true =>
    have written : constant job (.constant place v spelling) v spelling label true
        = write (.constant (v.code spelling)) := by
      cases v with
      | bool value => cases value <;> rfl
      | _ => rfl
    rw [written]
    exact InSteps.write (.constant known code) fun _ => rfl
  | false =>
    have text (content : String) : InSteps job P s (constantText content)
        fun _ s' => false = true → s'.tracker = s.tracker :=
      inSteps_constantText.mono fun _ _ _ => nofun
    cases v with
    | null => exact InSteps.refuse
    | bool value => cases value <;> exact InSteps.refuse
    | _ => exact text _

/-- A helper has a form in markup only. -/
theorem inSteps_helper {place : Text.Place} {callee : Expr} {arguments : List Expr}
    {name : String} (known : (Expr.call place callee arguments).All P) :
    InSteps job P s (helper job (.call place callee arguments) name label arguments)
      fun _ _ => s.tracker.inCode = false := by
  refine InSteps.tracker ?_
  cases markup : s.tracker.inCode with
  | true => exact InSteps.refuse
  | false =>
    simp only [Bool.false_eq_true, if_false]
    split
    · refine (InSteps.ofExcept fun _ _ => ?_).bind fun _ s' h => h
      refine InSteps.cursor ((InSteps.ofExcept fun f hf => ?_).bind fun _ s' h => h)
      exact InSteps.write (.resultCount known.self markup hf) trivial
    split
    · exact InSteps.write (.currentYear markup) trivial
    · cases loop : s.tracker.currentItem? with
      | none => exact InSteps.throw
      | some item =>
        refine (InSteps.ofExcept fun rating hr => ?_).bind fun _ s' h => h
        exact InSteps.write
          (.stars (fun e he => (known.2.2.of_mem he).self) markup loop hr) trivial

/-! ### Blocks -/

/-- The head of a conditional is code within markup. -/
theorem inSteps_condition {test : Emit Unit} (markup : s.tracker.inCode = false)
    (inner : ∀ s', s'.tracker.inCode = true →
      InSteps job P s' test fun _ s'' => s''.tracker.regions = s'.tracker.regions) :
    InSteps job P s (condition test) fun _ s' => s'.tracker.inCode = false := by
  have opened : InSteps job P s (do write .ifStart; enterCode) fun _ s' =>
      s'.tracker.inCode = true ∧ s'.tracker.regions = .code :: s.tracker.regions :=
    ⟨.step (.openCondition markup), rfl, rfl⟩
  have closed (s' : Progress) (h : s'.tracker.regions = .code :: s.tracker.regions) :
      InSteps job P s' (do leaveCode; write .ifTested) fun _ s'' => s''.tracker.inCode = false := by
    refine after_bind.mpr (after_leaveCode (fun t ht => ?_) fun d _ => Halts.here s' d)
    have outer : t.inCode = false := by
      rw [Tracker.leaveCode, h] at ht
      cases ht
      exact markup
    exact ⟨.step (.closeCondition ht outer), outer⟩
  have steps : InSteps job P s (do (do write .ifStart; enterCode); test; leaveCode; write .ifTested)
      fun _ s' => s'.tracker.inCode = false :=
    opened.bind fun _ s' h => (inner s' h.1).bind fun _ s'' h' => closed s'' (h'.trans h.2)
  exact steps

/-- The branches of a block, each from the same place. -/
theorem inSteps_branches {start : Cursor} (parts : List (List Piece × Emit Unit))
    (h : ∀ p ∈ parts, (p.1 = [] ∨ p.1 = [.otherwise]) ∧
      ∀ s, InSteps job P s p.2 fun _ _ => True) :
    InSteps job P s (branches start parts) fun _ _ => True := by
  induction parts generalizing s with
  | nil => exact InSteps.pure trivial
  | cons part rest ih =>
    obtain ⟨separator, branch⟩ := part
    obtain ⟨hseparator, hbranch⟩ := h _ (List.mem_cons_self ..)
    have separated : InSteps job P s (separator.forM write) fun _ _ => True := by
      rcases hseparator with rfl | rfl
      · exact InSteps.pure trivial
      · have written : InSteps job P s (write .otherwise) fun _ _ => True :=
          InSteps.write .otherwise trivial
        exact written.then fun _ _ => InSteps.pure trivial
    have moved (s : Progress) : InSteps job P s (moveCursor fun _ => start) fun _ _ => True :=
      ⟨.step (.move start), trivial⟩
    exact separated.then fun _ s => (moved s).then fun _ s => (hbranch s).then fun _ s =>
      ih fun p hp => h p (List.mem_cons_of_mem _ hp)

/-- The branches, the end of their frame and the end of the block, in a frame that is open. -/
theorem inSteps_inBlock {s₁ : Progress} {kind : FrameKind} {closer : Piece}
    (parts : List (List Piece × Emit Unit)) (opened : Opens job P s s₁)
    (h : ∀ p ∈ parts, (p.1 = [] ∨ p.1 = [.otherwise]) ∧
      ∀ s, InSteps job P s p.2 fun _ _ => True)
    (closes : closer = .ifEnd ∨ closer = .loopEnd) :
    After (do branches (← cursor) parts; exitScope kind; write closer) s₁
      (fun _ s' => Runs job P s s' ∧ True) (Halts job P s) := by
  have begun : Steps job P s s₁ := .single (.opens opened)
  rw [after_bind, after_cursor, after_bind]
  refine After.mono (inSteps_branches parts h) (fun _ s₂ ⟨inner, _⟩ => ?_) fun _ _ h =>
    h.of_steps begun
  refine after_bind.mpr (after_exitScope (fun _ t left => ?_) fun d _ => ?_)
  · exact ⟨.block opened inner (.close left closes), trivial⟩
  · exact (Halts.here s₂ d).of_steps (begun.trans inner.steps)

/-- A conditional block. -/
theorem inSteps_conditionalBlock (markup : s.tracker.inCode = false)
    (parts : List (List Piece × Emit Unit))
    (h : ∀ p ∈ parts, (p.1 = [] ∨ p.1 = [.otherwise]) ∧
      ∀ s, InSteps job P s p.2 fun _ _ => True) :
    InSteps job P s (block .conditional none none parts .ifEnd) fun _ _ => True := by
  unfold InSteps block
  rw [after_bind, after_enterScope_none]
  exact inSteps_inBlock parts (.conditional markup) h (.inl rfl)

/-- A conditional in code keeps the regions. -/
theorem inSteps_inlineConditional {test consequent alternate : Emit Unit}
    (code : s.tracker.inCode = true)
    (h : ∀ x ∈ [test, consequent, alternate], ∀ s', s'.tracker.inCode = true →
      InSteps job P s' x fun _ s'' => s''.tracker.regions = s'.tracker.regions) :
    InSteps job P s (inlineConditional test consequent alternate)
      fun _ s' => s'.tracker.regions = s.tracker.regions := by
  have inCode {s' : Progress} (h : s'.tracker.regions = s.tracker.regions) :
      s'.tracker.inCode = true := by
    rw [Tracker.inCode, h]
    exact code
  have sign (sign : String) (listed : sign ∈ ["( ", " )", " ) ? ", " : "]) (s' : Progress)
      (hs : s'.tracker.regions = s.tracker.regions) : InSteps job P s' (write (.symbol sign))
        fun _ s'' => s''.tracker.regions = s.tracker.regions :=
    InSteps.write (.bracket listed (inCode hs)) hs
  have part (x : Emit Unit) (hx : x ∈ [test, consequent, alternate]) (s' : Progress)
      (hs : s'.tracker.regions = s.tracker.regions) : InSteps job P s' x
        fun _ s'' => s''.tracker.regions = s.tracker.regions :=
    (h x hx s' (inCode hs)).mono fun _ _ h' => h'.trans hs
  have entered : InSteps job P s (enterScope .conditional none none)
      fun _ s' => s'.tracker.regions = s.tracker.regions :=
    ⟨.step (.enter code), rfl⟩
  have left (s' : Progress) (hs : s'.tracker.regions = s.tracker.regions) :
      InSteps job P s' (exitScope .conditional)
        fun _ s'' => s''.tracker.regions = s.tracker.regions := by
    refine after_exitScope (fun frame t ht => ⟨.step (.leave (inCode hs) ht), ?_⟩) fun d _ =>
      Halts.here s' d
    exact (Tracker.regions_of_exit ht).trans hs
  refine entered.bind fun _ s₁ h₁ => ?_
  refine (sign "( " (by decide) s₁ h₁).bind fun _ s₂ h₂ => ?_
  refine (part test (by simp) s₂ h₂).bind fun _ s₃ h₃ => ?_
  refine (sign " ) ? " (by decide) s₃ h₃).bind fun _ s₄ h₄ => ?_
  refine (part consequent (by simp) s₄ h₄).bind fun _ s₅ h₅ => ?_
  refine (sign " : " (by decide) s₅ h₅).bind fun _ s₆ h₆ => ?_
  exact (part alternate (by simp) s₆ h₆).bind fun _ s₇ h₇ => left s₇ h₇

/-- A loop that is given no function of one item fails. -/
theorem inSteps_loopHead_none {array : String} {post : Unit → Progress → Prop} :
    InSteps job P s (loopHead job e array label none) post := by
  refine InSteps.tracker ?_
  dsimp only
  split
  · exact InSteps.refuse
  · exact (InSteps.ofExcept fun _ _ => InSteps.refuse).bind fun _ s' h => h

/-- The head of a loop is in markup, its array is visible and its item is not. -/
theorem inSteps_loopHead {call receiver this arrow : Text.Place} {callee body : Expr}
    {arguments : List Expr} {array item : String} {optional : Bool}
    (known_array : P (.member receiver (.this this) array optional))
    (known : P (.arrow arrow [item] body)) :
    InSteps job P s (loopHead job (.call call callee arguments) array label (some item))
      fun _ s' => s'.tracker = s.tracker ∧ s.tracker.inCode = false ∧
        s.tracker.isVisible array = true ∧ s.tracker.isVisible item = false := by
  refine InSteps.tracker ?_
  dsimp only
  split
  · exact InSteps.refuse
  · rename_i markup
    refine (InSteps.ofExcept fun _ visible => ?_).bind fun _ s' h => h
    have array_visible : s.tracker.isVisible array = true := Job.isVisible_of_requireVisible visible
    split
    · exact InSteps.refuse
    · rename_i fresh
      rw [Bool.not_eq_true] at markup fresh
      exact InSteps.write (.loopHead known known_array markup array_visible fresh)
        ⟨rfl, markup, array_visible, fresh⟩

/-- A loop over an array of the component. -/
theorem inSteps_loopBlock {item array : String} {arrow : Text.Place} {body : Expr}
    {branch : Emit Unit} (known : P (.arrow arrow [item] body))
    (markup : s.tracker.inCode = false) (array_visible : s.tracker.isVisible array = true)
    (fresh : s.tracker.isVisible item = false)
    (h : ∀ s, InSteps job P s branch fun _ _ => True) :
    InSteps job P s (block .loop (some item) (some array) [([], branch)] .loopEnd)
      fun _ _ => True := by
  unfold InSteps block
  rw [after_bind, after_enterScope_some]
  refine inSteps_inBlock _ (.loop known markup array_visible fresh) (fun p hp => ?_) (.inr rfl)
  rw [List.mem_singleton] at hp
  subst hp
  exact ⟨.inl rfl, h⟩

/-- The expression in a hole, and the move of the cursor behind it. -/
theorem inSteps_hole {content : Emit Unit} (known : P e)
    (h : ∀ s, InSteps job P s content fun _ _ => True) :
    InSteps job P s (hole e label content) fun _ _ => True := by
  refine InSteps.inCode ?_
  have noted : InSteps job P s (note (.hole e label)) fun _ _ => True :=
    ⟨.step (.hole known), trivial⟩
  refine noted.then fun _ s' => (h s').then fun _ s'' => ?_
  split
  · exact ⟨.step (.move _), trivial⟩
  · exact InSteps.pure trivial

end Emit

end ServerTemplate
