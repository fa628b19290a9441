import ServerTemplate.Proofs.Scope.Follows

/-!
# Expressions are converted in visits

`LowersInVisits` says of an expression that its conversion makes the visits of the expression,
wherever it stands in a template without markers. There is one lemma for each kind of expression;
`lowersInVisits` puts them together along the recursion of `lower`.
-/

namespace ServerTemplate

open Emit

variable {job : Job} {loops : Loops} {t : Tracker} {us vs : List Visit} {v : Visit} {s : Progress}
  {label : String} {e : Expr} {use : Use} {place : Text.Place}

/-! ### Values, helpers and loops -/

/-- A policy that is missing has nothing to do with names. -/
theorem Job.not_isScoping_of_functionFor {k : Cursor} {field : String} {array : Option String}
    {d : Diagnostic} (h : job.functionFor k field array e = .error d) : ¬ d.IsScoping := by
  unfold functionFor Declaration.resolve at h
  split at h
  · cases h
  · split at h
    · cases h
    · cases h
      rintro (⟨_, _, _, ⟨⟩⟩ | ⟨_, _, ⟨⟩⟩)

namespace Job.Visiting

/-- What a name or a property gives is written, or its policy is missing. -/
theorem after_access (h : job.Passed t us s) (nonempty : us ≠ []) (bare : Bool) (a : Job.Access) :
    After (Emit.access job e bare a) s (fun _ s' => job.Passed t us s') (job.Breaks us) := by
  cases a with
  | count operand => exact after_write.mpr (h.writing _)
  | value r =>
    cases bare with
    | true => exact after_write.mpr (h.writing _)
    | false =>
      change After (do
        let function ← ofExcept (job.functionFor (← cursor) r.field r.array e)
        write (.echo r.operand function)) s _ _
      rw [after_bind, after_cursor, after_bind]
      refine after_ofExcept (fun function _ => after_write.mpr (h.writing _)) fun d hd => ?_
      exact h.breaks nonempty (not_isScoping_of_functionFor hd)

/-- A value is written if the check of the visit passes, and its policy is declared. -/
theorem after_read {bare : Bool} (hs : job.Visiting t us v s)
    (check : job.check v = (job.accessIn loops label e).map fun _ => ()) :
    match job.accessIn loops label e with
    | .ok a => After (Emit.access job e bare a) s (fun _ s' => job.Passed t (us ++ [v]) s')
        (job.Breaks (us ++ [v]))
    | .error d => job.Breaks (us ++ [v]) d s := by
  revert check
  cases job.accessIn loops label e with
  | ok a => exact fun check => after_access (hs.passed check) (by simp) bare a
  | error d => exact fun check => hs.breaks check

/-- A helper is written if the check of the visit passes and its policy is declared. -/
theorem after_helper {name : String} {arguments : List Expr} (hs : job.Visiting t us v s)
    (represents : job.Represents loops t) (markup : t.inCode = false)
    (check : job.check v = job.checkHelper loops label e name arguments) :
    After (helper job e name label arguments) s (fun _ s' => job.Passed t (us ++ [v]) s')
      (job.Breaks (us ++ [v])) := by
  unfold helper
  unfold Job.checkHelper at check
  rw [after_bind, after_tracker, hs.tracker, if_neg (by simp [markup])]
  split
  · rename_i hname
    rw [if_pos hname] at check
    rw [represents.requireVisible, after_check]
    cases seen : job.requireSeen loops e resultCountParameter label with
    | error d => exact hs.breaks (check.trans seen)
    | ok _ =>
      have passed := hs.passed (check.trans seen)
      dsimp only
      rw [after_bind, after_cursor, after_bind]
      refine after_ofExcept (fun function _ => after_write.mpr (passed.writing _)) fun d hd => ?_
      exact passed.breaks (by simp) (not_isScoping_of_functionFor hd)
  rename_i hname
  rw [if_neg hname] at check
  split
  · rename_i hyear
    rw [if_pos hyear] at check
    exact after_write.mpr ((hs.passed check).writing _)
  · rename_i hyear
    rw [if_neg hyear] at check
    rw [represents.currentItem?, represents.site]
    cases loops with
    | nil => exact after_throw.mpr (hs.breaks check)
    | cons loop outer =>
      obtain ⟨item, array⟩ := loop
      change After (ofExcept _ >>= _) s _ _
      rw [represents.ratingOperand, after_check]
      dsimp only [List.head?_cons] at check ⊢
      cases rated : job.ratingIn ((item, array) :: outer) label item arguments with
      | error d => exact hs.breaks (by rw [check, rated]; rfl)
      | ok rating => exact after_write.mpr ((hs.passed (by rw [check, rated]; rfl)).writing _)

/-- The head of a loop is written if the check of the visit passes. -/
theorem after_loopHead {array : String} {item? : Option String} (hs : job.Visiting t us v s)
    (represents : job.Represents loops t) (markup : t.inCode = false)
    (check : job.check v = job.loopHeadIn loops label e array item?) :
    After (loopHead job e array label item?) s (fun _ s' => job.Passed t (us ++ [v]) s')
      (job.Breaks (us ++ [v])) := by
  unfold loopHead
  rw [after_bind, after_tracker, hs.tracker, if_neg (by simp [markup]), represents.requireVisible,
    after_check]
  unfold Job.loopHeadIn at check
  cases seen : job.requireSeen loops e array label with
  | error d => exact hs.breaks (by rw [check, seen]; rfl)
  | ok _ =>
    rw [seen] at check
    have here : job.Represents loops s.tracker := hs.tracker.symm ▸ represents
    cases item? with
    | none => exact (after_refuse here).mpr (hs.breaks check)
    | some item =>
      dsimp only
      rw [represents.isVisible]
      change job.check v = if job.sees loops item then _ else _ at check
      split
      · rename_i hsees
        rw [if_pos hsees] at check
        exact (after_refuse here).mpr (hs.breaks check)
      · rename_i hsees
        rw [if_neg hsees] at check
        exact after_write.mpr ((hs.passed check).writing _)

end Job.Visiting

/-! ### Expressions -/

/-- What the conversion of an expression comes to: wherever the expression stands, its visits and
those of its parts are made. -/
def LowersInVisits (job : Job) (use : Use) (label : String) (e : Expr) : Prop :=
  ∀ loops t us, job.Represents loops t → t.inCode = (use == .operand) →
    (use ≠ .operand → Piece.TextsMarkerFree (e.skeleton job.tag (use == .block))) →
      Follows job t us (e.visits job.tag loops use label) (lower job use label e)

namespace LowersInVisits

theorem operand (h : LowersInVisits job .operand label e) (represents : job.Represents loops t)
    (code : t.inCode = true) :
    Follows job t us (e.visits job.tag loops .operand label) (lower job .operand label e) :=
  h loops t us represents code fun h => (h rfl).elim

/-- What is no operand stands in markup. -/
theorem markup_of_use (code : t.inCode = (use == .operand)) (huse : use ≠ .operand) :
    t.inCode = false := by
  rw [code, beq_false_of_ne huse]

theorem block (h : LowersInVisits job .block label e) (represents : job.Represents loops t)
    (markup : t.inCode = false) (free : Piece.TextsMarkerFree (e.skeleton job.tag true)) :
    Follows job t us (e.visits job.tag loops .block label) (lower job .block label e) :=
  h loops t us represents markup fun _ => free

/-- A test of a conditional is code within markup. -/
theorem condition (h : LowersInVisits job .operand label e) (represents : job.Represents loops t) :
    Follows job t us (e.visits job.tag loops .operand label)
      (Emit.condition (lower job .operand label e)) :=
  .condition (h.operand represents.enterCode rfl)

theorem name {name : String} : LowersInVisits job use label (.name place name) := by
  intro loops t us represents code _
  rw [lower, Expr.visits]
  refine .visit represents code fun s hs => ?_
  rw [after_name (hs.tracker.symm ▸ represents)]
  exact hs.after_read rfl

theorem member {object : Expr} {name : String} {optional : Bool} :
    LowersInVisits job use label (.member place object name optional) := by
  intro loops t us represents code _
  rw [lower, Expr.visits]
  refine .visit represents code fun s hs => ?_
  rw [after_property (hs.tracker.symm ▸ represents)]
  exact hs.after_read rfl

/-- A constant is written as code or as text, or refused. -/
theorem constant {v : Constant} {spelling : String}
    (hv : ∀ content, use = .block → v = .text content → False)
    (hp : ∀ points, use = .block → v = .halves points → False) :
    LowersInVisits job use label (.constant place v spelling) := by
  intro loops t us represents code free
  have visited : ¬ (use = .block ∧ v.isText = true) := by
    rintro ⟨hblock, htext⟩
    cases v with
    | text content => exact hv content hblock rfl
    | halves points => exact hp points hblock rfl
    | _ => cases htext
  rw [lower, Expr.visits, if_neg visited]
  · refine .visit_unchecked represents code rfl ?_
    by_cases huse : use = .operand
    · subst huse
      exact constant_code .. ▸ .write _
    · rw [beq_false_of_ne huse]
      have markup := markup_of_use code huse
      have text (content : String) (htext : v.text? spelling = some content) (us : List Visit) :
          Follows job t us [] (constantText content) := by
        refine .constantText ((free huse).of_ofText ?_) markup
        rw [Expr.skeleton, htext]
        exact List.Subset.refl _
      cases v with
      | null => exact .refuse (by simp)
      | bool value => cases value <;> exact .refuse (by simp)
      | int | float | text | halves => exact text _ rfl _
  · exact hv
  · exact hp

/-- A text as the branch of a conditional is written without a visit. -/
theorem text {content spelling : String} :
    LowersInVisits job .block label (.constant place (.text content) spelling) := by
  intro loops t us _ code free
  rw [lower, Expr.visits, if_pos ⟨rfl, rfl⟩]
  refine .constantText ((free (by decide)).of_ofText ?_) code
  exact List.Subset.refl _

theorem halves {points : List Nat} {spelling : String} :
    LowersInVisits job .block label (.constant place (.halves points) spelling) := by
  intro loops t us _ code free
  rw [lower, Expr.visits, if_pos ⟨rfl, rfl⟩]
  refine .constantText ((free (by decide)).of_ofText ?_) code
  exact List.Subset.refl _

/-- Two operands with an operator between them. -/
theorem operator {left right : Expr} {l r sign : String}
    (hl : LowersInVisits job .operand l left) (hr : LowersInVisits job .operand r right)
    (represents : job.Represents loops t) (code : t.inCode = true) :
    Follows job t us
      (left.visits job.tag loops .operand l ++ right.visits job.tag loops .operand r)
      (do lower job .operand l left; write (.symbol sign); lower job .operand r right) :=
  (hl.operand represents code).bind (.write_then (hr.operand represents code))

theorem binary {operator : String} {left right : Expr}
    (hl : LowersInVisits job .operand (label ++ "-left") left)
    (hr : LowersInVisits job .operand (label ++ "-right") right) :
    LowersInVisits job use label (.binary place operator left right) := by
  intro loops t us represents code _
  rw [lower, Expr.visits]
  refine .visit_unchecked represents code rfl ?_
  cases use with
  | operand => exact LowersInVisits.operator hl hr represents code
  | value | block => exact .refuse (by simp)

theorem group {inner : Expr} (huse : use ≠ .block)
    (hop : LowersInVisits job .operand label inner)
    (hval : LowersInVisits job .value label inner) :
    LowersInVisits job use label (.group place inner) := by
  intro loops t us represents code free
  rw [lower, if_neg huse, Expr.visits, if_neg huse]
  refine .visit_unchecked represents code rfl ?_
  cases use with
  | operand => exact .write_then ((hop.operand represents code).bind_quiet (.write _))
  | value => exact hval loops t _ represents code fun h => by simpa [Expr.skeleton] using free h
  | block => exact (huse rfl).elim

theorem logical {operator : String} {left right : Expr}
    (hl : LowersInVisits job .operand (label ++ "-left") left)
    (hr : LowersInVisits job .operand (label ++ "-right") right)
    (htest : LowersInVisits job .operand (label ++ "-test") left)
    (hblock : LowersInVisits job .block (label ++ "-consequent") right) :
    LowersInVisits job use label (.logical place operator left right) := by
  intro loops t us represents code free
  rw [lower, Expr.visits]
  refine .visit_unchecked represents code rfl ?_
  by_cases huse : use = .operand
  · subst huse
    exact LowersInVisits.operator hl hr represents code
  rw [beq_false_of_ne huse, if_neg huse, if_neg Bool.false_ne_true]
  split
  · refine (htest.condition represents).bind ?_
    refine .conditionalBlock represents.sound.nonempty fun k => .oneBranch ?_
    refine hblock.block (represents.enter (by decide)) (markup_of_use code huse) fun c hc => ?_
    refine free huse c ?_
    rw [Expr.skeleton]
    simp [hc]
  · exact .refuse (by simp)

theorem conditional {test consequent alternate : Expr}
    (htest : LowersInVisits job .operand (label ++ "-test") test)
    (hthen : LowersInVisits job .operand (label ++ "-consequent") consequent)
    (helse : LowersInVisits job .operand (label ++ "-alternate") alternate)
    (hthen_block : LowersInVisits job .block (label ++ "-consequent") consequent)
    (helse_block : LowersInVisits job .block (label ++ "-alternate") alternate) :
    LowersInVisits job use label (.conditional place test consequent alternate) := by
  intro loops t us represents code free
  rw [lower, Expr.visits]
  refine .visit_unchecked represents code rfl (.inCode ?_)
  have nonempty := represents.sound.nonempty
  have inner : job.Represents loops (t.enter .conditional) := represents.enter (by decide)
  by_cases huse : use = .operand
  · subst huse
    have code : t.inCode = true := code
    rw [if_pos rfl, if_pos code]
    exact .inlineConditional nonempty (htest.operand inner code) (hthen.operand inner code)
      (helse.operand inner code)
  have markup := markup_of_use code huse
  rw [if_neg huse, if_neg (show ¬ t.inCode = true by simp [markup]), List.append_assoc]
  refine (htest.condition represents).bind ?_
  refine .conditionalBlock nonempty fun k => ?_
  have first (us : List Visit) : Follows job (t.enter .conditional) us
      (consequent.visits job.tag loops .block (label ++ "-consequent"))
      (lower job .block (label ++ "-consequent") consequent) := by
    refine hthen_block.block inner markup fun c hc => free huse c ?_
    rw [Expr.skeleton]
    simp [hc]
  cases hempty : alternate.isEmptyText with
  | true => exact .branches_cons (first _) .pure
  | false =>
    refine .branches_cons (first _) (.oneBranch ?_)
    refine helse_block.block inner markup fun c hc => free huse c ?_
    rw [Expr.skeleton, hempty]
    simp [hc]

/-- A loop is written, and then its body, inside the loop. -/
theorem after_loop {array item : String} {body : Expr} (hs : job.Visiting t us v s)
    (represents : job.Represents loops t) (markup : t.inCode = false)
    (check : job.check v = job.loopHeadIn loops label e array (some item))
    (free : Piece.TextsMarkerFree (body.skeleton job.tag true))
    (hbody : LowersInVisits job .block "map-loop-body" body) :
    After (do
        loopHead job e array label (some item)
        Emit.block .loop (some item) (some array)
          [([], lower job .block "map-loop-body" body)] .loopEnd) s
      (fun _ s' => job.Passed t
        (us ++ v :: body.visits job.tag ((item, array) :: loops) .block "map-loop-body") s')
      (job.Breaks
        (us ++ v :: body.visits job.tag ((item, array) :: loops) .block "map-loop-body")) := by
  have nonempty := represents.sound.nonempty
  rw [List.append_cons, after_bind]
  refine (hs.after_loopHead represents markup check).mono (fun _ s' hs' => ?_) fun _ _ hd =>
    hd.append
  refine Follows.loopBlock nonempty (fun k => .oneBranch ?_) s' hs'
  refine hbody.block (represents.enterLoop item array) ?_ free
  obtain ⟨frame, outer, hframes⟩ := List.exists_cons_of_ne_nil nonempty
  rw [Tracker.bind, Tracker.enter, hframes]
  exact markup

/-- A call is refused first if it is optional. -/
theorem after_plainCall {callee : Expr} {x : Emit Unit} {rest : Except Diagnostic Unit}
    (hs : job.Visiting t us v s) (represents : job.Represents loops t)
    (check : job.check v = do
      job.plain label callee
      job.plainOwner label callee
      rest)
    (h : job.check v = rest → After x s (fun _ s' => job.Passed t (us ++ v :: vs) s')
      (job.Breaks (us ++ v :: vs))) :
    After (do
        let t ← tracker
        ofExcept (job.requirePlain t label callee)
        ofExcept (job.requirePlainOwner t label callee)
        x) s
      (fun _ s' => job.Passed t (us ++ v :: vs) s') (job.Breaks (us ++ v :: vs)) := by
  rw [after_bind, after_tracker, hs.tracker, represents.requirePlain, after_check]
  cases plain : job.plain label callee with
  | error d =>
    rw [plain] at check
    rw [List.append_cons]
    exact (hs.breaks check).append
  | ok _ =>
    dsimp only
    rw [represents.requirePlainOwner, after_check]
    cases plainOwner : job.plainOwner label callee with
    | error d =>
      rw [plain, plainOwner] at check
      rw [List.append_cons]
      exact (hs.breaks check).append
    | ok _ =>
      rw [plain, plainOwner] at check
      exact h check

/-- A call in code is refused, whatever its form is. -/
theorem after_called_code {callee : Expr} {arguments : List Expr} {good : Unit → Progress → Prop}
    (hs : job.Passed t us s) (nonempty : us ≠ []) (code : t.inCode = true) :
    After (called job label place callee arguments) s good (job.Breaks us) := by
  have head {array : String} {item? : Option String} {good : Unit → Progress → Prop} :
      After (loopHead job (.call place callee arguments) array label item?) s good
        (job.Breaks us) := by
    unfold loopHead
    rw [after_bind, after_tracker, hs.tracker, if_pos code]
    exact Follows.after_refuse hs nonempty
  unfold called
  cases CallShape.of? callee with
  | none => exact Follows.after_refuse hs nonempty
  | some shape =>
    cases shape with
    | helper name =>
      dsimp only
      unfold helper
      rw [after_bind, after_tracker, hs.tracker, if_pos code]
      exact Follows.after_refuse hs nonempty
    | loop array =>
      dsimp only
      split
      · exact after_bind.mpr head
      · exact head

/-- The names that a call in markup uses are those of its form. -/
def checkForm (job : Job) (loops : Loops) (label : String) (e callee : Expr)
    (arguments : List Expr) : Except Diagnostic Unit :=
  match CallShape.of? callee with
  | none => .ok ()
  | some (.helper name) => job.checkHelper loops label e name arguments
  | some (.loop array) => job.loopHeadIn loops label e array (Job.loopItem? arguments)

/-- A call in markup is checked, and then written in its form. -/
theorem markupCall {callee : Expr} {arguments : List Expr} (huse : use ≠ .operand)
    (represents : job.Represents loops t) (code : t.inCode = (use == .operand))
    (visits : (Expr.call place callee arguments).visits job.tag loops use label =
      .of loops use label (.call place callee arguments) :: vs)
    (h : ∀ s v, job.Visiting t us v s →
      job.check v = checkForm job loops label (.call place callee arguments) callee arguments →
        After (called job label place callee arguments) s
          (fun _ s' => job.Passed t (us ++ v :: vs) s') (job.Breaks (us ++ v :: vs))) :
    Follows job t us ((Expr.call place callee arguments).visits job.tag loops use label)
      (lower job use label (.call place callee arguments)) := by
  rw [lower_call, visits]
  refine .visit represents code fun s hs => after_plainCall hs represents rfl fun check => ?_
  have bare : (Visit.of loops use label (.call place callee arguments)).bare = false :=
    beq_false_of_ne huse
  rw [bare, if_neg Bool.false_ne_true] at check
  exact h s _ hs check

/-- A loop whose body is no function of one item is refused. -/
theorem loopItem?_eq_none {arguments : List Expr}
    (noArrow : ∀ place' item body, arguments ≠ [.arrow place' [item] body]) :
    Job.loopItem? arguments = none := by
  unfold Job.loopItem?
  split
  · exact (noArrow _ _ _ rfl).elim
  · rfl

/-- A loop in markup. -/
theorem loopCall {callee : Expr} {arguments : List Expr} {array : String}
    (huse : use ≠ .operand) (represents : job.Represents loops t)
    (code : t.inCode = (use == .operand))
    (free : Piece.TextsMarkerFree
      ((Expr.call place callee arguments).skeleton job.tag (use == .block)))
    (shape : CallShape.of? callee = some (.loop array))
    (ih : ∀ place' item body, arguments = [.arrow place' [item] body] →
      LowersInVisits job .block "map-loop-body" body) :
    Follows job t us ((Expr.call place callee arguments).visits job.tag loops use label)
      (lower job use label (.call place callee arguments)) := by
  have markup := markup_of_use code huse
  by_cases arrow : ∃ place' item body, arguments = [.arrow place' [item] body]
  · obtain ⟨place', item, body, rfl⟩ := arrow
    refine markupCall huse represents code (Expr.visits_loop huse shape) fun s v hs check => ?_
    unfold checkForm at check
    unfold called
    rw [shape] at check ⊢
    have free_body : Piece.TextsMarkerFree (body.skeleton job.tag true) := fun content hc =>
      free content (by rw [Expr.skeleton_loop shape]; simp [hc])
    exact after_loop hs represents markup check free_body (ih place' item body rfl)
  · have noArrow : ∀ place' item body, arguments ≠ [.arrow place' [item] body] :=
      fun place' item body h => arrow ⟨place', item, body, h⟩
    refine markupCall huse represents code (Expr.visits_call fun _ => ?_) fun s v hs check => ?_
    · exact fun place' item body _ => noArrow place' item body
    unfold checkForm at check
    unfold called
    rw [shape] at check ⊢
    dsimp only at check ⊢
    rw [loopItem?_eq_none noArrow] at check
    split
    · exact (noArrow _ _ _ rfl).elim
    · exact hs.after_loopHead represents markup check

/-- A call is checked, and then written in its form. -/
theorem call {callee : Expr} {arguments : List Expr}
    (ih : ∀ place' item body, arguments = [.arrow place' [item] body] →
      LowersInVisits job .block "map-loop-body" body) :
    LowersInVisits job use label (.call place callee arguments) := by
  intro loops t us represents code free
  by_cases huse : use = .operand
  · subst huse
    rw [lower_call, Expr.visits_call_operand]
    refine .visit represents code fun s hs => after_plainCall hs represents rfl fun check => ?_
    exact after_called_code (hs.passed check) (by simp) code
  -- in markup a call is written as the form that it has
  cases shape : CallShape.of? callee with
  | none =>
    refine markupCall huse represents code (Expr.visits_call ?_) fun s v hs check => ?_
    · rintro array _ _ _ loop
      rw [shape] at loop
      cases loop
    unfold checkForm at check
    unfold called
    rw [shape] at check ⊢
    exact Follows.after_refuse (hs.passed check) (by simp)
  | some form =>
    cases form with
    | helper name =>
      refine markupCall huse represents code (Expr.visits_call ?_) fun s v hs check => ?_
      · rintro array _ _ _ loop
        rw [shape] at loop
        cases loop
      unfold checkForm at check
      unfold called
      rw [shape] at check ⊢
      exact hs.after_helper represents (markup_of_use code huse) check
    | loop array => exact loopCall huse represents code (free huse) shape ih

/-- A template is rendered as its parts. -/
theorem rendered {tag : String} {templatePlace : Text.Place} {texts : List String}
    {holes : List Expr} (huse : use = .block ∧ tag = job.tag)
    (ih : ∀ loops t us, job.Represents loops t → t.inCode = false →
      Piece.TextsMarkerFree (Expr.skeletonOfParts job.tag holes texts) →
        Follows job t us (Expr.visitsOfParts job.tag loops (labelPrefix label) 0 holes texts)
          (lowerParts job (labelPrefix label) 0 holes texts)) :
    LowersInVisits job use label (.tagged place tag templatePlace texts holes) := by
  intro loops t us represents code free
  obtain ⟨rfl, htag⟩ := huse
  rw [lower, if_pos ⟨rfl, htag⟩, Expr.visits, if_pos ⟨rfl, htag⟩]
  have free := free (by decide)
  rw [Expr.skeleton, if_pos ⟨rfl, htag⟩] at free
  exact ih loops t us represents code free

/-- Any other template is skipped or refused. -/
theorem skipped {tag : String} {templatePlace : Text.Place} {texts : List String}
    {holes : List Expr} (huse : ¬ (use = .block ∧ tag = job.tag)) :
    LowersInVisits job use label (.tagged place tag templatePlace texts holes) := by
  intro loops t us represents code _
  rw [lower, if_neg huse, Expr.visits, if_neg huse]
  refine .visit_unchecked represents code rfl ?_
  split
  · exact .refuse (by simp)
  · exact .pure

/-- What has no form at all is refused. -/
theorem refused {construct : Unsupported}
    (hlower : lower job use label e = do
      let _ ← begin use e label
      refuse job e label construct)
    (hvisits : ∀ loops, e.visits job.tag loops use label = [.of loops use label e])
    (hcheck : ∀ loops, job.check (.of loops use label e) = .ok ()) :
    LowersInVisits job use label e := by
  intro loops t us represents code _
  rw [hlower, hvisits]
  exact .visit_unchecked represents code (hcheck loops) (.refuse (by simp))

end LowersInVisits

/-- What the conversion of the parts of a template comes to. -/
def PartsInVisits (job : Job) (front : String) (index : Nat) (holes : List Expr)
    (texts : List String) : Prop :=
  ∀ loops t us, job.Represents loops t → t.inCode = false →
    Piece.TextsMarkerFree (Expr.skeletonOfParts job.tag holes texts) →
      Follows job t us (Expr.visitsOfParts job.tag loops front index holes texts)
        (lowerParts job front index holes texts)

namespace PartsInVisits

variable {front : String} {index : Nat} {texts : List String} {holes : List Expr} {content : String}

theorem nil : PartsInVisits job front index [] texts := by
  intro loops t us _ markup free
  rw [lowerParts, Expr.visitsOfParts]
  refine .chunks (fun content hc => free.of_ofText fun piece hpiece => ?_) markup
  exact List.mem_flatMap.mpr ⟨content, hc, hpiece⟩

theorem lacking : PartsInVisits job front index (e :: holes) [] := by
  intro loops t us _ _ _
  rw [lowerParts, Expr.visitsOfParts]
  exact .pure

/-- A text, the expression in the hole behind it and the rest. -/
theorem cons (hhole : LowersInVisits job .value (holeLabel front index) e)
    (hrest : PartsInVisits job front (index + 1) holes texts) :
    PartsInVisits job front index (e :: holes) (content :: texts) := by
  intro loops t us represents markup free
  rw [Expr.skeletonOfParts] at free
  have free_text : MarkerFree content.toList := free.of_ofText fun c hc =>
    List.mem_append_left _ (List.mem_append_left _ hc)
  have free_hole : Piece.TextsMarkerFree (e.skeleton job.tag false) := fun c hc =>
    free c (List.mem_append_left _ (List.mem_append_right _ hc))
  have free_rest : Piece.TextsMarkerFree (Expr.skeletonOfParts job.tag holes texts) := fun c hc =>
    free c (List.mem_append_right _ hc)
  rw [lowerParts, Expr.visitsOfParts]
  refine (Follows.chunk free_text markup).bind ?_
  rw [List.append_nil]
  exact (Follows.hole (hhole loops t us represents markup fun _ => free_hole)).bind
    (hrest loops t _ represents markup free_rest)

end PartsInVisits

/-- Wherever an expression stands, and wherever texts with expressions between them stand, the
visits are made that the template determines. -/
theorem lowersInVisits (job : Job) :
    (∀ use label e, LowersInVisits job use label e) ∧
      ∀ front index holes texts, PartsInVisits job front index holes texts := by
  -- one case for each equation of the conversion
  refine lower.mutual_induct job _ _ ?groupInBlock ?group ?rendered ?skipped ?text ?halves ?constant
    ?name ?member ?binary ?logical ?conditional ?call ?this ?arrow ?template ?other ?nil ?lacking
    ?cons
  case groupInBlock =>
    intro label place inner ih loops t us represents code free
    rw [lower, if_pos rfl, Expr.visits, if_pos rfl]
    exact ih loops t us represents code fun h => by simpa [Expr.skeleton] using free h
  case group => exact fun use label place inner huse hop hval => .group huse hop hval
  case rendered =>
    exact fun use label place tag templatePlace texts holes huse ih => .rendered huse ih
  case skipped => exact fun use label place tag templatePlace texts holes huse => .skipped huse
  case text => exact fun label place spelling content => .text
  case halves => exact fun label place spelling points => .halves
  case constant => exact fun use label place v spelling hv hp => .constant hv hp
  case name => exact fun use label place name => .name
  case member => exact fun use label place object name optional => .member
  case binary => exact fun use label place operator left right hl hr => .binary hl hr
  case logical =>
    exact fun use label place operator left right hl hr htest hblock => .logical hl hr htest hblock
  case conditional =>
    exact fun use label place test consequent alternate h₁ h₂ h₃ h₄ h₅ =>
      .conditional h₁ h₂ h₃ h₄ h₅
  case call =>
    intro use label place callee arguments ih
    refine .call fun arrow item body h => ?_
    subst h
    exact ih
  case this | arrow | template | other =>
    intros
    exact .refused (by rw [lower]) (fun _ => by rw [Expr.visits]) fun _ => rfl
  case nil => exact fun front index texts => .nil
  case lacking => exact fun front index e holes => .lacking
  case cons => exact fun front index e holes content texts he hrest => .cons he hrest

end ServerTemplate
