import ServerTemplate.Proofs.Outline.Markup

/-!
# The conversion agrees with the reference translation

Where nothing that a template writes as markup has a marker in it, the single pass over the template
with its frames and regions gives what `Job.outline` gives: the same pieces, or the same diagnostic.
-/

namespace ServerTemplate

open Emit

variable {job : Job} {loops : Loops} {k : Cursor} {s : Progress} {label : String} {e : Expr}
  {use : Use} {place : Text.Place}

/-- No text among some pieces has a marker. -/
def Piece.TextsMarkerFree (pieces : List Piece) : Prop :=
  ∀ content, .text content ∈ pieces → MarkerFree content.toList

/-- A text that is written has no marker, and an empty one has none either. -/
theorem Piece.TextsMarkerFree.of_ofText {pieces : List Piece} {content : String}
    (free : TextsMarkerFree pieces) (h : Piece.ofText content ⊆ pieces) :
    MarkerFree content.toList := by
  by_cases hempty : content = ""
  · subst hempty
    decide
  · refine free content (h ?_)
    rw [Piece.ofText, if_neg hempty]
    exact List.mem_singleton_self _

/-- What the agreement on an expression comes to: wherever it stands, it renders the outline that
the reference translation gives. -/
def Agrees (job : Job) (loops : Loops) (rendered : Bool) (label : String) (k : Cursor) (e : Expr) :
    Prop :=
  Piece.TextsMarkerFree (e.skeleton job.tag rendered) → ∀ (use : Use) (s : Progress),
    use ≠ .operand → rendered = (use == .block) → job.Stands loops k s →
      Renders s (lower job use label e) (job.outlineOf loops rendered label k e)

/-- What the agreement on the parts of a template comes to. -/
def AgreesOnParts (job : Job) (loops : Loops) (front : String) (index : Nat) (k : Cursor)
    (holes : List Expr) (texts : List String) : Prop :=
  Piece.TextsMarkerFree (Expr.skeletonOfParts job.tag holes texts) → ∀ s : Progress,
    job.Stands loops k s →
      Renders s (lowerParts job front index holes texts)
        (job.partsOf loops front index k holes texts)

namespace Agrees

/-- What a name or a property gives, in markup. -/
theorem access (h : job.Stands loops k s) (a : Job.Access) :
    Renders s (Emit.access job e false a) (do return (← job.accessAt k e a, k)) := by
  cases a with
  | count operand => exact h.cursor ▸ Renders.code _
  | value r =>
    change After (do
      let function ← ofExcept (job.functionFor (← cursor) r.field r.array e)
      write (.echo r.operand function)) s _ _
    rw [after_bind, after_cursor, h.cursor, after_check]
    cases hf : job.functionFor k r.field r.array e with
    | error d => exact by rw [Job.accessAt, hf]; rfl
    | ok function =>
      exact ⟨.echo r.operand ⟨r.field, r.array, e, function⟩,
        by rw [Job.accessAt, hf, ← h.cursor]; rfl, .writing s _⟩

theorem name {name : String} {rendered : Bool} :
    Agrees job loops rendered label k (.name place name) := by
  intro _ use s huse _ h
  rw [lower, Job.outlineOf]
  refine .begin huse h.markup ?_
  unfold Renders
  rw [after_name (s := s.noting _) h.represents]
  cases job.accessIn loops label (.name place name) with
  | error d => rfl
  | ok a => exact access (h.noting _) a

theorem member {object : Expr} {name : String} {optional : Bool} {rendered : Bool} :
    Agrees job loops rendered label k (.member place object name optional) := by
  intro _ use s huse _ h
  rw [lower, Job.outlineOf]
  refine .begin huse h.markup ?_
  unfold Renders
  rw [after_property (s := s.noting _) h.represents]
  cases job.accessIn loops label (.member place object name optional) with
  | error d => rfl
  | ok a => exact access (h.noting _) a

/-- A constant that is written as text. -/
theorem constant {v : Constant} {spelling : String} {rendered : Bool} :
    Agrees job loops rendered label k (.constant place v spelling) := by
  intro free use s huse _ h
  have free (content : String) (htext : v.text? spelling = some content) :
      MarkerFree content.toList := by
    rw [Expr.skeleton, htext, Option.elim_some] at free
    exact free.of_ofText (List.Subset.refl _)
  rw [Job.outlineOf]
  -- a text as the branch of a conditional is written without the event of an expression
  by_cases hblock : ∃ content, use = .block ∧ v = .text content
  · obtain ⟨content, rfl, rfl⟩ := hblock
    rw [lower]
    exact renders_constantText (free content rfl) h
  by_cases hhalves : ∃ points, use = .block ∧ v = .halves points
  · obtain ⟨points, rfl, rfl⟩ := hhalves
    rw [lower]
    exact renders_constantText (free _ rfl) h
  rw [lower]
  · refine .begin huse h.markup ?_
    have h₀ := h.noting (.expression (.constant place v spelling) label false)
    cases v with
    | null => exact .refuse h₀.represents
    | bool value => cases value <;> exact .refuse h₀.represents
    | int n => exact renders_constantText (free _ rfl) h₀
    | float x => exact renders_constantText (free _ rfl) h₀
    | text content => exact renders_constantText (free _ rfl) h₀
    | halves points => exact renders_constantText (free _ rfl) h₀
  · exact fun content huse hv => hblock ⟨content, huse, hv⟩
  · exact fun points huse hv => hhalves ⟨points, huse, hv⟩

theorem group {inner : Expr} {rendered : Bool} (ih : Agrees job loops rendered label k inner) :
    Agrees job loops rendered label k (.group place inner) := by
  intro free use s huse hrendered h
  rw [Job.outlineOf, lower]
  rw [Expr.skeleton] at free
  split
  · rename_i hblock
    subst hblock
    exact ih free .block s (by decide) hrendered h
  · rename_i hblock
    refine .begin huse h.markup ?_
    have hvalue : rendered = (Use.value == .block) := by
      cases use with
      | value => exact hrendered
      | operand => exact (huse rfl).elim
      | block => exact (hblock rfl).elim
    exact ih free .value _ (by decide) hvalue (h.noting _)

/-- A template that is not rendered is skipped, if it has the tag of those that are. -/
theorem skipped {tag : String} {templatePlace : Text.Place} {texts : List String}
    {holes : List Expr} {rendered : Bool} (hskipped : ¬ (rendered = true ∧ tag = job.tag)) :
    Agrees job loops rendered label k (.tagged place tag templatePlace texts holes) := by
  intro _ use s huse hrendered h
  have hblock : ¬ (use = .block ∧ tag = job.tag) := by
    rintro ⟨rfl, htag⟩
    exact hskipped ⟨hrendered, htag⟩
  rw [Job.outlineOf, if_neg hskipped, lower, if_neg hblock]
  refine .begin huse h.markup ?_
  -- a template with another tag is refused
  by_cases htag : tag = job.tag
  · rw [if_neg (by simp [htag]), if_neg (by simp [htag])]
    exact ⟨.empty, by rw [← h.cursor]; rfl, .refl _⟩
  · rw [if_pos (.inl htag), if_pos htag]
    exact .refuse (s := s.noting _) h.represents

/-! ### Conditionals and loops -/

/-- The head of a conditional fails where its test does. -/
theorem operandOf_eq_error {test : Expr} {d : Diagnostic}
    (h : (do return .ifStart :: (← job.operandOf loops label test) ++ [.ifTested] :
      Except Diagnostic (List Piece)) = .error d) :
    job.operandOf loops label test = .error d := by
  cases ht : job.operandOf loops label test with
  | ok t => rw [ht] at h; cases h
  | error d' => rw [ht] at h; cases h; rfl

/-- A conditional block stands in a frame of its own, which represents the same loops. -/
theorem stands_enter (h : job.Stands loops k s) :
    job.Stands loops k (s.tracking (s.tracker.enter .conditional)) :=
  ⟨h.represents.enter (by decide), h.markup, h.cursor⟩

/-- A conditional with one branch. -/
theorem guardBlock {test : Expr} {body : Emit Unit} {r : Except Diagnostic (Outline × Cursor)}
    (h : job.Stands loops k s) (hbody : ∀ s, job.Stands loops k s → Renders s body r) :
    Renders s
      (do condition (lower job .operand label test)
          block .conditional none none [([], body)] .ifEnd)
      (do
        let t ← job.operandOf loops label test
        let (o, k') ← r
        return (.guard t o, k')) := by
  refine (writesCode_condition h.represents).then (fun ps s₁ h₁ w₁ k₁ => ?_)
    fun d hd => by rw [operandOf_eq_error hd]; rfl
  obtain ⟨t, ht, hps⟩ := exists_ok_of_bind h₁
  cases hps
  have h₁ : job.Stands loops k s₁ := h.cursor ▸ k₁ ▸ h.of_wrote w₁
  -- what is rendered in the frame of the block leaves the scopes as they are, so it can be left
  unfold block
  rw [after_bind, after_enterScope_none]
  refine (after_oneBranch (hbody _ (stands_enter h₁))
    (Tracker.exit_enter h₁.represents.sound.nonempty .conditional)).mono
    (fun _ s₂ ⟨o, hr, hpieces, htracker⟩ => ?_) fun d _ hd => by rw [ht, hd]; rfl
  refine ⟨.guard t o, by rw [ht, hr]; rfl, ?_⟩
  have wrote : Wrote s₁ (o.pieces ++ [.ifEnd]) s₂ := ⟨hpieces, htracker⟩
  have all := w₁.trans wrote
  simpa [Outline.pieces] using all

theorem logical {operator : String} {left right : Expr} {rendered : Bool}
    (ih : operator = "&&" ∧ right.isMarkup job.tag →
      Agrees job loops true (label ++ "-consequent") k right) :
    Agrees job loops rendered label k (.logical place operator left right) := by
  intro free use s huse _ h
  rw [Job.outlineOf, lower]
  refine .begin huse h.markup ?_
  rw [if_neg Bool.false_ne_true]
  split
  · rename_i hmarkup
    refine guardBlock (h.noting _) fun s h => ?_
    refine ih hmarkup (fun content hc => free content ?_) .block s (by decide) rfl h
    rw [Expr.skeleton]
    simp [hc]
  · exact .refuse (s := s.noting _) h.represents

/-- A conditional with two branches, each from the same place. -/
theorem branchBlock {test : Expr} {first second : Emit Unit}
    {r₁ r₂ : Except Diagnostic (Outline × Cursor)} (h : job.Stands loops k s)
    (hfirst : ∀ s, job.Stands loops k s → Renders s first r₁)
    (hsecond : ∀ s, job.Stands loops k s → Renders s second r₂) :
    Renders s
      (do condition (lower job .operand label test)
          block .conditional none none [([], first), ([.otherwise], second)] .ifEnd)
      (do
        let t ← job.operandOf loops label test
        let (a, _) ← r₁
        let (a', k') ← r₂
        return (.branch t a a', k')) := by
  refine (writesCode_condition h.represents).then (fun ps s₁ h₁ w₁ k₁ => ?_)
    fun d hd => by rw [operandOf_eq_error hd]; rfl
  obtain ⟨t, ht, hps⟩ := exists_ok_of_bind h₁
  cases hps
  have h₁ : job.Stands loops k s₁ := h.cursor ▸ k₁ ▸ h.of_wrote w₁
  -- both branches begin where the block does: the cursor is put back between them
  have inner := stands_enter h₁
  unfold block
  rw [after_bind, after_enterScope_none]
  refine (after_twoBranches (hfirst _ inner)
    (fun s' hs' hk' => hsecond s' ⟨hs' ▸ inner.represents, hs' ▸ inner.markup, hk' ▸ inner.cursor⟩)
    (Tracker.exit_enter h₁.represents.sound.nonempty .conditional)).mono
    (fun _ s₂ ⟨a, _, a', hr₁, hr₂, hpieces, htracker⟩ => ?_) fun d _ hd => ?_
  · refine ⟨.branch t a a', by rw [ht, hr₁, hr₂]; rfl, ?_⟩
    have wrote : Wrote s₁ (a.pieces ++ .otherwise :: a'.pieces ++ [.ifEnd]) s₂ :=
      ⟨hpieces, htracker⟩
    have all := w₁.trans wrote
    simpa [Outline.pieces] using all
  · rcases hd with hd | ⟨⟨a, _⟩, hr₁, hd⟩
    · rw [ht, hd]
      rfl
    · rw [ht, hr₁, hd]
      rfl

theorem conditional {test consequent alternate : Expr} {rendered : Bool}
    (hthen : Agrees job loops true (label ++ "-consequent") k consequent)
    (helse : Agrees job loops true (label ++ "-alternate") k alternate) :
    Agrees job loops rendered label k (.conditional place test consequent alternate) := by
  intro free use s huse _ h
  have h₀ := h.noting (.expression (.conditional place test consequent alternate) label false)
  have free_then : Piece.TextsMarkerFree (consequent.skeleton job.tag true) := fun content hc =>
    free content (by rw [Expr.skeleton]; simp [hc])
  rw [Job.outlineOf, lower]
  refine .begin huse h.markup ?_
  unfold Renders
  rw [after_bind, after_inCode,
    if_neg (show ¬ (s.noting _).tracker.inCode = true by simp [h.markup])]
  -- without a second branch there is a guard only
  cases halternate : alternate.isEmptyText with
  | true =>
    exact guardBlock h₀ fun s h => hthen free_then .block s (by decide) rfl h
  | false =>
    have free_else : Piece.TextsMarkerFree (alternate.skeleton job.tag true) := fun content hc =>
      free content (by rw [Expr.skeleton, halternate]; simp [hc])
    exact branchBlock h₀ (fun s h => hthen free_then .block s (by decide) rfl h)
      fun s h => helse free_else .block s (by decide) rfl h

/-- The head of a loop fails as the reference translation does, and else is one piece. -/
theorem loopHead {array item : String} (h : job.Stands loops k s) {f : Unit → Emit Unit}
    {good : Unit → Progress → Prop} {failure : Diagnostic → Prop}
    (hok : job.loopHeadIn loops label e array (some item) = .ok () →
      After (f ()) (s.writing (.loopStart array item)) good fun d _ => failure d)
    (herror : ∀ d, job.loopHeadIn loops label e array (some item) = .error d → failure d) :
    After (Emit.loopHead job e array label (some item) >>= f) s good fun d _ => failure d := by
  rw [after_bind]
  unfold Emit.loopHead
  rw [after_bind, after_tracker, if_neg (by simp [h.markup]), h.represents.requireVisible,
    after_check]
  cases hseen : job.requireSeen loops e array label with
  | error d => exact herror d (by rw [Job.loopHeadIn, hseen]; rfl)
  | ok _ =>
    dsimp only
    rw [h.represents.isVisible]
    split
    · rename_i hsees
      refine (after_refuse h.represents).mpr (herror _ ?_)
      rw [Job.loopHeadIn, hseen]
      simp [hsees, bind, Except.bind, throw, throwThe, MonadExceptOf.throw]
    · rename_i hsees
      refine hok ?_
      rw [Job.loopHeadIn, hseen]
      simp [hsees, bind, Except.bind, pure, Except.pure]

/-- A loop whose body is no function with one parameter is refused. -/
theorem loopHead_none {array : String} (h : job.Stands loops k s) (k' : Cursor) :
    Renders s (Emit.loopHead job e array label none)
      (do job.loopHeadIn loops label e array none; return (.empty, k')) := by
  unfold Renders Emit.loopHead
  rw [after_bind, after_tracker, if_neg (by simp [h.markup]), h.represents.requireVisible,
    after_check]
  cases hseen : job.requireSeen loops e array label with
  | error d =>
    dsimp only
    rw [Job.loopHeadIn, hseen]
    rfl
  | ok _ =>
    refine (after_refuse h.represents).mpr ?_
    rw [Job.loopHeadIn, hseen]
    rfl

/-- The body of a loop stands inside the loop. -/
theorem stands_enterLoop (h : job.Stands loops k s) (item array : String) :
    job.Stands ((item, array) :: loops) k
      ((s.tracking (s.tracker.enter .loop (some item) (some array))).tracking
        ((s.tracker.enter .loop (some item) (some array)).bind item .loopItem)) where
  represents := h.represents.enterLoop item array
  markup := by
    obtain ⟨frame, outer, hframes⟩ := List.exists_cons_of_ne_nil h.represents.sound.nonempty
    rw [Progress.tracking_tracker, Tracker.bind, Tracker.enter, hframes]
    exact h.markup
  cursor := h.cursor

theorem loop {place' : Text.Place} {callee : Expr} {array item : String} {body : Expr}
    (free : Piece.TextsMarkerFree (body.skeleton job.tag true)) (h : job.Stands loops k s)
    (ih : Agrees job ((item, array) :: loops) true "map-loop-body" k body) :
    Renders s
      (do Emit.loopHead job (.call place callee [.arrow place' [item] body]) array label (some item)
          block .loop (some item) (some array)
            [([], lower job .block "map-loop-body" body)] .loopEnd)
      (do
        job.loopHeadIn loops label (.call place callee [.arrow place' [item] body]) array
          (some item)
        let (inner, k') ← job.outlineOf ((item, array) :: loops) true "map-loop-body" k body
        return (.loop array item inner, k')) := by
  refine loopHead h (fun head => ?_) fun d hd => by rw [hd]; rfl
  have inner := stands_enterLoop (h.writing (.loopStart array item)) item array
  unfold block
  rw [after_bind, after_enterScope_some]
  refine (after_oneBranch (ih free .block _ (by decide) rfl inner)
    (Tracker.exit_enterLoop h.represents.sound.nonempty item array)).mono
    (fun _ s₂ ⟨o, hr, hpieces, htracker⟩ => ?_) fun d _ hd => by rw [head, hd]; rfl
  refine ⟨.loop array item o, by rw [head, hr]; rfl, ?_⟩
  have wrote : Wrote (s.writing (.loopStart array item)) (o.pieces ++ [.loopEnd]) s₂ :=
    ⟨hpieces, htracker⟩
  have all := (Wrote.writing s (.loopStart array item)).trans wrote
  simpa [Outline.pieces] using all

theorem helper {name : String} {arguments : List Expr} (h : job.Stands loops k s) :
    Renders s (Emit.helper job e name label arguments)
      (do return (← job.helperAt loops k label e name arguments, k)) := by
  unfold Renders Emit.helper Job.helperAt
  rw [after_bind, after_tracker, if_neg (by simp [h.markup])]
  split
  · rw [h.represents.requireVisible, after_check]
    cases job.requireSeen loops e resultCountParameter label with
    | error d => rfl
    | ok _ =>
      dsimp only
      rw [after_bind, after_cursor, h.cursor, after_check]
      cases job.functionFor k resultCountParameter none e with
      | error d => rfl
      | ok function =>
        exact ⟨.resultCount job.labels ⟨resultCountParameter, none, e, function⟩,
          by rw [← h.cursor]; rfl, .writing s _⟩
  split
  · exact ⟨.code .currentYear, by rw [← h.cursor]; rfl, .writing s _⟩
  · rw [h.represents.currentItem?, h.represents.site]
    cases loops with
    | nil => rfl
    | cons loop loops =>
      obtain ⟨item, array⟩ := loop
      change After (ofExcept _ >>= _) s _ _
      rw [h.represents.ratingOperand, after_check]
      dsimp only [List.head?_cons]
      cases job.ratingIn ((item, array) :: loops) label item arguments with
      | error d => rfl
      | ok rating =>
        exact ⟨.code (.stars job.stars rating), by rw [← h.cursor]; rfl, .writing s _⟩

theorem call {callee : Expr} {arguments : List Expr} {rendered : Bool}
    (ih : ∀ array place' item body, arguments = [.arrow place' [item] body] →
      Agrees job ((item, array) :: loops) true "map-loop-body" k body) :
    Agrees job loops rendered label k (.call place callee arguments) := by
  intro free use s huse _ h
  rw [lower_call, Job.outlineOf]
  refine .begin huse h.markup ?_
  have h₀ := h.noting (.expression (.call place callee arguments) label false)
  unfold Renders
  rw [after_bind, after_tracker, h₀.represents.requirePlain, after_check]
  cases job.plain label callee with
  | error d => rfl
  | ok _ =>
    dsimp only
    rw [h₀.represents.requirePlainOwner, after_check]
    cases job.plainOwner label callee with
    | error d => rfl
    | ok _ =>
      unfold called
      cases hshape : CallShape.of? callee with
      | none => exact Renders.refuse h₀.represents
      | some shape =>
        cases shape with
        | helper name => exact helper h₀
        | loop array =>
          dsimp only
          split
          · rename_i place' item body
            have free_body : Piece.TextsMarkerFree (body.skeleton job.tag true) :=
              fun content hc => free content (by rw [Expr.skeleton_loop hshape]; simp [hc])
            exact loop free_body h₀ (ih array place' item body rfl)
          · rename_i noArrow
            -- the reference translation looks at the arguments in the same way
            try split
            all_goals first
              | exact (noArrow _ _ _ rfl).elim
              | exact loopHead_none h₀ k

/-- An expression that has no form in markup. -/
theorem refused {construct : Unsupported} {rendered : Bool}
    (hlower : ∀ use, use ≠ .operand →
      ∃ f, lower job use label e = begin use e label >>= f ∧ f false = refuse job e label construct)
    (houtline : job.outlineOf loops rendered label k e =
      .error (job.refusal e label construct)) : Agrees job loops rendered label k e := by
  intro _ use s huse _ h
  obtain ⟨f, hf, hrefuse⟩ := hlower use huse
  rw [hf, houtline]
  refine .begin huse h.markup ?_
  rw [hrefuse]
  exact .refuse (s := s.noting _) h.represents

/-- A template is rendered as its parts. -/
theorem rendered {tag : String} {templatePlace : Text.Place} {texts : List String}
    {holes : List Expr} (ih : AgreesOnParts job loops (labelPrefix label) 0 k holes texts)
    (htag : tag = job.tag) :
    Agrees job loops true label k (.tagged place tag templatePlace texts holes) := by
  intro free use s _ huse h
  have hblock : use = .block := by simpa using huse
  rw [Job.outlineOf, if_pos ⟨rfl, htag⟩, lower, if_pos ⟨hblock, htag⟩]
  refine ih ?_ s h
  rwa [Expr.skeleton, if_pos ⟨rfl, htag⟩] at free

end Agrees

/-! ### Templates -/

namespace AgreesOnParts

/-- Texts behind the last hole. -/
theorem nil {front : String} {index : Nat} {texts : List String} :
    AgreesOnParts job loops front index k [] texts := by
  intro free s h
  rw [lowerParts, Job.partsOf]
  refine renders_chunks (fun content hc => free.of_ofText fun piece hpiece => ?_) h
  exact List.mem_flatMap.mpr ⟨content, hc, hpiece⟩

/-- What stands in a hole counts for the cursor as a value. -/
theorem renders_hole {content : Emit Unit} {r : Except Diagnostic (Outline × Cursor)}
    (markup : s.tracker.inCode = false) (h : Renders (s.noting (.hole e label)) content r) :
    Renders s (hole e label content)
      (do let (o, k') ← r; return (.hole o, k'.interpolated)) := by
  unfold Emit.hole Renders
  rw [after_bind, after_inCode, after_bind, after_note, after_bind, markup]
  refine h.mono (fun _ s₁ ⟨o, hr, w⟩ => ?_) fun d _ hd => by rw [hd]; rfl
  change After (moveCursor _) _ _ _
  rw [after_moveCursor]
  exact ⟨.hole o, by rw [hr]; rfl, w.of_noting.moving _⟩

/-- A text, the expression in the hole behind it and the rest. -/
theorem cons {front : String} {index : Nat} {holes : List Expr} {content : String}
    {texts : List String}
    (hhole : Agrees job loops false (holeLabel front index) (k.feed content.toList) e)
    (hrest : ∀ k₁ : Cursor, AgreesOnParts job loops front (index + 1) k₁.interpolated holes texts) :
    AgreesOnParts job loops front index k (e :: holes) (content :: texts) := by
  intro free s h
  rw [Expr.skeletonOfParts] at free
  have free_text : MarkerFree content.toList := free.of_ofText fun c hc =>
    List.mem_append_left _ (List.mem_append_left _ hc)
  have free_hole : Piece.TextsMarkerFree (e.skeleton job.tag false) := fun c hc =>
    free c (List.mem_append_left _ (List.mem_append_right _ hc))
  have free_rest : Piece.TextsMarkerFree (Expr.skeletonOfParts job.tag holes texts) := fun c hc =>
    free c (List.mem_append_right _ hc)
  rw [lowerParts, Job.partsOf]
  refine (renders_chunk free_text h).then (fun o s₁ h₁ w₁ => ?_) fun d hd => by cases hd
  obtain ⟨ho, hk₁⟩ := Prod.mk.inj (Except.ok.inj h₁)
  subst ho
  -- the hole begins behind the text, and the rest behind the hole
  have stands₁ := h.of_wrote w₁
  have hole := hhole free_hole .value (s₁.noting (.hole e (holeLabel front index))) (by decide) rfl
    ⟨stands₁.represents, stands₁.markup, hk₁.symm⟩
  refine (renders_hole stands₁.markup hole).then (fun o₂ s₂ h₂ w₂ => ?_) fun d hd => ?_
  · obtain ⟨⟨inner, k₁⟩, hinner, hpair⟩ := exists_ok_of_bind h₂
    obtain ⟨ho₂, hk₂⟩ := Prod.mk.inj (Except.ok.inj hpair)
    subst ho₂
    have stands₂ := hk₂ ▸ stands₁.of_wrote w₂
    refine (hrest k₁ free_rest s₂ stands₂).mono ?_ fun d _ hd => ?_
    · rintro _ s₃ ⟨o₃, h₃, w₃⟩
      refine ⟨.seq (.text content) (.seq (.hole inner) o₃), ?_, ?_⟩
      · rw [hinner]
        simp [bind, Except.bind, h₃, pure, Except.pure]
      · exact w₁.trans (w₂.trans w₃)
    · rw [hinner]
      simp [bind, Except.bind, hd]
  · cases hinner : job.outlineOf loops false (holeLabel front index) (k.feed content.toList) e with
    | error d' => rw [hinner] at hd; cases hd; rfl
    | ok r => rw [hinner] at hd; cases hd

end AgreesOnParts

/-- Wherever an expression stands, and wherever texts with expressions between them stand, the
conversion renders what the reference translation gives. -/
theorem agrees (job : Job) :
    (∀ loops rendered label k e, Agrees job loops rendered label k e) ∧
      ∀ loops front index k holes texts, AgreesOnParts job loops front index k holes texts := by
  -- one case for each equation of the reference translation
  refine Job.outlineOf.mutual_induct job _ _ ?name ?member ?text ?word ?group ?rendered ?foreign
    ?skipped ?binary ?guard ?operator ?conditional ?call ?this ?arrow ?template ?other ?nil ?lacking
    ?cons
  case name => exact fun _ _ _ _ _ _ => .name
  case member => exact fun _ _ _ _ _ _ _ _ => .member
  case text => exact fun _ _ _ _ _ _ _ _ _ => .constant
  case word => exact fun _ _ _ _ _ _ _ _ => .constant
  case group => exact fun _ _ _ _ _ _ ih => .group ih
  case rendered =>
    rintro _ _ _ _ _ _ _ _ _ ⟨rfl, htag⟩ ih
    exact .rendered ih htag
  case foreign => exact fun _ _ _ _ _ _ _ _ _ hskipped _ => .skipped hskipped
  case skipped => exact fun _ _ _ _ _ _ _ _ _ hskipped _ => .skipped hskipped
  case binary =>
    exact fun _ _ _ _ _ _ _ _ =>
      .refused (fun _ _ => ⟨_, by rw [lower], rfl⟩) (by rw [Job.outlineOf]; rfl)
  case guard => exact fun _ _ _ _ _ _ _ _ _ ih => .logical fun _ => ih
  case operator =>
    exact fun _ _ _ _ _ _ _ _ hmarkup => .logical fun h => (hmarkup h).elim
  case conditional => exact fun _ _ _ _ _ _ _ _ hthen helse => .conditional hthen helse
  case call =>
    intro _ _ _ _ _ _ _ ih
    refine .call fun array place' item body harguments => ?_
    have ih := ih array
    rw [harguments] at ih
    exact ih
  case this =>
    exact fun _ _ _ _ _ =>
      .refused (fun _ _ => ⟨_, by rw [lower], rfl⟩) (by rw [Job.outlineOf]; rfl)
  case arrow =>
    exact fun _ _ _ _ _ _ _ =>
      .refused (fun _ _ => ⟨_, by rw [lower], rfl⟩) (by rw [Job.outlineOf]; rfl)
  case template =>
    exact fun _ _ _ _ _ _ _ =>
      .refused (fun _ _ => ⟨_, by rw [lower], rfl⟩) (by rw [Job.outlineOf]; rfl)
  case other =>
    exact fun _ _ _ _ _ _ _ =>
      .refused (fun _ _ => ⟨_, by rw [lower], rfl⟩) (by rw [Job.outlineOf]; rfl)
  case nil => exact fun _ _ _ _ _ => .nil
  case lacking =>
    intro _ _ _ k _ _ _ s h
    rw [lowerParts, Job.partsOf]
    exact ⟨.empty, by rw [← h.cursor]; rfl, .refl s⟩
  case cons => exact fun _ _ _ _ _ _ _ _ hhole hrest => .cons hhole hrest

end ServerTemplate
