import ServerTemplate.Proofs.Region.Placed

/-!
# The regions of a conversion

At every step of a conversion the regions are markup alone or code in markup, and an expression that
begins is written bare just if it begins in code; this holds up to the point at which a conversion
fails, too. What begins in code is written in code alone: it reads no literal text and writes no
block, and if it is converted, all scopes are as they were. The test of a condition is converted in
just this way.

So values, helpers and the heads of blocks stand in markup, and the code of expressions in code. In
a conversion that succeeds the ends of blocks stand in markup as well. An `else` stands where the
branch in front of it ends, and that branch may end in code: everything is in its place if and only
if the first of two branches always ends in markup (`regions_of_conversion`).
-/

namespace ServerTemplate

open Emit

variable {job : Job} {s : Progress} {label : String} {e : Expr}

/-! ### In code there are no blocks -/

theorem Emit.follow_of_error {α β : Type} {x : Emit α} {f : α → Progress → List β} {d : Diagnostic}
    {s' : Progress} (h : x s = .error d s') : follow x s f = [] := by
  rw [follow, h]

/-- An expression that begins in code is written bare. -/
theorem Emit.follow_begin {β : Type} {use : Use} {f : Bool → Progress → List β}
    (code : s.tracker.inCode = true) :
    follow (begin use e label) s f = f true (s.noting (.expression e label true)) := by
  have begun : begin use e label s = .ok (use == .operand || s.tracker.inCode)
      (s.noting (.expression e label (use == .operand || s.tracker.inCode))) := rfl
  rw [follow_eq begun, code, Bool.or_true]

/-- In code a loop is refused. -/
theorem Emit.loopHead_inCode {array : String} {item? : Option String}
    (code : s.tracker.inCode = true) : loopHead job e array label item? s =
      .error (job.unsupported s.tracker e label (.loopInCode array)) s := by
  change (if s.tracker.inCode then refuse job e label (.loopInCode array) else _) s = _
  rw [if_pos code]
  rfl

/-- What is converted in code has no blocks. -/
theorem blocksOf_inCode {use : Use} {s : Progress} {label : String}
    (code : s.tracker.inCode = true) :
    ∀ {e : Expr}, (use = .block → e.isRendered job.tag = false) → blocksOf job use label e s = []
  | .group place inner, plain => by
    simp only [blocksOf]
    split
    · rename_i block
      subst block
      exact blocksOf_inCode code plain
    · rw [follow_begin code, if_pos rfl]
  | .tagged place tag _ texts holes, plain => by
    simp only [blocksOf]
    rw [if_neg]
    rintro ⟨block, same⟩
    have other : (tag == job.tag) = false := plain block
    exact absurd same (beq_eq_false_iff_ne.mp other)
  | .logical place operator left right, _ => by
    simp only [blocksOf, follow_begin code, if_true]
  | .conditional place test consequent alternate, _ => by
    simp only [blocksOf, follow_begin code, Progress.noting_tracker, code, if_true]
  | .call place callee arguments, _ => by
    refine List.eq_nil_iff_forall_not_mem.mpr fun r hr => ?_
    obtain ⟨array, arrow, item, body, -, -, hr⟩ := exists_of_mem_blocksOf_call hr
    have refused := @loopHead_inCode job (s.noting (.expression (.call place callee arguments) label
      true)) label (.call place callee arguments) array (some item) code
    rw [follow_begin code, follow_of_error refused] at hr
    cases hr
  | .binary .., _ | .constant .., _ | .name .., _ | .member .., _ | .this _, _ | .arrow .., _
  | .template .., _ | .other .., _ => by simp only [blocksOf]

/-! ### Conditions and blocks -/

namespace Emit

theorem leaveCode_eq {t : Tracker} (left : s.tracker.leaveCode = .ok t) :
    leaveCode s = .ok () (s.tracking t) := by
  change (ofExcept s.tracker.leaveCode >>= setTracker) s = _
  rw [left]
  rfl

namespace Places

variable {blocks blocks' : List BlockRun}

/-- What is converted in code. -/
theorem lower_inCode {use : Use} (code : s.tracker.inCode = true)
    (plain : use = .block → e.isRendered job.tag = false) :
    Places (lower job use label e) s [] := by
  intro orderly
  refine (inCode_lower job label code plain s rfl).mono (fun _ s' ⟨run, _⟩ => ?_) fun _ s' run => ?_
  all_goals
    obtain ⟨new, added, bare⟩ := orderly.adds_codeRun run
    have fits : ∀ y ∈ new, y.1.endsBranch = false ∧ y.1.Fits y.2 := fun y hy => by
      obtain ⟨isCode, code⟩ := bare y hy
      obtain ⟨piece, t⟩ := y
      cases piece <;> first | exact ⟨rfl, code⟩ | cases isCode
  · exact ⟨new, added, .of_begun fits⟩
  · exact ⟨new, added, fun y hy _ => (fits y hy).2⟩

/-- The head of a conditional stands in markup, and its test in code. -/
theorem condition (test : Expr) (markup : s.tracker.inCode = false) :
    Places (Emit.condition (lower job .operand label test)) s [] := by
  have opened : Places (Emit.write .ifStart) s [] := write rfl markup
  refine opened.followed fun _ s₁ written => ?_
  cases written
  have entered : Places Emit.enterCode (s.writing .ifStart) [] :=
    setTracker fun flat => flat.enterCode markup
  refine entered.followed fun _ s₁ begun => ?_
  cases begun
  have inner : Places (lower job .operand label test)
      ((s.writing .ifStart).tracking s.tracker.enterCode) [] := lower_inCode rfl nofun
  refine inner.followed fun _ s₂ tested => ?_
  have kept : InCode s.tracker.enterCode (lower job .operand label test) :=
    inCode_lower job label rfl nofun
  have same : s₂.tracker = s.tracker.enterCode := ((kept _ rfl).of_ok tested).2
  have left : s₂.tracker.leaveCode = .ok s.tracker := by
    rw [same, Tracker.leaveCode_enterCode]
  have behind : Places Emit.leaveCode s₂ [] :=
    tracker (check fun t left => setTracker fun flat => (flat.leaveCode left).1)
  refine behind.followed fun _ s₃ gone => ?_
  rw [leaveCode_eq left] at gone
  cases gone
  exact write rfl markup

/-- The same holds of two parts that do the same from a state on. -/
theorem of_eq {x y : Emit Unit} (same : x s = y s) (h : Places y s blocks) : Places x s blocks := by
  intro orderly
  unfold After
  rw [same]
  exact h orderly

/-- The end of a block with one branch. -/
theorem soleBranch {branch : Emit Unit} {inner : Progress → List BlockRun} {kind : FrameKind}
    {closer : Piece} (closes : closer = .ifEnd ∨ closer = .loopEnd)
    (h : Places branch s (inner s)) :
    Places (do branch; Emit.exitScope kind; Emit.write closer) s
      (Emit.soleBranch branch inner s) := by
  intro orderly
  rw [after_bind]
  refine (h orderly).mono_run (fun _ s₁ ran ⟨new, added, spread⟩ => ?_) fun _ _ failed => failed
  rw [Emit.soleBranch, follow_eq ran, after_bind]
  refine after_exitScope (fun frame t left => ?_) fun d _ => ⟨new, added, spread.begun⟩
  have regions := Tracker.regions_of_exit left
  have exited := added.trans (added.orderly.adds_tracking (added.orderly.flat.of_regions regions).1)
  exact ⟨_, exited.trans (exited.orderly.adds_writing closer), spread.sole closes regions rfl⟩

/-- The end of a block with two branches. -/
theorem twoBranches {first second : Emit Unit} {inFirst inSecond : Progress → List BlockRun}
    (h : Places first s (inFirst s)) (h' : ∀ s', Places second s' (inSecond s')) :
    Places (do
      first
      Emit.write .otherwise
      Emit.moveCursor fun _ => s.cursor
      second
      Emit.exitScope .conditional
      Emit.write .ifEnd) s (Emit.twoBranches first second inFirst inSecond s) := by
  intro orderly
  rw [after_bind]
  refine (h orderly).mono_run (fun _ s₁ ran placed => ?_) fun _ _ failed => failed
  obtain ⟨new, added, spread⟩ := placed
  have turned := added.trans (added.orderly.adds_writing .otherwise)
  have moved := turned.trans (turned.orderly.adds_moving s.cursor)
  have begun : Begun ((.otherwise, s₁.tracker) :: new) := spread.begun.cons rfl
  rw [Emit.twoBranches, follow_eq ran, after_bind, after_write, after_bind, after_moveCursor,
    after_bind]
  refine (h' _ moved.orderly).mono_run (fun _ s₂ ran' placed' => ?_) fun _ s₂ failed => ?_
  · obtain ⟨new', added', spread'⟩ := placed'
    have both := moved.trans added'
    rw [follow_eq ran', after_bind]
    refine after_exitScope (fun frame t left => ?_) fun d _ =>
      ⟨_, both, begun.append spread'.begun⟩
    have regions := Tracker.regions_of_exit left
    have exited := both.trans (both.orderly.adds_tracking (both.orderly.flat.of_regions regions).1)
    exact ⟨_, exited.trans (exited.orderly.adds_writing .ifEnd), spread.two regions rfl spread'⟩
  · obtain ⟨new', added', begun'⟩ := failed
    exact ⟨_, moved.trans added', begun.append begun'⟩

/-- A block with one branch. -/
theorem soleBlock {branch : Emit Unit} {inner : Progress → List BlockRun} {kind : FrameKind}
    {item array : Option String} {closer : Piece} (closes : closer = .ifEnd ∨ closer = .loopEnd)
    (h : ∀ s, Places branch s (inner s)) :
    Places (block kind item array [([], branch)] closer) s
      (follow (Emit.enterScope kind item array) s fun _ s => Emit.soleBranch branch inner s) := by
  unfold block
  refine enterScope.bind_nil fun _ s₁ _ => ?_
  have ran : Places (do branch; Emit.exitScope kind; Emit.write closer) s₁
      (Emit.soleBranch branch inner s₁) := soleBranch closes (h s₁)
  refine of_eq ?_ ran
  change (((do branch; Pure.pure ()) : Emit Unit) >>= fun _ => do
    Emit.exitScope kind; Emit.write closer) s₁ = _
  rw [bind_pure_unit]

/-- A block with two branches. -/
theorem twoBlock {first second : Emit Unit} {inFirst inSecond : Progress → List BlockRun}
    (h : ∀ s, Places first s (inFirst s)) (h' : ∀ s, Places second s (inSecond s)) :
    Places (block .conditional none none [([], first), ([.otherwise], second)] .ifEnd) s
      (follow (Emit.enterScope .conditional) s fun _ s =>
        Emit.twoBranches first second inFirst inSecond s) := by
  unfold block
  refine enterScope.bind_nil fun _ s₁ _ => ?_
  refine of_eq ?_ (twoBranches (h s₁) h')
  change (((do
    first
    Emit.write .otherwise
    Emit.moveCursor fun _ => s₁.cursor
    second
    Pure.pure ()) : Emit Unit) >>= fun _ => do
      Emit.exitScope .conditional; Emit.write .ifEnd) s₁ = _
  simp only [bind_assoc, pure_bind]

/-- What stands in a hole. -/
theorem hole {content : Emit Unit} {inner : Progress → List BlockRun}
    (h : ∀ s, Places content s (inner s)) :
    Places (Emit.hole e label content) s (inner (s.noting (.hole e label))) := by
  have noted : Places (Emit.note (.hole e label)) s [] := note nofun
  have whole : Places (Emit.hole e label content) s
      (follow (Emit.note (.hole e label)) s fun _ s => inner s) := by
    unfold Emit.hole
    refine inCode (noted.bind_nil fun _ s₁ _ => (h s₁).followed fun _ s₂ _ => ?_)
    split
    · exact moveCursor _
    · exact pure ()
  exact whole

/-- What holds in markup holds everywhere, since there are no blocks in code. -/
theorem of_markup {use : Use} (plain : use = .block → e.isRendered job.tag = false)
    (h : s.tracker.inCode = false →
      Places (lower job use label e) s (blocksOf job use label e s)) :
    Places (lower job use label e) s (blocksOf job use label e s) := by
  cases code : s.tracker.inCode with
  | true =>
    rw [blocksOf_inCode code plain]
    exact lower_inCode code plain
  | false => exact h code

section Expressions

variable {use : Use} (hcode : use = .operand → s.tracker.inCode = true)

include hcode

theorem group {place : Text.Place} {inner : Expr} (huse : use ≠ .block)
    (hvalue : ∀ s, Places (lower job .value label inner) s (blocksOf job .value label inner s)) :
    Places (lower job use label (.group place inner)) s
      (blocksOf job use label (.group place inner) s) := by
  refine of_markup (fun block => absurd block huse) fun markup => ?_
  rw [lower, if_neg huse]
  simp only [blocksOf, if_neg huse]
  refine begin hcode fun s₁ _ => ?_
  rw [markup, if_neg Bool.false_ne_true, if_neg Bool.false_ne_true]
  exact hvalue s₁

theorem skipped {place templatePlace : Text.Place} {tag : String} {texts : List String}
    {holes : List Expr} (huse : ¬ (use = .block ∧ tag = job.tag)) :
    Places (lower job use label (.tagged place tag templatePlace texts holes)) s
      (blocksOf job use label (.tagged place tag templatePlace texts holes) s) := by
  rw [lower, if_neg huse]
  simp only [blocksOf, if_neg huse]
  refine begin_nil hcode fun s₁ _ => ?_
  split
  · exact refuse
  · exact pure ()

theorem constantIn {place : Text.Place} {v : Constant} {spelling : String}
    (hv : ∀ content, use = .block → v = .text content → False)
    (hp : ∀ points, use = .block → v = .halves points → False) :
    Places (lower job use label (.constant place v spelling)) s
      (blocksOf job use label (.constant place v spelling) s) := by
  refine of_markup (fun block => ?_) fun markup => ?_
  · cases v with
    | text content => exact (hv content block rfl).elim
    | halves points => exact (hp points block rfl).elim
    | _ => rfl
  · rw [lower]
    · simp only [blocksOf]
      refine begin_nil hcode fun s₁ _ => ?_
      rw [markup]
      exact constant
    · exact hv
    · exact hp

theorem logical {place : Text.Place} {operator : String} {left right : Expr}
    (hblock : ∀ s, Places (lower job .block (label ++ "-consequent") right) s
      (blocksOf job .block (label ++ "-consequent") right s)) :
    Places (lower job use label (.logical place operator left right)) s
      (blocksOf job use label (.logical place operator left right) s) := by
  refine of_markup (fun _ => rfl) fun markup => ?_
  rw [lower]
  simp only [blocksOf]
  refine begin hcode fun s₁ same => ?_
  rw [markup, if_neg Bool.false_ne_true, if_neg Bool.false_ne_true]
  split
  · exact (condition left (same ▸ markup)).bind_nil fun _ s₂ _ => soleBlock (.inl rfl) hblock
  · exact refuse

theorem conditional {place : Text.Place} {test consequent alternate : Expr}
    (hthen : ∀ s, Places (lower job .block (label ++ "-consequent") consequent) s
      (blocksOf job .block (label ++ "-consequent") consequent s))
    (helse : ∀ s, Places (lower job .block (label ++ "-alternate") alternate) s
      (blocksOf job .block (label ++ "-alternate") alternate s)) :
    Places (lower job use label (.conditional place test consequent alternate)) s
      (blocksOf job use label (.conditional place test consequent alternate) s) := by
  refine of_markup (fun _ => rfl) fun markup => ?_
  rw [lower]
  simp only [blocksOf]
  refine begin hcode fun s₁ same => inCode ?_
  rw [same, markup, if_neg Bool.false_ne_true, if_neg Bool.false_ne_true]
  refine (condition test (same ▸ markup)).bind_nil fun _ s₂ _ => ?_
  split
  · exact soleBlock (.inl rfl) hthen
  · exact twoBlock hthen helse

theorem call {place : Text.Place} {callee : Expr} {arguments : List Expr}
    (hbody : ∀ arrow item body, arguments = [.arrow arrow [item] body] → ∀ s,
      Places (lower job .block "map-loop-body" body) s
        (blocksOf job .block "map-loop-body" body s)) :
    Places (lower job use label (.call place callee arguments)) s
      (blocksOf job use label (.call place callee arguments) s) := by
  refine of_markup (fun _ => rfl) fun markup => ?_
  generalize hruns : blocksOf job use label (.call place callee arguments) = runs
  rw [lower_call]
  unfold blocksOf at hruns
  split at hruns <;> subst hruns
  · rename_i array arrow item body shape
    refine begin hcode fun s₁ same => tracker (check fun _ _ => check fun _ _ => ?_)
    unfold called
    rw [shape]
    exact (loopHead (same ▸ markup)).bind_nil fun _ s₂ _ => soleBlock (.inr rfl) (hbody _ _ _ rfl)
  · rename_i other
    refine begin_nil hcode fun s₁ same => tracker (check fun _ _ => check fun _ _ => ?_)
    unfold called
    split
    · exact refuse
    · exact helper (same ▸ markup)
    · rename_i array shape
      split
      · exact (other array _ _ _ shape rfl).elim
      · exact loopHead (same ▸ markup)

end Expressions

end Places

end Emit

open Emit.Places in
/-- Whatever is converted, all stays in order, and what is written is spread over the blocks. -/
theorem places_lower (job : Job) :
    (∀ use label e s, (use = .operand → s.tracker.inCode = true) →
      Places (lower job use label e) s (blocksOf job use label e s)) ∧
      ∀ front index holes texts s, Places (lowerParts job front index holes texts) s
        (blocksOfParts job front index holes texts s) := by
  have ofValue {p : Prop} (operand : Use.value = .operand) : p := absurd operand (by decide)
  have ofBlock {p : Prop} (operand : Use.block = .operand) : p := absurd operand (by decide)
  -- one case for each equation of the conversion
  refine lower.mutual_induct job _ _ ?groupInBlock ?group ?rendered ?skipped ?text ?halves ?constant
    ?name ?member ?binary ?logical ?conditional ?call ?this ?arrow ?template ?other ?nil ?lacking
    ?cons
  case groupInBlock =>
    intro label place inner ih s hcode
    rw [lower, if_pos rfl]
    simp only [blocksOf, if_true]
    exact ih s hcode
  case group =>
    intro use label place inner huse _ hvalue s hcode
    exact .group hcode huse fun s => hvalue s ofValue
  case rendered =>
    intro use label place tag templatePlace texts holes huse ih s _
    rw [lower, if_pos huse]
    simp only [blocksOf, if_pos huse]
    exact ih s
  case skipped =>
    exact fun use label place tag templatePlace texts holes huse s hcode => .skipped hcode huse
  case text =>
    intro label place spelling content s _
    rw [lower]
    simp only [blocksOf]
    exact .constantText content
  case halves =>
    intro label place spelling points s _
    rw [lower]
    simp only [blocksOf]
    exact .constantText _
  case constant => exact fun use label place v spelling hv hp s hcode => .constantIn hcode hv hp
  case name =>
    intro use label place name s hcode
    refine .of_markup (fun _ => rfl) fun markup => ?_
    rw [lower]
    simp only [blocksOf]
    exact .begin_nil hcode fun s₁ same => markup ▸ .readValue (same ▸ markup)
  case member =>
    intro use label place object name optional s hcode
    refine .of_markup (fun _ => rfl) fun markup => ?_
    rw [lower]
    simp only [blocksOf]
    exact .begin_nil hcode fun s₁ same => markup ▸ .property (same ▸ markup)
  case binary =>
    intro use label place operator left right _ _ s hcode
    refine .of_markup (fun _ => rfl) fun markup => ?_
    rw [lower]
    simp only [blocksOf]
    refine .begin_nil hcode fun s₁ same => ?_
    rw [markup]
    exact .refuse
  case logical =>
    exact fun use label place operator left right _ _ _ hblock s hcode =>
      .logical hcode fun s => hblock s ofBlock
  case conditional =>
    exact fun use label place test consequent alternate _ _ _ hthen helse s hcode =>
      .conditional hcode (fun s => hthen s ofBlock) fun s => helse s ofBlock
  case call =>
    intro use label place callee arguments ih s hcode
    refine .call hcode fun arrow item body h s => ?_
    subst h
    exact ih s ofBlock
  case this | arrow | template | other =>
    intros
    rw [lower]
    simp only [blocksOf]
    exact .begin_nil (by assumption) fun _ _ => .refuse
  case nil =>
    intro front index texts s
    rw [lowerParts]
    simp only [blocksOfParts]
    exact .chunks texts
  case lacking =>
    intro front index e holes s
    rw [lowerParts]
    simp only [blocksOfParts]
    exact .pure ()
  case cons =>
    intro front index e holes content texts he hrest s
    rw [lowerParts]
    simp only [blocksOfParts]
    refine bind_nil (.chunk content) fun _ s₁ _ => ?_
    exact bind (.hole fun s => he s ofValue) fun _ s₂ _ => hrest s₂

/-! ### Whole conversions -/

/-- In front of the first text of a template all is in order, and nothing is written. -/
theorem Job.orderly_inner (job : Job) : (job.start.tracking job.inner).Orderly where
  flat := rfl
  moments m hm := by
    rw [List.mem_singleton.mp hm]
    exact ⟨rfl, nofun⟩
  newest := ⟨_, _, rfl, rfl, le_refl _⟩
  whole := rfl

/-- A whole conversion, and what it has written. -/
theorem after_lowerTemplate_spread (job : Job) (template : Template) :
    After (lowerTemplate job template) job.start
      (fun _ s => s.Orderly ∧ Spread (job.blockRuns template) s.placed)
      fun _ s => s.Orderly ∧ Begun s.placed := by
  have whole : Places (do
      lowerParts job "" 0 template.holes template.chunks
      exitScope .template
      ofExcept (← tracker).finish) (job.start.tracking job.inner) (job.blockRuns template) := by
    refine ((places_lower job).2 "" 0 _ _ _).followed fun _ s₁ _ => ?_
    refine Places.exitScope.followed fun _ s₂ _ => .tracker ?_
    cases s₂.tracker.finish with
    | error d => exact .throw d
    | ok _ => exact .pure ()
  refine After.mono (whole job.orderly_inner) (fun _ s ⟨new, added, spread⟩ => ?_)
    fun _ s ⟨new, added, begun⟩ => ?_
  all_goals
    have placed : s.placed = new := added.placed.trans (List.append_nil new)
    rw [placed]
  · exact ⟨added.orderly, spread⟩
  · exact ⟨added.orderly, begun⟩

/-- Whatever comes of a conversion, all that has happened is in order. -/
theorem Job.orderly_final (job : Job) (template : Template) :
    (job.final template).Orderly ∧ Begun (job.final template).placed := by
  have run := after_lowerTemplate_spread job template
  unfold Job.final
  unfold After at run
  cases result : lowerTemplate job template job.start with
  | ok _ s =>
    rw [result] at run
    exact ⟨run.1, run.2.begun⟩
  | error d s =>
    rw [result] at run
    exact run

/-- What a conversion that succeeds has written is spread over the blocks of the template. -/
theorem Job.spread_of_pieces {template : Template} {pieces : List Piece}
    (h : job.pieces template = .ok pieces) :
    pieces = (job.final template).pieces.reverse ∧
      Spread (job.blockRuns template) (job.final template).placed := by
  have run := after_lowerTemplate_spread job template
  unfold Job.pieces at h
  unfold Job.final
  unfold After at run
  cases result : lowerTemplate job template job.start with
  | ok _ s =>
    rw [result] at h run
    cases h
    exact ⟨rfl, run.2⟩
  | error d s =>
    rw [result] at h
    cases h

/-- In a conversion that succeeds, everything but an `else` fits the scopes in which it is written.
-/
theorem Job.fits_of_pieces {template : Template} {pieces : List Piece}
    (h : job.pieces template = .ok pieces) :
    ∀ y ∈ (job.final template).placed, y.1 ≠ .otherwise → y.1.Fits y.2 := by
  intro y hy other
  obtain ⟨-, spread⟩ := Job.spread_of_pieces h
  -- the end of a block stands in the regions in which its last branch ends, which is markup
  have ended (closes : y.1 = .ifEnd ∨ y.1 = .loopEnd) : y.2.inCode = false := by
    obtain ⟨r, hr, same⟩ := spread.ends y hy closes
    obtain ⟨markup, last, -⟩ := Job.balanced_of_pieces h r hr
    rw [Tracker.inCode, same, last, markup]
  obtain ⟨piece, t⟩ := y
  cases piece with
  | otherwise => exact absurd rfl other
  | ifEnd => exact ended (.inl rfl)
  | loopEnd => exact ended (.inr rfl)
  | _ => exact spread.begun _ hy rfl

/-- At every step of a conversion, whether it succeeds or fails, the regions are markup alone or
code in markup, an expression that begins is written bare just if it begins in code, and what is
written where no branch ends is in its place.

In a conversion that succeeds, every piece but an `else` is in its place; all pieces are if and only
if the first of two branches always ends in markup.

From any state in code, an expression is converted in code only, and if that succeeds all scopes are
as they were found. So is the test of a condition, between the two parts of the head. -/
theorem regions_of_conversion (job : Job) (template : Template) :
    ((∀ m ∈ (job.final template).journal, m.InOrder) ∧
      ∀ y ∈ (job.final template).placed, y.1.endsBranch = false → y.1.Fits y.2) ∧
    (∀ pieces, job.pieces template = .ok pieces →
      (job.final template).placed.reverse.map Prod.fst = pieces ∧
      (∀ y ∈ (job.final template).placed, y.1 ≠ .otherwise → y.1.Fits y.2) ∧
      ((∀ y ∈ (job.final template).placed, y.1.Fits y.2) ↔
        ∀ r ∈ job.blockRuns template, ∀ t ∈ r.first?, t.inCode = false)) ∧
    (∀ (s : Progress) (use : Use) (label : String) (e : Expr), s.tracker.inCode = true →
      (use = .block → e.isRendered job.tag = false) →
      After (lower job use label e) s (fun _ s' => CodeRun s s' ∧ s'.tracker = s.tracker)
        fun _ s' => CodeRun s s') ∧
    ∀ (s : Progress) (label : String) (test : Expr),
      After (condition (lower job .operand label test)) s
        (fun _ s' => ∃ s₁, CodeRun ((s.writing .ifStart).tracking s.tracker.enterCode) s₁ ∧
          s' = (s₁.tracking s.tracker).writing .ifTested)
        fun _ s' => CodeRun ((s.writing .ifStart).tracking s.tracker.enterCode) s' := by
  obtain ⟨orderly, begun⟩ := job.orderly_final template
  refine ⟨⟨orderly.moments, begun⟩, fun pieces h => ?_, ?_, ?_⟩
  · obtain ⟨reversed, spread⟩ := Job.spread_of_pieces h
    have fits := Job.fits_of_pieces h
    refine ⟨by rw [List.map_reverse, orderly.whole, reversed], fits, fun all r hr t ht => ?_,
      fun markup y hy => ?_⟩
    · exact all _ ((spread.turns t).mpr ⟨r, hr, ht⟩)
    · by_cases turn : y.1 = .otherwise
      · obtain ⟨piece, t⟩ := y
        subst turn
        obtain ⟨r, hr, ht⟩ := (spread.turns t).mp hy
        exact markup r hr t ht
      · exact fits y hy turn
  · intro s use label e code plain
    exact inCode_lower job label code plain s rfl
  · exact fun s label test => after_condition label test

/-- In the conditional with literal regions in both branches everything is in its place, and in code
the test of the conditional is converted in code. -/
theorem regions_of_regionTemplate :
    (∀ y ∈ (listJob.final regionTemplate).placed, y.1.Fits y.2) ∧
      After (lower listJob .operand "expression_0-test"
          (.member ⟨1, 8⟩ (.this ⟨1, 8⟩) "title" false))
        (listJob.start.tracking listJob.inner.enterCode)
        (fun _ s' => CodeRun (listJob.start.tracking listJob.inner.enterCode) s' ∧
          s'.tracker = listJob.inner.enterCode)
        fun _ s' => CodeRun (listJob.start.tracking listJob.inner.enterCode) s' := by
  have converted : (listJob.pieces regionTemplate).toOption.isSome = true := by decide +kernel
  obtain ⟨pieces, h⟩ := exists_ok_of_isSome converted
  have markup : ((listJob.blockRuns regionTemplate).all fun r =>
      r.first?.all fun t => t.inCode == false) = true := by decide +kernel
  obtain ⟨-, succeeds, inCode, -⟩ := regions_of_conversion listJob regionTemplate
  constructor
  · refine (succeeds pieces h).2.2.mpr fun r hr t ht => ?_
    have first := List.all_eq_true.mp markup r hr
    rw [ht] at first
    exact beq_iff_eq.mp first
  · exact inCode _ .operand _ _ rfl nofun

/-- Where the first branch opens a region and the second leaves it, the `else` between them is
written within the region. -/
theorem else_within_region :
    (listJob.convert (textBranches "<?php " " ?>")).toOption =
        some "<?php if ( $title ) : ?><?php <?php else : ?> ?><?php endif; ?>" ∧
      ¬ ∀ y ∈ (listJob.final (textBranches "<?php " " ?>")).placed, y.1.Fits y.2 := by
  constructor
  · decide +kernel
  · intro fits
    have turned : ((listJob.final (textBranches "<?php " " ?>")).placed.any fun y =>
        y.1 == .otherwise && y.2.inCode) = true := by decide +kernel
    obtain ⟨⟨piece, t⟩, hy, within⟩ := List.any_eq_true.mp turned
    obtain ⟨turn, code⟩ := Bool.and_eq_true_iff.mp within
    have markup := fits _ hy
    rw [beq_iff_eq.mp turn] at markup
    exact absurd code (by rw [show t.inCode = false from markup]; decide)

end ServerTemplate
