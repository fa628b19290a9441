import ServerTemplate.Proofs.Literal.Concatenation

/-!
# The branches of blocks

`Job.blockRuns` lists the blocks of a conversion, with the scopes at the beginning of each and those
behind its branches. A block opens its frame in markup, and the literal texts in it leave no such
frame, so the end of a block leaves the frame that its beginning has opened: the branches of a
block, all together, lead back to the scopes in which they began. A body of a loop and a branch
without `else` are therefore left as they are begun (`branches_balanced`).

Of two branches this is not so. The frame is checked behind the second, and what the texts of the
first leave open those of the second can close.
-/

namespace ServerTemplate

open Emit

/-- The scopes at the beginning of a block and behind its branches. -/
structure BlockRun where
  /-- The scopes in which the first branch begins. -/
  begun : Tracker
  /-- The scopes behind the first branch, if there are two. The second begins in these. -/
  first? : Option Tracker
  /-- The scopes behind the last branch. -/
  last : Tracker

/-- Every branch ends in the scopes in which the block began. -/
def BlockRun.Local (r : BlockRun) : Prop := r.last = r.begun ∧ ∀ t ∈ r.first?, t = r.begun

/-- All branches together lead back to the scopes in which the block began, and the first leaves no
frame that was open there. -/
structure BlockRun.Balanced (r : BlockRun) : Prop where
  markup : r.begun.regions = [.markup]
  last : r.last = r.begun
  first : ∀ t ∈ r.first?, r.begun.Over 0 t

namespace Emit

/-- What comes behind a part of a conversion that succeeds. -/
def follow {α β : Type} (x : Emit α) (s : Progress) (f : α → Progress → List β) : List β :=
  match x s with
  | .ok a s' => f a s'
  | .error .. => []

/-- The run of a block with one branch, and the runs of the blocks in that branch. -/
def soleBranch (branch : Emit Unit) (inner : Progress → List BlockRun) (s : Progress) :
    List BlockRun :=
  follow branch s fun _ s' => ⟨s.tracker, none, s'.tracker⟩ :: inner s

/-- The run of a block with two branches, and the runs of the blocks in them. The second branch
begins at the place in the markup at which the first began. -/
def twoBranches (first second : Emit Unit) (inFirst inSecond : Progress → List BlockRun)
    (s : Progress) : List BlockRun :=
  follow first s fun _ s₁ =>
    follow second ((s₁.writing .otherwise).moving s.cursor) fun _ s₂ =>
      ⟨s.tracker, some s₁.tracker, s₂.tracker⟩ ::
        (inFirst s ++ inSecond ((s₁.writing .otherwise).moving s.cursor))

end Emit

mutual

/-- The runs of the blocks that an expression is converted to. In code there are none. -/
def blocksOf (job : Job) (use : Use) (label : String) (e : Expr) : Progress → List BlockRun :=
  match e with
  | .group _ inner => fun s =>
    if use = .block then blocksOf job .block label inner s
    else follow (begin use e label) s fun bare s =>
      if bare then [] else blocksOf job .value label inner s
  | .tagged _ tag _ texts holes => fun s =>
    if use = .block ∧ tag = job.tag then
      blocksOfParts job (labelPrefix label) 0 holes texts s
    else []
  | .logical _ operator left right => fun s =>
    follow (begin use e label) s fun bare s =>
      if bare then []
      else if operator = "&&" ∧ right.isMarkup job.tag then
        follow (condition (lower job .operand (label ++ "-test") left)) s fun _ s =>
          follow (enterScope .conditional) s fun _ s =>
            soleBranch (lower job .block (label ++ "-consequent") right)
              (blocksOf job .block (label ++ "-consequent") right) s
      else []
  | .conditional _ test consequent alternate => fun s =>
    follow (begin use e label) s fun _ s =>
      if s.tracker.inCode then []
      else follow (condition (lower job .operand (label ++ "-test") test)) s fun _ s =>
        follow (enterScope .conditional) s fun _ s =>
          if alternate.isEmptyText then
            soleBranch (lower job .block (label ++ "-consequent") consequent)
              (blocksOf job .block (label ++ "-consequent") consequent) s
          else
            twoBranches (lower job .block (label ++ "-consequent") consequent)
              (lower job .block (label ++ "-alternate") alternate)
              (blocksOf job .block (label ++ "-consequent") consequent)
              (blocksOf job .block (label ++ "-alternate") alternate) s
  | .call _ callee arguments =>
    match CallShape.of? callee, arguments with
    | some (.loop array), [.arrow _ [item] body] => fun s =>
      follow (begin use e label) s fun _ s =>
        follow (loopHead job e array label (some item)) s fun _ s =>
          follow (enterScope .loop (some item) (some array)) s fun _ s =>
            soleBranch (lower job .block "map-loop-body" body)
              (blocksOf job .block "map-loop-body" body) s
    | _, _ => fun _ => []
  | .binary .. | .constant .. | .name .. | .member .. | .this _ | .arrow .. | .template ..
  | .other .. => fun _ => []

/-- The runs of the blocks between the texts of a template. -/
def blocksOfParts (job : Job) (front : String) (index : Nat) :
    List Expr → List String → Progress → List BlockRun
  | [], _ => fun _ => []
  | _ :: _, [] => fun _ => []
  | e :: holes, content :: texts => fun s =>
    follow (chunk content) s fun _ s =>
      blocksOf job .value (holeLabel front index) e (s.noting (.hole e (holeLabel front index))) ++
        follow (hole e (holeLabel front index) (lower job .value (holeLabel front index) e)) s
          fun _ s => blocksOfParts job front (index + 1) holes texts s

end

/-- The runs of the blocks of a template. -/
def Job.blockRuns (job : Job) (template : Template) : List BlockRun :=
  blocksOfParts job "" 0 template.holes template.chunks (job.start.tracking job.inner)

variable {job : Job} {P : Expr → Prop} {base : Tracker} {s s₁ s₂ s' : Progress} {n : Nat}
  {label : String} {e : Expr}

namespace Emit

theorem follow_eq {α β : Type} {x : Emit α} {f : α → Progress → List β} {a : α}
    (h : x s = .ok a s') : follow x s f = f a s' := by
  rw [follow, h]

/-- Parts that succeed one after the other. -/
theorem exists_of_bind {α β : Type} {x : Emit α} {f : α → Emit β} {b : β}
    (h : (x >>= f) s = .ok b s') : ∃ a s₁, x s = .ok a s₁ ∧ f a s₁ = .ok b s' := by
  simp only [bind, EStateM.bind] at h
  cases hx : x s with
  | ok a s₁ =>
    rw [hx] at h
    exact ⟨a, s₁, rfl, h⟩
  | error d s₁ =>
    rw [hx] at h
    cases h

end Emit

/-- A value or a branch that is converted is so in steps and whole blocks. -/
theorem runs_of_lower {use : Use} (huse : use ≠ .operand)
    (h : lower job use label e s = .ok () s') :
    Runs job (fun _ => True) s s' := by
  have known : e.All fun _ => True := .of_forall (fun _ => trivial) e
  have steps := (lowersInSteps job fun _ => True).1 use label e known s fun operand =>
    absurd operand huse
  exact (steps.of_ok h).1

theorem runs_of_hole (h : hole e label (lower job .value label e) s = .ok () s') :
    Runs job (fun _ => True) s s' := by
  have known : e.All fun _ => True := .of_forall (fun _ => trivial) e
  have steps : InSteps job (fun _ => True) s (hole e label (lower job .value label e)) _ :=
    inSteps_hole known.self (((lowersInSteps job fun _ => True).1 .value label e).value known)
  exact (steps.of_ok h).1

theorem runs_of_lowerParts {front : String} {index : Nat} {holes : List Expr}
    {texts : List String} (h : lowerParts job front index holes texts s = .ok () s') :
    Runs job (fun _ => True) s s' := by
  have known : Expr.AllIn (fun _ => True) holes := .of_forall (fun _ => trivial) holes
  exact (((lowersInSteps job fun _ => True).2 front index holes texts known s).of_ok h).1

/-! ### Between two points -/

/-- Where the end of a part has as many frames open that were opened in markup as its beginning, so
has every point between. -/
theorem Tracker.Over.between (firm : base.Firm) (above : base.Over n s.tracker)
    (above' : base.Over n s'.tracker) (first : Runs job P s s₁) (rest : Runs job P s₁ s') :
    base.Over n s₁.tracker := by
  obtain ⟨m, le, above₁⟩ := first.over firm above
  obtain ⟨m', le', above₂⟩ := rest.over firm above₁
  have same : m' = n := above₂.unique above'
  exact Nat.le_antisymm (same ▸ le') le ▸ above₁

/-- A block whose end has left the frame that its beginning has opened. -/
structure Enclosed (base : Tracker) (n : Nat) (s₁ s₂ : Progress) : Prop where
  firm : s₁.tracker.Firm
  markup : s₁.tracker.regions = [.markup]
  begun : base.Over (n + 1) s₁.tracker
  ended : s₂.tracker = s₁.tracker

namespace Enclosed

/-- Where the end of a block has no other frames open than its beginning, it has left the frame that
it has opened. -/
theorem of_runs (firm : base.Firm) (above : base.Over n s.tracker)
    (above' : base.Over n s'.tracker) (opened : Opens job P s s₁) (inner : Runs job P s₁ s₂)
    (closed : Closes s₂ s') : Enclosed base n s₁ s₂ := by
  have begun := opened.over firm above
  obtain ⟨own, outside⟩ : s₁.tracker.Firm ∧ s₁.tracker.inCode = false := by
    cases opened with
    | conditional markup => exact ⟨.of_cons rfl above.flat markup rfl, markup⟩
    | @loop array item _ _ _ markup =>
      have hframes := Tracker.frames_enterLoop (above.nonempty firm) item array
      have same := above.flat.of_regions (Tracker.regions_bind
        (s.tracker.enter .loop (some item) (some array)) item .loopItem)
      exact ⟨.of_cons hframes above.flat markup rfl, same.2.trans markup⟩
  obtain ⟨k, -, ended⟩ := inner.over own (.refl begun.flat)
  have left := closed.over firm ((Nat.add_right_comm n 1 k) ▸ begun.trans ended)
  have count := left.unique above'
  cases markup : s₂.tracker.inCode with
  | true =>
    rw [markup, if_pos rfl] at count
    omega
  | false =>
    rw [markup, if_neg Bool.false_ne_true] at count
    have none : k = 0 := by omega
    subst none
    obtain ⟨exited, -⟩ := closed
    refine ⟨own, begun.flat.markup outside, begun,
      ended.eq_of_frames (ended.frames_of_exit markup exited) ?_⟩
    rw [ended.flat, begun.flat, markup, outside]

/-- Between its beginning and its end, a block leaves none of the frames it was begun in. -/
theorem between {t : Progress} (h : Enclosed base n s₁ s₂) (first : Runs job P s₁ t)
    (rest : Runs job P t s₂) : s₁.tracker.Over 0 t.tracker ∧ base.Over (n + 1) t.tracker := by
  have back : s₁.tracker.Over 0 s₂.tracker := by
    rw [h.ended]
    exact .refl h.begun.flat
  have own : s₁.tracker.Over 0 t.tracker := .between h.firm (.refl h.begun.flat) back first rest
  exact ⟨own, h.begun.trans own⟩

end Enclosed

/-! ### Blocks -/

/-- Wherever an expression is converted so that it leaves as many frames open as it finds, its
blocks are balanced. -/
def Balances (base : Tracker) (x : Emit Unit) (runs : Progress → List BlockRun) : Prop :=
  ∀ s s' n, x s = .ok () s' → base.Over n s.tracker → base.Over n s'.tracker →
    ∀ r ∈ runs s, r.Balanced

/-- The branch of a block that has only one. -/
theorem Balances.soleBranch {branch : Emit Unit} {inner : Progress → List BlockRun}
    (balances : Balances base branch inner) (enclosed : Enclosed base n s₁ s₂)
    (h : branch s₁ = .ok () s₂) : ∀ r ∈ soleBranch branch inner s₁, r.Balanced := by
  intro r hr
  rw [Emit.soleBranch, follow_eq h] at hr
  rcases List.mem_cons.mp hr with rfl | hr
  · exact ⟨enclosed.markup, enclosed.ended, nofun⟩
  · exact balances s₁ s₂ (n + 1) h enclosed.begun (enclosed.ended ▸ enclosed.begun) r hr

/-- The branches of a block that has two. -/
theorem Balances.twoBranches {first second : Emit Unit}
    {inFirst inSecond : Progress → List BlockRun}
    {t : Progress} (balances : Balances base first inFirst)
    (balances' : Balances base second inSecond) (enclosed : Enclosed base n s₁ s₂)
    (h : first s₁ = .ok () t) (h' : second ((t.writing .otherwise).moving s₁.cursor) = .ok () s₂)
    (runs : Runs job P s₁ t) (runs' : Runs job P t s₂) :
    ∀ r ∈ twoBranches first second inFirst inSecond s₁, r.Balanced := by
  intro r hr
  obtain ⟨own, outer⟩ := enclosed.between runs runs'
  rw [Emit.twoBranches, follow_eq h, follow_eq h'] at hr
  rcases List.mem_cons.mp hr with rfl | hr
  · refine ⟨enclosed.markup, enclosed.ended, fun t' ht' => ?_⟩
    cases ht'
    exact own
  · rcases List.mem_append.mp hr with hr | hr
    · exact balances s₁ t (n + 1) h enclosed.begun outer r hr
    · exact balances' _ s₂ (n + 1) h' outer (enclosed.ended ▸ enclosed.begun) r hr

/-- The frame of a block, around its branches. -/
theorem exists_of_block {kind : FrameKind} {item array : Option String}
    {parts : List (List Piece × Emit Unit)} {closer : Piece}
    (closes : closer = .ifEnd ∨ closer = .loopEnd)
    (h : block kind item array parts closer s = .ok () s') :
    ∃ s₁ s₂, enterScope kind item array s = .ok () s₁ ∧ branches s₁.cursor parts s₁ = .ok () s₂ ∧
      Closes s₂ s' := by
  obtain ⟨_, s₁, entered, h⟩ := exists_of_bind h
  obtain ⟨_, s₂, ran, h⟩ := exists_of_bind (x := branches s₁.cursor parts) h
  refine ⟨s₁, s₂, entered, ran, ?_⟩
  have closed : After (do exitScope kind; write closer) s₂ (fun _ s' => Closes s₂ s')
      fun _ _ => True := by
    rw [after_bind]
    exact after_exitScope (fun _ _ left => .close left closes) fun _ _ => trivial
  exact closed.of_ok h

/-- A block of one branch is balanced, and so are the blocks in it. -/
theorem Balances.soleBlock {kind : FrameKind} {item array : Option String} {closer : Piece}
    (balances : Balances base (lower job .block label e) (blocksOf job .block label e))
    (firm : base.Firm) (above : base.Over n s.tracker) (above' : base.Over n s'.tracker)
    (opens : ∀ s₁, enterScope kind item array s = .ok () s₁ → Opens job (fun _ => True) s s₁)
    (closes : closer = .ifEnd ∨ closer = .loopEnd)
    (h : block kind item array [([], lower job .block label e)] closer s = .ok () s') :
    ∀ r ∈ follow (enterScope kind item array) s
      (fun _ s => Emit.soleBranch (lower job .block label e) (blocksOf job .block label e) s),
      r.Balanced := by
  obtain ⟨s₁, s₂, entered, ran, closed⟩ := exists_of_block closes h
  have ran : (do lower job .block label e; pure ()) s₁ = .ok () s₂ := ran
  rw [bind_pure_unit] at ran
  rw [follow_eq entered]
  have inner := runs_of_lower (by decide) ran
  exact balances.soleBranch (.of_runs firm above above' (opens s₁ entered) inner closed) ran

/-- A block of two branches is balanced, and so are the blocks in them. -/
theorem Balances.twoBlock {label' : String} {e' : Expr}
    (balances : Balances base (lower job .block label e) (blocksOf job .block label e))
    (balances' : Balances base (lower job .block label' e') (blocksOf job .block label' e'))
    (firm : base.Firm) (above : base.Over n s.tracker) (above' : base.Over n s'.tracker)
    (markup : s.tracker.inCode = false)
    (h : block .conditional none none
      [([], lower job .block label e), ([.otherwise], lower job .block label' e')] .ifEnd s =
        .ok () s') :
    ∀ r ∈ follow (enterScope .conditional) s
      (fun _ s => Emit.twoBranches (lower job .block label e) (lower job .block label' e')
        (blocksOf job .block label e) (blocksOf job .block label' e') s),
      r.Balanced := by
  obtain ⟨s₁, s₂, entered, ran, closed⟩ := exists_of_block (.inl rfl) h
  obtain ⟨_, t, first, second⟩ := exists_of_bind (x := lower job .block label e) (s := s₁) ran
  have second : (do lower job .block label' e'; pure ()) ((t.writing .otherwise).moving s₁.cursor) =
    .ok () s₂ := second
  rw [bind_pure_unit] at second
  have opened : Opens job (fun _ => True) s s₁ := by
    cases entered
    exact .conditional markup
  have runs := runs_of_lower (by decide) first
  have written : Runs job (fun _ => True) t (t.writing .otherwise) := .step .otherwise
  have moved : Runs job (fun _ => True) (t.writing .otherwise)
      ((t.writing .otherwise).moving s₁.cursor) := .step (.move s₁.cursor)
  have runs' := written.trans (moved.trans (runs_of_lower (by decide) second))
  rw [follow_eq entered]
  exact balances.twoBranches balances' (.of_runs firm above above' opened (runs.trans runs') closed)
    first second runs runs'

/-- The state behind the head of a conditional, in front of its block. -/
theorem exists_of_condition {parts : List (List Piece × Emit Unit)} (firm : base.Firm)
    (markup : s.tracker.inCode = false) (above : base.Over n s.tracker)
    (above' : base.Over n s'.tracker)
    (hparts : ∀ p ∈ parts, (p.1 = [] ∨ p.1 = [.otherwise]) ∧
      ∃ label e, p.2 = lower job .block label e)
    (h : (do
      condition (lower job .operand label e)
      block .conditional none none parts .ifEnd) s = .ok () s') :
    ∃ t, condition (lower job .operand label e) s = .ok () t ∧ t.tracker.inCode = false ∧
      base.Over n t.tracker ∧ block .conditional none none parts .ifEnd t = .ok () s' := by
  obtain ⟨_, t, tested, ran⟩ := exists_of_bind h
  have known (e : Expr) : e.All fun _ => True := .of_forall (fun _ => trivial) e
  have lowers (use : Use) (label : String) (e : Expr) :
      LowersInSteps job (fun _ => True) use label e :=
    (lowersInSteps job fun _ => True).1 use label e
  obtain ⟨steps, outside⟩ :=
    (inSteps_condition markup ((lowers .operand label e).operand (known e))).of_ok tested
  have steps' : ∀ p ∈ parts, (p.1 = [] ∨ p.1 = [.otherwise]) ∧
      ∀ s, InSteps job (fun _ => True) s p.2 fun _ _ => True := fun p hp => by
    obtain ⟨separator, label, e, hlower⟩ := hparts p hp
    exact ⟨separator, fun s => hlower ▸ (lowers .block label e).block (known e) s⟩
  have blocked := inSteps_conditionalBlock outside parts steps'
  exact ⟨t, tested, outside, .between firm above above' steps (blocked.of_ok ran).1, ran⟩

/-! ### Expressions -/

/-- An expression begins without a change to the scopes. -/
theorem exists_of_begin {α : Type} {use : Use} {f : Bool → Emit α} {b : α}
    (h : (begin use e label >>= f) s = .ok b s') :
    ∃ bare t, begin use e label s = .ok bare t ∧ bare = (use == .operand || s.tracker.inCode) ∧
      t.tracker = s.tracker ∧ f bare t = .ok b s' :=
  ⟨_, _, rfl, rfl, rfl, h⟩

theorem exists_of_ofExcept {α β : Type} {x : Except Diagnostic α} {f : α → Emit β} {b : β}
    (h : (ofExcept x >>= f) s = .ok b s') : ∃ a, f a s = .ok b s' := by
  cases x with
  | error d => cases h
  | ok a => exact ⟨a, h⟩

/-- What stands in a hole leaves the scopes as they are behind the hole. -/
theorem exists_of_hole {content : Emit Unit} (h : hole e label content s = .ok () s') :
    ∃ t, content (s.noting (.hole e label)) = .ok () t ∧ s'.tracker = t.tracker := by
  obtain ⟨_, _, ⟨⟩, h⟩ := exists_of_bind h
  obtain ⟨_, _, ⟨⟩, h⟩ := exists_of_bind h
  obtain ⟨_, t, ran, h⟩ := exists_of_bind h
  refine ⟨t, ran, ?_⟩
  cases code : s.tracker.inCode with
  | true =>
    rw [code] at h
    cases h
    rfl
  | false =>
    rw [code] at h
    cases h
    rfl

/-- The calls that have blocks are loops. -/
theorem exists_of_mem_blocksOf_call {use : Use} {place : Text.Place} {callee : Expr}
    {arguments : List Expr} {r : BlockRun}
    (hr : r ∈ blocksOf job use label (.call place callee arguments) s) :
    ∃ array arrow item body, CallShape.of? callee = some (.loop array) ∧
      arguments = [.arrow arrow [item] body] ∧
      r ∈ follow (begin use (.call place callee arguments) label) s fun _ s =>
        follow (loopHead job (.call place callee arguments) array label (some item)) s fun _ s =>
          follow (enterScope .loop (some item) (some array)) s fun _ s =>
            Emit.soleBranch (lower job .block "map-loop-body" body)
              (blocksOf job .block "map-loop-body" body) s := by
  generalize hruns : blocksOf job use label (.call place callee arguments) = runs at hr
  unfold blocksOf at hruns
  split at hruns
  · rename_i array arrow item body shape
    subst hruns
    exact ⟨array, arrow, item, body, shape, rfl, hr⟩
  · subst hruns
    cases hr

namespace Balances

variable {use : Use}

/-- What writes no blocks. -/
theorem of_nil {x : Emit Unit} : Balances base x fun _ => [] := fun _ _ _ _ _ _ => nofun

theorem group {place : Text.Place} {inner : Expr} (huse : use ≠ .block)
    (hvalue : Balances base (lower job .value label inner) (blocksOf job .value label inner)) :
    Balances base (lower job use label (.group place inner))
      (blocksOf job use label (.group place inner)) := by
  intro s s' n h above above' r hr
  rw [lower, if_neg huse] at h
  obtain ⟨bare, t, begun, -, same, h⟩ := exists_of_begin h
  simp only [blocksOf, if_neg huse, follow_eq begun] at hr
  cases bare with
  | true => cases hr
  | false => exact hvalue t s' n h (same ▸ above) above' r hr

theorem logical {place : Text.Place} {operator : String} {left right : Expr} (firm : base.Firm)
    (hblock : Balances base (lower job .block (label ++ "-consequent") right)
      (blocksOf job .block (label ++ "-consequent") right)) :
    Balances base (lower job use label (.logical place operator left right))
      (blocksOf job use label (.logical place operator left right)) := by
  intro s s' n h above above' r hr
  rw [lower] at h
  obtain ⟨bare, t, begun, hbare, same, h⟩ := exists_of_begin h
  simp only [blocksOf, follow_eq begun] at hr
  cases bare with
  | true => cases hr
  | false =>
    have markup : t.tracker.inCode = false := same ▸ (Bool.or_eq_false_iff.mp hbare.symm).2
    rw [if_neg Bool.false_ne_true] at h hr
    split at hr
    · rename_i guarded
      rw [if_pos guarded] at h
      obtain ⟨u, tested, outside, behind, h⟩ :=
        exists_of_condition firm markup (same ▸ above) above' (fun p hp => by
          rw [List.mem_singleton] at hp
          subst hp
          exact ⟨.inl rfl, _, right, rfl⟩) h
      rw [follow_eq tested] at hr
      refine hblock.soleBlock firm behind above' (fun s₁ entered => ?_) (.inl rfl) h r hr
      cases entered
      exact .conditional outside
    · cases hr

theorem conditional {place : Text.Place} {test consequent alternate : Expr} (firm : base.Firm)
    (hthen : Balances base (lower job .block (label ++ "-consequent") consequent)
      (blocksOf job .block (label ++ "-consequent") consequent))
    (helse : Balances base (lower job .block (label ++ "-alternate") alternate)
      (blocksOf job .block (label ++ "-alternate") alternate)) :
    Balances base (lower job use label (.conditional place test consequent alternate))
      (blocksOf job use label (.conditional place test consequent alternate)) := by
  intro s s' n h above above' r hr
  rw [lower] at h
  obtain ⟨bare, t, begun, -, same, h⟩ := exists_of_begin h
  obtain ⟨_, _, ⟨⟩, h⟩ := exists_of_bind h
  simp only [blocksOf, follow_eq begun] at hr
  cases markup : t.tracker.inCode with
  | true =>
    rw [markup, if_pos rfl] at hr
    cases hr
  | false =>
    rw [markup, if_neg Bool.false_ne_true] at h hr
    obtain ⟨u, tested, outside, behind, h⟩ := exists_of_condition firm markup (same ▸ above) above'
      (fun p hp => by
        have hp : p = ([], lower job .block (label ++ "-consequent") consequent) ∨
            p = ([.otherwise], lower job .block (label ++ "-alternate") alternate) := by
          split at hp <;> simp_all
        rcases hp with rfl | rfl
        · exact ⟨.inl rfl, _, consequent, rfl⟩
        · exact ⟨.inr rfl, _, alternate, rfl⟩) h
    rw [follow_eq tested] at hr
    split at hr
    · rename_i empty
      rw [if_pos empty] at h
      refine hthen.soleBlock firm behind above' (fun s₁ entered => ?_) (.inl rfl) h r hr
      cases entered
      exact .conditional outside
    · rename_i full
      rw [if_neg full] at h
      exact hthen.twoBlock helse firm behind above' outside h r hr

theorem call {place : Text.Place} {callee : Expr} {arguments : List Expr} (firm : base.Firm)
    (hbody : ∀ arrow item body, arguments = [.arrow arrow [item] body] →
      Balances base (lower job .block "map-loop-body" body)
        (blocksOf job .block "map-loop-body" body)) :
    Balances base (lower job use label (.call place callee arguments))
      (blocksOf job use label (.call place callee arguments)) := by
  intro s s' n h above above' r hr
  rw [lower_call] at h
  obtain ⟨bare, t, begun, -, same, h⟩ := exists_of_begin h
  obtain ⟨_, _, ⟨⟩, h⟩ := exists_of_bind h
  obtain ⟨-, h⟩ := exists_of_ofExcept h
  obtain ⟨-, h⟩ := exists_of_ofExcept h
  obtain ⟨array, arrow, item, body, shape, rfl, hr⟩ := exists_of_mem_blocksOf_call hr
  simp only [called, shape] at h
  obtain ⟨_, u, headed, ran⟩ := exists_of_bind h
  rw [follow_eq begun, follow_eq headed] at hr
  have head := @inSteps_loopHead job (fun _ => True) t label place place place arrow callee body
    [.arrow arrow [item] body] array item false trivial trivial
  obtain ⟨-, same', markup, visible, fresh⟩ := head.of_ok headed
  rw [same'.symm] at markup visible fresh
  refine (hbody arrow item body rfl).soleBlock firm (same'.trans same ▸ above) above'
    (fun s₁ entered => ?_) (.inr rfl) ran r hr
  cases entered
  exact @Opens.loop job (fun _ => True) u array item arrow body trivial markup visible fresh

theorem cons {front : String} {index : Nat} {holes : List Expr} {content : String}
    {texts : List String} (firm : base.Firm)
    (he : Balances base (lower job .value (holeLabel front index) e)
      (blocksOf job .value (holeLabel front index) e))
    (hrest : Balances base (lowerParts job front (index + 1) holes texts)
      (blocksOfParts job front (index + 1) holes texts)) :
    Balances base (lowerParts job front index (e :: holes) (content :: texts))
      (blocksOfParts job front index (e :: holes) (content :: texts)) := by
  intro s s' n h above above' r hr
  rw [lowerParts] at h
  obtain ⟨_, s₁, written, h⟩ := exists_of_bind h
  obtain ⟨_, s₂, filled, h⟩ := exists_of_bind h
  simp only [blocksOfParts, follow_eq written, follow_eq filled] at hr
  obtain ⟨t, ran, same⟩ := exists_of_hole filled
  have above₁ : base.Over n s₁.tracker := above.text firm written
  have above₂ : base.Over n s₂.tracker :=
    .between firm above₁ above' (runs_of_hole filled) (runs_of_lowerParts h)
  rcases List.mem_append.mp hr with hr | hr
  · exact he _ t n ran above₁ (same ▸ above₂) r hr
  · exact hrest s₂ s' n h above₂ above' r hr

end Balances

/-- The blocks of an expression, and those between the texts of a template, are balanced where as
many frames are left open as were found. -/
theorem balances_lower (job : Job) (firm : base.Firm) :
    (∀ use label e, Balances base (lower job use label e) (blocksOf job use label e)) ∧
      ∀ front index holes texts, Balances base (lowerParts job front index holes texts)
        (blocksOfParts job front index holes texts) := by
  -- one case for each equation of the conversion
  refine lower.mutual_induct job _ _ ?groupInBlock ?group ?rendered ?skipped ?text ?halves ?constant
    ?name ?member ?binary ?logical ?conditional ?call ?this ?arrow ?template ?other ?nil ?lacking
    ?cons
  case groupInBlock =>
    intro label place inner ih
    simp only [Balances, lower, blocksOf, if_true]
    exact ih
  case group => exact fun use label place inner huse _ hvalue => .group huse hvalue
  case rendered =>
    intro use label place tag templatePlace texts holes huse ih
    simp only [Balances, lower, blocksOf, if_pos huse]
    exact ih
  case skipped =>
    intro use label place tag templatePlace texts holes huse
    have none : blocksOf job use label (.tagged place tag templatePlace texts holes) =
        fun _ => [] := by
      simp only [blocksOf, if_neg huse]
    exact none ▸ .of_nil
  case text => exact fun label place spelling content => .of_nil
  case halves => exact fun label place spelling points => .of_nil
  case constant => exact fun use label place v spelling _ _ => .of_nil
  case name => exact fun use label place name => .of_nil
  case member => exact fun use label place object name optional => .of_nil
  case binary => exact fun use label place operator left right _ _ => .of_nil
  case logical => exact fun use label place operator left right _ _ _ hblock => .logical firm hblock
  case conditional =>
    exact fun use label place test consequent alternate _ _ _ hthen helse =>
      .conditional firm hthen helse
  case call =>
    intro use label place callee arguments ih
    refine .call firm fun arrow item body h => ?_
    subst h
    exact ih
  case this => exact fun use label place => .of_nil
  case arrow => exact fun use label place parameters body => .of_nil
  case template => exact fun use label place chunks holes => .of_nil
  case other => exact fun use label place kind source => .of_nil
  case nil => exact fun front index texts => .of_nil
  case lacking => exact fun front index e holes => .of_nil
  case cons =>
    exact fun front index e holes content texts he hrest => .cons firm he hrest

/-! ### Templates -/

/-- The branches of every block in a conversion that succeeds lead back to the scopes in which the
block began. -/
theorem Job.balanced_of_pieces {template : Template} {pieces : List Piece}
    (h : job.pieces template = .ok pieces) : ∀ r ∈ job.blockRuns template, r.Balanced := by
  unfold Job.pieces at h
  cases run : lowerTemplate job template job.start with
  | error d s => rw [run] at h; cases h
  | ok _ s' =>
    unfold lowerTemplate at run
    obtain ⟨_, _, ⟨⟩, run⟩ := exists_of_bind run
    obtain ⟨_, s, ran, concluded⟩ := exists_of_bind run
    have firm : job.inner.Firm := rfl
    have begun : job.inner.Over 0 job.inner := .refl rfl
    obtain ⟨n, -, above⟩ := (runs_of_lowerParts ran).over firm begun
    obtain ⟨same, -⟩ := conclude_ok above concluded
    exact (balances_lower job firm).2 "" 0 template.holes template.chunks _ s 0 ran begun
      (same ▸ begun)

/-- In a conversion that succeeds, a body of a loop, a branch without another and the second of two
branches end in the scopes in which the block began, and the first of two leaves no frame that was
open there. So every branch ends in the scopes in which the block began if the first of two always
ends in markup, with as many frames open as at its beginning. -/
theorem branches_balanced {template : Template} {pieces : List Piece}
    (h : job.pieces template = .ok pieces) :
    (∀ r ∈ job.blockRuns template, r.Balanced) ∧
      ((∀ r ∈ job.blockRuns template, r.Local) ↔
        ∀ r ∈ job.blockRuns template, ∀ t ∈ r.first?,
          t.inCode = false ∧ t.frames.length = r.begun.frames.length) := by
  have balanced := Job.balanced_of_pieces h
  refine ⟨balanced, fun isLocal r hr t ht => ?_, fun same r hr => ?_⟩
  · rw [(isLocal r hr).2 t ht, Tracker.inCode, (balanced r hr).markup]
    exact ⟨rfl, rfl⟩
  · obtain ⟨markup, last, first⟩ := balanced r hr
    refine ⟨last, fun t ht => ?_⟩
    obtain ⟨outside, length⟩ := same r hr t ht
    obtain ⟨inner, hframes, -⟩ := (first t ht).frames
    have none : inner = [] := by
      rw [hframes, List.length_append] at length
      exact List.length_eq_zero_iff.mp (Nat.add_right_cancel (length.trans (Nat.zero_add _).symm))
    refine (first t ht).eq_of_frames (by rw [hframes, none, List.nil_append]) ?_
    rw [(first t ht).flat.markup outside, markup]

/-- A conditional with literal regions in both branches: `<ul>${this.title ? html`<?php if ( $title
) : ?>${this.title}<?php endif; ?>` : "<?php // none ?>"}</ul>`. -/
def regionTemplate : Template where
  chunks := ["<ul>", "</ul>"]
  holes :=
    [.conditional ⟨1, 8⟩ (.member ⟨1, 8⟩ (.this ⟨1, 8⟩) "title" false)
      (.tagged ⟨1, 20⟩ "html" ⟨1, 24⟩ ["<?php if ( $title ) : ?>", "<?php endif; ?>"]
        [.member ⟨1, 50⟩ (.this ⟨1, 50⟩) "title" false])
      (.constant ⟨1, 90⟩ (.text "<?php // none ?>") "")]

theorem branches_balanced_region :
    (∀ r ∈ listJob.blockRuns regionTemplate, r.Balanced) ∧
      ((∀ r ∈ listJob.blockRuns regionTemplate, r.Local) ↔
        ∀ r ∈ listJob.blockRuns regionTemplate, ∀ t ∈ r.first?,
          t.inCode = false ∧ t.frames.length = r.begun.frames.length) := by
  have converted : (listJob.pieces regionTemplate).toOption.isSome = true := by decide +kernel
  obtain ⟨pieces, h⟩ := exists_ok_of_isSome converted
  exact branches_balanced h

/-- A conditional with two texts as its branches: `${this.title ? "…" : "…"}`. -/
def textBranches (first second : String) : Template where
  chunks := ["", ""]
  holes :=
    [.conditional ⟨1, 2⟩ (.member ⟨1, 2⟩ (.this ⟨1, 2⟩) "title" false)
      (.constant ⟨1, 15⟩ (.text first) "") (.constant ⟨1, 25⟩ (.text second) "")]

/-- Where all branches end in the scopes in which they began, they end in as many frames and in the
same regions. -/
theorem all_of_local {runs : List BlockRun} (h : ∀ r ∈ runs, r.Local) :
    (runs.all fun r => r.first?.all fun t =>
      t.frames.length == r.begun.frames.length && t.regions == r.begun.regions) = true := by
  refine List.all_eq_true.mpr fun r hr => ?_
  cases first : r.first? with
  | none => rfl
  | some t =>
    have same : t = r.begun := (h r hr).2 t first
    subst same
    exact Bool.and_eq_true_iff.mpr ⟨beq_self_eq_true _, beq_self_eq_true _⟩

/-- A region that the first branch opens and the second leaves, and a conditional that the first
opens and the second ends. Both are converted, and `else` is written within the region and within
the conditional. -/
theorem branches_not_local :
    ((listJob.convert (textBranches "<?php " " ?>")).toOption =
        some "<?php if ( $title ) : ?><?php <?php else : ?> ?><?php endif; ?>" ∧
      ¬ ∀ r ∈ listJob.blockRuns (textBranches "<?php " " ?>"), r.Local) ∧
    (listJob.convert (textBranches "<?php if ( $title ) : ?>" "<?php endif; ?>")).toOption =
        some ("<?php if ( $title ) : ?><?php if ( $title ) : ?>" ++
          "<?php else : ?><?php endif; ?><?php endif; ?>") ∧
      ¬ ∀ r ∈ listJob.blockRuns (textBranches "<?php if ( $title ) : ?>" "<?php endif; ?>"),
        r.Local := by
  refine ⟨⟨?_, fun isLocal => ?_⟩, ?_, fun isLocal => ?_⟩
  · decide +kernel
  · exact absurd (all_of_local isLocal) (by decide +kernel)
  · decide +kernel
  · exact absurd (all_of_local isLocal) (by decide +kernel)

end ServerTemplate
