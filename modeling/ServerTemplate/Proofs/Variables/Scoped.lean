import ServerTemplate.Proofs.Outline.Translation
import ServerTemplate.Proofs.Scope.Visits
import ServerTemplate.Proofs.Variables.Run

/-!
# Fragments whose variables are in scope

A fragment is scoped in some names if it reads these names only, and in the body of a loop its item
as well, and if no loop assigns one of them. What the reference translation gives inside loops is
scoped in the parameters and the items of the loops (`Job.scoped_outline`).
-/

namespace ServerTemplate

/-- Whether generated code reads only names that are in scope. -/
def Piece.Scoped (names : List String) : Piece → Prop
  | echo value _ | operand value | stars _ value => value.variableName ∈ names
  | resultCount .. => resultCountParameter ∈ names
  | _ => True

/-- Whether a fragment reads only names that are in scope, and no loop assigns one that is in scope
around it. -/
def Outline.Scoped (names : List String) : Outline → Prop
  | empty | text _ => True
  | echo value _ => value.variableName ∈ names
  | resultCount .. => resultCountParameter ∈ names
  | code piece => piece.Scoped names
  | seq first second => first.Scoped names ∧ second.Scoped names
  | hole content => content.Scoped names
  | guard test body => (∀ piece ∈ test, piece.Scoped names) ∧ body.Scoped names
  | branch test first second =>
    (∀ piece ∈ test, piece.Scoped names) ∧ first.Scoped names ∧ second.Scoped names
  | loop array item body => array ∈ names ∧ item ∉ names ∧ body.Scoped (item :: names)

namespace Job

variable {job : Job} {loops : Loops} {label : String} {e : Expr}

/-- The names in scope inside loops: the items and the parameters. -/
def inScope (job : Job) (loops : Loops) : List String :=
  loops.map Prod.fst ++ job.declaration.parameterNames

theorem mem_inScope {name : String} : name ∈ job.inScope loops ↔ name ∈ job.namesIn loops := by
  rw [inScope, List.mem_append, mem_namesIn, or_comm]

theorem mem_inScope_of_requireSeen {name : String}
    (h : job.requireSeen loops e name label = .ok ()) : name ∈ job.inScope loops := by
  by_cases seen : name ∈ job.namesIn loops
  · exact mem_inScope.mpr seen
  · rw [requireSeen_of_notMem seen] at h
    cases h

/-! ### Values -/

theorem mem_inScope_of_readingIn {r : Reading} (h : job.readingIn loops label e = .ok r) :
    r.operand.variableName ∈ job.inScope loops := by
  obtain ⟨_, -, h⟩ := exists_ok_of_bind h
  split at h
  · obtain ⟨_, seen, h⟩ := exists_ok_of_bind h
    cases h
    exact mem_inScope_of_requireSeen seen
  · dsimp only at h
    split at h
    · cases h
    · obtain ⟨_, seen, h⟩ := exists_ok_of_bind h
      split at h
      · cases h
        exact mem_inScope_of_requireSeen seen
      · cases h
  · obtain ⟨_, seen, h⟩ := exists_ok_of_bind h
    cases h
    exact mem_inScope_of_requireSeen seen
  · cases h

theorem mem_inScope_of_accessIn {a : Access} (h : job.accessIn loops label e = .ok a) :
    a.operand.variableName ∈ job.inScope loops := by
  obtain ⟨_, -, h⟩ := exists_ok_of_bind h
  have value {e' : Expr} {f : Reading → Access}
      (hf : ∀ r, (f r).operand.variableName = r.operand.variableName)
      (h : (do return f (← job.readingIn loops label e') : Except Diagnostic Access) = .ok a) :
      a.operand.variableName ∈ job.inScope loops := by
    obtain ⟨r, hr, h⟩ := exists_ok_of_bind h
    cases h
    rw [hf]
    exact mem_inScope_of_readingIn hr
  split at h
  · exact value (fun _ => rfl) h
  · split at h
    · exact value (fun _ => rfl) h
    · exact value (fun _ => rfl) h
  · exact value (fun _ => rfl) h

theorem mem_inScope_of_ratingIn {item array : String} {outer : Loops} {arguments : List Expr}
    {rating : Operand}
    (h : job.ratingIn ((item, array) :: outer) label item arguments = .ok rating) :
    rating.variableName ∈ job.inScope ((item, array) :: outer) := by
  unfold ratingIn at h
  split at h
  · obtain ⟨r, hr, h⟩ := exists_ok_of_bind h
    cases h
    exact mem_inScope_of_readingIn hr
  · obtain ⟨r, hr, h⟩ := exists_ok_of_bind h
    cases h
    exact mem_inScope_of_readingIn hr
  · cases h
    exact List.mem_cons_self ..

/-! ### Fragments -/

theorem scoped_accessAt {k : Cursor} {a : Access} {o : Outline}
    (visible : a.operand.variableName ∈ job.inScope loops) (h : job.accessAt k e a = .ok o) :
    o.Scoped (job.inScope loops) := by
  cases a with
  | value r =>
    obtain ⟨_, _, h⟩ := exists_ok_of_bind h
    cases h
    exact visible
  | count operand =>
    cases h
    exact visible

theorem scoped_helperAt {k : Cursor} {name : String} {arguments : List Expr} {o : Outline}
    (h : job.helperAt loops k label e name arguments = .ok o) : o.Scoped (job.inScope loops) := by
  unfold helperAt at h
  split at h
  · obtain ⟨_, seen, h⟩ := exists_ok_of_bind h
    obtain ⟨_, _, h⟩ := exists_ok_of_bind h
    cases h
    exact mem_inScope_of_requireSeen seen
  · split at h
    · cases h
      exact trivial
    · cases loops with
      | nil => cases h
      | cons loop outer =>
        obtain ⟨rating, hrating, h⟩ := exists_ok_of_bind h
        cases h
        exact mem_inScope_of_ratingIn hrating

/-- A condition reads names that are in scope. -/
theorem scoped_operandOf {ps : List Piece} (h : job.operandOf loops label e = .ok ps) :
    ∀ piece ∈ ps, piece.Scoped (job.inScope loops) := by
  induction label, e using Job.operandOf.induct generalizing ps with
  | case1 | case2 =>
    rw [operandOf] at h
    obtain ⟨a, access, h⟩ := exists_ok_of_bind h
    cases h
    simpa [Piece.Scoped] using mem_inScope_of_accessIn access
  | case3 =>
    rw [operandOf] at h
    cases h
    simp [Piece.Scoped]
  | case4 label place inner ih =>
    rw [operandOf] at h
    obtain ⟨qs, hqs, h⟩ := exists_ok_of_bind h
    cases h
    simpa [Piece.Scoped, or_imp, forall_and] using ih hqs
  | case5 label place operator left right hl hr | case6 label place operator left right hl hr =>
    rw [operandOf] at h
    obtain ⟨l, hleft, h⟩ := exists_ok_of_bind h
    obtain ⟨r, hright, h⟩ := exists_ok_of_bind h
    cases h
    simpa [Piece.Scoped, or_imp, forall_and] using ⟨hl hleft, hr hright⟩
  | case7 label place test consequent alternate ht hc ha =>
    rw [operandOf] at h
    obtain ⟨t, htest, h⟩ := exists_ok_of_bind h
    obtain ⟨c, hconsequent, h⟩ := exists_ok_of_bind h
    obtain ⟨a, halternate, h⟩ := exists_ok_of_bind h
    cases h
    simpa [Piece.Scoped, or_imp, forall_and] using ⟨ht htest, hc hconsequent, ha halternate⟩
  | case9 label place callee arguments =>
    rw [operandOf] at h
    obtain ⟨_, _, h⟩ := exists_ok_of_bind h
    obtain ⟨_, _, h⟩ := exists_ok_of_bind h
    split at h <;> cases h
  | case8 | case10 | case11 | case12 | case13 =>
    rw [operandOf] at h
    cases h

theorem scoped_ofTexts (names : List String) (k : Cursor) (texts : List String) :
    (Outline.ofTexts k texts).1.Scoped names := by
  induction texts generalizing k with
  | nil => exact trivial
  | cons content texts ih => exact ⟨trivial, ih _⟩

/-- The head of a loop finds its array in scope, and its item not. -/
theorem inScope_of_loopHeadIn {array item : String}
    (h : job.loopHeadIn loops label e array (some item) = .ok ()) :
    array ∈ job.inScope loops ∧ item ∉ job.inScope loops := by
  obtain ⟨_, seen, h⟩ := exists_ok_of_bind h
  dsimp only at h
  split at h
  · cases h
  · rename_i fresh
    refine ⟨mem_inScope_of_requireSeen seen, fun visible => fresh ?_⟩
    exact mem_namesIn_iff_sees.mp (mem_inScope.mp visible)

/-- Every equation of the reference translation gives a fragment that is scoped in the items of the
loops and the parameters. -/
theorem translates_scoped (job : Job) :
    job.Translates (fun loops _ _ _ o _ => o.Scoped (job.inScope loops))
      fun loops _ _ _ o _ => o.Scoped (job.inScope loops) where
  name access outline := scoped_accessAt (mem_inScope_of_accessIn access) outline
  member access outline := scoped_accessAt (mem_inScope_of_accessIn access) outline
  text _ := trivial
  group ih := ih
  rendered _ ih := ih
  skipped _ := trivial
  guard operand ih := ⟨scoped_operandOf operand, ih⟩
  taken operand _ ih := ⟨scoped_operandOf operand, ih⟩
  conditional operand _ ih₁ ih₂ := ⟨scoped_operandOf operand, ih₁, ih₂⟩
  helper _ outline := scoped_helperAt outline
  loop _ head ih :=
    have ⟨visible, fresh⟩ := inScope_of_loopHeadIn head
    ⟨visible, fresh, ih⟩
  nil := scoped_ofTexts _ _ _
  lacking := trivial
  cons ih ihs := ⟨trivial, ih, ihs⟩

/-- The translation of a template is scoped in the parameters. -/
theorem scoped_outline {template : Template} {o : Outline} (h : job.outline template = .ok o) :
    o.Scoped job.declaration.parameterNames := by
  obtain ⟨⟨o, k'⟩, hparts, h⟩ := exists_ok_of_bind h
  cases h
  exact job.translates_scoped.induct.2 _ _ _ _ _ _ _ _ hparts

end Job

end ServerTemplate
