import ServerTemplate.Proofs.Outline.Conversion
import ServerTemplate.Proofs.Scope.Lowered

/-!
# Names are scoped lexically

The conversion of a template without markers makes the visits of the template in order, each in
scopes whose visible names are the parameters and the items of the loops around the expression
(`lexically_scoped`). Frames that have been left do not matter.
-/

namespace ServerTemplate

open Emit

variable {job : Job} {t : Tracker} {us : List Visit} {v : Visit} {place : Text.Place}
  {template : Template}

/-- The moments at which the conversion of a template visits an expression, in order. -/
def Job.visited (job : Job) (template : Template) : List Moment := (job.final template).visited

/-- A conversion of a template without markers makes all its visits and succeeds, or breaks off in
one of them. -/
theorem after_lowerTemplate_visits (free : template.MarkerFree job.tag) :
    After (lowerTemplate job template) job.start
      (fun _ s => job.Passed job.start.tracker (template.visits job.tag) s)
      (job.Breaks (template.visits job.tag)) := by
  have start := Job.Represents.start job
  have begun : job.Passed (job.start.tracker.enter .template) []
      (job.start.tracking (job.start.tracker.enter .template)) :=
    ⟨rfl, .nil, nofun⟩
  have parts := (lowersInVisits job).2 "" 0 template.holes template.chunks []
    (job.start.tracker.enter .template) [] (start.enter (by decide)) rfl free _ begun
  unfold lowerTemplate
  rw [after_bind, after_enterScope_none, after_bind]
  refine parts.mono (fun _ s hs => after_bind.mpr ?_) fun _ _ hd => hd
  have left := Follows.exits hs (Tracker.exit_enter start.sound.nonempty .template)
  refine left.mono (fun _ s' hs' => ?_) fun _ _ hd => hd
  -- behind the template only the scopes of the beginning are open
  rw [after_bind, after_tracker, hs'.tracker]
  exact hs'

/-- The visits that the conversion of a template makes: the first ones of the template, and all of
them if it succeeds. Each passes, unless the conversion breaks off in it, and a failure that is
about names is the one of the last visit. -/
structure Job.Makes (job : Job) (template : Template) (visits : List Visit) : Prop where
  visited : List.Forall₂ (Moment.Visits job) (job.visited template) visits
  first : visits <+: template.visits job.tag
  all : (∃ pieces, job.pieces template = .ok pieces) → visits = template.visits job.tag
  passes : ∀ us v ws, visits = us ++ v :: ws → job.check v = .ok () ∨
    ws = [] ∧ ∃ d, job.pieces template = .error d ∧ job.check v = .error d
  fails : ∀ d, job.pieces template = .error d → d.IsScoping →
    ∃ us v, visits = us ++ [v] ∧ job.check v = .error d

/-- If all visits pass, all of them have been made. -/
theorem Job.makes_of_passed (ok : ∃ pieces, job.pieces template = .ok pieces)
    (h : job.Passed t (template.visits job.tag) (job.final template)) :
    job.Makes template (template.visits job.tag) where
  visited := h.visited
  first := List.prefix_rfl
  all _ := rfl
  passes us v ws hvisits := .inl (h.checks v (by rw [hvisits]; simp))
  fails d failed := by
    obtain ⟨pieces, hpieces⟩ := ok
    rw [hpieces] at failed
    cases failed

/-- If the conversion breaks off in a visit, those up to this one have been made. -/
theorem Job.makes_of_breaks {d : Diagnostic} (failed : job.pieces template = .error d)
    (h : job.Breaks (template.visits job.tag) d (job.final template)) :
    ∃ visits, job.Makes template visits := by
  obtain ⟨us, v, first, visited, checks, last⟩ := h
  refine ⟨us ++ [v], visited, first, ?_, ?_, ?_⟩
  · rintro ⟨pieces, hpieces⟩
    rw [hpieces] at failed
    cases failed
  · intro us' v' ws hvisits
    rcases ws.eq_nil_or_concat with rfl | ⟨ws', w, rfl⟩
    · obtain ⟨-, hv⟩ := List.append_inj' hvisits rfl
      cases hv
      exact last.elim (fun h => .inr ⟨rfl, d, failed, h⟩) fun h => .inl h.1
    · -- a visit in front of the last one
      rw [List.concat_eq_append, ← List.cons_append, ← List.append_assoc] at hvisits
      obtain ⟨hus, -⟩ := List.append_inj' hvisits rfl
      exact .inl (checks v' (by rw [hus]; simp))
  · intro d' failed' scoping
    cases failed.symm.trans failed'
    exact ⟨us, v, rfl, last.resolve_right fun h => h.2 scoping⟩

/-- The visits that a conversion makes. -/
theorem Job.exists_makes (free : template.MarkerFree job.tag) :
    ∃ visits, job.Makes template visits := by
  have run := after_lowerTemplate_visits free
  unfold After at run
  cases result : lowerTemplate job template job.start with
  | ok _ s =>
    rw [result] at run
    have final : job.final template = s := by rw [final, result]
    have ok : job.pieces template = .ok s.pieces.reverse := by rw [pieces, result]
    exact ⟨_, makes_of_passed ⟨_, ok⟩ (final.symm ▸ run)⟩
  | error d s =>
    rw [result] at run
    have final : job.final template = s := by rw [final, result]
    have failed : job.pieces template = .error d := by rw [pieces, result]
    exact makes_of_breaks failed (final.symm ▸ run)

/-- At this moment an expression is visited, and the visible names are the parameters and the items
of the loops around the expression, in order and each listed once. -/
structure Moment.Sees (job : Job) (m : Moment) (v : Visit) : Prop where
  event : m.event = .expression v.e v.label v.bare
  visible : m.tracker.visibleNames = job.namesIn v.loops
  sorted : (job.namesIn v.loops).Pairwise (· < ·)
  mem : ∀ name, name ∈ job.namesIn v.loops ↔
    name ∈ job.declaration.parameterNames ∨ name ∈ v.loops.map Prod.fst

/-- A visit sees what is around its expression. -/
theorem Moment.Visits.sees {m : Moment} (h : m.Visits job v) : m.Sees job v where
  event := h.event
  visible := h.represents.visibleNames
  sorted := Text.pairwise_sortedDistinct _
  mem _ := Job.mem_namesIn

/-- The conversion of a template fails because a name is not visible. -/
def Job.Misses (job : Job) (template : Template) (name : String) : Prop :=
  ∃ d context names, job.pieces template = .error d ∧ d.cause = .unresolved name context names

namespace Job.Makes

variable {visits ws : List Visit} {place' : Text.Place}

/-- A conversion misses a name just where the name is read and not visible. -/
theorem notMem_iff (h : job.Makes template visits) (hvisits : visits = us ++ v :: ws)
    {name : String} (reference : v.reference? = some (.name place name)) :
    name ∉ job.namesIn v.loops ↔ ws = [] ∧ job.Misses template name := by
  have check : job.check v = _ := check_of_reference? reference
  rw [readingIn_name] at check
  constructor
  · intro missing
    rw [if_neg missing] at check
    rcases h.passes us v ws hvisits with passes | ⟨last, d, failed, hd⟩
    · rw [check] at passes
      cases passes
    · rw [check] at hd
      cases hd
      exact ⟨last, _, _, _, failed, rfl⟩
  · rintro ⟨rfl, d, context, names, failed, cause⟩ visible
    obtain ⟨us', v', hvisits', hd⟩ := h.fails d failed (.inl ⟨_, _, _, cause⟩)
    obtain ⟨-, hv⟩ := List.append_inj' (hvisits.symm.trans hvisits') rfl
    cases hv
    rw [check, if_pos visible] at hd
    cases hd

/-- A conversion that gets beyond a property of a name is inside a loop over such items. -/
theorem mem_or_last (h : job.Makes template visits) (hvisits : visits = us ++ v :: ws)
    {owner field : String}
    (reference : v.reference? = some (.member place (.name place' owner) field false)) :
    owner ∈ v.loops.map Prod.fst ∨ ws = [] ∧ ∃ d, job.pieces template = .error d := by
  rcases h.passes us v ws hvisits with passes | ⟨last, d, failed, -⟩
  · rw [check_of_reference? reference] at passes
    cases hr : job.readingIn v.loops v.label (.member place (.name place' owner) field false) with
    | ok r => exact .inl (mem_of_readingIn_member hr)
    | error d =>
      rw [hr] at passes
      cases passes
  · exact .inr ⟨last, d, failed⟩

/-- Outside loops a property of a name is reported as such. -/
theorem outsideLoop (h : job.Makes template visits) (hvisits : visits = us ++ v :: ws)
    {owner field : String}
    (reference : v.reference? = some (.member place (.name place' owner) field false))
    (outside : v.loops = []) :
    ∃ d, job.pieces template = .error d ∧
      d.cause = .outsideLoop (owner ++ "." ++ field) v.label := by
  have check : job.check v = _ := check_of_reference? reference
  rw [outside, readingIn_member_outside] at check
  rcases h.passes us v ws hvisits with passes | ⟨last, d, failed, hd⟩
  · rw [check] at passes
    cases passes
  · rw [check] at hd
    cases hd
    exact ⟨_, failed, rfl⟩

end Job.Makes

/-- **Lexical scoping.** The conversion of a template without markers makes the first of the visits
that the template determines, and all of them if it succeeds. In each, the visible names are the
parameters and the items of exactly the loops in whose bodies the expression stands. Therefore a
name that is read is missed if and only if it is not visible; a property of a name is converted only
inside a loop over such items, and outside loops it is reported as standing there; and a message
about a missing name lists the visible names of the last visit, of which the missing one is none. -/
theorem lexically_scoped (job : Job) (template : Template) (free : template.MarkerFree job.tag) :
    ∃ visits, visits <+: template.visits job.tag ∧
      List.Forall₂ (Moment.Sees job) (job.visited template) visits ∧
      ((∃ pieces, job.pieces template = .ok pieces) → visits = template.visits job.tag) ∧
      (∀ us v ws, visits = us ++ v :: ws →
        (∀ place name, v.reference? = some (.name place name) →
          (name ∉ job.namesIn v.loops ↔ ws = [] ∧ job.Misses template name)) ∧
        ∀ place place' owner field,
          v.reference? = some (.member place (.name place' owner) field false) →
            (owner ∈ v.loops.map Prod.fst ∨ ws = [] ∧ ∃ d, job.pieces template = .error d) ∧
            (v.loops = [] → ∃ d, job.pieces template = .error d ∧
              d.cause = .outsideLoop (owner ++ "." ++ field) v.label)) ∧
      ∀ d name context names, job.pieces template = .error d →
        d.cause = .unresolved name context names →
          ∃ us v, visits = us ++ [v] ∧ context = v.label ∧ names = job.namesIn v.loops ∧
            name ∉ names := by
  obtain ⟨visits, makes⟩ := Job.exists_makes free
  refine ⟨visits, makes.first, makes.visited.imp fun _ _ h => h.sees, makes.all, ?_, ?_⟩
  · intro us v ws hvisits
    refine ⟨fun place name reference => makes.notMem_iff hvisits reference, ?_⟩
    intro place place' owner field reference
    exact ⟨makes.mem_or_last hvisits reference, makes.outsideLoop hvisits reference⟩
  · intro d name context names failed cause
    obtain ⟨us, v, hvisits, check⟩ := makes.fails d failed (.inl ⟨_, _, _, cause⟩)
    exact ⟨us, v, hvisits, job.check_lists v d name context names check cause⟩

/-- In a list, the item of the loop is visible in the body of the loop and nowhere else. -/
theorem lexically_scoped_list :
    List.Forall₂ (Moment.Sees listJob) (listJob.visited listTemplate)
      (listTemplate.visits listJob.tag) ∧
    (listTemplate.visits listJob.tag).map Visit.loops = [[], [("item", "items")], [], [], []] := by
  have free : listTemplate.MarkerFree listJob.tag := by decide +kernel
  have ok : ∃ pieces, listJob.pieces listTemplate = .ok pieces :=
    exists_ok_of_isSome (by decide +kernel)
  obtain ⟨visits, -, sees, all, -, -⟩ := lexically_scoped listJob listTemplate free
  rw [← all ok]
  refine ⟨sees, ?_⟩
  rw [all ok]
  decide +kernel

end ServerTemplate
