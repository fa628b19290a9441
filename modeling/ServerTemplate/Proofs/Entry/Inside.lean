import ServerTemplate.Proofs.Entry.Search
import ServerTemplate.Proofs.Entry.Spelling
import ServerTemplate.Proofs.Script.Span

/-!
# Where the nodes that are read stand

The entry template of a script is a node of its tree (`has_of_mem_candidates`), and so is every node
that reading the template comes to (`IsRead.has`). Each of them begins in front of the quote that
closes the template (`start_lt_of_isRead`).
-/

namespace ServerTemplate

namespace Script.Node

variable {s : Source} {sought : Sought} {n c m r v tree : Node} {found : Candidate}

/-! ### The entry template is in the tree -/

/-- The returns in a node are in it. -/
theorem has_of_mem_returns (mem : r ∈ n.returns) : n.Has r := by
  induction n using Node.induction with | h n ih => ?_
  rw [returns_eq] at mem
  split at mem
  · rw [List.mem_singleton] at mem
    exact mem ▸ .self r
  · split at mem
    · cases mem
    · rw [returnsOf_eq] at mem
      obtain ⟨c, child, mem⟩ := List.mem_flatMap.mp mem
      exact .inner child (ih c child mem)

theorem exists_of_unwrappedOf? {nodes : List Node} (h : unwrappedOf? nodes = some m) :
    ∃ c ∈ nodes, c.unwrapped? = some m := by
  induction nodes with
  | nil => cases h
  | cons child rest ih =>
    rw [unwrappedOf?] at h
    split at h
    · obtain ⟨c, mem, eq⟩ := ih h
      exact ⟨c, .tail child mem, eq⟩
    · exact ⟨child, .head rest, h⟩

theorem has_of_unwrapped? (h : n.unwrapped? = some m) : n.Has m := by
  induction n using Node.induction with | h n ih => ?_
  unfold unwrapped? at h
  split at h
  · obtain ⟨c, child, eq⟩ := exists_of_unwrappedOf? h
    exact .inner child (ih c child eq)
  · cases h
    exact .self _

theorem mem_of_firstNamed? (h : n.firstNamed? = some c) : c ∈ n.children :=
  List.mem_of_find?_eq_some (firstNamed?_eq ▸ h)

/-- The values that a body gives are in it. -/
theorem has_of_mem_results {isExpression : Bool} (mem : v ∈ n.results isExpression) : n.Has v := by
  obtain ⟨value, mem, eq⟩ := List.mem_filterMap.mp mem
  refine Has.trans ?_ (has_of_unwrapped? eq)
  split at mem
  · rw [List.mem_singleton] at mem
    exact mem ▸ .self value
  · obtain ⟨r, mem, first⟩ := List.mem_filterMap.mp mem
    rw [returnsOf_eq] at mem
    obtain ⟨c, child, mem⟩ := List.mem_flatMap.mp mem
    exact .inner child ((has_of_mem_returns mem).child (mem_of_firstNamed? first))

theorem has_of_mem_givenBy (mem : v ∈ n.givenBy s sought) : n.Has v := by
  unfold givenBy at mem
  split at mem
  · cases mem
  · split at mem
    · cases mem
    · split at mem
      · split at mem
        · rename_i body body_eq
          exact .inner (mem_of_child? body_eq) (has_of_mem_results mem)
        · cases mem
      · split at mem
        · split at mem
          · rename_i value value_eq
            split at mem
            · split at mem
              · rename_i body body_eq
                exact .inner (mem_of_child? value_eq)
                  (.inner (mem_of_child? body_eq) (has_of_mem_results mem))
              · cases mem
            · cases mem
          · cases mem
        · cases mem

theorem candidatesOf_eq_flatMap (nodes : List Node) :
    candidatesOf s sought nodes = nodes.flatMap (candidates s sought) := by
  induction nodes with
  | nil => rfl
  | cons node rest ih => rw [candidatesOf, ih, List.flatMap_cons]

/-- The calls of the templates that are found in a tree are in it. -/
theorem has_of_mem_candidates (mem : found ∈ n.candidates s sought) :
    n.Has found.call ∧ found.call.markup? s sought.tag = some found.template := by
  induction n using Node.induction with | h n ih => ?_
  rw [candidates_eq_append, List.mem_append] at mem
  rcases mem with here | within
  · obtain ⟨value, given, taken⟩ := List.mem_filterMap.mp here
    obtain ⟨template, markup, rfl⟩ := Option.map_eq_some_iff.mp taken
    exact ⟨has_of_mem_givenBy given, markup⟩
  · rw [candidatesOf_eq_flatMap] at within
    obtain ⟨c, child, mem⟩ := List.mem_flatMap.mp within
    obtain ⟨has, markup⟩ := ih c child mem
    exact ⟨.inner child has, markup⟩

/-- A call that is a template is read by its template only. -/
theorem readParts_of_markup? {tag : String} (h : n.markup? s tag = some m) :
    n.readParts s = [m] ∧ m ∈ n.children ∧ m.kind = .template := by
  unfold markup? at h
  split at h
  · rename_i callee text call callee_eq text_eq
    split at h
    · rename_i checks
      cases h
      simp only [Bool.and_eq_true, beq_iff_eq] at checks
      obtain ⟨⟨name, -⟩, template⟩ := checks
      refine ⟨?_, mem_of_child? text_eq, template⟩
      simp [readParts, call, callee_eq, text_eq, name, template]
    · cases h
  · cases h

/-- The templates that are found in a tree are in it. -/
theorem has_template_of_mem_candidates (mem : found ∈ n.candidates s sought) :
    n.Has found.template := by
  obtain ⟨has, markup⟩ := has_of_mem_candidates mem
  exact has.child (readParts_of_markup? markup).2.1

/-! ### Reading stays inside -/

/-- What reading a template goes on to is in a hole of it, and no mere token. -/
theorem exists_hole_of_mem_readParts (kind : n.kind = .template) (mem : c ∈ n.readParts s) :
    ∃ hole ∈ n.children, hole.kind = .hole ∧ c ∈ hole.children ∧ c.kind ≠ .operator := by
  rw [readParts, kind] at mem
  obtain ⟨hole, mem, first⟩ := List.mem_filterMap.mp mem
  obtain ⟨child, isHole⟩ := List.mem_filter.mp mem
  refine ⟨hole, child, eq_of_beq isHole, mem_of_firstNamed? first, fun operator => ?_⟩
  have named := List.find?_some (firstNamed?_eq ▸ first)
  rw [operator] at named
  cases named

/-- What reading a node goes on to is in it, or in a node in it. -/
theorem mem_of_mem_readParts (mem : c ∈ n.readParts s) :
    c ∈ n.children ∨ ∃ m ∈ n.children, c ∈ m.children := by
  have parts {slots : List Slot} (mem : c ∈ slots.filterMap n.child?) : c ∈ n.children := by
    obtain ⟨slot, -, eq⟩ := List.mem_filterMap.mp mem
    exact mem_of_child? eq
  by_cases template : n.kind = .template
  · obtain ⟨hole, child, -, mem, -⟩ := exists_hole_of_mem_readParts template mem
    exact .inr ⟨hole, child, mem⟩
  unfold readParts at mem
  split at mem
  · split at mem
    · exact .inl (mem_of_child? (Option.mem_toList.mp mem))
    · cases mem
  · split at mem
    · rename_i callee given callee_eq given_eq
      split at mem
      · rcases List.mem_cons.mp mem with rfl | mem
        · exact .inl (mem_of_child? callee_eq)
        · exact .inr ⟨given, mem_of_child? given_eq, List.mem_of_mem_filter mem⟩
      · split at mem
        · rw [List.mem_singleton] at mem
          exact .inl (mem ▸ mem_of_child? given_eq)
        · cases mem
    · cases mem
  · split at mem
    · exact .inl (mem_of_child? (Option.mem_filter_iff.mp (Option.mem_toList.mp mem)).1)
    · cases mem
  · split at mem
    · exact .inl (parts mem)
    · cases mem
  · exact .inl (parts mem)
  · exact .inl (mem_of_firstNamed? (Option.mem_toList.mp mem))
  · rename_i kind
    exact absurd kind template
  · cases mem

/-- Reading a node comes only to what is in it. -/
theorem IsRead.has (read : IsRead s n m) : n.Has m := by
  induction read with
  | here n => exact .self n
  | inside part _ ih =>
    rcases mem_of_mem_readParts part with child | ⟨around, child, inner⟩
    · exact .inner child ih
    · exact .inner child (.inner inner ih)

section Sound

variable {chars : List Char} (sound : ∀ m, n.Has m → m.Sound chars) (kind : n.kind = .template)

include sound kind

/-- What is in a hole of a template stands between its quotes. -/
theorem bounds_of_hole {hole : Node} (child : hole ∈ n.children) (isHole : hole.kind = .hole)
    (inner : c ∈ hole.children) (has : c.Has m) :
    n.start.octet + 1 ≤ m.start.octet ∧ m.stop ≤ n.stop - 1 := by
  have between := (sound n (.self n)).between kind hole child (by rw [isHole]; decide)
  have within := Has.bounds (.inner inner has) fun m has => sound m (.inner child has)
  exact ⟨Nat.le_trans between.1 within.1, Nat.le_trans within.2 between.2⟩

/-- Each node that reading a template comes to begins in front of the quote that closes it. -/
theorem start_lt_of_isRead (read : IsRead s n m) : m.start.octet < n.stop - 1 := by
  obtain ⟨i, j, spans⟩ := (sound n (.self n)).exists_spans
  obtain ⟨length, -, -, start, stop⟩ := (sound n (.self n)).template kind spans
  have le_length := spans.le_length
  cases read with
  | here =>
    have lt : offset chars i < offset chars (j - 1) :=
      (offset_lt_iff (by omega)).mpr (by omega)
    rwa [stop, spans.octet_eq]
  | @inside _ part _ mem read =>
    obtain ⟨hole, child, isHole, inner, other⟩ := exists_hole_of_mem_readParts kind mem
    have closes := ((sound n (.self n)).between kind hole child (by rw [isHole]; decide)).2
    have before := (sound hole (.inner child (.self hole))).hole isHole part inner other
    have within := Has.bounds read.has fun m has => sound m (.inner child (.inner inner has))
    have le := (sound m (.inner child (.inner inner read.has))).le
    omega

end Sound

end Script.Node

end ServerTemplate
