/-!
# Names in order

Names are listed in the order of their code points. `sortedDistinct` also lists each name once; its
members are those of the list it is given.
-/

namespace ServerTemplate.Text

/-- The names in order. -/
def sorted (names : List String) : List String :=
  names.mergeSort fun a b => decide (a ≤ b)

/-- The names in order, each once. -/
def sortedDistinct (names : List String) : List String := sorted names.eraseDups

theorem mem_sorted {name : String} {names : List String} : name ∈ sorted names ↔ name ∈ names :=
  List.mem_mergeSort

theorem mem_sortedDistinct {name : String} {names : List String} :
    name ∈ sortedDistinct names ↔ name ∈ names := by
  rw [sortedDistinct, mem_sorted, List.mem_eraseDups]

/-- Without its repetitions a list has none. -/
theorem nodup_eraseDups (names : List String) : names.eraseDups.Nodup := by
  cases names with
  | nil => exact List.nodup_nil
  | cons name names =>
    rw [List.eraseDups_cons, List.nodup_cons, List.mem_eraseDups]
    exact ⟨by simp, nodup_eraseDups _⟩
termination_by names.length
decreasing_by exact Nat.lt_succ_of_le (List.length_filter_le ..)

/-- Each name listed is before all that are listed behind it. -/
theorem pairwise_sortedDistinct (names : List String) :
    (sortedDistinct names).Pairwise (· < ·) := by
  have distinct : (sortedDistinct names).Nodup :=
    (List.mergeSort_perm _ _).nodup_iff.mpr (nodup_eraseDups names)
  have inOrder : (sortedDistinct names).Pairwise fun a b => decide (a ≤ b) = true := by
    refine List.pairwise_mergeSort (fun a b c hab hbc => ?_) (fun a b => ?_) _
    · simp only [decide_eq_true_eq] at hab hbc ⊢
      exact String.le_trans hab hbc
    · simp only [Bool.or_eq_true, decide_eq_true_eq]
      exact String.le_total a b
  refine (inOrder.and distinct).imp fun {a b} ⟨le, ne⟩ => ?_
  have not_ge : ¬ b ≤ a := fun ge => ne (String.le_antisymm (of_decide_eq_true le) ge)
  exact String.not_le.mp not_ge

end ServerTemplate.Text
