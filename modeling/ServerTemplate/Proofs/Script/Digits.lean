import ServerTemplate.Proofs.Server.Number

/-!
# Digits

`IsDigits p` is the grammar of digits of a class, with an underscore between two of them here and
there. Where they end, the reader of numbers stops (`IsDigits.digitsLength_append`).
-/

namespace ServerTemplate.Script

/-- Digits of a class. One underscore may stand between two. -/
inductive IsDigits (p : Char → Bool) : List Char → Prop
  | single {d : Char} : p d = true → IsDigits p [d]
  | cons {d : Char} {ds : List Char} : p d = true → IsDigits p ds → IsDigits p (d :: ds)
  | grouped {d : Char} {ds : List Char} : p d = true → IsDigits p ds → IsDigits p (d :: '_' :: ds)

/-- Digits of a class do not go on here. -/
def Ends (p : Char → Bool) (rest : List Char) : Prop := ∀ c ∈ rest.head?, p c = false ∧ c ≠ '_'

namespace IsDigits

variable {p : Char → Bool} {ds rest : List Char}

theorem of_forall (nonempty : ds ≠ []) (h : ∀ d ∈ ds, p d = true) : IsDigits p ds := by
  induction ds with
  | nil => exact absurd rfl nonempty
  | cons d ds ih =>
    cases ds with
    | nil => exact .single (h d (.head _))
    | cons d' ds => exact .cons (h d (.head _)) (ih nofun fun c hc => h c (.tail _ hc))

/-- Each character is a digit or an underscore. -/
theorem forall_mem (h : IsDigits p ds) : ∀ c ∈ ds, p c = true ∨ c = '_' := by
  induction h with
  | single hd => simp [hd]
  | cons hd _ ih => simpa [hd] using ih
  | grouped hd _ ih => simpa [hd] using ih

/-- Digits begin with a digit. -/
theorem exists_cons (h : IsDigits p ds) : ∃ d tail, ds = d :: tail ∧ p d = true := by
  cases h with
  | single hd => exact ⟨_, _, rfl, hd⟩
  | cons hd _ => exact ⟨_, _, rfl, hd⟩
  | grouped hd _ => exact ⟨_, _, rfl, hd⟩

theorem ne_nil (h : IsDigits p ds) : ds ≠ [] := by
  obtain ⟨d, tail, rfl, -⟩ := h.exists_cons
  exact List.cons_ne_nil d tail

/-- Behind their first one digits go on as far as they are written. -/
theorem digitsRest_append (h : IsDigits p ds) (mark : p '_' = false) (ends : Ends p rest) :
    ∃ d tail, ds = d :: tail ∧ p d = true ∧ digitsRest p (tail ++ rest) = tail.length := by
  have other {d : Char} (hd : p d = true) : d ≠ '_' := by
    rintro rfl
    rw [mark] at hd
    cases hd
  induction h with
  | @single d hd =>
    refine ⟨d, [], rfl, hd, ?_⟩
    cases rest with
    | nil => rfl
    | cons c rest =>
      obtain ⟨hc, apart⟩ := ends c rfl
      rw [List.nil_append, Server.digitsRest_cons apart, hc]
      rfl
  | @cons d ds hd _ ih =>
    obtain ⟨d', tail, rfl, hd', htail⟩ := ih
    refine ⟨d, d' :: tail, rfl, hd, ?_⟩
    rw [List.cons_append, Server.digitsRest_cons (other hd'), if_pos hd', htail]
    rfl
  | @grouped d ds hd _ ih =>
    obtain ⟨d', tail, rfl, hd', htail⟩ := ih
    refine ⟨d, '_' :: d' :: tail, rfl, hd, ?_⟩
    rw [List.cons_append, List.cons_append, digitsRest, if_pos hd', htail]
    rfl

theorem digitsLength_append (h : IsDigits p ds) (mark : p '_' = false) (ends : Ends p rest) :
    digitsLength p (ds ++ rest) = ds.length := by
  obtain ⟨d, tail, rfl, hd, htail⟩ := h.digitsRest_append mark ends
  rw [List.cons_append, digitsLength, if_pos hd, htail]
  rfl

end IsDigits

/-- The marks of the bases other than ten. -/
def baseMarks : List Char := ['x', 'X', 'o', 'O', 'b', 'B']

/-- A number of another base has a mark behind its first character. -/
theorem prefixedLength_eq_zero {cs : List Char} (h : ∀ x ∈ cs.tail.head?, x ∉ baseMarks) :
    prefixedLength cs = 0 := by
  unfold prefixedLength
  split
  · next x rest =>
    have unmarked := h x rfl
    simp only [baseMarks, List.mem_cons, List.not_mem_nil, or_false, not_or] at unmarked
    simp [unmarked]
  · rfl

theorem not_mem_baseMarks_of_isDigit {c : Char} (h : c.isDigit = true) : c ∉ baseMarks := by
  intro mem
  have letters : baseMarks.all (!Char.isDigit ·) = true := by decide
  have letter := List.all_eq_true.mp letters c mem
  rw [h] at letter
  cases letter

end ServerTemplate.Script
