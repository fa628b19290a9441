import ServerTemplate.Json.Read

/-!
# Values that have a text

The reader of JSON texts refuses an integer of more digits than it may have in a message, so that
every value that is read has a text (`Json.hasText_of_read`).
-/

namespace ServerTemplate.Json

variable {items : List Json} {members : List (String × Json)} {key : String} {value : Json}
  {cs left : List Char}

theorem haveTexts_iff : haveTexts items = true ↔ ∀ item ∈ items, item.hasText = true := by
  induction items with
  | nil => exact iff_of_true rfl (List.forall_mem_nil _)
  | cons item rest ih => rw [haveTexts, Bool.and_eq_true, ih, List.forall_mem_cons]

theorem membersHaveTexts_iff :
    membersHaveTexts members = true ↔ ∀ m ∈ members, m.2.hasText = true := by
  induction members with
  | nil => exact iff_of_true rfl (List.forall_mem_nil _)
  | cons m rest ih => rw [membersHaveTexts, Bool.and_eq_true, ih, List.forall_mem_cons]

/-- The members of a value that has a text have one. -/
theorem hasText_of_lookup (has : (record members).hasText = true)
    (found : lookup members key = some value) : value.hasText = true := by
  obtain ⟨m, hm, rfl⟩ := Option.map_eq_some_iff.1 found
  exact membersHaveTexts_iff.1 has m (List.mem_of_find?_eq_some hm)

theorem mem_insert {m : String × Json} (mem : m ∈ insert members key value) :
    m ∈ members ∨ m = (key, value) := by
  induction members with
  | nil => exact .inr (List.mem_singleton.1 mem)
  | cons first rest ih =>
    rw [insert] at mem
    split at mem
    · exact (List.mem_cons.1 mem).symm.imp_left (List.mem_cons_of_mem _)
    · rcases List.mem_cons.1 mem with rfl | mem
      · exact .inl List.mem_cons_self
      · exact (ih mem).imp_left (List.mem_cons_of_mem _)

/-! ### What is read -/

/-- Decimal digits spell a number that has as many digits at most. -/
theorem decimalValue_lt {digits : List Char} (each : ∀ d ∈ digits, d.isDigit = true) :
    decimalValue digits < Nat.pow 10 digits.length := by
  have small : ∀ d ∈ digits.map fun c => c.toNat - 0x30, d < 10 := by
    intro d hd
    obtain ⟨c, hc, rfl⟩ := List.mem_map.1 hd
    have le : c.toNat ≤ '9'.toNat := (of_decide_eq_true (Bool.and_eq_true_iff.1 (each c hc)).2)
    change c.toNat ≤ 57 at le
    omega
  have bound := Text.valueOf_lt small
  rwa [List.length_map] at bound

/-- An integer of few digits has a text. -/
theorem hasText_int {digits : List Char} (negative : Bool) (each : ∀ d ∈ digits, d.isDigit = true)
    (few : ¬maxDecimalDigits < digits.length) :
    (int (if negative then -(decimalValue digits : Int) else decimalValue digits)).hasText =
      true := by
  have size : (if negative then -(decimalValue digits : Int) else decimalValue digits).natAbs =
      decimalValue digits := by
    split
    · rw [Int.natAbs_neg, Int.natAbs_natCast]
    · exact Int.natAbs_natCast _
  rw [hasText, size, decide_eq_true_eq]
  generalize maxDecimalDigits = bound at few ⊢
  exact Nat.lt_of_lt_of_le (decimalValue_lt each)
    (Nat.pow_le_pow_right (Nat.succ_pos _) (Nat.le_of_not_lt few))

/-- A number that is read is no integer of too many digits. -/
theorem hasText_of_readNumber (h : readNumber cs = .ok (value, left)) : value.hasText = true := by
  unfold readNumber at h
  split at h
  rename_i negative unsigned _
  split at h
  rename_i whole rest whole_eq
  have digits : ∀ d ∈ whole, d.isDigit = true := by
    split at whole_eq
    · obtain ⟨rfl, -⟩ := Prod.mk.inj whole_eq
      exact List.forall_mem_singleton.2 rfl
    · obtain ⟨rfl, -⟩ := Prod.mk.inj whole_eq
      exact List.all_eq_true.1 List.all_takeWhile
  split at h
  · cases h
  split at h
  · split at h
    · cases h
    · rename_i few
      cases h
      exact hasText_int negative digits few
  · split at h
    · cases h
      rfl
    · cases h

theorem hasText_of_readScalar (h : readScalar cs = .ok (value, left)) : value.hasText = true := by
  unfold readScalar at h
  dsimp only at h
  split at h
  · rename_i result found
    cases h
    obtain ⟨word, mem, found⟩ := List.exists_of_findSome?_eq_some found
    obtain ⟨_, -, same⟩ := Option.map_eq_some_iff.1 found
    have words : ∀ w ∈ ([("null", null), ("true", bool true), ("false", bool false),
        ("NaN", float .nan), ("Infinity", float (.infinite false)),
        ("-Infinity", float (.infinite true))] : List (String × Json)), w.2.hasText = true := by
      simp [hasText]
    exact (Prod.mk.inj same).1 ▸ words word mem
  · exact hasText_of_readNumber h

/-- With some fuel, what is read of a value, of the items of a list and of the members of a record
has a text, if what is read already does. -/
structure ReadsTexts (fuel : Nat) : Prop where
  value {cs left : List Char} {value : Json} :
    readValue fuel cs = .ok (value, left) → value.hasText = true
  items {cs left : List Char} {before : List Json} {value : Json} :
    (∀ item ∈ before, item.hasText = true) → readItems fuel cs before = .ok (value, left) →
      value.hasText = true
  members {cs left : List Char} {before : List (String × Json)} {value : Json} :
    (∀ m ∈ before, m.2.hasText = true) → readMembers fuel cs before = .ok (value, left) →
      value.hasText = true

namespace ReadsTexts

variable {fuel : Nat} (texts : ReadsTexts fuel)

include texts

theorem hasText_of_readValue (h : readValue (fuel + 1) cs = .ok (value, left)) :
    value.hasText = true := by
  unfold readValue at h
  split at h
  · rename_i rest
    cases string : readString ('\x22' :: rest) rest with
    | error fault =>
      rw [string] at h
      cases h
    | ok read =>
      rw [string] at h
      cases h
      rfl
  · split at h
    · cases h
      rfl
    · exact texts.items (List.forall_mem_nil _) h
  · split at h
    · cases h
      rfl
    · exact texts.members (List.forall_mem_nil _) h
  · exact hasText_of_readScalar h

theorem hasText_of_readItems (known : ∀ item ∈ items, item.hasText = true)
    (h : readItems (fuel + 1) cs items = .ok (value, left)) : value.hasText = true := by
  unfold readItems at h
  split at h
  · cases h
  · rename_i item left' first
    have known : ∀ item' ∈ item :: items, item'.hasText = true :=
      List.forall_mem_cons.2 ⟨texts.value first, known⟩
    split at h
    · cases h
      exact haveTexts_iff.2 fun item' mem => known item' (List.mem_reverse.1 mem)
    · exact texts.items known h
    · cases h

theorem hasText_of_readMembers (known : ∀ m ∈ members, m.2.hasText = true)
    (h : readMembers (fuel + 1) cs members = .ok (value, left)) : value.hasText = true := by
  unfold readMembers at h
  split at h
  · split at h
    · cases h
    · split at h
      · split at h
        · cases h
        · rename_i value' left' first
          have known {key : String} : ∀ m ∈ insert members key value', m.2.hasText = true := by
            intro m mem
            rcases mem_insert mem with mem | rfl
            · exact known m mem
            · exact texts.value first
          dsimp only at h
          split at h
          · cases h
            exact membersHaveTexts_iff.2 known
          · exact texts.members known h
          · cases h
      · cases h
  · cases h

end ReadsTexts

theorem readsTexts (fuel : Nat) : ReadsTexts fuel := by
  induction fuel with
  | zero => exact ⟨nofun, nofun, nofun⟩
  | succ fuel ih =>
    exact ⟨ih.hasText_of_readValue, ih.hasText_of_readItems, ih.hasText_of_readMembers⟩

/-- A value that a text is read as has a text. -/
theorem hasText_of_read {text : String} (h : read text = .ok value) : value.hasText = true := by
  unfold read at h
  dsimp only at h
  split at h
  · cases h
  · split at h
    · cases h
    · rename_i found
      split at h
      · cases h
        exact (readsTexts _).value found
      · cases h

end ServerTemplate.Json
