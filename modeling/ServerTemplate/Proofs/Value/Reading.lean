import ServerTemplate.Proofs.Server.Literal
import ServerTemplate.Proofs.Value.Nested

/-!
# Reading default values back

The literal for a list, a record or a text is read as that value (`Literal.literal?_ofValue`), as
far as code can express it: an array without entries does not say which of the two it was.
-/

namespace ServerTemplate

/-! ### Values -/

namespace Json

/-- Whether a value has no fractions, and integers with some property only, at any depth. -/
inductive Over (P : Int → Prop) : Json → Prop
  | null : Over P .null
  | bool (b : Bool) : Over P (.bool b)
  | int {n : Int} : P n → Over P (.int n)
  | str (s : String) : Over P (.str s)
  | list {items : List Json} : (∀ item ∈ items, Over P item) → Over P (.list items)
  | record {members : List (String × Json)} :
    (∀ member ∈ members, Over P member.2) → Over P (.record members)

theorem Over.mono {P Q : Int → Prop} (le : ∀ n, P n → Q n) {value : Json} (h : value.Over P) :
    value.Over Q := by
  induction h with
  | null => exact .null
  | bool b => exact .bool b
  | int hn => exact .int (le _ hn)
  | str s => exact .str s
  | list _ ih => exact .list ih
  | record _ ih => exact .record ih

mutual

/-- A value as code can express it: a record without members is a list without items. -/
def asWritten : Json → Json
  | list items => list (itemsAsWritten items)
  | record [] => list []
  | record (member :: members) => record (membersAsWritten (member :: members))
  | value => value

/-- The items of a list as code can express them. -/
def itemsAsWritten : List Json → List Json
  | [] => []
  | item :: rest => item.asWritten :: itemsAsWritten rest

/-- The members of a record as code can express them. -/
def membersAsWritten : List (String × Json) → List (String × Json)
  | [] => []
  | (key, value) :: rest => (key, value.asWritten) :: membersAsWritten rest

end

theorem itemsAsWritten_eq_map (items : List Json) : itemsAsWritten items = items.map asWritten := by
  induction items with
  | nil => rfl
  | cons item items ih => rw [itemsAsWritten, ih, List.map_cons]

theorem membersAsWritten_eq_map (members : List (String × Json)) :
    membersAsWritten members = members.map fun member => (member.1, member.2.asWritten) := by
  induction members with
  | nil => rfl
  | cons member members ih => rw [membersAsWritten, ih, List.map_cons]

end Json

namespace Literal

open Server

/-- If each of some values has an entry, then all have. -/
theorem mapM_eq_ok {α β : Type} {f : α → Result String} {g : α → β} {R : String → β → Prop}
    {values : List α} (h : ∀ a ∈ values, ∃ text, f a = .ok text ∧ R text (g a)) :
    ∃ texts, values.mapM f = .ok texts ∧ List.Forall₂ R texts (values.map g) := by
  induction values with
  | nil => exact ⟨[], rfl, .nil⟩
  | cons a values ih =>
    obtain ⟨text, htext, first⟩ := h a (.head _)
    obtain ⟨texts, htexts, others⟩ := ih fun b hb => h b (.tail _ hb)
    refine ⟨text :: texts, ?_, .cons first others⟩
    rw [List.mapM_cons, htext, htexts]
    rfl

/-- The literal for a value inside another is read as that value. -/
theorem spells_ofNested {value : Json} (h : value.Over fun n => Binary64.Exact n.natAbs) :
    ∃ text, ofNested value = .ok text ∧ Spells text value.asWritten := by
  induction h with
  | null => exact ⟨_, by rw [ofNested], spells_null⟩
  | bool b => exact ⟨_, by rw [ofNested], spells_bool b⟩
  | @int n exact => exact ⟨toString n, by rw [ofNested, ofInt_eq_ok_iff.mpr exact], spells_int n⟩
  | str s => exact ⟨_, by rw [ofNested], spells_str s⟩
  | @list items _ ih =>
    obtain ⟨texts, htexts, entries⟩ := mapM_eq_ok (g := fun item : Json => (none, item.asWritten))
      (R := SpellsEntry) fun item hitem => by
        obtain ⟨text, htext, spells⟩ := ih item hitem
        exact ⟨text, htext, spells.entry⟩
    have written : ofEntries? (items.map fun item => (none, item.asWritten)) =
        some (Json.asWritten (.list items)) := by
      rw [Json.asWritten, Json.itemsAsWritten_eq_map, ← ofEntries?_items, List.map_map]
      rfl
    refine ⟨arrayOf texts, ?_, spells_arrayOf entries written⟩
    rw [ofNested_list, htexts]
    rfl
  | @record members _ ih =>
    obtain ⟨texts, htexts, entries⟩ := mapM_eq_ok (f := ofMember) (R := SpellsEntry)
      (g := fun member : String × Json => (some member.1, member.2.asWritten))
      fun member hmember => by
        obtain ⟨text, htext, spells⟩ := ih member hmember
        exact ⟨_, by rw [ofMember, htext]; rfl, spells.member member.1⟩
    have written : ofEntries? (members.map fun member => (some member.1, member.2.asWritten)) =
        some (Json.asWritten (.record members)) := by
      cases members with
      | nil => rfl
      | cons member members =>
        rw [Json.asWritten, Json.membersAsWritten_eq_map, ← ofEntries?_members (by simp),
          List.map_map]
        rfl
    refine ⟨arrayOf texts, ?_, spells_arrayOf entries written⟩
    rw [ofNested_record, htexts]
    rfl

/-! ### Default values -/

/-- The type that a value is declared with to be written by its own kind. -/
def ownType? : Json → Option String
  | .list _ | .record _ => some "array"
  | .str _ => some "string"
  | _ => none

theorem exact_of_le {n : Nat} (h : n ≤ 2 ^ 53) : Binary64.Exact n := by
  obtain small | rfl := Nat.lt_or_eq_of_le h
  · exact ⟨n, small, 0, by decide, (Nat.mul_one n).symm⟩
  · exact ⟨2 ^ 52, by decide, 1, by decide, rfl⟩

/-- The literal for a list, a record or a text is read as that value, whatever is in the texts and
keys inside, if no integer has more than 53 digits. -/
theorem literal?_ofValue {value : Json} {type : String} (htype : ownType? value = some type)
    (h : value.Over fun n => n.natAbs ≤ 2 ^ 53) :
    ∃ text, ofValue value (some type) = .ok text ∧ literal? text = some value.asWritten := by
  obtain ⟨text, htext, spells⟩ := spells_ofNested (h.mono fun _ => exact_of_le)
  refine ⟨text, ?_, spells.literal?_eq⟩
  rw [← htext]
  cases value with
  | list items =>
    obtain rfl : "array" = type := Option.some.inj htype
    exact ofValue_list items
  | record members =>
    obtain rfl : "array" = type := Option.some.inj htype
    exact ofValue_record members
  | str s =>
    obtain rfl : "string" = type := Option.some.inj htype
    have typed : ofValue (.str s) (some "string") = ofTyped (Text.lower "string") (.str s) := rfl
    rw [typed, show Text.lower "string" = "string" from Text.lower_eq_self (by simp) rfl, ofNested]
    rfl
  | null | bool | int | float => cases htype

/-- A record whose keys and texts hold what literals are made of. -/
def tangled : Json := .record [
  ("it's", .list [.str "\\', array('a' => 1)\\", .int (-(2 ^ 53)), .null]),
  (")", .record []),
  ("', '", .list [.bool true, .record [("\\", .int 0)]])]

theorem literal?_ofValue_tangled :
    ∃ text, ofValue tangled (some "array") = .ok text ∧ literal? text = some tangled.asWritten := by
  refine literal?_ofValue rfl (.record ?_)
  simp only [List.forall_mem_cons, List.not_mem_nil, false_implies, implies_true, and_true]
  refine ⟨.list ?_, .record nofun, .list ?_⟩
  · simp only [List.forall_mem_cons, List.not_mem_nil, false_implies, implies_true, and_true]
    exact ⟨.str _, .int (by decide), .null⟩
  · simp only [List.forall_mem_cons, List.not_mem_nil, false_implies, implies_true, and_true]
    exact ⟨.bool true, .record (List.forall_mem_singleton.mpr (.int (by decide)))⟩

end Literal

end ServerTemplate
