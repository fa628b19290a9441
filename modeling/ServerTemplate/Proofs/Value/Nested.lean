import ServerTemplate.Proofs.Text.Lower
import ServerTemplate.Proofs.Value.Integer

/-!
# Literals of values inside of others

The entries of a list or record are written one by one (`Literal.ofNested_list`,
`Literal.ofNested_record`), so what is written for it depends on the value at a place only by what
is written for that one (`Literal.ofNested_within`). With that `Literal.integer_default` says which
integers are written exactly as a default value, alone, at any place inside of other values, and as
a decimal text.
-/

namespace ServerTemplate.Literal

open Binary64 (Exact)

/-! ### Lists and records -/

/-- The entry for a member of a record. -/
def ofMember (member : String × Json) : Result String :=
  (ofNested member.2).map (ofText member.1 ++ " => " ++ ·)

theorem ofItems_eq_mapM (items : List Json) : ofItems items = items.mapM ofNested := by
  induction items with
  | nil => rw [ofItems, List.mapM_nil]; rfl
  | cons item items ih => rw [ofItems, List.mapM_cons, ih]

theorem ofMembers_eq_mapM (members : List (String × Json)) :
    ofMembers members = members.mapM ofMember := by
  induction members with
  | nil => rw [ofMembers, List.mapM_nil]; rfl
  | cons member members ih =>
    rw [ofMembers, List.mapM_cons, ih, ofMember]
    cases ofNested member.2 <;> rfl

theorem ofNested_list (items : List Json) :
    ofNested (.list items) = (items.mapM ofNested).map arrayOf := by
  rw [ofNested, ofItems_eq_mapM]
  rfl

theorem ofNested_record (members : List (String × Json)) :
    ofNested (.record members) = (members.mapM ofMember).map arrayOf := by
  rw [ofNested, ofMembers_eq_mapM]
  rfl

theorem map_eq_ok {α β : Type} {f : α → β} {result : Result α} {b : β} :
    result.map f = .ok b ↔ ∃ a, result = .ok a ∧ f a = b := by
  cases result <;> simp [Except.map]

/-! ### Places -/

/-- A place inside a list or record, by what stands in front of it and behind it. -/
inductive Slot where
  | item (before after : List Json)
  | member (before : List (String × Json)) (key : String) (after : List (String × Json))

/-- The list or record with a value at a place. -/
def Slot.fill : Slot → Json → Json
  | item before after, value => .list (before ++ value :: after)
  | member before key after, value => .record (before ++ (key, value) :: after)

/-- A value at a place inside a list or record that is at a place itself, and so on; the places are
given from the outside to the inside. -/
def within (value : Json) : List Slot → Json
  | [] => value
  | slot :: slots => slot.fill (within value slots)

/-- Some entries are written in front of another and some behind it. -/
theorem arrayOf_append (before after : List String) : ∃ front behind, ∀ entry,
    arrayOf (before ++ entry :: after) = front ++ entry ++ behind := by
  have joined : ∃ front behind, ∀ entry,
      ", ".intercalate (before ++ entry :: after) = front ++ entry ++ behind := by
    induction before with
    | nil =>
      cases after with
      | nil => exact ⟨"", "", fun entry => by simp⟩
      | cons next after =>
        exact ⟨"", ", " ++ ", ".intercalate (next :: after), fun entry => by
          simp [String.intercalate_cons_cons, String.append_assoc]⟩
    | cons first before ih =>
      obtain ⟨front, behind, ih⟩ := ih
      refine ⟨first ++ ", " ++ front, behind, fun entry => ?_⟩
      rw [List.cons_append, String.intercalate_cons_of_ne_nil (by simp), ih]
      simp [String.append_assoc]
  obtain ⟨front, behind, joined⟩ := joined
  refine ⟨"array(" ++ front, behind ++ ")", fun entry => ?_⟩
  rw [arrayOf, if_neg (by simp), joined]
  simp [String.append_assoc]

/-- If all of some values have an entry, then an entry depends on its own value only. -/
theorem mapM_append_cons {α : Type} {f : α → Result String} {before after : List α} {a : α}
    {entries : List String} (h : (before ++ a :: after).mapM f = .ok entries) :
    ∃ front inner behind, entries = front ++ inner :: behind ∧ f a = .ok inner ∧
      ∀ b, (before ++ b :: after).mapM f = (f b).map fun inner => front ++ inner :: behind := by
  simp only [List.mapM_append, List.mapM_cons] at h ⊢
  cases hfront : before.mapM f with
  | error failure => simp [hfront, bind, Except.bind] at h
  | ok front =>
    cases hinner : f a with
    | error failure => simp [hfront, hinner, bind, Except.bind] at h
    | ok inner =>
      cases hbehind : after.mapM f with
      | error failure => simp [hfront, hinner, hbehind, bind, Except.bind] at h
      | ok behind =>
        refine ⟨front, inner, behind, ?_, rfl, fun b => ?_⟩
        · simpa [hfront, hinner, hbehind, bind, Except.bind, pure, Except.pure, eq_comm] using h
        · cases f b <;> rfl

/-- What is written for a list or record depends on the value at a place only by what is written for
that one. -/
theorem ofNested_fill {slot : Slot} {value : Json} {text : String}
    (h : ofNested (slot.fill value) = .ok text) : ∃ front inner behind,
      text = front ++ inner ++ behind ∧ ofNested value = .ok inner ∧
      ∀ other, ofNested (slot.fill other) =
        (ofNested other).map fun inner => front ++ inner ++ behind := by
  cases slot with
  | item before after =>
    rw [Slot.fill, ofNested_list] at h
    obtain ⟨entries, hentries, rfl⟩ := map_eq_ok.mp h
    obtain ⟨fronts, inner, behinds, rfl, hinner, all⟩ := mapM_append_cons hentries
    obtain ⟨front, behind, joined⟩ := arrayOf_append fronts behinds
    refine ⟨front, inner, behind, joined inner, hinner, fun other => ?_⟩
    rw [Slot.fill, ofNested_list, all]
    cases ofNested other with
    | error failure => rfl
    | ok inner => exact congrArg Except.ok (joined inner)
  | member before key after =>
    rw [Slot.fill, ofNested_record] at h
    obtain ⟨entries, hentries, rfl⟩ := map_eq_ok.mp h
    obtain ⟨fronts, entry, behinds, rfl, hentry, all⟩ := mapM_append_cons hentries
    obtain ⟨inner, hinner, rfl⟩ := map_eq_ok.mp hentry
    obtain ⟨front, behind, joined⟩ := arrayOf_append fronts behinds
    have whole (inner : String) : arrayOf (fronts ++ (ofText key ++ " => " ++ inner) :: behinds) =
        front ++ (ofText key ++ " => ") ++ inner ++ behind := by
      rw [joined]
      simp only [String.append_assoc]
    refine ⟨_, inner, behind, whole inner, hinner, fun other => ?_⟩
    rw [Slot.fill, ofNested_record, all, ofMember]
    cases ofNested other with
    | error failure => rfl
    | ok inner => exact congrArg Except.ok (whole inner)

theorem ofNested_within {value : Json} {slots : List Slot} {text : String}
    (h : ofNested (within value slots) = .ok text) : ∃ front inner behind,
      text = front ++ inner ++ behind ∧ ofNested value = .ok inner ∧
      ∀ other, ofNested (within other slots) =
        (ofNested other).map fun inner => front ++ inner ++ behind := by
  induction slots generalizing text with
  | nil =>
    refine ⟨"", text, "", by simp, h, fun other => ?_⟩
    cases hother : ofNested other <;> simp [within, hother, Except.map]
  | cons slot slots ih =>
    obtain ⟨front, middle, behind, rfl, hmiddle, around⟩ := ofNested_fill h
    obtain ⟨front', inner, behind', rfl, hinner, all⟩ := ih hmiddle
    refine ⟨front ++ front', inner, behind' ++ behind, by simp [String.append_assoc], hinner,
      fun other => ?_⟩
    rw [within, around, all]
    cases ofNested other <;> simp [Except.map, String.append_assoc]

/-! ### Default values -/

theorem ofValue_number (value : Json) (h : value ≠ .null) :
    ofValue value (some "number") = asNumber value := by
  have typed : ofValue value (some "number") = ofTyped (Text.lower "number") value := rfl
  rw [typed, show Text.lower "number" = "number" from Text.lower_eq_self (by simp) rfl]
  cases value <;> first | exact absurd rfl h | rfl

theorem ofValue_list (items : List Json) :
    ofValue (.list items) (some "array") = ofNested (.list items) := by
  have typed : ofValue (.list items) (some "array") =
      ofTyped (Text.lower "array") (.list items) := rfl
  rw [typed, show Text.lower "array" = "array" from Text.lower_eq_self (by simp) rfl, ofNested]
  rfl

theorem ofValue_record (members : List (String × Json)) :
    ofValue (.record members) (some "array") = ofNested (.record members) := by
  have typed : ofValue (.record members) (some "array") =
      ofTyped (Text.lower "array") (.record members) := rfl
  rw [typed, show Text.lower "array" = "array" from Text.lower_eq_self (by simp) rfl, ofNested]
  rfl

theorem ofValue_fill (slot : Slot) (value : Json) :
    ofValue (slot.fill value) (some "array") = ofNested (slot.fill value) := by
  cases slot with
  | item => exact ofValue_list _
  | member => exact ofValue_record _

/-- The literal for an integer is its decimal text exactly if a finite floating-point number is
equal to it, for an integer alone and at any place inside other values; it is missing from half a
unit of the last place below `2 ^ 1024` on. So it is for a decimal text, which always has a
literal. -/
theorem integer_default (n : Int) (slot : Slot) (slots : List Slot) (spelled : DecimalInteger) :
    (ofValue (.int n) (some "number") = .ok (toString n) ↔ Exact n.natAbs) ∧
      (ofValue (.int n) (some "number") = .error .integerOutOfRange ↔
        2 ^ 1024 - 2 ^ 970 ≤ n.natAbs) ∧
      (∀ text, ofValue (within .null (slot :: slots)) (some "array") = .ok text →
        ∃ front behind, text = front ++ "null" ++ behind ∧ ∀ m : Int,
          (ofValue (within (.int m) (slot :: slots)) (some "array") =
            .ok (front ++ toString m ++ behind) ↔ Exact m.natAbs) ∧
          (ofValue (within (.int m) (slot :: slots)) (some "array") = .error .integerOutOfRange ↔
            2 ^ 1024 - 2 ^ 970 ≤ m.natAbs)) ∧
      (ofValue (.str (.ofList spelled.chars)) (some "number") = .ok (toString spelled.value) ↔
        Exact spelled.value.natAbs) := by
  have around (front behind s t : String) :
      front ++ s ++ behind = front ++ t ++ behind ↔ s = t := by
    simp [← String.toList_inj]
  have number : ofValue (.int n) (some "number") = ofInt n := ofValue_number (.int n) nofun
  refine ⟨?_, ?_, fun text h => ?_, ?_⟩
  · rw [number]
    exact ofInt_eq_ok_iff
  · rw [number]
    exact ofInt_eq_error_iff
  · rw [within, ofValue_fill] at h
    rw [← within] at h
    obtain ⟨front, inner, behind, rfl, hinner, all⟩ := ofNested_within h
    obtain rfl : "null" = inner := Except.ok.inj hinner
    refine ⟨front, behind, rfl, fun m => ?_⟩
    have text : ofValue (within (.int m) (slot :: slots)) (some "array") =
        (ofInt m).map fun inner => front ++ inner ++ behind := by
      rw [within, ofValue_fill, ← within, all, ofNested]
    constructor
    · rw [← ofInt_eq_ok_iff, text, map_eq_ok]
      simp only [around, exists_eq_right]
    · rw [← ofInt_eq_error_iff, text]
      cases ofInt m <;> simp [Except.map]
  · rw [ofValue_number (.str _) nofun]
    exact asNumber_decimal_iff spelled

/-- A place in a record in a list. -/
def pairSlots : List Slot := [.item [.int 1] [.str "It's"], .member [("m", .bool true)] "n" []]

theorem integer_default_pair : ∃ front behind,
    "array(1, array('m' => true, 'n' => null), 'It\\'s')" = front ++ "null" ++ behind ∧
    ofValue (within (.int (-(2 ^ 60))) pairSlots) (some "array") =
      .ok (front ++ toString (-(2 ^ 60) : Int) ++ behind) := by
  have text : ofValue (within .null pairSlots) (some "array") =
      .ok "array(1, array('m' => true, 'n' => null), 'It\\'s')" := by
    rw [pairSlots, within, ofValue_fill]
    rfl
  have seven : DecimalInteger := ⟨none, ['7'], nofun, List.forall_mem_singleton.mpr rfl⟩
  obtain ⟨-, -, nested, -⟩ := integer_default 7 (.item [.int 1] [.str "It's"])
    [.member [("m", .bool true)] "n" []] seven
  obtain ⟨front, behind, same, all⟩ := nested _ text
  exact ⟨front, behind, same, (all _).1.mpr ⟨1, by decide, 60, by decide, rfl⟩⟩

/-- Beyond 53 digits an integer is rounded, and far beyond there is no literal at all. -/
theorem inexact_integer :
    ofValue (.int (2 ^ 53 + 1)) (some "number") = .ok "9007199254740992" ∧
    ofValue (.int (2 ^ 53 + 1)) (some "number") ≠ .ok (toString (2 ^ 53 + 1 : Int)) ∧
    ofValue (.int (2 ^ 1024)) (some "number") = .error .integerOutOfRange := by
  have number (n : Int) : ofValue (.int n) (some "number") = ofInt n :=
    ofValue_number (.int n) nofun
  have rounds : ofValue (.int (2 ^ 53 + 1)) (some "number") = .ok "9007199254740992" :=
    (number _).trans rfl
  have other : "9007199254740992" ≠ toString (2 ^ 53 + 1 : Int) := by decide
  refine ⟨rounds, ?_, ?_⟩
  · rw [rounds]
    exact fun h => other (Except.ok.inj h)
  · rw [number, ofInt_eq_error_iff, Int.natAbs_pow, show (2 : Int).natAbs = 2 from rfl]
    omega

end ServerTemplate.Literal
