import ServerTemplate.Number.Read
import ServerTemplate.Number.Shortest
import ServerTemplate.Text.Quoted

/-!
# JSON values

Declarations are written as JSON. A value keeps the order of its members, and an integer is
unbounded and distinct from the floating-point number of the same size.

A message or a generated name may contain a value. `Json.quoted` is its text as a part of a larger
value and `Json.display` its text alone; the two differ for a text only, which stands in quotes in
the first. A value with an integer of more than `maxDecimalDigits` digits in it has no text
(`Json.hasText`): to ask for it is a failure.
-/

namespace ServerTemplate

/-- A JSON value. The members of a record are in the order of the input. -/
inductive Json where
  | null
  | bool (value : Bool)
  | int (value : Int)
  | float (value : Binary64)
  | str (value : String)
  | list (items : List Json)
  | record (members : List (String × Json))

namespace Json

instance : Inhabited Json := ⟨null⟩

/-- The value of the member `key`. -/
def lookup (members : List (String × Json)) (key : String) : Option Json :=
  (members.find? fun m => m.1 == key).map (·.2)

/-- The members with one more. A key that is present keeps its place and takes the new value. -/
def insert (members : List (String × Json)) (key : String) (value : Json) :
    List (String × Json) :=
  match members with
  | [] => [(key, value)]
  | m :: rest => if m.1 == key then (key, value) :: rest else m :: insert rest key value

/-- Whether a value counts as given: neither null, false, zero nor empty. -/
def isTruthy : Json → Bool
  | null => false
  | bool b => b
  | int n => n != 0
  | float x => !x.isZero
  | str s => s != ""
  | list items => !items.isEmpty
  | record members => !members.isEmpty

/-- The name that a message gives to the kind of a value. -/
def kindName : Json → String
  | null => "NoneType"
  | bool _ => "bool"
  | int _ => "int"
  | float _ => "float"
  | str _ => "str"
  | list _ => "list"
  | record _ => "dict"

mutual

/-- The text of a value as a part of a larger one. -/
def quoted : Json → String
  | null => "None"
  | bool true => "True"
  | bool false => "False"
  | int n => toString n
  | float x => x.text
  | str s => Text.quoted s
  | list items => "[" ++ ", ".intercalate (quotedItems items) ++ "]"
  | record members => "\x7b" ++ ", ".intercalate (quotedMembers members) ++ "\x7d"

/-- The texts of the items of a list. -/
def quotedItems : List Json → List String
  | [] => []
  | item :: rest => quoted item :: quotedItems rest

/-- The texts of the members of a record, key and value. -/
def quotedMembers : List (String × Json) → List String
  | [] => []
  | (key, value) :: rest => (Text.quoted key ++ ": " ++ quoted value) :: quotedMembers rest

end

/-- The text of a value alone. -/
def display : Json → String
  | str s => s
  | value => value.quoted

mutual

/-- Whether a value has a text: no integer in it has too many digits. -/
def hasText : Json → Bool
  | int n => n.natAbs < Nat.pow 10 maxDecimalDigits
  | list items => haveTexts items
  | record members => membersHaveTexts members
  | _ => true

/-- Whether the items of a list have texts. -/
def haveTexts : List Json → Bool
  | [] => true
  | item :: rest => item.hasText && haveTexts rest

/-- Whether the values of the members of a record have texts. -/
def membersHaveTexts : List (String × Json) → Bool
  | [] => true
  | (_, value) :: rest => value.hasText && membersHaveTexts rest

end

/-- The text of the member `key`, or `fallback` if there is none. -/
def displayOr (fallback : String) : Option Json → String
  | none => fallback
  | some value => value.display

end Json

/-- The entry of a key that no other entry has is found under that key. -/
theorem find?_of_nodup {α : Type} {key : α → String} {entries : List α} {entry : α}
    (distinct : (entries.map key).Nodup) (mem : entry ∈ entries) :
    entries.find? (fun other => key other == key entry) = some entry := by
  induction entries with
  | nil => cases mem
  | cons first rest ih =>
    rw [List.map_cons] at distinct
    obtain ⟨fresh, distinct⟩ := List.nodup_cons.mp distinct
    rw [List.find?_cons]
    rcases List.mem_cons.mp mem with rfl | mem
    · rw [beq_self_eq_true]
    · have ne : key first ≠ key entry := fun eq => fresh (List.mem_map.mpr ⟨entry, mem, eq.symm⟩)
      rw [beq_eq_false_iff_ne.mpr ne]
      exact ih distinct mem

end ServerTemplate
