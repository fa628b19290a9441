import ServerTemplate.Diagnostic.Failure
import ServerTemplate.Json.Value
import ServerTemplate.Number.Read
import ServerTemplate.Text.Blank
import ServerTemplate.Text.Case

/-!
# Literals of server code

Texts are written between single quotes, where a backslash escapes a backslash and a quote and
nothing else. The default of a parameter is written as a literal of its declared type; values inside
a list or record are written by their own kind.

A number is written as the floating-point number nearest to it: without a fraction if it has none,
and `0` if it is not a finite number at all.
-/

namespace ServerTemplate.Literal

/-- The characters between the quotes. -/
def escapeQuotes : List Char → List Char
  | [] => []
  | c :: rest =>
    if c == '\\' || c == '\x27' then '\\' :: c :: escapeQuotes rest else c :: escapeQuotes rest

/-- A text in single quotes. -/
def ofText (s : String) : String :=
  String.ofList ('\x27' :: escapeQuotes s.toList ++ ['\x27'])

/-- The literal for a truth value. -/
def ofBool (b : Bool) : String := if b then "true" else "false"

/-- The literal for a floating-point number. -/
def ofNumber (x : Binary64) : String :=
  match x with
  | .nan | .infinite _ => "0"
  | .finite .. =>
    match x.toInt? with
    | some n => toString n
    | none => x.text

/-- The literal for an integer. -/
def ofInt (n : Int) : Result String :=
  match Binary64.ofInt? n with
  | some x => .ok (ofNumber x)
  | none => .error .integerOutOfRange

/-- The literal of type number for a value. What is no number is zero. -/
def asNumber : Json → Result String
  | .bool b => .ok (if b then "1" else "0")
  | .int n => ofInt n
  | .float x => .ok (ofNumber x)
  | .str s => .ok ((Binary64.ofText? s).elim "0" ofNumber)
  | .null | .list _ | .record _ => .ok "0"

/-- The literal of type boolean for a value. Of the texts, one word is true. -/
def asBoolean : Json → String
  | .str s => ofBool (Text.asciiLower (Text.trim s) == "true")
  | value => ofBool value.isTruthy

/-- An array with the given entries. -/
def arrayOf (entries : List String) : String :=
  if entries.isEmpty then "array()" else "array(" ++ ", ".intercalate entries ++ ")"

mutual

/-- The literal for a value inside a list or record. -/
def ofNested : Json → Result String
  | .null => .ok "null"
  | .bool b => .ok (ofBool b)
  | .int n => ofInt n
  | .float x => .ok (ofNumber x)
  | .str s => .ok (ofText s)
  | .list items => do return arrayOf (← ofItems items)
  | .record members => do return arrayOf (← ofMembers members)

/-- The entries of a list. -/
def ofItems : List Json → Result (List String)
  | [] => .ok []
  | item :: rest => do
    let entry ← ofNested item
    return entry :: (← ofItems rest)

/-- The entries of a record. -/
def ofMembers : List (String × Json) → Result (List String)
  | [] => .ok []
  | (key, value) :: rest => do
    let entry ← ofNested value
    return (ofText key ++ " => " ++ entry) :: (← ofMembers rest)

end

/-- The literal of an array type for a value. What is no list or record is an empty array. -/
def asArray : Json → Result String
  | .list items => do return arrayOf (← ofItems items)
  | .record members => do return arrayOf (← ofMembers members)
  | _ => .ok "array()"

/-- The literal of a type for a missing value. -/
def zero : String → String
  | "number" => "0"
  | "boolean" => "false"
  | "array" | "object" => "array()"
  | _ => "''"

/-- The literal for a value that is declared with a type, given in lower case. -/
def ofTyped (type : String) (value : Json) : Result String :=
  match value with
  | .null => .ok (zero type)
  | value =>
    if type = "boolean" then .ok (asBoolean value)
    else if type = "number" then asNumber value
    else if type = "array" ∨ type = "object" then asArray value
    else
      match value with
      | .str s => .ok (ofText s)
      | value => ofNested value

/-- The literal for a value of a type, which is a text by default. -/
def ofValue (value : Json) (type : Option String) : Result String :=
  match type.filter (· != "") with
  | some type => ofTyped (Text.lower type) value
  | none => ofTyped "string" value

example : ofText "It's" = "'It\\'s'" := by decide +kernel

end ServerTemplate.Literal
