import ServerTemplate.Component.Policy
import ServerTemplate.Diagnostic.Failure
import ServerTemplate.Json.Value
import ServerTemplate.Text.Case

/-!
# Declarations of components

A declaration names a component, its parameters and the fields of the items of its array parameters,
each with the policy by which its values are escaped. `Declaration.ofJson` builds one from its JSON
form or says what is wrong with that. A policy may be missing here; it is missed only when a value
is written.

Values that the library only hands on (defaults, the kinds of fields, names of functions) stay as
they are given.
-/

namespace ServerTemplate

/-- A parameter of a component. -/
structure Parameter where
  name : String
  type : String := "string"
  default : Json := .null
  policy : Option EscapePolicy := none

/-- A field of the items of an array parameter. -/
structure ArrayField where
  name : String
  type : String := "string"
  fieldType : Json := .null
  policy : Option EscapePolicy := none

/-- What a component declares. -/
structure Declaration where
  /-- The name as it is given; it is a text in all but odd cases. -/
  name : Json
  parameters : List Parameter := []
  /-- The fields of the items of each array, in the order of the declaration. -/
  arrayFields : List (String × List ArrayField) := []
  /-- The method whose template is converted. -/
  entryPoint : Json := .str "render"
  /-- The name of the render function, if one is given. -/
  functionName : Json := .null

namespace Declaration

/-- The name of the component in messages and paths, if it has a text. -/
def title (d : Declaration) : String := d.name.display

/-- The names of the parameters in order. -/
def parameterNames (d : Declaration) : List String := d.parameters.map Parameter.name

/-- The first parameter with a name. -/
def parameter? (d : Declaration) (name : String) : Option Parameter :=
  d.parameters.find? fun p => p.name == name

/-- The fields declared for an array. -/
def fieldsOf (d : Declaration) (array : String) : List ArrayField :=
  match d.arrayFields.find? fun entry => entry.1 == array with
  | some entry => entry.2
  | none => []

/-- The first field with a name among those declared for an array. -/
def arrayField? (d : Declaration) (array field : String) : Option ArrayField :=
  (d.fieldsOf array).find? fun f => f.name == field

/-- The path of a parameter's policy in the declaration of a component. -/
def parameterPathIn (component name : String) : String :=
  component ++ ".parameters[name=" ++ name ++ "].escape"

/-- The path of a field's policy in the declaration of a component. -/
def arrayFieldPathIn (component array name : String) : String :=
  component ++ ".arrayFields." ++ array ++ "[name=" ++ name ++ "].escape"

/-- Where a parameter's policy is declared. -/
def parameterPath (d : Declaration) (name : String) : String := parameterPathIn d.title name

/-- Where a field's policy is declared. -/
def arrayFieldPath (d : Declaration) (array field : String) : String :=
  arrayFieldPathIn d.title array field

/-! ### From JSON -/

/-- The failure of a declaration. -/
def failure (fault : DeclarationFault) (component path : Option String := none) : Diagnostic :=
  ⟨.declaration fault path, { component }⟩

/-- Refuses a declaration. -/
def refuse {α : Type} (fault : DeclarationFault) (component path : Option String := none) :
    Result α :=
  .error (.diagnosed (failure fault component path))

/-- The members of an entry and the text of its name, which must be given. -/
def namedEntry (component path : String) (entry : Json) :
    Result (List (String × Json) × String) :=
  match entry with
  | .record members =>
    match Json.lookup members "name" with
    | some name =>
      if name.isTruthy then (Result.ofText name).map (members, ·)
      else refuse .noEntryName component path
    | none => refuse .noEntryName component path
  | _ => refuse .noEntryName component path

/-- The policy that a token at a path names. -/
def tokenPolicy (path : String) (token : Json) : Result EscapePolicy := do
  let _ ← Result.ofText token
  match EscapePolicy.ofToken? token with
  | some policy => return policy
  | none => refuse (.unknownToken token) none path

/-- The policy that an entry declares. No token and the null token declare none. -/
def entryPolicy (path : String) (members : List (String × Json)) : Result (Option EscapePolicy) :=
  match Json.lookup members "escape" with
  | none | some .null => .ok none
  | some token => (tokenPolicy path token).map some

/-- The type that an entry declares, in lower case. -/
def entryType (members : List (String × Json)) : Result String :=
  match Json.lookup members "type" with
  | none => .ok "string"
  | some type => (Result.ofText type).map Text.lower

/-- The value of a member, null if there is none. -/
def memberOrNull (members : List (String × Json)) (key : String) : Json :=
  (Json.lookup members key).getD .null

/-- The parameters of the entries from number `index` on; `seen` are the names before. -/
def readParameters (title : Json) (seen : List String) (index : Nat) :
    List Json → Result (List Parameter)
  | [] => .ok []
  | entry :: rest => do
    let component ← Result.ofText title
    let path := component ++ ".parameters[" ++ toString index ++ "]"
    let (members, name) ← namedEntry component path entry
    if seen.contains name then refuse (.duplicateParameter name) component path
    else do
      let type ← entryType members
      let policy ← entryPolicy (parameterPathIn component name) members
      let parameters ← readParameters title (name :: seen) (index + 1) rest
      return ⟨name, type, memberOrNull members "default", policy⟩ :: parameters

/-- The fields of the entries from number `index` on of an array. -/
def readFields (title : Json) (array : String) (index : Nat) :
    List Json → Result (List ArrayField)
  | [] => .ok []
  | entry :: rest => do
    let component ← Result.ofText title
    let path := component ++ ".arrayFields." ++ array ++ "[" ++ toString index ++ "]"
    let (members, name) ← namedEntry component path entry
    let type ← entryType members
    let policy ← entryPolicy (arrayFieldPathIn component array name) members
    let fields ← readFields title array (index + 1) rest
    return ⟨name, type, memberOrNull members "fieldType", policy⟩ :: fields

/-- The fields of all arrays. -/
def readArrays (title : Json) :
    List (String × Json) → Result (List (String × List ArrayField))
  | [] => .ok []
  | (array, .list entries) :: rest => do
    let fields ← readFields title array 0 entries
    let arrays ← readArrays title rest
    return (array, fields) :: arrays
  | (array, _) :: _ => do
    let component ← Result.ofText title
    refuse (.arrayNotAList array) component (component ++ ".arrayFields." ++ array)

/-- The name of a component: the one given, or else the one in its declaration. -/
def componentName? (given : Option Json) (members : List (String × Json)) : Option Json :=
  match given.filter Json.isTruthy with
  | some name => some name
  | none => (Json.lookup members "name").filter Json.isTruthy

/-- The entries of the member `parameters`, if it is missing or a list. -/
def parameterEntries? (members : List (String × Json)) : Option (List Json) :=
  match Json.lookup members "parameters" with
  | none => some []
  | some (.list entries) => some entries
  | some _ => none

/-- The entries of the member `arrayFields`, if it is missing, empty or a record. -/
def arrayEntries? (members : List (String × Json)) : Option (List (String × Json)) :=
  match (Json.lookup members "arrayFields").filter Json.isTruthy with
  | none => some []
  | some (.record arrays) => some arrays
  | some _ => none

/-- The declaration in JSON form, under the given name if there is one. -/
def ofJson (data : Json) (given : Option Json := none) : Result Declaration := do
  let .record members := data | refuse (.notARecord data.kindName)
  let some name := componentName? given members | refuse .noComponentName
  let some entries := parameterEntries? members
    | do
      let component ← Result.ofText name
      refuse .parametersNotAList component (component ++ ".parameters")
  let parameters ← readParameters name [] 0 entries
  let some arrays := arrayEntries? members
    | do
      let component ← Result.ofText name
      refuse .arrayFieldsNotARecord component (component ++ ".arrayFields")
  let arrayFields ← readArrays name arrays
  return {
    name, parameters, arrayFields
    entryPoint := (Json.lookup members "entryPoint").getD (.str "render")
    functionName := memberOrNull members "phpFunction" }

/-! ### Diagnostics of a component -/

/-- Whether the line of a diagnostic can be put behind the name: behind a text, and behind the items
of a list, which shows otherwise than here. -/
def takesLine (d : Declaration) : Bool :=
  match d.name with
  | .str _ | .list _ => true
  | _ => false

/-- What becomes of a diagnostic for the component. The path of a policy is put together first,
which takes the text of the name; then the line is put behind the name, if there is one; and then
the message takes the text again. -/
def told (d : Declaration) (diagnostic : Diagnostic) : Failure :=
  if diagnostic.hasPolicyPath && !d.name.hasText then .tooManyDigits
  else if diagnostic.hasLine && !d.takesLine then .nameNotText
  else if !d.name.hasText then .tooManyDigits
  else .diagnosed diagnostic

/-- What becomes of a failure for the component. -/
def retold (d : Declaration) : Failure → Failure
  | .diagnosed diagnostic => d.told diagnostic
  | failure => failure

end Declaration

end ServerTemplate
