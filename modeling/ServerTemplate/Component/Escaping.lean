import ServerTemplate.Component.Declaration

/-!
# The policy of a value

Where a value is written decides before its declaration: in an attribute that holds an address it is
encoded as an address, in any other attribute as an attribute value. Only outside attributes does
the declared policy apply, and there is no policy that applies without being declared.
-/

namespace ServerTemplate

/-- Why a policy was chosen. -/
inductive Reason where
  | positional
  | declared
  deriving DecidableEq, Repr

/-- The name of a reason. -/
def Reason.name : Reason → String
  | positional => "positional"
  | declared => "declared"

/-- A chosen policy. -/
structure Resolution where
  policy : EscapePolicy
  reason : Reason
  deriving DecidableEq, Repr

/-- The attributes whose values are addresses. -/
def addressAttributes : List String := ["href", "src", "action"]

/-- The name of an attribute without the marks that bind a property, a flag or an event, in lower
case. -/
def bareAttribute (attrName : String) : String :=
  Text.asciiLower (String.ofList
    (attrName.toList.dropWhile fun c => c == '.' || c == '?' || c == '@'))

/-- The policy of a value written into an attribute. -/
def attributePolicy (attrName : String) : EscapePolicy :=
  if addressAttributes.contains (bareAttribute attrName) then .url else .attr

namespace Declaration

/-- The policy declared for a field, which is a field of the items of `array` or else a parameter.
-/
def declaredPolicy? (d : Declaration) (field : String) (array : Option String) :
    Option EscapePolicy :=
  match array with
  | some array => (d.arrayField? array field).bind ArrayField.policy
  | none => (d.parameter? field).bind Parameter.policy

/-- Where the policy of a field is declared. -/
def policyPath (d : Declaration) (field : String) (array : Option String) : String :=
  match array with
  | some array => d.arrayFieldPath array field
  | none => d.parameterPath field

/-- The policy of a value: that of the attribute it is written into, or else the declared one. -/
def resolve (d : Declaration) (field : String) (attrName array : Option String)
    (line : Option Int) : Except Diagnostic Resolution :=
  match attrName with
  | some attrName => .ok ⟨attributePolicy attrName, .positional⟩
  | none =>
    match d.declaredPolicy? field array with
    | some policy => .ok ⟨policy, .declared⟩
    | none =>
      .error ⟨.noPolicy field (d.policyPath field array), { component := some d.title, line }⟩

end Declaration

end ServerTemplate
