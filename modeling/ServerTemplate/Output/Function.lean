import ServerTemplate.Component.Declaration
import ServerTemplate.Output.Literal

/-!
# Render functions

A fragment reads its parameters as variables. A render function takes them as an array, adds the
defaults of those that are missing, and assigns each to its variable before the fragment runs.
-/

namespace ServerTemplate

/-- A character that may stand in the name of a function. -/
def isNameChar (c : Char) : Bool := c.isAlphanum || c == '_'

/-- The characters with each run of those that may not stand in a name replaced by an underscore.
`inRun` says whether such a run has begun. -/
def underscored (inRun : Bool) : List Char → List Char
  | [] => []
  | c :: rest =>
    if isNameChar c then c :: underscored false rest
    else if inRun then underscored true rest
    else '_' :: underscored true rest

/-- The name of a component as a part of a function name. -/
def slug (name : String) : String :=
  String.ofList
    ((Text.trimBoth (· == '_') (underscored false name.toList)).map Char.toLower)

namespace Declaration

/-- The name of the render function: the declared one, or else one made from the component's name,
which must be a text for that. -/
def renderFunctionName (d : Declaration) : Result String :=
  if d.functionName.isTruthy then Result.ofText d.functionName
  else
    match d.name with
    | .str name => .ok ("render_" ++ slug name)
    | _ => .error .nameNotText

/-- The line that declares the default of a parameter. -/
def defaultLine (p : Parameter) : Result String := do
  let value ← Literal.ofValue p.default (some p.type)
  return "        " ++ Literal.ofText p.name ++ " => " ++ value ++ ","

/-- The line that assigns a parameter to its variable. -/
def assignmentLine (p : Parameter) : String :=
  "    $" ++ p.name ++ " = $args[" ++ Literal.ofText p.name ++ "];"

/-- The lines in front of the fragment. -/
def prologue (d : Declaration) : Result (List String) := do
  let name ← d.renderFunctionName
  let opening := "function " ++ name ++ "( $args = array() ) \x7b"
  if d.parameters.isEmpty then return [opening]
  let defaults ← d.parameters.mapM defaultLine
  return opening :: "    $defaults = array(" :: defaults
    ++ ["    );", "    $args = wp_parse_args( $args, $defaults );"]
    ++ d.parameters.map assignmentLine

/-- The render function for a fragment. -/
def renderFunction (d : Declaration) (fragment : String) : Result String := do
  let lines ← d.prologue
  return "\n".intercalate (lines ++ ["    ?>" ++ fragment ++ "<?php", "\x7d"]) ++ "\n"

end Declaration

end ServerTemplate
