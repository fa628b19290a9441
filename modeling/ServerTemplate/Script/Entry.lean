import ServerTemplate.Script.Node

/-!
# The entry template of a script

A script may hold many functions and templates. The entry templates are those that a function of a
given name returns: a declared or named function, a method, or an arrow function that is the value
of a variable, field or property of that name. A value that a function in between returns is none of
them. `candidates` lists them in the order of the script.
-/

namespace ServerTemplate.Script

/-- What the entry template of a script is known by. -/
structure Sought where
  /-- The name of the function that returns it. No function has a name that is no text. -/
  name? : Option String
  tag : String

/-- Whether a node is a function whose name is its own. -/
def NodeKind.isNamedFunction : NodeKind → Bool
  | functionDeclaration | function | method | generatorDeclaration => Bool.true
  | _ => Bool.false

/-- Whether a node gives a name to a value. -/
def NodeKind.isBinding : NodeKind → Bool
  | declarator | field | pair => Bool.true
  | _ => Bool.false

/-- Whether the returns in a node belong to the node and not to a function around it. -/
def NodeKind.isBarrier (kind : NodeKind) : Bool :=
  kind.isNamedFunction || kind == arrow || kind == classExpression || kind == classDeclaration

namespace Node

/-- The template of a call that is nothing but a template with the given tag. -/
def markup? (s : Source) (tag : String) (node : Node) : Option Node :=
  match node.kind, node.child? .callee, node.child? .arguments with
  | .call, some callee, some text =>
    if callee.kind == .identifier && callee.text s == tag && text.kind == .template then some text
    else none
  | _, _, _ => none

mutual

/-- The returns in a node that are not in a function inside it. -/
def returns : Node → List Node
  | ⟨kind, slot, start, stop, children⟩ =>
    if kind == .returnStatement then [⟨kind, slot, start, stop, children⟩]
    else if kind.isBarrier then []
    else returnsOf children

/-- The returns in nodes that are not in a function inside them. -/
def returnsOf : List Node → List Node
  | [] => []
  | node :: rest => node.returns ++ returnsOf rest

end

/-- The values that a body gives: those of its returns, or itself if it is an expression. -/
def results (body : Node) (isExpression : Bool) : List Node :=
  let values := if isExpression then [body] else (returnsOf body.children).filterMap firstNamed?
  values.filterMap unwrapped?

/-- The values that a function of the sought name gives, if the node is one or is bound to one. -/
def givenBy (s : Source) (sought : Sought) (node : Node) : List Node :=
  match node.child? .name with
  | none => []
  | some name =>
    if some (name.text s) != sought.name? then []
    else if node.kind.isNamedFunction then
      match node.child? .body with
      | some body => body.results false
      | none => []
    else if node.kind.isBinding then
      match node.child? .value with
      | some value =>
        if value.kind == .arrow then
          match value.child? .body with
          | some body => body.results (body.kind != .block)
          | none => []
        else []
      | none => []
    else []

end Node

/-- A call that is a template with the sought tag, and that template. -/
structure Candidate where
  call : Node
  template : Node

/-- The templates that the function of the sought name gives in this very node. -/
def Node.candidatesHere (s : Source) (sought : Sought) (node : Node) : List Candidate :=
  (node.givenBy s sought).filterMap fun value =>
    (value.markup? s sought.tag).map fun template => ⟨value, template⟩

mutual

/-- The templates that functions of the sought name give in a node, those of outer ones first. -/
def Node.candidates (s : Source) (sought : Sought) : Node → List Candidate
  | ⟨kind, slot, start, stop, children⟩ =>
    Node.candidatesHere s sought ⟨kind, slot, start, stop, children⟩
      ++ candidatesOf s sought children

/-- The templates that functions of the sought name give in nodes. -/
def candidatesOf (s : Source) (sought : Sought) : List Node → List Candidate
  | [] => []
  | node :: rest => node.candidates s sought ++ candidatesOf s sought rest

end

end ServerTemplate.Script
