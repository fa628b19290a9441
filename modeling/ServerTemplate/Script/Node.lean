import ServerTemplate.Text.Lines
import ServerTemplate.Text.Utf8

/-!
# Nodes of a script

A script is parsed into a tree of nodes. A node says of what kind it is, which part of the node
around it it is, and from which octet to which it reaches; its text is a slice of the source, and is
not kept. White space belongs to no node, and a comment is a node of its own.

Mere tokens are brackets, signs and the like. The tree may hold them or leave them out.
-/

namespace ServerTemplate.Script

/-- What a node is. Kinds that nothing depends on are all `part`. -/
inductive NodeKind where
  | identifier
  | undefined
  | this
  | super
  | importWord
  | number
  | string
  | stringText
  | escape
  | template
  | hole
  | regex
  | true
  | false
  | null
  | object
  | array
  | pair
  | spread
  | member
  | subscript
  | call
  | arguments
  | construction
  | metaProperty
  | unary
  | update
  | binary
  | ternary
  | assignment
  | augmentedAssignment
  | await
  | yield
  | sequence
  | parenthesized
  | arrow
  | function
  | generator
  | functionDeclaration
  | generatorDeclaration
  | method
  | field
  | declarator
  | classExpression
  | classDeclaration
  | formalParameters
  | objectPattern
  | arrayPattern
  | assignmentPattern
  | restPattern
  | propertyName
  | privateName
  | optionalMark
  | operator
  | block
  | returnStatement
  | labeledStatement
  | element
  | emptyElement
  | comment
  /-- The comment of a document. -/
  | lineComment
  | part
  deriving DecidableEq, Repr

/-- The name of a kind in messages. -/
def NodeKind.name : NodeKind → String
  | identifier => "identifier"
  | undefined => "undefined"
  | this => "this"
  | super => "super"
  | importWord => "import"
  | number => "number"
  | string => "string"
  | stringText => "string_fragment"
  | escape => "escape_sequence"
  | template => "template_string"
  | hole => "template_substitution"
  | regex => "regex"
  | true => "true"
  | false => "false"
  | null => "null"
  | object => "object"
  | array => "array"
  | pair => "pair"
  | spread => "spread_element"
  | member => "member_expression"
  | subscript => "subscript_expression"
  | call => "call_expression"
  | arguments => "arguments"
  | construction => "new_expression"
  | metaProperty => "meta_property"
  | unary => "unary_expression"
  | update => "update_expression"
  | binary => "binary_expression"
  | ternary => "ternary_expression"
  | assignment => "assignment_expression"
  | augmentedAssignment => "augmented_assignment_expression"
  | await => "await_expression"
  | yield => "yield_expression"
  | sequence => "sequence_expression"
  | parenthesized => "parenthesized_expression"
  | arrow => "arrow_function"
  | function => "function_expression"
  | generator => "generator_function"
  | functionDeclaration => "function_declaration"
  | generatorDeclaration => "generator_function_declaration"
  | method => "method_definition"
  | field => "field_definition"
  | declarator => "variable_declarator"
  | classExpression => "class"
  | classDeclaration => "class_declaration"
  | formalParameters => "formal_parameters"
  | objectPattern => "object_pattern"
  | arrayPattern => "array_pattern"
  | assignmentPattern => "assignment_pattern"
  | restPattern => "rest_pattern"
  | propertyName => "property_identifier"
  | privateName => "private_property_identifier"
  | optionalMark => "optional_chain"
  | operator => "operator"
  | block => "statement_block"
  | returnStatement => "return_statement"
  | labeledStatement => "labeled_statement"
  | element => "jsx_element"
  | emptyElement => "jsx_self_closing_element"
  | comment => "comment"
  | lineComment => "html_comment"
  | part => "part"

/-- Whether nodes of a kind are passed over where the nodes in a node are asked for: mere tokens and
comments, but not those of a document. -/
def NodeKind.isPassed : NodeKind → Bool
  | operator | comment => Bool.true
  | _ => Bool.false

/-- Which part of the node around it a node is. -/
inductive Slot where
  | none
  | name
  | body
  | value
  | object
  | property
  | callee
  | arguments
  | parameter
  | parameters
  | left
  | operator
  | right
  | condition
  | consequence
  | alternative
  deriving DecidableEq, Repr

/-- A point between the characters of a script. -/
structure Point where
  /-- The number of octets in front. -/
  octet : Nat := 0
  /-- The number of line feeds in front. -/
  row : Nat := 0
  deriving DecidableEq, Repr

/-- The point that many characters further. -/
def Point.past (p : Point) (cs : List Char) : Point :=
  ⟨p.octet + (Text.encodeUtf8 cs).length, p.row + cs.count '\n'⟩

/-- A node of a script. -/
structure Node where
  kind : NodeKind
  slot : Slot
  /-- Where the node begins. -/
  start : Point
  /-- The number of octets up to its end. -/
  stop : Nat
  children : List Node
  deriving Repr

/-- The characters of a script. Some may have been put in front of the text that places refer to. -/
structure Source where
  chars : List Char
  /-- The number of characters put in front. -/
  lead : Nat := 0

namespace Source

/-- The octets that offsets count. -/
def octets (s : Source) : List Nat := Text.encodeUtf8 s.chars

/-- The characters from one offset to another. Offsets that nodes begin and end at do not cut a
character. -/
def slice (s : Source) (start stop : Nat) : String :=
  String.ofList (Text.decodeLossy ((s.octets.drop start).take (stop - start)))

/-- The place of a point: its row, and the number of characters behind the last line feed in front
of it. What is put in front of the text counts only on the first line. -/
def place (s : Source) (point : Point) : Text.Place :=
  let column : Int :=
    (s.slice (Text.behindLastFeed (s.octets.take point.octet)) point.octet).length
  ⟨point.row + 1, if point.row = 0 then max 0 (column - s.lead) else column⟩

end Source

namespace Node

instance : Inhabited Node := ⟨⟨.part, .none, {}, 0, []⟩⟩

/-- The node as a part of the node around it. -/
def asPart (slot : Slot) (node : Node) : Node := { node with slot }

/-- The child that is a given part. -/
def child? (node : Node) (slot : Slot) : Option Node :=
  node.children.find? fun child => child.slot == slot

/-- The children that are neither mere tokens nor comments. -/
def named (node : Node) : List Node := node.children.filter fun child => !child.kind.isPassed

/-- The first child that is neither a mere token nor a comment. -/
def firstNamed? (node : Node) : Option Node := node.named.head?

/-- The text of a node in its source. -/
def text (s : Source) (node : Node) : String := s.slice node.start.octet node.stop

/-- Where a node begins. -/
def place (s : Source) (node : Node) : Text.Place := s.place node.start

mutual

/-- The node without the parentheses around it, if there is one in them. -/
def unwrapped? : Node → Option Node
  | ⟨.parenthesized, _, _, _, children⟩ => unwrappedOf? children
  | node => some node

/-- The first of the nodes that is neither a mere token nor a comment, without the parentheses
around it. -/
def unwrappedOf? : List Node → Option Node
  | [] => none
  | node :: rest => if node.kind.isPassed then unwrappedOf? rest else node.unwrapped?

end

end Node

end ServerTemplate.Script
