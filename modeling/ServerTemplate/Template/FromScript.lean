import ServerTemplate.Diagnostic.Failure
import ServerTemplate.Number.Read
import ServerTemplate.Script.Parser
import ServerTemplate.Template.Expr
import ServerTemplate.Text.CodeUnit

/-!
# Templates of scripts

The nodes of a script that a template can hold become expressions. Every expression keeps its place;
a construct that no expression stands for keeps its source. The texts of a template are slices of
the source between its holes: escapes in them stay as they are written, while those of strings are
replaced by what they denote. An escape for half of a pair denotes that half and nothing else.

`Entry.ofScript` finds the one template that a script gives, and `Entry.ofTemplate` reads the text
of a template by itself, as if it stood in a script.
-/

namespace ServerTemplate

open Script

/-! ### Constants -/

/-- The value of hexadecimal digits. -/
def hexValue (digits : List Char) : Nat := Text.valueOf 16 (digits.filterMap Text.hexDigit?)

/-- The code point that an escape spells in hexadecimal digits. -/
def codePoint (digits : List Char) : Result (List Nat) :=
  let value := hexValue digits
  if value ≤ 0x10FFFF then .ok [value]
  else if value < 0x80000000 then .error .codePointOutOfRange
  else .error .codePointTooLong

/-- The character that a one-letter escape denotes. -/
def letterEscape? : Char → Option Char
  | 'n' => some '\n'
  | 't' => some '\t'
  | 'r' => some '\r'
  | 'b' => some '\x08'
  | 'f' => some '\x0c'
  | 'v' => some '\x0b'
  | '0' => some '\x00'
  | _ => none

/-- The code points that an escape denotes, read behind its backslash: a character, a number,
nothing for the end of a line, or else what is written. -/
def escaped (body : List Char) : Result (List Nat) :=
  match body with
  | 'u' :: '\x7b' :: digits => codePoint digits.dropLast
  | 'u' :: digits | 'x' :: digits => codePoint digits
  | '\r' :: _ | '\n' :: _ => .ok []
  | [c] => .ok [((letterEscape? c).getD c).toNat]
  | _ => .ok (body.map Char.toNat)

/-- The code points of the parts of a string. -/
def stringPoints (s : Source) : List Node → Result (List Nat)
  | [] => .ok []
  | part :: rest => do
    let written := (part.text s).toList
    let points ← if part.kind == .escape then escaped (written.drop 1)
      else pure (written.map Char.toNat)
    return points ++ (← stringPoints s rest)

/-- The value of a number: an integer or floating-point number, or its source if it is neither. -/
def numberValue (spelling : String) : Constant :=
  match integerToken? spelling.toList with
  | some n => .int n
  | none =>
    match Binary64.ofText? spelling with
    | some x => .float x
    | none => .text spelling

/-- Whether an operator joins conditions. -/
def isLogical (operator : String) : Bool := ["&&", "||", "??"].contains operator

/-! ### Templates -/

/-- The texts of a template before, between and behind the holes, from one offset to another. -/
def chunksBetween (s : Source) (start stop : Nat) : List Node → List String
  | [] => [s.slice start stop]
  | part :: rest =>
    if part.kind == .hole then
      s.slice start part.start.octet :: chunksBetween s part.stop stop rest
    else chunksBetween s start stop rest

/-- There is one text more than there are holes. -/
theorem length_chunksBetween (s : Source) (start stop : Nat) (parts : List Node) :
    (chunksBetween s start stop parts).length
      = (parts.filter fun part => part.kind == .hole).length + 1 := by
  induction parts generalizing start with
  | nil => rfl
  | cons part rest ih =>
    unfold chunksBetween
    by_cases h : (part.kind == .hole) = true
    · rw [if_pos h, List.length_cons, ih, List.filter_cons, if_pos h, List.length_cons]
    · rw [if_neg h, ih, List.filter_cons, if_neg h]

/-- The texts of a template without the quotes around it. -/
def chunksOf (s : Source) (template : Node) : List String :=
  chunksBetween s (template.start.octet + 1) (template.stop - 1) template.children

/-- The parameters of an arrow function, or the kind of one that is no name. -/
def arrowParameters (s : Source) (children : List Node) : Except NodeKind (List String) :=
  match children.find? fun child => child.slot == .parameter with
  | some single => .ok [single.text s]
  | none =>
    match children.find? fun child => child.slot == .parameters with
    | some formal =>
      match formal.named.find? fun parameter => parameter.kind != .identifier with
      | some parameter => .error parameter.kind
      | none => .ok (formal.named.map (Node.text s))
    | none => .ok []

mutual

/-- The expression of a node. -/
def Expr.ofNode (s : Source) : Node → Result Expr
  | ⟨kind, _, start, stop, children⟩ =>
    let place := s.place start
    let written := s.slice start.octet stop
    let child? (slot : Slot) : Option Node := children.find? fun child => child.slot == slot
    let other (kind : String) : Expr := .other place kind written
    let whole := other kind.name
    match kind with
    | .identifier => .ok (.name place written)
    | .this => .ok (.this place)
    | .true => .ok (.constant place (.bool true) "true")
    | .false => .ok (.constant place (.bool false) "false")
    | .null => .ok (.constant place .null "null")
    | .number => .ok (.constant place (numberValue written) written)
    | .string => do
      let points ← stringPoints s (children.filter fun child => child.kind != .operator)
      return .constant place (.ofPoints points) written
    | .member =>
      match child? .property with
      | some ⟨.propertyName, _, first, last, _⟩ => do
        let object ← Expr.ofPart s whole .object children
        let optional := children.any fun child => child.kind == .optionalMark
        return .member place object (s.slice first.octet last) optional
      | _ => .ok (other "computed member_expression")
    | .call =>
      match child? .callee, child? .arguments with
      | some callee, some given =>
        if given.kind == .template then
          if callee.kind == .identifier then do
            let template ← Expr.ofPart s whole .arguments children
            match template with
            | .template templatePlace chunks holes =>
              return .tagged place (callee.text s) templatePlace chunks holes
            | _ => return whole
          else .ok (other "tagged template")
        else do
          let function ← Expr.ofPart s whole .callee children
          return .call place function (← Expr.ofArguments s children)
      | _, _ => .ok whole
    | .arrow =>
      match arrowParameters s children with
      | .error kind => .ok (other ("arrow_function " ++ kind.name ++ " parameter"))
      | .ok parameters =>
        if (child? .body).all fun body => body.kind == .block then
          .ok (other "arrow_function block body")
        else do return .arrow place parameters (← Expr.ofPart s whole .body children)
    | .binary =>
      match child? .operator with
      | some sign => do
        let left ← Expr.ofPart s whole .left children
        let right ← Expr.ofPart s whole .right children
        let operator := sign.text s
        return if isLogical operator then .logical place operator left right
          else .binary place operator left right
      | none => .ok whole
    | .ternary => do
      let test ← Expr.ofPart s whole .condition children
      let consequent ← Expr.ofPart s whole .consequence children
      let alternate ← Expr.ofPart s whole .alternative children
      return .conditional place test consequent alternate
    | .parenthesized => do return .group place (← Expr.ofFirst s whole children)
    | .template => do
      return .template place (chunksBetween s (start.octet + 1) (stop - 1) children)
        (← Expr.ofHoles s children)
    | _ => .ok whole

/-- The expression of the node that is a given part, or of the whole if there is none. -/
def Expr.ofPart (s : Source) (whole : Expr) (slot : Slot) : List Node → Result Expr
  | [] => .ok whole
  | node :: rest =>
    if node.slot == slot then Expr.ofNode s node else Expr.ofPart s whole slot rest

/-- The expression of the first node that is neither a mere token nor a comment, or of the whole if
there is none. -/
def Expr.ofFirst (s : Source) (whole : Expr) : List Node → Result Expr
  | [] => .ok whole
  | node :: rest =>
    if node.kind.isPassed then Expr.ofFirst s whole rest else Expr.ofNode s node

/-- The expressions of nodes, mere tokens and comments aside. -/
def Expr.ofEach (s : Source) : List Node → Result (List Expr)
  | [] => .ok []
  | node :: rest => do
    if node.kind.isPassed then Expr.ofEach s rest
    else
      let first ← Expr.ofNode s node
      return first :: (← Expr.ofEach s rest)

/-- The expressions of the arguments among the parts of a call. -/
def Expr.ofArguments (s : Source) : List Node → Result (List Expr)
  | [] => .ok []
  | ⟨_, slot, _, _, given⟩ :: rest =>
    if slot == .arguments then Expr.ofEach s given else Expr.ofArguments s rest

/-- The expressions in the holes of a template. -/
def Expr.ofHoles (s : Source) : List Node → Result (List Expr)
  | [] => .ok []
  | ⟨kind, _, start, _, inner⟩ :: rest => do
    if kind == .hole then
      let whole : Expr := .other (s.place start) "empty substitution" ""
      let first ← Expr.ofFirst s whole inner
      return first :: (← Expr.ofHoles s rest)
    else Expr.ofHoles s rest

end

/-- The template of a node. -/
def Template.ofNode (s : Source) (node : Node) : Result Template := do
  return ⟨node.place s, chunksOf s node, ← Expr.ofHoles s node.children⟩

/-! ### Entries -/

/-- The method that returns the template of a component. -/
structure EntryPoint where
  /-- The name in messages. -/
  title : String
  /-- The name of the function, unless it is given as something else than a text. -/
  name? : Option String

/-- A method with a name. -/
def EntryPoint.named (name : String) : EntryPoint := ⟨name, some name⟩

/-- The template that a component is rendered by. -/
structure Entry where
  place : Text.Place
  tag : String
  template : Template

namespace Entry

/-- The failure to find the template of a component. -/
def failure (component : Option String) (fault : EntryFault) : Failure :=
  .diagnosed ⟨.entry fault, { component }⟩

/-- The one template with a tag that the method of a script returns. -/
def ofSource (s : Source) (entryPoint : EntryPoint) (tag : String) (component : Option String)
    (parser : Parser := Script.parser) : Result Entry := do
  let some tree := parser.read s.chars | throw (failure component .syntaxError)
  match tree.candidates s ⟨entryPoint.name?, tag⟩ with
  | [] => throw (failure component (.noTemplate tag entryPoint.title))
  | [only] => return ⟨only.call.place s, tag, ← Template.ofNode s only.template⟩
  | several =>
    let lines := several.map fun candidate => (candidate.call.place s).line
    throw (failure component (.severalTemplates tag entryPoint.title lines))

/-- The one template with a tag that a method of a script returns. -/
def ofScript (script : String) (entryPoint : EntryPoint) (tag : String)
    (component : Option String) (parser : Parser := Script.parser) : Result Entry :=
  ofSource ⟨script.toList, 0⟩ entryPoint tag component parser

/-- What stands in front of the text of a template in a script that returns it. -/
def opening (entryPoint : EntryPoint) (tag : String) : List Char :=
  ("function " ++ entryPoint.title ++ "() \x7b return " ++ tag ++ "`").toList

/-- What stands behind the text of a template in a script that returns it. -/
def closing : List Char := "`; \x7d".toList

/-- The template whose text is given without the quotes around it. -/
def ofTemplate (text : String) (entryPoint : EntryPoint) (tag : String)
    (component : Option String) (parser : Parser := Script.parser) : Result Entry :=
  let front := opening entryPoint tag
  ofSource ⟨front ++ text.toList ++ closing, front.length⟩ entryPoint tag component parser

end Entry

end ServerTemplate
