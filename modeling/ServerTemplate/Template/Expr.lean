import ServerTemplate.Number.Shortest
import ServerTemplate.Text.CodeUnit
import ServerTemplate.Text.Lines

/-!
# Templates and their expressions

A template is literal text with holes in it: the texts between the holes, and an expression in each
hole. The expressions are those that a conversion knows; any other construct is kept as `other`,
with a name for messages, so that the conversion can refuse it where it stands.
-/

namespace ServerTemplate

/-- The value of a constant. -/
inductive Constant where
  | null
  | bool (value : Bool)
  | int (value : Int)
  | float (value : Binary64)
  | text (value : String)
  /-- A text that has halves of pairs in it, by its code points. In the output it is known only as
  what its code units spell, in which the halves of a pair are one character. -/
  | halves (points : List Nat)
  deriving DecidableEq, Repr

namespace Constant

/-- The text with the given code points. -/
def ofPoints (points : List Nat) : Constant :=
  if points.any Text.isHalf then halves points
  else text (String.ofList (points.map Char.ofNat))

/-- The text of code points among which are halves of pairs. -/
def joined (points : List Nat) : String := String.ofList (Text.joinPairs points)

end Constant

/-- An expression and the place where it begins. -/
inductive Expr where
  /-- A bare name. -/
  | name (place : Text.Place) (name : String)
  /-- The component itself. -/
  | this (place : Text.Place)
  /-- A property of a value. It is optional if it may be read of nothing. -/
  | member (place : Text.Place) (object : Expr) (property : String) (optional : Bool)
  | call (place : Text.Place) (callee : Expr) (arguments : List Expr)
  /-- An arrow function whose body is an expression. -/
  | arrow (place : Text.Place) (parameters : List String) (body : Expr)
  /-- A comparison or an arithmetic operation. -/
  | binary (place : Text.Place) (operator : String) (left right : Expr)
  | logical (place : Text.Place) (operator : String) (left right : Expr)
  | conditional (place : Text.Place) (test consequent alternate : Expr)
  /-- An expression in parentheses. -/
  | group (place : Text.Place) (inner : Expr)
  /-- A constant and how it is spelled, if that is known. -/
  | constant (place : Text.Place) (value : Constant) (spelling : String)
  /-- A template without a tag: its texts and the expressions between them. -/
  | template (place : Text.Place) (chunks : List String) (holes : List Expr)
  /-- A template with a tag. -/
  | tagged (place : Text.Place) (tag : String) (templatePlace : Text.Place)
      (chunks : List String) (holes : List Expr)
  /-- Any other construct: its kind and its source. -/
  | other (place : Text.Place) (kind source : String)

namespace Expr

instance : Inhabited Expr := ⟨this ⟨1, 0⟩⟩

/-- Where an expression begins. -/
def place : Expr → Text.Place
  | name place _ | this place | member place .. | call place .. | arrow place ..
  | binary place .. | logical place .. | conditional place .. | group place _
  | constant place .. | template place .. | tagged place .. | other place .. => place

/-- What a message calls an expression. -/
def description : Expr → String
  | name .. => "Name"
  | this _ => "this"
  | member .. => "Getattr"
  | call .. => "Call"
  | arrow .. => "Arrow"
  | binary .. => "BinOp"
  | logical .. => "BoolOp"
  | conditional .. => "CondExpr"
  | group .. => "Group"
  | constant .. => "Const"
  | template .. => "TemplateLiteral"
  | tagged .. => "TaggedTemplate"
  | other _ kind _ => kind

/-- What a message calls the callee of a call: names and properties are spelled out. -/
def calleeText : Expr → String
  | member _ object property _ => object.calleeText ++ "." ++ property
  | this _ => "this"
  | name _ spelled => spelled
  | other .. => "Opaque"
  | e => e.description

/-- The expression without the parentheses around it. -/
def ungrouped : Expr → Expr
  | group _ inner => inner.ungrouped
  | e => e

/-- Whether an expression is a template with the given tag, parentheses aside. -/
def isMarkup (tag : String) (e : Expr) : Bool :=
  match e.ungrouped with
  | tagged _ tag' _ _ _ => tag' == tag
  | _ => false

/-- Whether an expression is the empty text, parentheses aside. -/
def isEmptyText (e : Expr) : Bool :=
  match e.ungrouped with
  | constant _ (.text s) _ => s == ""
  | _ => false

end Expr

/-- A template that is to be converted. -/
structure Template where
  place : Text.Place := ⟨1, 0⟩
  /-- The texts before, between and behind the holes. -/
  chunks : List String
  /-- The expressions in the holes. -/
  holes : List Expr

end ServerTemplate
