/-!
# Expressions of server code

The part of the server language's expressions that conditions are written in, in its eighth version:
reads of variables and of their elements, constants, calls with one argument, parentheses, operators
between two operands, and conditionals. `Tree` is such an expression, `Tree.tokens` how it is
written, and `Tree.Legal` says that the rules for precedence and grouping give it this structure.

Operators of one level group from the left, except `??` and `**`, which group from the right, and
equalities, comparisons and conditionals, which do not group at all. A rule is about the operators
at the edges of an operand: an operand may end in an operator that binds more loosely than the one
behind it only inside parentheses. `instanceof` is closed on its right, where a class must stand.
-/

namespace ServerTemplate.Server

/-- A lexeme. The word `instanceof` is a sign. -/
inductive Token where
  | var (name : String)
  | word (name : String)
  | numeral (spelling : String)
  /-- A text in single quotes. -/
  | quoted (content : String)
  /-- An operator or a bracket. -/
  | sign (spelling : String)
  deriving DecidableEq, Repr

/-! ### Precedence -/

/-- How strongly an operator between two operands binds. -/
def level? (operator : String) : Option Nat :=
  match operator with
  | "??" => some 1
  | "||" => some 2
  | "&&" => some 3
  | "|" => some 4
  | "^" => some 5
  | "&" => some 6
  | "==" | "!=" | "===" | "!==" => some 7
  | "<" | "<=" | ">" | ">=" => some 8
  | "<<" | ">>" => some 9
  | "+" | "-" => some 10
  | "*" | "/" | "%" => some 11
  | "instanceof" => some 12
  | "**" => some 13
  | _ => none

/-- The level of conditionals. -/
def choiceLevel : Nat := 0

/-- The level of what has no operator at its edge. -/
def closedLevel : Nat := 14

/-- Whether operators of a level group from the right. -/
def groupsRight (level : Nat) : Bool := level == 1 || level == 13

/-- Whether operators of a level group from the left. -/
def groupsLeft (level : Nat) : Bool :=
  !groupsRight level && level != choiceLevel && level != 7 && level != 8

/-- The least level of the operators that an operand on the left may end in. -/
def leftLeast (level : Nat) : Nat := if groupsLeft level then level else level + 1

/-- The least level of the operators that an operand on the right may begin with. On the right of
`instanceof` there is none. -/
def rightLeast (level : Nat) : Nat :=
  if level = 12 then closedLevel else if groupsRight level then level else level + 1

theorem le_leftLeast (level : Nat) : level ≤ leftLeast level := by
  unfold leftLeast
  split <;> omega

/-- Operators of one level do not group in both ways. -/
theorem leftLeast_of_groupsRight {level : Nat} (h : groupsRight level = true) :
    leftLeast level = level + 1 := by
  rw [leftLeast, groupsLeft, h]
  rfl

/-- An operand that may be followed by an operator is complete in front of it. -/
theorem lt_rightLeast {level other : Nat} (least : leftLeast level ≤ other)
    (bound : level < closedLevel) : level < rightLeast other := by
  have le := Nat.le_trans (le_leftLeast level) least
  unfold rightLeast
  split
  · exact bound
  split
  · rename_i right
    refine Nat.lt_of_le_of_ne le fun same => ?_
    rw [← same] at right least
    rw [leftLeast_of_groupsRight right] at least
    omega
  · omega

theorem lt_closedLevel {operator : String} {level : Nat} (h : level? operator = some level) :
    level < closedLevel := by
  unfold level? at h
  split at h <;> cases h <;> decide

theorem leftLeast_le {level bound : Nat} (h : level < bound) : leftLeast level ≤ bound := by
  unfold leftLeast
  split <;> omega

/-- The level of the operator that a token is. -/
def Token.level? : Token → Option Nat
  | sign spelling => if spelling = "?" then some choiceLevel else Server.level? spelling
  | _ => none

theorem Token.level?_sign {operator : String} {level : Nat}
    (h : Server.level? operator = some level) : (sign operator).level? = some level := by
  rw [Token.level?, if_neg, h]
  rintro rfl
  cases h

theorem Token.lt_closedLevel {token : Token} {level : Nat} (h : token.level? = some level) :
    level < closedLevel := by
  cases token with
  | sign spelling =>
    rw [Token.level?] at h
    split at h
    · cases h
      decide
    · exact Server.lt_closedLevel h
  | _ => cases h

/-! ### Expressions -/

/-- An expression. -/
inductive Tree where
  | var (name : String)
  /-- An element of an array in a variable. -/
  | element (array key : String)
  | constant (name : String)
  | numeral (spelling : String)
  | quoted (content : String)
  | call (function : String) (argument : Tree)
  | parens (inner : Tree)
  | binary (operator : String) (left right : Tree)
  | conditional (test consequent alternate : Tree)
  deriving DecidableEq, Repr

namespace Tree

/-- How an expression is written. -/
def tokens : Tree → List Token
  | var name => [.var name]
  | element array key => [.var array, .sign "[", .quoted key, .sign "]"]
  | constant name => [.word name]
  | numeral spelling => [.numeral spelling]
  | quoted content => [.quoted content]
  | call function argument => .word function :: .sign "(" :: (argument.tokens ++ [.sign ")"])
  | parens inner => .sign "(" :: (inner.tokens ++ [.sign ")"])
  | binary operator left right => left.tokens ++ .sign operator :: right.tokens
  | conditional test consequent alternate =>
    test.tokens ++ .sign "?" :: (consequent.tokens ++ .sign ":" :: alternate.tokens)

/-- The least level of the operators whose left operand an expression begins with. -/
def leftOpen : Tree → Nat
  | binary operator left _ => min ((level? operator).getD closedLevel) left.leftOpen
  | conditional .. => choiceLevel
  | _ => closedLevel

/-- The least level of the operators whose right operand an expression ends with. -/
def rightOpen : Tree → Nat
  | binary operator _ right =>
    if operator = "instanceof" then closedLevel
    else min ((level? operator).getD closedLevel) right.rightOpen
  | conditional .. => choiceLevel
  | _ => closedLevel

/-- Whether an expression may stand for a class. -/
def isClass : Tree → Bool
  | var _ | element .. | parens _ => true
  | constant name => !(["true", "false", "null"].contains name)
  | _ => false

theorem leftOpen_of_isClass {tree : Tree} (h : tree.isClass = true) :
    tree.leftOpen = closedLevel := by
  cases tree <;> first | rfl | cases h

theorem rightOpen_of_isClass {tree : Tree} (h : tree.isClass = true) :
    tree.rightOpen = closedLevel := by
  cases tree <;> first | rfl | cases h

/-- Whether an expression has its structure by the rules for precedence and grouping. -/
def Legal : Tree → Prop
  | var _ | element .. | constant _ | numeral _ | quoted _ => True
  | call _ argument => argument.Legal
  | parens inner => inner.Legal
  | binary operator left right =>
    (∃ level, level? operator = some level ∧ leftLeast level ≤ left.rightOpen ∧
      rightLeast level ≤ right.leftOpen) ∧ (operator = "instanceof" → right.isClass = true) ∧
      left.Legal ∧ right.Legal
  | conditional test consequent alternate =>
    leftLeast choiceLevel ≤ test.rightOpen ∧ rightLeast choiceLevel ≤ alternate.leftOpen ∧
      test.Legal ∧ consequent.Legal ∧ alternate.Legal

end Tree

end ServerTemplate.Server
