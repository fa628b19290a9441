import ServerTemplate.Script.Lexeme
import ServerTemplate.Script.Node

/-!
# Reading scripts

A reader takes the characters that are left of a script and gives a result and the characters left
behind it, or fails. Readers are written over `Goal`s, the kinds of phrases that contain each other:
a reader of a phrase is given a reader of all goals for the phrases in it, and `read?` ties
the knot with a bound on the depth of nesting.

An expression may stand where a statement can end without a semicolon, or inside brackets, where
none can; `Ending` says which. Where one can end, a line break in front of the next lexeme may end
it.
-/

namespace ServerTemplate.Script

/-- What is left of a script. -/
structure Input where
  rest : List Char
  /-- Where what is left begins. -/
  offset : Point := {}
  /-- Whether a semicolon may follow that has to be written. The comment mark of a document does not
  stand in its place. -/
  mayEnd : Bool := false
  /-- The comments passed so far, the last one first. -/
  comments : List Node := []

/-- A reader of phrases. -/
abbrev Reader := StateT Input Option

/-- Whether a statement may end behind an expression without a semicolon. -/
inductive Ending where
  | statement
  | bracket
  deriving DecidableEq, Repr

/-- The phrases that contain each other. -/
inductive Goal where
  /-- An expression whose operators bind at least as strongly as the level says. -/
  | level (least : Nat) (ending : Ending)
  /-- One expression or several with commas between them. -/
  | expressions (ending : Ending)
  /-- An operand with the operators in front of it and behind it. -/
  | unary (ending : Ending)
  /-- A constructor behind `new` and its arguments. -/
  | construction
  /-- What a value is taken apart into or assigned to. -/
  | target
  | template
  | block
  | statement
  | element
  deriving DecidableEq, Repr

/-- One expression with all operators but commas. -/
abbrev Goal.expression (ending : Ending) : Goal := .level 1 ending

/-- A reader of the phrases that a phrase contains. -/
abbrev Within := Goal → Reader Node

namespace Reader

/-- Fails. -/
def fail {α : Type} : Reader α := fun _ => none

/-- Fails unless a condition holds. -/
def check (b : Bool) : Reader Unit := if b then pure () else fail

/-- The characters left. -/
def rest : Reader (List Char) := return (← get).rest

/-- The point reached. -/
def offset : Reader Point := return (← get).offset

/-- Passes characters between lexemes. -/
def passSpace (n : Nat) : Reader Unit :=
  modify fun i => { i with rest := i.rest.drop n, offset := i.offset.past (i.rest.take n) }

/-- Passes characters. -/
def pass (n : Nat) : Reader Unit := do
  passSpace n
  modify fun i => { i with mayEnd := false }

/-- Passes a comment and keeps it. -/
def passComment (kind : NodeKind) (n : Nat) : Reader Unit := do
  let start ← offset
  passSpace n
  modify fun i =>
    { i with comments := ⟨kind, .none, start, i.offset.octet, []⟩ :: i.comments }

/-- The result of a reader, if it does not fail. -/
def optionally {α : Type} (p : Reader α) : Reader (Option α) := fun i =>
  match p i with
  | some (a, i') => some (some a, i')
  | none => some (none, i)

/-- The result of a reader, or of another one where it fails. -/
def either {α : Type} (p q : Reader α) : Reader α := fun i => (p i).or (q i)

/-- The results of a reader as often as it does not fail and passes something. -/
def many {α : Type} (p : Reader α) : Reader (List α) := do
  let rec go : Nat → Reader (List α)
    | 0 => return []
    | fuel + 1 => fun i =>
      match p i with
      | none => some ([], i)
      | some (a, i') =>
        if i'.rest.length < i.rest.length then ((a :: ·) <$> go fuel) i' else some ([a], i')
  go ((← rest).length + 1)

/-- Repeats a step on a value as long as it gives a new one. -/
def chain {α : Type} (step : α → Reader (Option α)) (start : α) : Reader α := do
  let rec go : Nat → α → Reader α
    | 0, a => return a
    | fuel + 1, a => do
      match ← step a with
      | some a' => go fuel a'
      | none => return a
  go ((← rest).length + 1) start

/-! ### Lexemes -/

/-- Passes white space and comments, and comments of a document if they are allowed here. -/
def skip (lineComments : Bool) : Reader Unit := do
  let rec go : Nat → Reader Unit
    | 0 => pure ()
    | fuel + 1 => do
      let i ← get
      passSpace (i.rest.takeWhile isSpace).length
      let i ← get
      match commentLength? i.rest with
      | some length =>
        passComment .comment length
        go fuel
      | none =>
        if lineComments && !i.mayEnd then
          match lineCommentLength? i.rest with
          | some length =>
            passComment .lineComment length
            go fuel
          | none => pure ()
        else pure ()
  go ((← rest).length + 1)

/-- The operators and brackets, of which the longest that fits is read. -/
def punctuation : List String :=
  [">>>=", "===", "!==", "**=", "<<=", ">>=", ">>>", "&&=", "||=", "??=", "=>", "==", "!=",
    "<=", ">=", "&&", "||", "??", "?.", "++", "--", "+=", "-=", "*=", "/=", "%=", "&=", "|=", "^=",
    "<<", ">>", "**", "\x7b", "\x7d", "(", ")", "[", "]", ";", ",", "<", ">", "+", "-", "*", "/",
    "%", "&", "|", "^", "!", "~", "?", ":", "=", ".", "@"]

/-- The operator or bracket that the characters begin with. A point in front of a digit is part of a
number. -/
def punctuator? (cs : List Char) : Option String :=
  match cs with
  | '?' :: '.' :: d :: _ => if d.isDigit then some "?" else some "?."
  | '.' :: d :: rest =>
    if d.isDigit then none
    else if d == '.' && rest.head? == some '.' then some "..." else some "."
  | _ => punctuation.find? fun word => word.toList.isPrefixOf cs

/-- The result of a reader, without passing anything. -/
def ahead {α : Type} (p : Reader α) : Reader α := fun i => (p i).map fun r => (r.1, i)

/-- The operator or bracket that comes next behind an operand, without passing anything. -/
def nextPunctuator? : Reader (Option String) :=
  ahead do
    skip false
    return punctuator? (← rest)

/-- Passes an operator or bracket behind an operand. -/
def punctuator (word : String) : Reader Unit := do
  skip false
  check (punctuator? (← rest) == some word)
  pass word.length

/-- Passes an operator or bracket where no operand stands in front. -/
def opening (word : String) : Reader Unit := do
  skip true
  check (punctuator? (← rest) == some word)
  pass word.length

/-- The word that begins here. -/
def wordHere? : Reader (Option String) := do
  let cs ← rest
  return (nameLength? cs).map fun length => String.ofList (cs.take length)

/-- The word that comes next, without passing anything. -/
def nextWord? : Reader (Option String) :=
  ahead do
    skip true
    wordHere?

/-- Passes a certain word. -/
def word (w : String) : Reader Unit := do
  skip true
  check ((← wordHere?) == some w)
  pass w.length

/-- Passes a certain word if it comes next, and says whether it did. -/
def optionalWord (w : String) : Reader Bool := return (← optionally (word w)).isSome

/-- Passes a certain operator or bracket if it comes next, and says whether it did. -/
def optionalPunctuator (w : String) : Reader Bool := return (← optionally (punctuator w)).isSome

/-! ### Nodes -/

/-- The node of a kind that begins at a point and ends here. -/
def close (kind : NodeKind) (start : Point) (children : List Node) : Reader Node :=
  return ⟨kind, .none, start, (← offset).octet, children⟩

/-- A node without children, of a given length. -/
def leaf (kind : NodeKind) (length : Nat) : Reader Node := do
  let start ← offset
  pass length
  close kind start []

/-- The words that are no names. -/
def reservedWords : List String :=
  ["break", "case", "catch", "class", "const", "continue", "debugger", "default", "delete", "do",
    "else", "export", "extends", "false", "finally", "for", "function", "if", "import", "in",
    "instanceof", "new", "null", "return", "super", "switch", "this", "throw", "true", "try",
    "typeof", "var", "void", "while", "with"]

/-- A name that is bound: any word that is not reserved. -/
def bindingName : Reader Node := do
  skip true
  match ← wordHere? with
  | some w =>
    check (!reservedWords.contains w)
    leaf .identifier w.length
  | none => fail

/-- A name that stands where other words stand as well: any word. -/
def anyWord (kind : NodeKind) : Reader Node := do
  skip true
  match ← wordHere? with
  | some w => leaf kind w.length
  | none => fail

/-- A private name. -/
def privateName : Reader Node := do
  skip true
  match ← rest with
  | '#' :: cs =>
    match nameLength? cs with
    | some length => leaf .privateName (length + 1)
    | none => fail
  | _ => fail

/-! ### The end of statements -/

/-- Whether a statement may end here without a semicolon. -/
def statementEnds (operatorPossible : Bool) : Reader Bool := do
  let cs ← rest
  return endsStatement operatorPossible (cs.length + 1) cs

/-- Whether an expression ends here because the statement does. -/
def ends (ending : Ending) : Reader Bool := do
  if ending == .statement then statementEnds true else return false

/-- Passes the end of a statement: a semicolon, or nothing where a statement ends without one. -/
def semicolon (operatorPossible : Bool) : Reader Unit := do
  if ← statementEnds operatorPossible then pure () else punctuator ";"

/-- Notes that a statement may end here, if it does not do so without a semicolon. -/
def markEnd : Reader Unit := do
  let ended ← statementEnds false
  modify fun i => { i with mayEnd := !ended }

/-! ### Lists -/

/-- Items of a list with commas between them, up to a closing bracket. An item may be missing. -/
def commaList (item : Reader Node) (closing : String) : Reader (List Node) := do
  let rec go : Nat → Reader (List Node)
    | 0 => fail
    | fuel + 1 => do
      let found ← optionally item
      if ← optionalPunctuator "," then return found.toList ++ (← go fuel)
      punctuator closing
      return found.toList
  go ((← rest).length + 1)

/-- Items with commas between them, at least one. -/
def commaSeparated (item : Reader Node) : Reader (List Node) := do
  let first ← item
  let more ← many do
    punctuator ","
    item
  return first :: more

end Reader

end ServerTemplate.Script
