import ServerTemplate.Script.Class

/-!
# Expressions

An operand, what may follow it, the operators in front of it, and the operators between two. An
operator binds more strongly the higher its level is; operators of one level group from the left,
powers alone from the right. A conditional is of the lowest level, like the choice of a default.

An assignment binds its left side like an operand, and all that follows on its right side.
-/

namespace ServerTemplate.Script.Reader

/-! ### Operands -/

/-- Expressions in parentheses, of which there is at least one. -/
def parenthesized (within : Within) : Reader Node := do
  skip true
  let start ← offset
  opening "("
  let inner ← within (.expressions .bracket)
  punctuator ")"
  close .parenthesized start [inner]

/-- An expression in parentheses, or an arrow function whose parameters are in parentheses. -/
def parenthesizedOrArrow (within : Within) (ending : Ending) (start : Point) : Reader Node := do
  let before ← get
  match ← optionally (parenthesized within) with
  | some node =>
    if (← nextPunctuator?) == some "=>" then
      set before
      arrow within ending start
    else return node
  | none => arrow within ending start

/-- The operand that begins with a word. -/
def wordOperand (within : Within) (ending : Ending) (start : Point) (w : String) : Reader Node :=
  match w with
  | "this" => leaf .this 4
  | "super" => leaf .super 5
  | "true" => leaf .true 4
  | "false" => leaf .false 5
  | "null" => leaf .null 4
  | "import" => leaf .importWord 6
  | "new" => within .construction
  | "function" => functionFrom within start .function .generator
  | "class" => classFrom within start .classExpression []
  | "async" => asynchronous within ending start
  | _ => variableOrArrow within ending start

/-- An operand without anything behind it. -/
def operand (within : Within) (ending : Ending) : Reader Node := do
  skip true
  let start ← offset
  match ← wordHere? with
  | some w => wordOperand within ending start w
  | none =>
    match ← rest with
    | '(' :: _ => parenthesizedOrArrow within ending start
    | '[' :: _ => array within
    | '\x7b' :: _ => object within
    | '\x60' :: _ => within .template
    | '\x22' :: _ | '\x27' :: _ => string
    | '/' :: _ => regex
    | '<' :: _ => within .element
    | '@' :: _ =>
      let decorators ← many (decorator within)
      classFrom within start .classExpression decorators
    | _ => number

/-! ### Behind an operand -/

/-- Whether an operand is complete in itself, so that a template may follow it. -/
def isPrimary : NodeKind → Bool
  | .identifier | .undefined | .this | .super | .number | .string | .template | .regex | .true
  | .false | .null | .object | .array | .function | .generator | .classExpression | .metaProperty
  | .call | .member | .subscript | .parenthesized => Bool.true
  | _ => Bool.false

/-- The name of a property behind a dot. -/
def memberName : Reader Node := either privateName (anyWord .propertyName)

/-- A property of a value, read behind the dot. -/
def memberFrom (left : Node) (marks : List Node) : Reader Node := do
  let name ← memberName
  close .member left.start (left.asPart .object :: marks ++ [name.asPart .property])

/-- An item of a value, read from the bracket on. -/
def subscriptFrom (within : Within) (left : Node) (marks : List Node) : Reader Node := do
  check (left.kind != .importWord)
  punctuator "["
  let index ← within (.expressions .bracket)
  punctuator "]"
  close .subscript left.start (left.asPart .object :: marks ++ [index])

/-- A call of a value, read from the parenthesis on. -/
def callFrom (within : Within) (left : Node) (marks : List Node) : Reader Node := do
  let given ← arguments within
  close .call left.start (left.asPart .callee :: marks ++ [given.asPart .arguments])

/-- What may follow an operand. -/
structure Suffixes where
  calls : Bool
  updates : Bool
  ending : Ending

/-- The property, item, call or change of a value that follows it, if there is one. -/
def suffix (within : Within) (allowed : Suffixes) (left : Node) : Reader (Option Node) := do
  match ← nextPunctuator? with
  | some "." =>
    punctuator "."
    if left.kind == .importWord && (← optionalWord "meta") then
      some <$> close .metaProperty left.start []
    else some <$> memberFrom left []
  | some "?." =>
    punctuator "?."
    let stop ← offset
    let mark : Node := ⟨.optionalMark, .none, ⟨stop.octet - 2, stop.row⟩, stop.octet, []⟩
    match ← nextPunctuator? with
    | some "(" =>
      check (isPrimary left.kind)
      some <$> callFrom within left [mark]
    | some "[" => some <$> subscriptFrom within left [mark]
    | _ => some <$> memberFrom left [mark]
  | some "[" => some <$> subscriptFrom within left []
  | some "(" => if allowed.calls then some <$> callFrom within left [] else return none
  | some "++" | some "--" =>
    if !allowed.updates || (← ends allowed.ending) then return none
    else
      skip false
      pass 2
      some <$> close .update left.start [left]
  | some _ => return none
  | none =>
    let isTemplate ← ahead do
      skip false
      return (← rest).head? == some '\x60'
    if isTemplate && (isPrimary left.kind || left.kind == .construction) then
      skip false
      let text ← within .template
      some <$> close .call left.start [left.asPart .callee, text.asPart .arguments]
    else return none

/-- An operand with all that follows it. -/
def operandChain (within : Within) (allowed : Suffixes) : Reader Node := do
  let node ← chain (suffix within allowed) (← operand within allowed.ending)
  check (node.kind != .importWord)
  return node

/-- A constructor behind `new` and its arguments, if there are any. The constructor is no call. -/
def construction (within : Within) : Reader Node := do
  skip true
  let start ← offset
  word "new"
  if ← optionalPunctuator "." then
    word "target"
    close .metaProperty start []
  else
    let constructed ← operandChain within ⟨false, false, .bracket⟩
    check (isPrimary constructed.kind || constructed.kind == .construction)
    let given ← optionally (arguments within)
    close .construction start (constructed :: given.toList)

/-- What a value is taken apart into or assigned to: a pattern, a variable, or a property or item of
something that begins with a word. -/
def target (within : Within) : Reader Node := do
  skip true
  let before ← get
  let place : Reader Node := do
    let node ← operandChain within ⟨true, false, .bracket⟩
    check ([.identifier, .undefined, .member, .subscript].contains node.kind)
    return node
  match ← rest with
  | '\x7b' :: _ | '[' :: _ =>
    let pattern ← destructuring within
    match ← nextPunctuator? with
    | some "." | some "?." | some "[" | some "(" =>
      set before
      place
    | _ => return pattern
  | _ =>
    check (((← wordHere?).map fun w => isVariable w || w == "this" || w == "super").getD false)
    place

/-! ### Assignments -/

/-- The operators that change a variable by its value. -/
def augmentingOperators : List String :=
  ["+=", "-=", "*=", "/=", "%=", "^=", "&=", "|=", ">>=", ">>>=", "<<=", "**=", "&&=", "||=", "??="]

/-- Whether something may stand on the left of an assignment as it is. -/
def isAssignable (kind : NodeKind) : Bool :=
  [.identifier, .undefined, .member, .subscript, .parenthesized].contains kind

/-- The assignment of a value to what stands on the left, read from the operator on. -/
def assignmentFrom (within : Within) (ending : Ending) (kind : NodeKind) (operator : String)
    (left : Node) : Reader Node := do
  punctuator operator
  let right ← within (.expression ending)
  close kind left.start [left.asPart .left, right.asPart .right]

/-- An assignment to a pattern. -/
def patternAssignment (within : Within) (ending : Ending) : Reader Node := do
  assignmentFrom within ending .assignment "=" (← destructuring within)

/-- An operand with all that follows it, or an assignment to it. -/
def assigned (within : Within) (allowed : Suffixes) : Reader Node := do
  skip true
  let before ← get
  match ← optionally (operandChain within allowed) with
  | some left =>
    match ← nextPunctuator? with
    | some "=" =>
      if isAssignable left.kind then
        assignmentFrom within allowed.ending .assignment "=" left
      else if left.kind == .array || left.kind == .object then
        set before
        patternAssignment within allowed.ending
      else return left
    | some operator =>
      if augmentingOperators.contains operator && isAssignable left.kind
          && left.kind != .undefined then
        assignmentFrom within allowed.ending .augmentedAssignment operator left
      else return left
    | none => return left
  | none =>
    match ← rest with
    | '\x7b' :: _ | '[' :: _ => patternAssignment within allowed.ending
    | _ => fail

/-! ### Operators in front -/

/-- The operators in front of an operand. -/
def isPrefixSign (sign : String) : Bool := ["!", "~", "-", "+"].contains sign

/-- The words that are operators in front of an operand. -/
def isPrefixWord (w : String) : Bool := ["typeof", "void", "delete"].contains w

/-- A value that a generator gives, or takes from another one. -/
def yielded (within : Within) (ending : Ending) (start : Point) : Reader Node := do
  word "yield"
  if ← ends ending then close .yield start []
  else if ← optionalPunctuator "*" then
    let value ← within (.expression ending)
    close .yield start [value]
  else
    let value ← optionally (within (.expression ending))
    close .yield start value.toList

/-- The operand of an operator of a given length in front of it. -/
def operated (within : Within) (ending : Ending) (kind : NodeKind) (start : Point)
    (length : Nat) :
    Reader Node := do
  let sign ← leaf .operator length
  let argument ← within (.unary ending)
  close kind start [sign, argument]

/-- An operand whose value is changed first. -/
def updated (within : Within) (ending : Ending) (start : Point) : Reader Node := do
  let sign ← leaf .operator 2
  skip true
  let isOperator :=
    ((← wordHere?).map fun w => isPrefixWord w || w == "await" || w == "yield").getD false
      || ((punctuator? (← rest)).map fun sign =>
        isPrefixSign sign || sign == "++" || sign == "--").getD false
  let argument ←
    if isOperator then within (.unary ending) else assigned within ⟨true, false, ending⟩
  chain (suffix within ⟨true, true, ending⟩) (← close .update start [sign, argument])

/-- An operand with the operators in front of it and all that follows it. -/
def unary (within : Within) (ending : Ending) : Reader Node := do
  skip true
  let start ← offset
  match ← wordHere? with
  | some "await" => operated within ending .await start 5
  | some "yield" => yielded within ending start
  | some w =>
    if isPrefixWord w then operated within ending .unary start w.length
    else assigned within ⟨true, true, ending⟩
  | none =>
    match punctuator? (← rest) with
    | some sign =>
      if sign == "++" || sign == "--" then updated within ending start
      else if isPrefixSign sign then operated within ending .unary start 1
      else assigned within ⟨true, true, ending⟩
    | none => assigned within ⟨true, true, ending⟩

/-! ### Operators between two operands -/

/-- How strongly an operator between two operands binds. -/
def operatorLevel? (operator : String) : Option Nat :=
  match operator with
  | "??" => some 1
  | "||" => some 2
  | "&&" => some 3
  | "|" => some 4
  | "^" => some 5
  | "&" => some 6
  | "==" | "!=" | "===" | "!==" => some 7
  | "<" | ">" | "<=" | ">=" | "in" | "instanceof" => some 8
  | "<<" | ">>" | ">>>" => some 9
  | "+" | "-" => some 10
  | "*" | "/" | "%" => some 11
  | "**" => some 12
  | _ => none

/-- The least level on the right of an operator of a level: powers group from the right. -/
def rightLevel (level : Nat) : Nat := if level = 12 then 12 else level + 1

/-- The operator between two operands that begins here. -/
def operatorHere? : Reader (Option (String × Nat)) := do
  let word? ← wordHere?
  let found? := word?.or (punctuator? (← rest))
  return found?.bind fun operator => (operatorLevel? operator).map fun level => (operator, level)

/-- The branches of a conditional, read from the question mark on. -/
def conditionalFrom (within : Within) (ending : Ending) (test : Node) : Reader Node := do
  pass 1
  let consequence ← within (.expression .bracket)
  punctuator ":"
  let alternative ← within (.expression ending)
  close .ternary test.start
    [test.asPart .condition, consequence.asPart .consequence, alternative.asPart .alternative]

/-- The operation on a value by an operator of at least a given level that follows it, if there is
one. -/
def operation (within : Within) (least : Nat) (ending : Ending) (left : Node) :
    Reader (Option Node) := do
  if ← ends ending then return none
  let found? ← ahead do
    skip false
    operatorHere?
  match found? with
  | some (operator, level) =>
    if level < least then return none
    skip false
    let sign ← leaf .operator operator.length
    let right ← within (.level (rightLevel level) ending)
    some <$> close .binary left.start
      [left.asPart .left, sign.asPart .operator, right.asPart .right]
  | none =>
    let cs ← rest
    if least ≤ 1 && conditionalFollows (cs.length + 1) cs then
      skip false
      some <$> conditionalFrom within ending left
    else return none

/-- An expression whose operators bind at least as strongly as the level says. In front of the word
`in` a private name may stand for an operand. -/
def level (within : Within) (least : Nat) (ending : Ending) : Reader Node := do
  skip true
  let first ←
    match ← rest with
    | '#' :: _ =>
      let name ← privateName
      let next ← ahead do
        skip false
        wordHere?
      check (least ≤ 8 && next == some "in")
      pure name
    | _ => within (.unary ending)
  chain (operation within least ending) first

/-- One expression or several with commas between them. -/
def expressions (within : Within) (ending : Ending) : Reader Node := do
  let all ← commaSeparated (within (.expression ending))
  match all with
  | [only] => return only
  | first :: _ => close .sequence first.start all
  | [] => fail

end ServerTemplate.Script.Reader
