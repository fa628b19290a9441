import ServerTemplate.Script.Pattern

/-!
# Functions, methods, lists and records of a script

Functions with the word `function`, arrow functions, and methods; lists and records, which may hold
methods, and the arguments of calls.

Behind an arrow a brace opens a block. Only if the block would begin with a label, or is none, it
opens a record.
-/

namespace ServerTemplate.Script.Reader

/-! ### Functions -/

/-- A function from the word `function` on; the whole begins at `start`. It is of the second kind if
a star makes it a generator. -/
def functionFrom (within : Within) (start : Point) (plain starred : NodeKind) : Reader Node := do
  word "function"
  let kind := if ← optionalPunctuator "*" then starred else plain
  let name ← optionally bindingName
  let parameters ← formalParameters within
  let body ← within .block
  close kind start (name.toList.map (Node.asPart .name)
    ++ [parameters.asPart .parameters, body.asPart .body])

/-- Whether a block begins with a label. -/
def beginsLabeled (block : Node) : Bool :=
  block.children.head?.any fun statement => statement.kind == .labeledStatement

/-- The body of an arrow function. -/
def arrowBody (within : Within) (ending : Ending) : Reader Node := do
  skip true
  let before ← get
  match ← rest with
  | '\x7b' :: _ =>
    match ← optionally (within .block) with
    | some body =>
      if beginsLabeled body then
        let behind ← get
        set before
        match ← optionally (within (.expression ending)) with
        | some value => return value
        | none =>
          set behind
          return body
      else return body
    | none => within (.expression ending)
  | _ => within (.expression ending)

/-- An arrow function behind its parameters. -/
def arrowFrom (within : Within) (ending : Ending) (start : Point) (parameters : Node) :
    Reader Node := do
  punctuator "=>"
  let body ← arrowBody within ending
  close .arrow start [parameters, body.asPart .body]

/-- An arrow function with parameters in parentheses. -/
def arrow (within : Within) (ending : Ending) (start : Point) : Reader Node := do
  let parameters ← formalParameters within
  arrowFrom within ending start (parameters.asPart .parameters)

/-- Whether a word can stand alone for a variable. -/
def isVariable (w : String) : Bool :=
  (!reservedWords.contains w || contextualWords.contains w) && w != "await" && w != "yield"

/-- The name of a variable. -/
def variableName : Reader Node := do
  skip true
  match ← wordHere? with
  | some w =>
    check (isVariable w)
    leaf (if w == "undefined" then .undefined else .identifier) w.length
  | none => fail

/-- A variable, or an arrow function with one parameter. -/
def variableOrArrow (within : Within) (ending : Ending) (start : Point) : Reader Node := do
  let name ← variableName
  if name.kind == .identifier && (← nextPunctuator?) == some "=>" then
    arrowFrom within ending start (name.asPart .parameter)
  else return name

/-- The parameters of an asynchronous arrow function up to the arrow, or nothing in front of the
word `function`. -/
def asynchronousHead (within : Within) (ending : Ending) : Reader (Option Node) := do
  word "async"
  check (!(← ends ending))
  if (← nextWord?) == some "function" then return none
  else
    let parameters ←
      match ← optionally variableName with
      | some name =>
        check (name.kind == .identifier)
        pure (name.asPart .parameter)
      | none => Node.asPart .parameters <$> formalParameters within
    check ((← nextPunctuator?) == some "=>")
    return some parameters

/-- What begins with the word `async`: a function, an arrow function, or a variable of that name. -/
def asynchronous (within : Within) (ending : Ending) (start : Point) : Reader Node := do
  match ← optionally (asynchronousHead within ending) with
  | some none => functionFrom within start .function .generator
  | some (some parameters) => arrowFrom within ending start parameters
  | none => variableOrArrow within ending start

/-! ### Methods -/

/-- A word in front of the name of a method or field. In a class it is none if the member may end
behind it. -/
def modifier (inClass : Bool) (w : String) : Reader Unit := do
  word w
  check (!(inClass && (← statementEnds false)))

/-- What a reader gives behind as many marks in front as fit. -/
def behindMarks {α : Type} (marks : List (Reader Unit)) (p : Reader α) : Reader α :=
  marks.foldr (fun mark p => either (do mark; p) p) p

/-- A method of a class or record. -/
def method (within : Within) (inClass : Bool) : Reader Node := do
  skip true
  let start ← offset
  let access :=
    either (modifier inClass "get") (either (modifier inClass "set") (opening "*"))
  behindMarks [modifier inClass "static", modifier inClass "async", access] do
    let name ← propertyName within
    let parameters ← formalParameters within
    let body ← within .block
    close .method start
      [name.asPart .name, parameters.asPart .parameters, body.asPart .body]

/-! ### Lists and records -/

/-- A value of which all items are taken. -/
def spread (within : Within) : Reader Node := do
  skip true
  let start ← offset
  opening "..."
  let inner ← within (.expression .bracket)
  close .spread start [inner]

/-- An item of a list or an argument. -/
def item (within : Within) : Reader Node :=
  either (spread within) (within (.expression .bracket))

/-- A list. -/
def array (within : Within) : Reader Node := do
  skip true
  let start ← offset
  opening "["
  let items ← commaList (item within) "]"
  close .array start items

/-- The arguments of a call. -/
def arguments (within : Within) : Reader Node := do
  skip false
  let start ← offset
  punctuator "("
  let items ← commaList (item within) ")"
  close .arguments start items

/-- A property with its value. -/
def pair (within : Within) : Reader Node := do
  skip true
  let start ← offset
  let name ← propertyName within
  punctuator ":"
  let value ← within (.expression .bracket)
  close .pair start [name.asPart .name, value.asPart .value]

/-- A record. -/
def object (within : Within) : Reader Node := do
  skip true
  let start ← offset
  opening "\x7b"
  let member :=
    either (spread within) (either (pair within) (either (method within false) shorthand))
  let members ← commaList member "\x7d"
  close .object start members

end ServerTemplate.Script.Reader
