import ServerTemplate.Script.Element

/-!
# Statements

A statement ends with a semicolon, or without one where a line, a block or the script ends. A brace
where a statement begins opens a block if it can.
-/

namespace ServerTemplate.Script.Reader

/-! ### Declarations -/

/-- A variable with its value. -/
def declarator (within : Within) : Reader Node := do
  let name ← bound within
  if !(← statementEnds false) && (← optionalPunctuator "=") then
    let value ← within (.expression .statement)
    close .declarator name.start [name.asPart .name, value.asPart .value]
  else close .declarator name.start [name.asPart .name]

/-- The declaration of variables from a word on, and the end of it. -/
def variableDeclaration (within : Within) (w : String) : Reader Node := do
  skip true
  let start ← offset
  word w
  let declarators ← commaSeparated (declarator within)
  let node ← close .part start declarators
  semicolon (declarators.getLast?.any fun d => (d.child? .value).isSome)
  return node

/-- Whether a reader fits here. -/
def fits {α : Type} (p : Reader α) : Reader Bool := return (← optionally (ahead p)).isSome

/-- Whether a function with a name begins here. -/
def functionBegins : Reader Bool :=
  fits do
    let _ ← optionalWord "async"
    word "function"
    let _ ← optionalPunctuator "*"
    bindingName

/-- The declaration of a function. -/
def functionDeclaration (within : Within) : Reader Node := do
  skip true
  let start ← offset
  let _ ← optionalWord "async"
  functionFrom within start .functionDeclaration .generatorDeclaration

/-- Whether a class with a name begins here. -/
def classBegins (within : Within) : Reader Bool :=
  fits do
    let _ ← many (decorator within)
    word "class"
    bindingName

/-- The declaration of a class. -/
def classDeclaration (within : Within) : Reader Node := do
  skip true
  let start ← offset
  let decorators ← many (decorator within)
  classFrom within start .classDeclaration decorators

/-- Whether the declaration of variables that the scope of a block holds begins here: the word `let`
is a name unless a name or pattern follows. -/
def letBegins : Reader Bool :=
  fits do
    word "let"
    skip true
    match ← rest with
    | '[' :: _ | '\x7b' :: _ => pure ()
    | _ =>
      let _ ← bindingName

/-- A declaration, if one begins here. -/
def declaration? (within : Within) : Reader (Option Node) := do
  let function? : Reader (Option Node) := do
    if ← functionBegins then some <$> functionDeclaration within else return none
  let class? : Reader (Option Node) := do
    if ← classBegins within then some <$> classDeclaration within else return none
  match ← nextWord? with
  | some "var" => some <$> variableDeclaration within "var"
  | some "const" => some <$> variableDeclaration within "const"
  | some "let" => if ← letBegins then some <$> variableDeclaration within "let" else return none
  | some "function" | some "async" => function?
  | some "class" => class?
  | some _ => return none
  | none =>
    let isDecorated ← ahead do
      skip true
      return (← rest).head? == some '@'
    if isDecorated then class? else return none

/-! ### Modules -/

/-- The name of something that a module gives away. -/
def moduleName : Reader Unit := do
  let _ ← either (either bindingName string) do
    word "default"
    leaf .part 0

/-- The module from which something comes. -/
def fromModule : Reader Unit := do
  word "from"
  let _ ← string

/-- Names in braces, each perhaps with another name. -/
def moduleNames : Reader Unit := do
  opening "\x7b"
  let one : Reader Unit := do
    moduleName
    if ← optionalWord "as" then moduleName
  let _ ← optionally do
    one
    let _ ← many do
      punctuator ","
      one
    let _ ← optionalPunctuator ","
  opening "\x7d"

/-- The properties of an import. -/
def importProperties (within : Within) : Reader Unit := do
  if ← optionalWord "with" then
    let _ ← object within

/-- All that a module gives away, under one name. -/
def namespaceName : Reader Unit := do
  opening "*"
  word "as"
  moduleName

/-- What is imported. -/
def imported : Reader Unit := do
  let several := either namespaceName moduleNames
  let named : Reader Unit := do
    let _ ← bindingName
    if ← optionalPunctuator "," then several
  either several named

/-- An import. -/
def importStatement (within : Within) : Reader Node := do
  skip true
  let start ← offset
  word "import"
  match ← optionally string with
  | some _ => pure ()
  | none =>
    imported
    fromModule
  importProperties within
  let node ← close .part start []
  semicolon false
  return node

/-- What a module gives away from its own names or another module. -/
def namesExport (within : Within) : Reader Unit := do
  let all : Reader Unit := do
    opening "*"
    fromModule
  let together : Reader Unit := do
    namespaceName
    fromModule
  let named : Reader Unit := do
    moduleNames
    let _ ← optionally fromModule
  either all (either together named)
  importProperties within
  semicolon false

/-- What a module gives away where it is declared. -/
def declarationExport (within : Within) : Reader Node := do
  if ← optionalWord "default" then
    match ← declaration? within with
    | some node => return node
    | none =>
      let value ← within (.expression .statement)
      semicolon true
      return value
  else
    match ← declaration? within with
    | some node => return node
    | none => fail

/-- A statement that gives something away. -/
def exportStatement (within : Within) : Reader Node := do
  skip true
  let start ← offset
  let decorators ← many (decorator within)
  word "export"
  match ← optionally (declarationExport within) with
  | some node => close .part start (decorators ++ [node])
  | none =>
    check decorators.isEmpty
    namesExport within
    close .part start []

/-! ### Control -/

/-- Statements up to a closing brace, which is passed. -/
def block (within : Within) : Reader Node := do
  skip true
  let start ← offset
  opening "\x7b"
  let statements ← many (within .statement)
  opening "\x7d"
  markEnd
  close .block start statements

/-- A choice of two statements. -/
def choice (within : Within) (start : Point) : Reader Node := do
  word "if"
  let test ← parenthesized within
  let first ← within .statement
  if ← optionalWord "else" then
    let second ← within .statement
    close .part start [test, first, second]
  else close .part start [test, first]

/-- The head of a loop over the items of something. -/
def itemsHead (within : Within) : Reader (List Node) := do
  opening "("
  let joint : Reader Unit := either (word "in") (word "of")
  let fresh (w : String) : Reader (List Node) := do
    word w
    let left ← bound within
    let value ← optionally do
      check (w == "var")
      punctuator "="
      within (.level 9 .bracket)
    joint
    return left :: value.toList
  let old : Reader (List Node) := do
    let left ← either (within .target) (parenthesized within)
    joint
    return [left]
  let left ← either (fresh "var") (either (fresh "const") (either (fresh "let") old))
  let right ← within (.expressions .bracket)
  punctuator ")"
  return left ++ [right]

/-- The head of a loop with a counter. -/
def counterHead (within : Within) : Reader (List Node) := do
  opening "("
  let part : Reader (List Node) := do
    let inner ← optionally (within (.expressions .bracket))
    punctuator ";"
    return inner.toList
  let declared : Reader (List Node) := do
    match ← declaration? within with
    | some node => return [node]
    | none => fail
  let first ← either part declared
  let second ← part
  let third ← optionally (within (.expressions .bracket))
  punctuator ")"
  return first ++ second ++ third.toList

/-- A loop with its head in parentheses. -/
def forLoop (within : Within) (start : Point) : Reader Node := do
  word "for"
  let overItems : Reader (List Node) := do
    let _ ← optionalWord "await"
    itemsHead within
  let head ← either overItems (counterHead within)
  let body ← within .statement
  close .part start (head ++ [body])

/-- A loop with the test behind it. -/
def doLoop (within : Within) (start : Point) : Reader Node := do
  word "do"
  let body ← within .statement
  word "while"
  let test ← parenthesized within
  markEnd
  let _ ← optionally (semicolon false)
  close .part start [body, test]

/-- One of the cases of a switch, with its statements. -/
def switchCase (within : Within) : Reader Node := do
  skip true
  let start ← offset
  let value ←
    if ← optionalWord "case" then some <$> within (.expressions .bracket)
    else
      word "default"
      pure none
  punctuator ":"
  let statements ← many (within .statement)
  close .part start (value.toList ++ statements)

/-- A choice of cases. -/
def switch (within : Within) (start : Point) : Reader Node := do
  word "switch"
  let value ← parenthesized within
  opening "\x7b"
  let cases ← many (switchCase within)
  opening "\x7d"
  close .part start (value :: cases)

/-- A block with what is done when it fails or ends. -/
def tryStatement (within : Within) (start : Point) : Reader Node := do
  word "try"
  let body ← within .block
  let handler : Reader (List Node) := do
    word "catch"
    let parameter ← optionally do
      opening "("
      let name ← bound within
      punctuator ")"
      return name
    let handler ← within .block
    return parameter.toList ++ [handler]
  let handlers ← optionally handler
  let last ← optionally do
    word "finally"
    within .block
  close .part start (body :: handlers.getD [] ++ last.toList)

/-- A statement of a word, something in parentheses and a statement. -/
def guarded (within : Within) (start : Point) (w : String) : Reader Node := do
  word w
  let test ← parenthesized within
  let body ← within .statement
  close .part start [test, body]

/-- A statement of a word and perhaps a label. -/
def jump (start : Point) (w : String) (labels : Bool) : Reader Node := do
  word w
  markEnd
  if labels && !(← statementEnds false) then
    let _ ← optionally bindingName
  let node ← close .part start []
  semicolon false
  return node

/-- A return, with the value that is returned. -/
def returnStatement (within : Within) (start : Point) : Reader Node := do
  word "return"
  markEnd
  if ← statementEnds false then close .returnStatement start []
  else
    let value ← optionally (within (.expressions .statement))
    let node ← close .returnStatement start value.toList
    semicolon value.isSome
    return node

/-- A statement with a value and the end of it. -/
def valueStatement (within : Within) (start : Point) : Reader Node := do
  let value ← within (.expressions .statement)
  let node ← close .part start [value]
  semicolon true
  return node

/-- A statement whose value begins with a record. No statement begins behind the brace. -/
def recordStatement (within : Within) (start : Point) : Reader Node := do
  let next? ← ahead do
    opening "\x7b"
    nextWord?
  check (!(next?.any reservedWords.contains))
  valueStatement within start

/-- A statement that throws a value. -/
def throwStatement (within : Within) (start : Point) : Reader Node := do
  word "throw"
  valueStatement within start

/-- A statement with a label. -/
def labeled (within : Within) (start : Point) : Reader Node := do
  let _ ← variableName
  punctuator ":"
  let body ← within .statement
  close .labeledStatement start [body]

/-- A statement that begins with neither a declaration nor a word of its own. -/
def plainStatement (within : Within) (start : Point) : Reader Node :=
  either (labeled within start) (valueStatement within start)

/-- The statement that begins with a word. -/
def wordStatement (within : Within) (start : Point) (w : String) : Reader Node :=
  match w with
  | "if" => choice within start
  | "for" => forLoop within start
  | "while" => guarded within start "while"
  | "with" => guarded within start "with"
  | "do" => doLoop within start
  | "switch" => switch within start
  | "try" => tryStatement within start
  | "break" => jump start "break" true
  | "continue" => jump start "continue" true
  | "debugger" => jump start "debugger" false
  | "return" => returnStatement within start
  | "throw" => throwStatement within start
  | "import" => either (importStatement within) (valueStatement within start)
  | "export" => either (exportStatement within) (plainStatement within start)
  | _ => plainStatement within start

/-- A statement. -/
def statement (within : Within) : Reader Node := do
  skip true
  let start ← offset
  match ← rest with
  | '\x7b' :: _ => either (within .block) (recordStatement within start)
  | ';' :: _ => leaf .part 1
  | '@' :: _ =>
    if ← fits (do let _ ← many (decorator within); word "export") then exportStatement within
    else
      match ← declaration? within with
      | some node => return node
      | none => valueStatement within start
  | _ =>
    match ← declaration? within with
    | some node => return node
    | none =>
      match ← wordHere? with
      | some w => wordStatement within start w
      | none => valueStatement within start

end ServerTemplate.Script.Reader
