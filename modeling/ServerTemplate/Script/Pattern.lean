import ServerTemplate.Script.Literal

/-!
# Patterns

A pattern takes a value apart: it stands for the parameters of a function, for the names that a
declaration binds and on the left of an assignment. A part of it may have a default.
-/

namespace ServerTemplate.Script.Reader

/-- The name of a property: a word, a private name, a string, a number or an expression in
brackets. -/
def propertyName (within : Within) : Reader Node := do
  skip true
  let start ← offset
  match ← rest with
  | '#' :: _ => privateName
  | '[' :: _ =>
    opening "["
    let inner ← within (.expression .bracket)
    punctuator "]"
    close .part start [inner]
  | c :: _ =>
    if c == '\x22' || c == '\x27' then string
    else if c.isDigit || c == '.' then number
    else anyWord .propertyName
  | [] => fail

/-- A pattern with a default behind it, if there is one. -/
def withDefault (within : Within) (pattern : Node) : Reader Node := do
  if ← optionalPunctuator "=" then
    let default ← within (.expression .bracket)
    close .assignmentPattern pattern.start [pattern.asPart .left, default.asPart .right]
  else return pattern

/-- What is left over of a list or record. -/
def restPattern (within : Within) : Reader Node := do
  skip true
  let start ← offset
  opening "..."
  let inner ← within .target
  close .restPattern start [inner]

/-- A part of a list that is taken apart, or a parameter. -/
def patternElement (within : Within) : Reader Node := do
  match ← optionally (restPattern within) with
  | some node => withDefault within node
  | none => withDefault within (← within .target)

/-- Words that are names although a construct begins with them. -/
def contextualWords : List String := ["get", "set", "async", "static", "export", "let"]

/-- A property that is called like the variable that holds its value. -/
def shorthand : Reader Node := do
  skip true
  match ← wordHere? with
  | some w =>
    check (!reservedWords.contains w || contextualWords.contains w)
    leaf .part w.length
  | none => fail

/-- A part of a record that is taken apart. -/
def patternMember (within : Within) : Reader Node := do
  skip true
  let start ← offset
  let named : Reader Node := do
    let key ← propertyName within
    punctuator ":"
    let value ← patternElement within
    close .part start [key, value]
  match ← optionally (restPattern within) with
  | some node => return node
  | none =>
    match ← optionally named with
    | some node => return node
    | none =>
      match ← optionally shorthand with
      | some node => withDefault within node
      | none =>
        let target ← within .target
        check (target.kind == .objectPattern || target.kind == .arrayPattern)
        punctuator "="
        let default ← within (.expression .bracket)
        close .part start [target, default]

/-- A record that is taken apart. -/
def objectPattern (within : Within) : Reader Node := do
  skip true
  let start ← offset
  opening "\x7b"
  let members ← commaList (patternMember within) "\x7d"
  close .objectPattern start members

/-- A list that is taken apart. -/
def arrayPattern (within : Within) : Reader Node := do
  skip true
  let start ← offset
  opening "["
  let elements ← commaList (patternElement within) "]"
  close .arrayPattern start elements

/-- A record or list that is taken apart. -/
def destructuring (within : Within) : Reader Node := do
  skip true
  match ← rest with
  | '\x7b' :: _ => objectPattern within
  | _ => arrayPattern within

/-- What a declaration binds: a name or a pattern. -/
def bound (within : Within) : Reader Node := do
  match ← optionally bindingName with
  | some node => return node
  | none => destructuring within

/-- The parameters of a function. A comma may stand behind the last one. -/
def formalParameters (within : Within) : Reader Node := do
  skip true
  let start ← offset
  opening "("
  if ← optionalPunctuator ")" then close .formalParameters start []
  else
    let parameters ← commaSeparated (patternElement within)
    let _ ← optionalPunctuator ","
    punctuator ")"
    close .formalParameters start parameters

end ServerTemplate.Script.Reader
