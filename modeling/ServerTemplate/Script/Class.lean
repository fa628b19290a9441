import ServerTemplate.Script.Function

/-!
# Classes

The body of a class holds methods, fields and blocks. A field ends like a statement. Methods, fields
and classes may be decorated.
-/

namespace ServerTemplate.Script.Reader

/-- A decorator: a name, properties of it, and perhaps arguments. -/
def decorator (within : Within) : Reader Node := do
  skip true
  let start ← offset
  opening "@"
  let _ ← bindingName
  let _ ← many do
    punctuator "."
    anyWord .propertyName
  let given ← optionally (arguments within)
  close .part start given.toList

/-- A field of a class and the end of it. -/
def field (within : Within) (start : Point) : Reader Node :=
  behindMarks [modifier true "static"] do
    let name ← propertyName within
    if !(← statementEnds false) && (← optionalPunctuator "=") then
      let value ← within (.expression .statement)
      let node ← close .field start [name.asPart .name, value.asPart .value]
      semicolon true
      return node
    else
      let node ← close .field start [name.asPart .name]
      semicolon false
      return node

/-- A block of a class. -/
def staticBlock (within : Within) : Reader Node := do
  skip true
  let start ← offset
  modifier true "static"
  let body ← within .block
  close .part start [body.asPart .body]

/-- A method, field or block of a class. -/
def classMember (within : Within) : Reader Node :=
  either (staticBlock within) do
    skip true
    let start ← offset
    let decorators ← many (decorator within)
    let member ← either (method within true) (field within start)
    return { member with start, children := decorators ++ member.children }

/-- The body of a class. -/
def classBody (within : Within) : Reader Node := do
  skip true
  let start ← offset
  opening "\x7b"
  let members ← many do
    let _ ← many (opening ";")
    classMember within
  let _ ← many (opening ";")
  opening "\x7d"
  markEnd
  close .part start members

/-- A class behind its decorators. -/
def classFrom (within : Within) (start : Point) (kind : NodeKind) (decorators : List Node) :
    Reader Node := do
  word "class"
  let name ← optionally bindingName
  let base ←
    if ← optionalWord "extends" then some <$> within (.expression .bracket) else pure none
  let body ← classBody within
  close kind start (decorators ++ name.toList.map (Node.asPart .name) ++ base.toList
    ++ [body.asPart .body])

end ServerTemplate.Script.Reader
