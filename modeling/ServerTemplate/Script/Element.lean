import ServerTemplate.Script.Expression

/-!
# Elements in a script

An element is written with tags, between which stand text, further elements and expressions in
braces. A tag without a name opens a fragment. The names of the two tags need not agree.
-/

namespace ServerTemplate.Script.Reader

/-- The length of a word that may have dashes in it. -/
def dashedLength? (cs : List Char) : Option Nat :=
  let plain (c : Char) : Bool := c.isAlpha || c == '_' || c == '$' || c.isDigit || c == '-'
  match cs with
  | [] => none
  | c :: _ =>
    let word := cs.takeWhile plain
    if !(c.isDigit || c == '-') && word.contains '-' then some word.length else nameLength? cs

/-- A word of the name of an element or attribute. -/
def tagWord : Reader Unit := do
  skip true
  match dashedLength? (← rest) with
  | some length =>
    check (!reservedWords.contains (String.ofList ((← rest).take length)))
    pass length
  | none => fail

/-- The name of an element: words with dots between them, or one behind a namespace. -/
def elementName : Reader Unit := do
  tagWord
  if ← optionalPunctuator ":" then tagWord
  else
    let _ ← many do
      punctuator "."
      tagWord

/-- An expression in braces, which may be missing or give all its items. -/
def elementHole (within : Within) : Reader Node := do
  skip true
  let start ← offset
  opening "\x7b"
  let inner ← optionally (either (spread within) (within (.expressions .bracket)))
  punctuator "\x7d"
  close .part start inner.toList

/-- A string of an attribute. It may go over lines and has no escapes. -/
def attributeString : Reader Node := do
  skip true
  let start ← offset
  match ← rest with
  | [] => fail
  | quote :: behind =>
    check (quote == '\x22' || quote == '\x27')
    pass ((behind.takeWhile fun c => c != quote).length + 1)
    character quote
    close .part start []

/-- An attribute of an element. -/
def tagAttribute (within : Within) : Reader Node :=
  either (elementHole within) do
    skip true
    let start ← offset
    tagWord
    let _ ← optionally do
      punctuator ":"
      tagWord
    if ← optionalPunctuator "=" then
      let value ← either attributeString (either (elementHole within) (within .element))
      close .part start [value]
    else close .part start []

/-- Whether a character ends the text between tags. -/
def endsText (c : Char) : Bool := ['<', '>', '\x7b', '\x7d', '&'].contains c

/-- The length of a character that is given by its name or number. -/
def characterReferenceLength? : List Char → Option Nat
  | '&' :: '#' :: x :: rest =>
    let (mark, digits) :=
      if x == 'x' || x == 'X' then (3, rest.takeWhile isHexDigit)
      else (2, (x :: rest).takeWhile Char.isDigit)
    let most := if mark = 3 then 6 else 5
    if !digits.isEmpty && digits.length ≤ most
        && (('#' :: x :: rest).drop (mark - 1 + digits.length)).head? == some ';' then
      some (mark + digits.length + 1)
    else none
  | '&' :: rest =>
    let name := rest.takeWhile Char.isAlpha
    if !name.isEmpty && name.length ≤ 30 && (rest.drop name.length).head? == some ';' then
      some (name.length + 2)
    else none
  | _ => none

/-- Text between tags. -/
def elementText : Reader Node := do
  let cs ← rest
  match (cs.takeWhile fun c => !endsText c).length with
  | 0 =>
    match characterReferenceLength? cs with
    | some length => leaf .part length
    | none => fail
  | length => leaf .part length

/-- The tag that closes an element. -/
def closingTag : Reader Unit := do
  skip true
  character '<'
  skip true
  character '/'
  let _ ← optionally elementName
  punctuator ">"

/-- An element or fragment. -/
def element (within : Within) : Reader Node := do
  skip true
  let start ← offset
  character '<'
  match ← optionally elementName with
  | some _ =>
    let attributes ← many (tagAttribute within)
    if ← optionalPunctuator "/" then
      character '>'
      close .emptyElement start attributes
    else
      punctuator ">"
      let inner ← many (either elementText (either (elementHole within) (within .element)))
      closingTag
      close .element start (attributes ++ inner)
  | none =>
    punctuator ">"
    let inner ← many (either elementText (either (elementHole within) (within .element)))
    closingTag
    close .element start inner

end ServerTemplate.Script.Reader
