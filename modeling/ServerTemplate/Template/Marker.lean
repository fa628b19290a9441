import ServerTemplate.Text.Blank
import ServerTemplate.Text.Letter

/-!
# Markers in literal text

The literal text of a template may hold server code of its own. `segments` cuts a text into markers
and the texts between them. In markup the only markers are those that open and close a region of
code. Inside a region, quoted strings are passed over whole, and the heads and ends of loops and
conditionals count as well; they count as words, so that no marker begins or ends inside a longer
word. A quote that is not closed in the same text quotes nothing.
-/

namespace ServerTemplate

/-- A part of the literal text that opens or closes something, or hides what is in it. -/
inductive Marker where
  | openCode
  | closeCode
  /-- A quoted string in code. -/
  | quoted
  /-- The head of a loop over an array. -/
  | loop (array item : String)
  | endLoop
  /-- The head of a conditional. -/
  | conditional
  | endConditional
  deriving DecidableEq, Repr

/-- A part of the literal text. -/
inductive Segment where
  | text (content : List Char)
  | marker (marker : Marker)
  deriving DecidableEq, Repr

namespace Marker

/-- Whether code follows a marker that is met in code or outside it. -/
def codeAfter (inCode : Bool) : Marker → Bool
  | openCode => true
  | closeCode => false
  | _ => inCode

/-- The number of characters up to and including the closing quote. A backslash hides the character
behind it, which must not be a line feed. -/
def quotedLength? (mark : Char) : List Char → Option Nat
  | [] => none
  | ['\\'] => none
  | '\\' :: d :: rest => if d == '\n' then none else (quotedLength? mark rest).map (· + 2)
  | c :: rest => if c == mark then some 1 else (quotedLength? mark rest).map (· + 1)

/-- The characters behind a word that a text begins with. -/
def after? : List Char → List Char → Option (List Char)
  | [], rest => some rest
  | w :: word, c :: rest => if w == c then after? word rest else none
  | _ :: _, [] => none

/-- The characters behind blanks. -/
def skipBlanks (cs : List Char) : List Char := cs.dropWhile Text.isBlank

/-- A variable's name and the characters behind it. -/
def dollarName? : List Char → Option (String × List Char)
  | '$' :: rest =>
    let name := rest.takeWhile Text.isWordChar
    if name.isEmpty then none
    else some (String.ofList name, rest.dropWhile Text.isWordChar)
  | _ => none

/-- Characters that begin with a blank, without their blanks. -/
def afterSomeBlanks? (cs : List Char) : Option (List Char) :=
  if cs.head?.any Text.isBlank then some (skipBlanks cs) else none

/-- Whether no word goes on in front of a text. -/
def noWord (neighbour : Option Char) : Bool := !neighbour.any Text.isWordChar

/-- The head of a loop and the characters behind it. -/
def loopHead? (cs : List Char) : Option (Marker × List Char) := do
  let rest ← after? "foreach".toList cs
  let rest ← after? ['('] (skipBlanks rest)
  let (array, rest) ← dollarName? (skipBlanks rest)
  let rest ← afterSomeBlanks? rest
  let rest ← after? ['a', 's'] rest
  let rest ← afterSomeBlanks? rest
  let (item, rest) ← dollarName? rest
  return (loop array item, rest)

/-- The head of a conditional and the characters behind it. -/
def conditionalHead? (cs : List Char) : Option (Marker × List Char) := do
  let rest ← after? ['i', 'f'] cs
  let rest ← after? ['('] (skipBlanks rest)
  return (conditional, rest)

/-- A word that is a marker by itself, and the characters behind it. -/
def word? (word : String) (marker : Marker) (cs : List Char) : Option (Marker × List Char) := do
  let rest ← after? word.toList cs
  if noWord rest.head? then return (marker, rest) else none

/-- The marker that opens or closes a region. -/
def region? (cs : List Char) : Option (Marker × List Char) :=
  ((after? "<?php".toList cs).map (openCode, ·)).or ((after? "?>".toList cs).map (closeCode, ·))

/-- The marker that a text in code begins with, where `before` is the character in front of it. -/
def inCode? (before : Option Char) (cs : List Char) : Option (Marker × List Char) :=
  let wordMarker : Option (Marker × List Char) :=
    if noWord before then
      (((word? "endforeach" endLoop cs).or (loopHead? cs)).or
        (word? "endif" endConditional cs)).or (conditionalHead? cs)
    else none
  match cs with
  | c :: rest =>
    if c == '\x22' || c == '\x27' then
      (quotedLength? c rest).map fun length => (quoted, rest.drop length)
    else (region? cs).or wordMarker
  | [] => none

/-- The marker that a text begins with. -/
def at? (inCode : Bool) (before : Option Char) (cs : List Char) : Option (Marker × List Char) :=
  if inCode then inCode? before cs else region? cs

end Marker

/-- The segments with one more character in front. -/
def Segment.cons (c : Char) : List Segment → List Segment
  | text content :: rest => text (c :: content) :: rest
  | segments => text [c] :: segments

/-- The segments of a text behind the character `before`, of which the first `taken` characters
belong to a marker that has begun before. -/
def segmentsFrom (inCode : Bool) (before : Option Char) : Nat → List Char → List Segment
  | _, [] => []
  | taken + 1, c :: rest => segmentsFrom inCode (some c) taken rest
  | 0, c :: rest =>
    match Marker.at? inCode before (c :: rest) with
    | some (marker, left) =>
      .marker marker :: segmentsFrom (marker.codeAfter inCode) (some c)
        (rest.length - left.length) rest
    | none => Segment.cons c (segmentsFrom inCode (some c) 0 rest)

/-- The markers of a text and the texts between them, where the text begins in code or in markup. -/
def segments (inCode : Bool) (cs : List Char) : List Segment := segmentsFrom inCode none 0 cs

example : segments false "a<?php if (".toList
    = [.text ['a'], .marker .openCode, .text [' '], .marker .conditional] := by decide +kernel

end ServerTemplate
