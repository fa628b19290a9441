import ServerTemplate.Text.Blank
import ServerTemplate.Text.Letter

/-!
# Places in markup

A cursor walks the literal text of a template and knows, at every point, whether a value written
there lands in the value of an attribute, and of which one. It is a state machine over characters
and no parser of markup: it knows tags, the names and values of attributes, comments, and elements
whose content is raw text, in which no tag begins before the end tag of the element.

`Cursor.advance` is one transition. It may look at the characters behind the one it reads, and take
some of them with it; `Cursor.feed` walks a text.
-/

namespace ServerTemplate

/-- Where in the markup a cursor stands. -/
inductive MarkupState where
  | text
  | comment
  | tagName
  | inTag
  | attributeName
  | afterAttributeName
  | beforeValue
  | value
  | rawText
  deriving DecidableEq, Repr

/-- The name of a state. -/
def MarkupState.name : MarkupState → String
  | text => "text"
  | comment => "comment"
  | tagName => "tag_name"
  | inTag => "in_tag"
  | attributeName => "attr_name"
  | afterAttributeName => "after_attr_name"
  | beforeValue => "before_value"
  | value => "value"
  | rawText => "raw_text"

/-- A place in markup. A name or quote that a state does not use keeps its last value. -/
structure Cursor where
  state : MarkupState := .text
  /-- The name of the last attribute. -/
  attr : String := ""
  /-- The quote that opened the last value, if one did. -/
  quote : Option Char := none
  /-- The name of the last tag, or of the element whose raw text is being read. -/
  tag : String := ""
  deriving DecidableEq, Repr

namespace Cursor

/-- Whether the place is in an attribute value, or directly in front of one. -/
def inAttribute (k : Cursor) : Bool :=
  match k.state with
  | .beforeValue | .value => true
  | _ => false

/-- The attribute whose value is open. -/
def attributeName? (k : Cursor) : Option String := if k.inAttribute then some k.attr else none

/-- Whether the place is inside a tag. -/
def inTag (k : Cursor) : Bool :=
  match k.state with
  | .text | .comment | .rawText => false
  | _ => true

/-- The elements whose content is raw text. -/
def rawTextElements : List String := ["script", "style"]

/-- The name of an element in lower case. -/
def elementName (tag : String) : String := String.ofList (tag.toList.map Char.toLower)

/-- The cursor behind the end of a tag. -/
def closeTag (k : Cursor) : Cursor :=
  if rawTextElements.contains (elementName k.tag) then
    { k with state := .rawText, tag := elementName k.tag }
  else { k with state := .text }

/-- The cursor behind a value written at its place. A value without quotes begins with what is
written. -/
def interpolated (k : Cursor) : Cursor :=
  match k.state with
  | .beforeValue => { k with state := .value, quote := none }
  | _ => k

/-- Whether a text begins with an end tag of the raw text element `tag`. -/
def startsEndTag (tag : String) (cs : List Char) : Bool :=
  ("</".toList ++ tag.toList).isPrefixOf (cs.map Char.toLower)

/-- Whether `c`, followed by `rest`, begins a tag: letters and a slash do. -/
def startsTag (c : Char) (rest : List Char) : Bool :=
  c == '<' && rest.head?.any fun d => Text.isLetter d || d == '/'

/-- The cursor behind `c`, and how many of the characters `rest` that follow it takes with it. -/
def advance (k : Cursor) (c : Char) (rest : List Char) : Cursor × Nat :=
  match k.state with
  | .text =>
    if "<!--".toList.isPrefixOf (c :: rest) then ({ k with state := .comment }, 3)
    else if startsTag c rest then ({ k with state := .tagName, tag := "" }, 0)
    else (k, 0)
  | .rawText =>
    if startsEndTag k.tag (c :: rest) then ({ k with state := .tagName, tag := "/" }, 1)
    else (k, 0)
  | .comment =>
    if "-->".toList.isPrefixOf (c :: rest) then ({ k with state := .text }, 2) else (k, 0)
  | .tagName =>
    if c == '>' then (k.closeTag, 0)
    else if Text.isBlank c then ({ k with state := .inTag }, 0)
    else ({ k with tag := k.tag.push c }, 0)
  | .inTag =>
    if c == '>' then (k.closeTag, 0)
    else if Text.isBlank c || c == '/' then (k, 0)
    else ({ k with state := .attributeName, attr := c.toString }, 0)
  | .afterAttributeName =>
    if c == '>' then (k.closeTag, 0)
    else if c == '=' then ({ k with state := .beforeValue }, 0)
    else if Text.isBlank c || c == '/' then (k, 0)
    else ({ k with state := .attributeName, attr := c.toString }, 0)
  | .attributeName =>
    if c == '=' then ({ k with state := .beforeValue }, 0)
    else if c == '>' then (k.closeTag, 0)
    else if c == '/' then ({ k with state := .inTag }, 0)
    else if Text.isBlank c then ({ k with state := .afterAttributeName }, 0)
    else ({ k with attr := k.attr.push c }, 0)
  | .beforeValue =>
    if c == '\x22' || c == '\x27' then ({ k with state := .value, quote := some c }, 0)
    else if c == '>' then (k.closeTag, 0)
    else if Text.isBlank c then (k, 0)
    else ({ k with state := .value, quote := none }, 0)
  | .value =>
    match k.quote with
    | some quote => (if c == quote then { k with state := .inTag } else k, 0)
    | none =>
      if c == '>' then (k.closeTag, 0)
      else if Text.isBlank c then ({ k with state := .inTag }, 0)
      else (k, 0)

/-- The cursor behind a text of which the first `taken` characters are passed already. -/
def feedFrom : Nat → Cursor → List Char → Cursor
  | _, k, [] => k
  | taken + 1, k, _ :: rest => feedFrom taken k rest
  | 0, k, c :: rest => feedFrom (k.advance c rest).2 (k.advance c rest).1 rest

/-- The cursor behind a text. -/
def feed (k : Cursor) (cs : List Char) : Cursor := feedFrom 0 k cs

@[simp] theorem feed_nil (k : Cursor) : k.feed [] = k := rfl

theorem feed_cons (k : Cursor) (c : Char) (rest : List Char) :
    k.feed (c :: rest) = feedFrom (k.advance c rest).2 (k.advance c rest).1 rest := rfl

/-- An open attribute value is inside a tag. -/
theorem inTag_of_inAttribute {k : Cursor} (h : k.inAttribute = true) : k.inTag = true := by
  unfold inAttribute at h
  unfold inTag
  split at h <;> simp_all

example : ((({} : Cursor).feed "<a href=\"".toList).attributeName?) = some "href" := by
  decide +kernel

end Cursor

end ServerTemplate
