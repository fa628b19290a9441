import ServerTemplate.Markup.Cursor
import ServerTemplate.Output.Piece
import ServerTemplate.Scope.Tracker
import ServerTemplate.Template.Expr
import ServerTemplate.Template.Marker

/-!
# Writing a fragment

A conversion writes pieces one after the other, and keeps account of the place in the markup and of
the open scopes and regions. Literal text is written as it is; its markers are then replayed on the
scopes, and what of it is markup on the cursor, so that a later hole sees the loop or the attribute
that the text before it opened.

Beside the pieces a conversion keeps a journal: for each step, the scopes, the cursor and the output
at its beginning. The output does not depend on the journal; it is there so that what holds at every
step can be said of a finished conversion.
-/

namespace ServerTemplate

/-- What a conversion is given beside the template. -/
structure Job where
  declaration : Declaration
  /-- The text that snippets show. -/
  source : String
  /-- The tag of the templates that are rendered. -/
  tag : String
  labels : CountLabels
  /-- The number of stars of a rating. -/
  stars : Int

/-- A step of a conversion. -/
inductive Event where
  /-- A text of the template begins. -/
  | chunk (text : String)
  /-- A constant is written as text. -/
  | constantText (text : String)
  /-- The expression in a hole begins. -/
  | hole (e : Expr) (label : String)
  /-- An expression is converted, in code if `bare`. -/
  | expression (e : Expr) (label : String) (bare : Bool)
  /-- The scopes have changed. -/
  | scopes

/-- The state of a conversion at a step. -/
structure Moment where
  event : Event
  tracker : Tracker
  cursor : Cursor
  /-- The pieces written before, the last first. -/
  written : List Piece

/-- The state of a conversion. -/
structure Progress where
  /-- The pieces written so far, the last first. -/
  pieces : List Piece := []
  cursor : Cursor := {}
  tracker : Tracker
  /-- The steps so far, the last first. -/
  journal : List Moment := []

/-- A part of a conversion. A part that fails leaves the state in which it does. -/
abbrev Emit := EStateM Diagnostic Progress

namespace Emit

/-- The scopes and regions at this point. -/
def tracker : Emit Tracker := return (← get).tracker

/-- The place in the markup at this point. -/
def cursor : Emit Cursor := return (← get).cursor

/-- Whether code is being written at this point. -/
def inCode : Emit Bool := return (← get).tracker.inCode

/-- Puts a step into the journal. -/
def note (event : Event) : Emit Unit :=
  modify fun s => { s with journal := ⟨event, s.tracker, s.cursor, s.pieces⟩ :: s.journal }

/-- Writes a piece. -/
def write (piece : Piece) : Emit Unit :=
  modify fun s => { s with pieces := piece :: s.pieces }

/-- Moves the cursor. -/
def moveCursor (f : Cursor → Cursor) : Emit Unit :=
  modify fun s => { s with cursor := f s.cursor }

/-- Changes the scopes. -/
def setTracker (tracker : Tracker) : Emit Unit := do
  modify fun s => { s with tracker }
  note .scopes

/-- Opens a frame. A loop binds its item. -/
def enterScope (kind : FrameKind) (item array : Option String := none) : Emit Unit := do
  setTracker ((← tracker).enter kind item array)
  match item with
  | some item => setTracker ((← tracker).bind item .loopItem)
  | none => pure ()

/-- Leaves the innermost frame, which must be of a kind. -/
def exitScope (kind : FrameKind) : Emit Unit := do
  let (_, outer) ← ofExcept ((← tracker).exit (some kind))
  setTracker outer

/-- Opens a region of code. -/
def enterCode : Emit Unit := do setTracker (← tracker).enterCode

/-- Leaves a region of code. -/
def leaveCode : Emit Unit := do
  let outer ← ofExcept (← tracker).leaveCode
  setTracker outer

/-! ### Literal text -/

/-- Replays a marker on the scopes. -/
def replay (marker : Marker) : Emit Unit := do
  let t ← tracker
  match marker with
  | .quoted => pure ()
  | .openCode =>
    if t.inCode then throw (t.imbalance .regionInsideRegion) else enterCode
  | .closeCode =>
    if t.inCode then leaveCode else throw (t.imbalance .markerWithoutRegion)
  | .loop array item =>
    ofExcept (t.requireVisible array "template-foreach")
    enterScope .loop item array
  | .endLoop => exitScope .loop
  | .conditional => enterScope .conditional
  | .endConditional => exitScope .conditional

/-- Replays the segments of a literal text on the scopes and, outside code, on the cursor. -/
def replayAll : List Segment → Emit Unit
  | [] => pure ()
  | .text content :: rest => do
    if !(← inCode) then moveCursor (·.feed content)
    replayAll rest
  | .marker marker :: rest => do
    replay marker
    replayAll rest

/-- Writes literal text and replays it. -/
def text (content : String) : Emit Unit := do
  if content = "" then pure ()
  else
    write (.text content)
    replayAll (segments (← inCode) content.toList)

/-- Writes a text of the template. -/
def chunk (content : String) : Emit Unit := do
  note (.chunk content)
  text content

/-- Writes the text of a constant. -/
def constantText (content : String) : Emit Unit := do
  note (.constantText content)
  text content

/-- Writes texts of the template that have no holes between them. -/
def chunks : List String → Emit Unit
  | [] => pure ()
  | content :: rest => do
    chunk content
    chunks rest

end Emit

end ServerTemplate
