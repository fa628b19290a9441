/-!
# Frames, bindings and regions

A frame is one lexical scope of a conversion. A region says whether what is written at some point is
markup or server code.
-/

namespace ServerTemplate

/-- What opened a frame. -/
inductive FrameKind where
  | root
  | template
  | loop
  | conditional
  deriving DecidableEq, Repr

/-- The name of a kind of frame. -/
def FrameKind.name : FrameKind → String
  | root => "root"
  | template => "template"
  | loop => "loop"
  | conditional => "conditional"

/-- The kind of frame with a name. -/
def FrameKind.ofName? : String → Option FrameKind
  | "root" => some root
  | "template" => some template
  | "loop" => some loop
  | "conditional" => some conditional
  | _ => none

/-- What a name stands for. -/
inductive BindingKind where
  | parameter
  | loopItem
  deriving DecidableEq, Repr

/-- The name of a kind of binding. -/
def BindingKind.name : BindingKind → String
  | parameter => "parameter"
  | loopItem => "loop_item"

/-- The kind of binding with a name. -/
def BindingKind.ofName? : String → Option BindingKind
  | "parameter" => some parameter
  | "loop_item" => some loopItem
  | _ => none

/-- What is written at a point: markup or server code. -/
inductive Region where
  | markup
  | code
  deriving DecidableEq, Repr

/-- One lexical scope. -/
structure Frame where
  kind : FrameKind
  /-- The names bound here. -/
  bound : List (String × BindingKind) := []
  /-- The number of frames around the enclosing one; the root frame has no enclosing one. -/
  parent : Option Nat := none
  /-- The item of a loop. -/
  item : Option String := none
  /-- The array that a loop runs over. -/
  arrayName : Option String := none
  /-- The number of open regions when the frame was opened. -/
  regionDepth : Nat := 1
  deriving DecidableEq, Repr

/-- Whether the frame binds a name. -/
def Frame.binds (frame : Frame) (name : String) : Bool :=
  frame.bound.any fun b => b.1 == name

/-- The frame with one name bound. A name bound before keeps its place. -/
def Frame.bind (frame : Frame) (name : String) (kind : BindingKind) : Frame :=
  if frame.binds name then
    { frame with bound := frame.bound.map fun b => if b.1 == name then (name, kind) else b }
  else { frame with bound := frame.bound ++ [(name, kind)] }

end ServerTemplate
