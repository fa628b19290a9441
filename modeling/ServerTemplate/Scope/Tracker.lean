import ServerTemplate.Diagnostic.Basic
import ServerTemplate.Scope.Frame
import ServerTemplate.Text.Sorted

/-!
# Scopes and regions of a conversion

A tracker answers three questions at every point of a conversion: which names are visible, which
loop is the innermost one, and whether server code is being written. It holds the parameters, the
open frames and the open regions; frames and regions are listed with the innermost first, and the
last of each stays open until the end.

A frame remembers how many regions were open when it was entered. It can be left only with as many
open, so that no scope ends inside a region that began in it.
-/

namespace ServerTemplate

/-- The open frames and regions. -/
structure Tracker where
  component : Option String := none
  parameters : List String := []
  /-- The open frames, the innermost first. -/
  frames : List Frame := [⟨.root, [], none, none, none, 1⟩]
  /-- The open regions, the innermost first. -/
  regions : List Region := [.markup]

namespace Tracker

/-- The tracker at the start of a conversion. -/
def start (parameters : List String) (component : Option String) : Tracker :=
  { component, parameters }

/-- The failure of a component's scopes. -/
def imbalance (t : Tracker) (fault : Imbalance) : Diagnostic :=
  ⟨.imbalance fault, { component := t.component }⟩

/-! ### Frames -/

/-- The number of open frames. -/
def depth (t : Tracker) : Nat := t.frames.length

/-- The kind of the innermost frame. -/
def innermostKind (t : Tracker) : FrameKind :=
  match t.frames with
  | frame :: _ => frame.kind
  | [] => .root

/-- Opens a frame. -/
def enter (t : Tracker) (kind : FrameKind) (item arrayName : Option String := none) : Tracker :=
  let parent := if t.frames.isEmpty then none else some (t.frames.length - 1)
  { t with frames := ⟨kind, [], parent, item, arrayName, t.regions.length⟩ :: t.frames }

/-- Leaves the innermost frame, which must be of the expected kind, if one is expected. -/
def exit (t : Tracker) (expected : Option FrameKind) : Except Diagnostic (Frame × Tracker) :=
  match t.frames with
  | frame :: next :: outer =>
    match expected.filter (· != frame.kind) with
    | some kind => .error (t.imbalance (.wrongScope kind frame.kind))
    | none =>
      if frame.regionDepth = t.regions.length then .ok (frame, { t with frames := next :: outer })
      else .error (t.imbalance (.regionLeftInScope frame.kind))
  | _ => .error (t.imbalance .noOpenScope)

/-- Binds a name in the innermost frame. With the root frame alone open, the name becomes a
parameter. -/
def bind (t : Tracker) (name : String) (kind : BindingKind) : Tracker :=
  match t.frames with
  | frame :: next :: outer => { t with frames := frame.bind name kind :: next :: outer }
  | _ =>
    if t.parameters.contains name then t else { t with parameters := t.parameters ++ [name] }

/-! ### Names -/

/-- The innermost frame that binds a name. -/
def bindingFrame? (t : Tracker) (name : String) : Option Frame :=
  t.frames.find? fun frame => frame.binds name

/-- Whether a name is a parameter. -/
def isParameter (t : Tracker) (name : String) : Bool := t.parameters.contains name

/-- Whether a name is bound by an open frame or is a parameter. -/
def isVisible (t : Tracker) (name : String) : Bool :=
  (t.bindingFrame? name).isSome || t.isParameter name

/-- The names bound by the open frames. -/
def boundNames (t : Tracker) : List String :=
  t.frames.flatMap fun frame => frame.bound.map (·.1)

/-- The visible names in order. -/
def visibleNames (t : Tracker) : List String :=
  Text.sortedDistinct (t.parameters ++ t.boundNames)

/-- Fails unless a name is visible. The name is used in `context`, at the given place. -/
def requireVisible (t : Tracker) (name context : String) (line : Option Int := none)
    (snippet : Option Snippet := none) : Except Diagnostic Unit :=
  if t.isVisible name then .ok ()
  else .error ⟨.unresolved name context t.visibleNames, ⟨t.component, line, snippet⟩⟩

/-- The innermost open loop. -/
def currentLoop? (t : Tracker) : Option Frame :=
  t.frames.find? fun frame => frame.kind == .loop

/-- The item of the innermost open loop. -/
def currentItem? (t : Tracker) : Option String := t.currentLoop?.bind (·.item)

/-! ### Regions -/

/-- Opens a region of server code. -/
def enterCode (t : Tracker) : Tracker := { t with regions := .code :: t.regions }

/-- Leaves the innermost region of server code. -/
def leaveCode (t : Tracker) : Except Diagnostic Tracker :=
  match t.regions with
  | .code :: outer => .ok { t with regions := outer }
  | _ => .error (t.imbalance .noOpenRegion)

/-- Whether server code is being written. -/
def inCode (t : Tracker) : Bool :=
  match t.regions with
  | .code :: _ => true
  | _ => false

/-- Fails unless every frame and region opened has been left. -/
def finish (t : Tracker) : Except Diagnostic Unit :=
  if t.frames.length ≠ 1 then
    .error (t.imbalance (.scopesLeftOpen (t.frames.reverse.tail.map Frame.kind)))
  else if t.regions ≠ [.markup] then .error (t.imbalance .regionLeftOpen)
  else .ok ()

/-! ### What is visible -/

theorem bindingFrame?_isSome_iff {t : Tracker} {name : String} :
    (t.bindingFrame? name).isSome = true ↔ name ∈ t.boundNames := by
  simp [bindingFrame?, boundNames, Frame.binds]

/-- A name is visible if it is listed among the visible ones. -/
theorem mem_visibleNames {t : Tracker} {name : String} :
    name ∈ t.visibleNames ↔ t.isVisible name = true := by
  rw [visibleNames, Text.mem_sortedDistinct, List.mem_append, isVisible, Bool.or_eq_true,
    bindingFrame?_isSome_iff, isParameter, List.contains_iff_mem, or_comm]

end Tracker

end ServerTemplate
