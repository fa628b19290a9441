import ServerTemplate.Template.Emission

/-!
# Converting expressions

`lower` writes the server-side form of an expression. What that is depends on its use:

* the value in a hole is echoed through the function of its policy, or, in a region of code, written
  bare;
* an operand, that is, a condition or a part of one, is written bare;
* the body of a loop or a branch of a conditional is rendered if it is a template or a text, and
  else converted like the value in a hole.

Loops and branches become blocks. Every branch of a block starts at the place in the markup at which
the block started.
-/

namespace ServerTemplate

/-- What an expression is used for. -/
inductive Use where
  | value
  | operand
  | block
  deriving DecidableEq, Repr

/-- A value that a template reads. -/
structure Reading where
  operand : Operand
  /-- The field whose policy applies. -/
  field : String
  /-- The array whose items have the field, unless it is a parameter. -/
  array : Option String

namespace Job

/-- Where an expression stands. -/
def site (job : Job) (t : Tracker) (e : Expr) : Site :=
  ⟨t.component, some e.place.line,
    Snippet.around? job.source e.place.line (some e.place.column)⟩

/-- The diagnostic for a construct that has no server-side form. -/
def unsupported (job : Job) (t : Tracker) (e : Expr) (label : String) (construct : Unsupported) :
    Diagnostic :=
  ⟨.unsupported construct label, job.site t e⟩

/-- Fails unless a name that an expression uses is visible. -/
def requireVisible (job : Job) (t : Tracker) (e : Expr) (name label : String) :
    Except Diagnostic Unit :=
  if t.isVisible name then .ok ()
  else t.requireVisible name label (job.site t e).line (job.site t e).snippet

/-- Fails if a property is read optionally. -/
def requirePlain (job : Job) (t : Tracker) (label : String) (e : Expr) : Except Diagnostic Unit :=
  match e with
  | .member _ _ _ true => .error (job.unsupported t e label .optionalChaining)
  | _ => .ok ()

/-- Fails if the owner of a property is read optionally. -/
def requirePlainOwner (job : Job) (t : Tracker) (label : String) (callee : Expr) :
    Except Diagnostic Unit :=
  match callee with
  | .member _ object _ _ => job.requirePlain t label object
  | _ => .ok ()

/-- The value that an expression reads: a parameter, a loop item or a field of a loop item. -/
def reading (job : Job) (t : Tracker) (label : String) (e : Expr) : Except Diagnostic Reading := do
  job.requirePlain t label e
  match e with
  | .member _ (.this _) name _ =>
    job.requireVisible t e name label
    return ⟨.var name, name, none⟩
  | .member _ (.name _ owner) name _ =>
    if t.currentItem?.isNone then
      throw ⟨.outsideLoop (owner ++ "." ++ name) label, job.site t e⟩
    job.requireVisible t e owner label
    match (t.bindingFrame? owner).filter fun frame => frame.kind == .loop with
    | some frame => return ⟨.field owner name, name, frame.arrayName⟩
    | none => throw (job.unsupported t e label (.foreignProperty owner name))
  | .name _ name =>
    job.requireVisible t e name label
    match (t.bindingFrame? name).filter fun frame => frame.kind == .loop with
    | some frame => return ⟨.var name, frame.arrayName.getD name, none⟩
    | none => return ⟨.var name, name, none⟩
  | _ => throw (job.unsupported t e label (.noReference e.description))

/-- The function through which a value is written at a place in the markup. -/
def functionFor (job : Job) (k : Cursor) (field : String) (array : Option String) (e : Expr) :
    Except Diagnostic (Option String) := do
  let resolution ← job.declaration.resolve field k.attributeName? array (some e.place.line)
  return resolution.policy.function?

/-- The value that determines how many stars are full: the argument, if there is one and it reads a
value, and else the rating of the loop item. -/
def ratingOperand (job : Job) (t : Tracker) (label item : String) (arguments : List Expr) :
    Except Diagnostic Operand := do
  match arguments with
  | [e@(.member ..)] | [e@(.name ..)] => return (← job.reading t label e).operand
  | _ => return .field item ratingField

end Job

/-- A call that has a server-side form. -/
inductive CallShape where
  /-- A method of the component with a fixed rendering. -/
  | helper (name : String)
  /-- A loop over an array of the component. -/
  | loop (array : String)

/-- The form of a call of a callee. -/
def CallShape.of? : Expr → Option CallShape
  | .member _ (.this _) name _ => if helperNames.contains name then some (.helper name) else none
  | .member _ (.member _ (.this _) array _) name _ =>
    if name == "map" then some (.loop array) else none
  | _ => none

namespace Emit

/-- Fails because a construct has no server-side form. -/
def refuse (job : Job) (e : Expr) (label : String) (construct : Unsupported) : Emit Unit := do
  throw (job.unsupported (← tracker) e label construct)

/-- Begins an expression. The result says whether it is written bare. -/
def begin (use : Use) (e : Expr) (label : String) : Emit Bool := do
  let bare := use == .operand || (← inCode)
  note (.expression e label bare)
  return bare

/-- Writes a value that is read, bare or through the function of its policy. -/
def value (job : Job) (e : Expr) (bare : Bool) (r : Reading) : Emit Unit := do
  if bare then write (.operand r.operand)
  else
    let function ← ofExcept (job.functionFor (← cursor) r.field r.array e)
    write (.echo r.operand function)

/-- Writes an expression that reads a value. -/
def readValue (job : Job) (e : Expr) (label : String) (bare : Bool) : Emit Unit := do
  let r ← ofExcept (job.reading (← tracker) label e)
  value job e bare r

/-- Writes the number of elements of a value, which is never escaped. -/
def countOf (job : Job) (object : Expr) (label : String) (bare : Bool) : Emit Unit := do
  let r ← ofExcept (job.reading (← tracker) label object)
  write (if bare then .operand (.count r.operand) else .echo (.count r.operand) none)

/-- Writes a property of a value. -/
def property (job : Job) (e object : Expr) (name label : String) (bare : Bool) : Emit Unit := do
  ofExcept (job.requirePlain (← tracker) label e)
  match object with
  | .this _ => readValue job e label bare
  | _ => if name = "length" then countOf job object label bare else readValue job e label bare

/-- Writes a constant: as code, or as text if it has one. -/
def constant (job : Job) (e : Expr) (v : Constant) (spelling label : String) (bare : Bool) :
    Emit Unit :=
  let spelled (otherwise : String) := if spelling = "" then otherwise else spelling
  let word (code name : String) : Emit Unit :=
    if bare then write (.constant code)
    else refuse job e label (.constantInMarkup (spelled name))
  let number (text : String) : Emit Unit :=
    if bare then write (.constant (spelled text)) else constantText (spelled text)
  let literal (text : String) : Emit Unit :=
    if bare then write (.constant (Literal.ofText text)) else constantText text
  match v with
  | .null => word "null" "None"
  | .bool true => word "true" "True"
  | .bool false => word "false" "False"
  | .int n => number (toString n)
  | .float x => number x.text
  | .text s => literal s
  | .halves points => literal (Constant.joined points)

/-- Writes the form of a helper. -/
def helper (job : Job) (e : Expr) (name label : String) (arguments : List Expr) : Emit Unit := do
  let t ← tracker
  if t.inCode then refuse job e label (.helperInCode name)
  else if name = "formatResultCount" then
    ofExcept (job.requireVisible t e resultCountParameter label)
    let function ← ofExcept (job.functionFor (← cursor) resultCountParameter none e)
    write (.resultCount job.labels function)
  else if name = "getCurrentYear" then write .currentYear
  else
    match t.currentItem? with
    | none => throw ⟨.outsideLoop "this.renderStars()" label, job.site t e⟩
    | some item =>
      let rating ← ofExcept (job.ratingOperand t label item arguments)
      write (.stars job.stars rating)

/-- Writes a condition as the head of a block. -/
def condition (test : Emit Unit) : Emit Unit := do
  write .ifStart
  enterCode
  test
  leaveCode
  write .ifTested

/-- Writes the branches of a block, each from the place at which the block started, and each behind
what separates it from the one before. -/
def branches (start : Cursor) : List (List Piece × Emit Unit) → Emit Unit
  | [] => pure ()
  | (separator, branch) :: rest => do
    separator.forM write
    moveCursor fun _ => start
    branch
    branches start rest

/-- Writes branches in a frame of their own, and the end of the block. -/
def block (kind : FrameKind) (item array : Option String) (parts : List (List Piece × Emit Unit))
    (closer : Piece) : Emit Unit := do
  enterScope kind item array
  branches (← cursor) parts
  exitScope kind
  write closer

/-- Writes a conditional whose branches are values, in code. -/
def inlineConditional (test consequent alternate : Emit Unit) : Emit Unit := do
  enterScope .conditional
  write (.symbol "( ")
  test
  write (.symbol " ) ? ")
  consequent
  write (.symbol " : ")
  alternate
  exitScope .conditional

/-- Writes the head of a loop over an array of the component. The item must not be visible, since
the generated loop assigns it. -/
def loopHead (job : Job) (e : Expr) (array label : String) (item? : Option String) :
    Emit Unit := do
  let t ← tracker
  if t.inCode then refuse job e label (.loopInCode array)
  else
    ofExcept (job.requireVisible t e array label)
    match item? with
    | none => refuse job e label (.loopWithoutArrow array)
    | some item =>
      if t.isVisible item then refuse job e label (.shadowingItem array item)
      else write (.loopStart array item)

/-- Writes the expression in a hole. A value written in markup counts for the cursor. -/
def hole (e : Expr) (label : String) (content : Emit Unit) : Emit Unit := do
  let inCode ← inCode
  note (.hole e label)
  content
  if !inCode then moveCursor Cursor.interpolated

end Emit

/-- The beginning of the labels of the holes in a part with a label. -/
def labelPrefix (label : String) : String := if label = "" then "" else label ++ "-"

/-- The label of the hole number `index`. -/
def holeLabel (front : String) (index : Nat) : String :=
  front ++ "expression_" ++ toString index

open Emit in
mutual

/-- Writes the server-side form of an expression. -/
def lower (job : Job) (use : Use) (label : String) (e : Expr) : Emit Unit :=
  match e with
  | .group _ inner =>
    if use = .block then lower job .block label inner
    else do
      if ← begin use e label then
        write (.symbol "( ")
        lower job .operand label inner
        write (.symbol " )")
      else lower job .value label inner
  | .tagged _ tag _ texts holes =>
    if use = .block ∧ tag = job.tag then lowerParts job (labelPrefix label) 0 holes texts
    else do
      let bare ← begin use e label
      if tag ≠ job.tag ∨ bare then refuse job e label (.taggedTemplate tag job.tag)
  | .constant _ v spelling =>
    match use, v with
    | .block, .text s => constantText s
    | .block, .halves points => constantText (Constant.joined points)
    | _, _ => do constant job e v spelling label (← begin use e label)
  | .name .. => do readValue job e label (← begin use e label)
  | .member _ object name _ => do property job e object name label (← begin use e label)
  | .binary _ operator left right => do
    if ← begin use e label then
      lower job .operand (label ++ "-left") left
      write (.symbol (" " ++ operator ++ " "))
      lower job .operand (label ++ "-right") right
    else refuse job e label (.operatorInMarkup operator)
  | .logical _ operator left right => do
    if ← begin use e label then
      lower job .operand (label ++ "-left") left
      write (.symbol (" " ++ operator ++ " "))
      lower job .operand (label ++ "-right") right
    else if operator = "&&" ∧ right.isMarkup job.tag then
      condition (lower job .operand (label ++ "-test") left)
      block .conditional none none
        [([], lower job .block (label ++ "-consequent") right)] .ifEnd
    else refuse job e label (.operatorInMarkup operator)
  | .conditional _ test consequent alternate => do
    let _ ← begin use e label
    if ← inCode then
      inlineConditional (lower job .operand (label ++ "-test") test)
        (lower job .operand (label ++ "-consequent") consequent)
        (lower job .operand (label ++ "-alternate") alternate)
    else
      condition (lower job .operand (label ++ "-test") test)
      let first := ([], lower job .block (label ++ "-consequent") consequent)
      let second := ([Piece.otherwise], lower job .block (label ++ "-alternate") alternate)
      block .conditional none none
        (if alternate.isEmptyText then [first] else [first, second]) .ifEnd
  | .call _ callee arguments => do
    let _ ← begin use e label
    let t ← tracker
    ofExcept (job.requirePlain t label callee)
    match callee with
    | .member _ object _ _ => ofExcept (job.requirePlain t label object)
    | _ => pure ()
    match CallShape.of? callee with
    | none => refuse job e label (.call callee.calleeText)
    | some (.helper name) => helper job e name label arguments
    | some (.loop array) =>
      match arguments with
      | [.arrow _ [item] body] =>
        loopHead job e array label item
        block .loop item array [([], lower job .block "map-loop-body" body)] .loopEnd
      | _ => loopHead job e array label none
  | .this _ | .arrow .. | .template .. | .other .. => do
    let _ ← begin use e label
    refuse job e label (.expression e.description)

/-- Writes texts and the expressions between them, from hole number `index` on. Texts without a hole
behind them are written as well; a hole without a text in front is not. -/
def lowerParts (job : Job) (front : String) (index : Nat) :
    List Expr → List String → Emit Unit
  | [], texts => chunks texts
  | _ :: _, [] => pure ()
  | e :: holes, content :: texts => do
    chunk content
    hole e (holeLabel front index) (lower job .value (holeLabel front index) e)
    lowerParts job front (index + 1) holes texts

end

/-- Writes a call in the form that it has. -/
def Emit.called (job : Job) (label : String) (place : Text.Place) (callee : Expr)
    (arguments : List Expr) : Emit Unit :=
  match CallShape.of? callee with
  | none => refuse job (.call place callee arguments) label (.call callee.calleeText)
  | some (.helper name) => helper job (.call place callee arguments) name label arguments
  | some (.loop array) =>
    match arguments with
    | [.arrow _ [item] body] => do
      loopHead job (.call place callee arguments) array label item
      block .loop item array [([], lower job .block "map-loop-body" body)] .loopEnd
    | _ => loopHead job (.call place callee arguments) array label none

open Emit in
/-- A call is checked first and then written in its form. -/
theorem lower_call {job : Job} {use : Use} {label : String} {place : Text.Place} {callee : Expr}
    {arguments : List Expr} : lower job use label (.call place callee arguments) = (do
      let _ ← begin use (.call place callee arguments) label
      let t ← tracker
      ofExcept (job.requirePlain t label callee)
      ofExcept (job.requirePlainOwner t label callee)
      called job label place callee arguments) := by
  rw [lower]
  congr 1
  funext _
  congr 1
  funext t
  congr 1
  funext _
  unfold called Job.requirePlainOwner
  cases CallShape.of? callee with
  | none => cases callee <;> rfl
  | some shape =>
    cases shape with
    | helper name => cases callee <;> rfl
    | loop array =>
      -- both sides look at the arguments, before and after the check of the owner
      rcases arguments with _ | ⟨argument, _ | ⟨_, _⟩⟩
      · cases callee <;> rfl
      · cases argument with
        | arrow place' parameters body =>
          rcases parameters with _ | ⟨item, _ | ⟨_, _⟩⟩ <;> cases callee <;> rfl
        | _ => cases callee <;> rfl
      · cases callee <;> rfl

/-- Writes a whole template, in a frame of its own, and fails unless all is left in order. -/
def lowerTemplate (job : Job) (template : Template) : Emit Unit := do
  Emit.enterScope .template
  lowerParts job "" 0 template.holes template.chunks
  Emit.exitScope .template
  ofExcept (← Emit.tracker).finish

/-- The state in which a conversion starts. -/
def Job.start (job : Job) : Progress :=
  { tracker := Tracker.start job.declaration.parameterNames job.declaration.title }

/-- The pieces of the fragment for a template, in order. -/
def Job.pieces (job : Job) (template : Template) : Except Diagnostic (List Piece) :=
  match lowerTemplate job template job.start with
  | .ok _ s => .ok s.pieces.reverse
  | .error d _ => .error d

/-- The fragment for a template. -/
def Job.convert (job : Job) (template : Template) : Except Diagnostic String :=
  (job.pieces template).map Piece.writtenAll

end ServerTemplate
