import ServerTemplate.Proofs.Emission.Step
import ServerTemplate.Proofs.Outline.Outline

/-!
# A reference translation

`Job.outline` translates a template by recursion on its expressions. It keeps no state: it is given
the loops around an expression, and it takes a cursor and gives one back. There are no frames to
open and leave and no regions of code; what stands in code is translated by a function of its own,
`Job.operandOf`.
-/

namespace ServerTemplate

/-- The loops around an expression, the innermost first: the item and the array of each. -/
abbrev Loops := List (String × String)

namespace Job

variable (job : Job) (loops : Loops)

/-- Where an expression stands. -/
def siteOf (e : Expr) : Site :=
  ⟨some job.declaration.title, some e.place.line,
    Snippet.around? job.source e.place.line (some e.place.column)⟩

/-- The diagnostic for an expression that has no server-side form. -/
def refusal (e : Expr) (label : String) (construct : Unsupported) : Diagnostic :=
  ⟨.unsupported construct label, job.siteOf e⟩

/-- Whether a name is a loop item or a parameter. -/
def sees (name : String) : Bool :=
  (loops.lookup name).isSome || job.declaration.parameterNames.contains name

/-- Fails unless a name that an expression uses is a loop item or a parameter. -/
def requireSeen (e : Expr) (name label : String) : Except Diagnostic Unit :=
  if job.sees loops name then .ok ()
  else
    .error ⟨.unresolved name label
      (Text.sortedDistinct (job.declaration.parameterNames ++ loops.map Prod.fst)), job.siteOf e⟩

/-- Fails if a property is read optionally. -/
def plain (label : String) : Expr → Except Diagnostic Unit
  | e@(.member _ _ _ true) => .error (job.refusal e label .optionalChaining)
  | _ => .ok ()

/-- Fails if the owner of a property is read optionally. -/
def plainOwner (label : String) : Expr → Except Diagnostic Unit
  | .member _ object _ _ => job.plain label object
  | _ => .ok ()

/-- The value that an expression reads. -/
def readingIn (label : String) (e : Expr) : Except Diagnostic Reading := do
  job.plain label e
  match e with
  | .member _ (.this _) parameter _ =>
    job.requireSeen loops e parameter label
    return ⟨.var parameter, parameter, none⟩
  | .member _ (.name _ item) field _ =>
    if loops = [] then throw ⟨.outsideLoop (item ++ "." ++ field) label, job.siteOf e⟩
    job.requireSeen loops e item label
    match loops.lookup item with
    | some array => return ⟨.field item field, field, some array⟩
    | none => throw (job.refusal e label (.foreignProperty item field))
  | .name _ value =>
    job.requireSeen loops e value label
    return ⟨.var value, (loops.lookup value).getD value, none⟩
  | _ => throw (job.refusal e label (.noReference e.description))

/-- What a name or a property gives. -/
inductive Access where
  | value (r : Reading)
  /-- A number of elements. -/
  | count (of : Operand)

/-- How code reads what a name or a property gives. -/
def Access.operand : Access → Operand
  | value r => r.operand
  | count operand => .count operand

/-- What a name or a property gives in a scope. -/
def accessIn (label : String) (e : Expr) : Except Diagnostic Access := do
  job.plain label e
  match e with
  | .member _ (.this _) _ _ => return .value (← job.readingIn loops label e)
  | .member _ object property _ =>
    if property = "length" then return .count (← job.readingIn loops label object).operand
    else return .value (← job.readingIn loops label e)
  | _ => return .value (← job.readingIn loops label e)

/-- The value that determines how many stars are full. -/
def ratingIn (label item : String) (arguments : List Expr) : Except Diagnostic Operand := do
  match arguments with
  | [e@(.member ..)] | [e@(.name ..)] => return (← job.readingIn loops label e).operand
  | _ => return .field item ratingField

/-! ### Code -/

/-- The translation of a condition or a part of one. -/
def operandOf (label : String) (e : Expr) : Except Diagnostic (List Piece) :=
  match e with
  | .name .. | .member .. => do return [.operand (← job.accessIn loops label e).operand]
  | .constant _ v spelling => return [.constant (v.code spelling)]
  | .group _ inner => do
    return .symbol "( " :: (← operandOf label inner) ++ [.symbol " )"]
  | .binary _ operator left right | .logical _ operator left right => do
    let l ← operandOf (label ++ "-left") left
    let r ← operandOf (label ++ "-right") right
    return l ++ .symbol (" " ++ operator ++ " ") :: r
  | .conditional _ test consequent alternate => do
    let t ← operandOf (label ++ "-test") test
    let c ← operandOf (label ++ "-consequent") consequent
    let a ← operandOf (label ++ "-alternate") alternate
    return .symbol "( " :: t ++ .symbol " ) ? " :: c ++ .symbol " : " :: a
  | .tagged _ tag .. => throw (job.refusal e label (.taggedTemplate tag job.tag))
  | .call _ callee _ => do
    job.plain label callee
    job.plainOwner label callee
    match CallShape.of? callee with
    | none => throw (job.refusal e label (.call callee.calleeText))
    | some (.helper name) => throw (job.refusal e label (.helperInCode name))
    | some (.loop array) => throw (job.refusal e label (.loopInCode array))
  | .this _ | .arrow .. | .template .. | .other .. =>
    throw (job.refusal e label (.expression e.description))

/-! ### Markup -/

/-- What a name or a property gives, at a place in the markup. -/
def accessAt (k : Cursor) (e : Expr) : Access → Except Diagnostic Outline
  | .value r => do
    return .echo r.operand ⟨r.field, r.array, e, ← job.functionFor k r.field r.array e⟩
  | .count operand => return .code (.echo (.count operand) none)

/-- A helper at a place in the markup. -/
def helperAt (k : Cursor) (label : String) (e : Expr) (name : String) (arguments : List Expr) :
    Except Diagnostic Outline := do
  if name = "formatResultCount" then
    job.requireSeen loops e resultCountParameter label
    let function ← job.functionFor k resultCountParameter none e
    return .resultCount job.labels ⟨resultCountParameter, none, e, function⟩
  else if name = "getCurrentYear" then return .code .currentYear
  else
    match loops.head? with
    | none => throw ⟨.outsideLoop "this.renderStars()" label, job.siteOf e⟩
    | some (item, _) => return .code (.stars job.stars (← job.ratingIn loops label item arguments))

/-- The head of a loop. -/
def loopHeadIn (label : String) (e : Expr) (array : String) (item? : Option String) :
    Except Diagnostic Unit := do
  job.requireSeen loops e array label
  match item? with
  | none => throw (job.refusal e label (.loopWithoutArrow array))
  | some item => if job.sees loops item then throw (job.refusal e label (.shadowingItem array item))

end Job

/-- How a message spells a constant that has a form in conditions only. -/
def Constant.word (v : Constant) (spelling : String) : String :=
  if spelling = "" then
    match v with
    | .bool true => "True"
    | .bool false => "False"
    | _ => "None"
  else spelling

/-- Texts without holes between them, and the cursor behind them. -/
def Outline.ofTexts (k : Cursor) : List String → Outline × Cursor
  | [] => (.empty, k)
  | content :: texts =>
    (.seq (.text content) (ofTexts (k.feed content.toList) texts).1,
      (ofTexts (k.feed content.toList) texts).2)

mutual

/-- The translation of an expression in markup, and the cursor behind it. A template is rendered as
the branch of a conditional or the body of a loop. -/
def Job.outlineOf (job : Job) (loops : Loops) (rendered : Bool) (label : String) (k : Cursor)
    (e : Expr) : Except Diagnostic (Outline × Cursor) :=
  match e with
  | .name .. | .member .. => do
    let a ← job.accessIn loops label e
    return (← job.accessAt k e a, k)
  | .constant _ v spelling =>
    match v.text? spelling with
    | some content => return (.text content, k.feed content.toList)
    | none => throw (job.refusal e label (.constantInMarkup (v.word spelling)))
  | .group _ inner => Job.outlineOf job loops rendered label k inner
  | .tagged _ tag _ texts holes =>
    if rendered = true ∧ tag = job.tag then
      Job.partsOf job loops (labelPrefix label) 0 k holes texts
    else if tag ≠ job.tag then throw (job.refusal e label (.taggedTemplate tag job.tag))
    else return (.empty, k)
  | .binary _ operator _ _ => throw (job.refusal e label (.operatorInMarkup operator))
  | .logical _ operator left right =>
    if operator = "&&" ∧ right.isMarkup job.tag then do
      let test ← job.operandOf loops (label ++ "-test") left
      let (body, k') ← Job.outlineOf job loops true (label ++ "-consequent") k right
      return (.guard test body, k')
    else throw (job.refusal e label (.operatorInMarkup operator))
  | .conditional _ test consequent alternate => do
    let test ← job.operandOf loops (label ++ "-test") test
    let (first, k₁) ← Job.outlineOf job loops true (label ++ "-consequent") k consequent
    if alternate.isEmptyText then return (.guard test first, k₁)
    else
      let (second, k₂) ← Job.outlineOf job loops true (label ++ "-alternate") k alternate
      return (.branch test first second, k₂)
  | .call _ callee arguments => do
    job.plain label callee
    job.plainOwner label callee
    match CallShape.of? callee with
    | none => throw (job.refusal e label (.call callee.calleeText))
    | some (.helper name) => return (← job.helperAt loops k label e name arguments, k)
    | some (.loop array) =>
      match arguments with
      | [.arrow _ [item] body] => do
        job.loopHeadIn loops label e array (some item)
        let (inner, k') ← Job.outlineOf job ((item, array) :: loops) true "map-loop-body" k body
        return (.loop array item inner, k')
      | _ => do
        job.loopHeadIn loops label e array none
        return (.empty, k)
  | .this _ | .arrow .. | .template .. | .other .. =>
    throw (job.refusal e label (.expression e.description))

/-- The translation of texts and the expressions between them, and the cursor behind them. -/
def Job.partsOf (job : Job) (loops : Loops) (front : String) (index : Nat) (k : Cursor) :
    List Expr → List String → Except Diagnostic (Outline × Cursor)
  | [], texts => return Outline.ofTexts k texts
  | _ :: _, [] => return (.empty, k)
  | e :: holes, content :: texts => do
    let (inner, k₁) ←
      Job.outlineOf job loops false (holeLabel front index) (k.feed content.toList) e
    let (rest, k₂) ← Job.partsOf job loops front (index + 1) k₁.interpolated holes texts
    return (.seq (.text content) (.seq (.hole inner) rest), k₂)

end

/-- The translation of a template. -/
def Job.outline (job : Job) (template : Template) : Except Diagnostic Outline := do
  return (← Job.partsOf job [] "" 0 {} template.holes template.chunks).1

end ServerTemplate
