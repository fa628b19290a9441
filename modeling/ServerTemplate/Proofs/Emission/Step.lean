import Mathlib.Logic.Relation
import ServerTemplate.Proofs.Emission.After
import ServerTemplate.Template.Lowering

/-!
# The steps of a conversion

`Step job P s s'` lists everything that a conversion can do in one go: begin an expression, write a
piece, open or leave a frame or a region, replay a literal text, move the cursor. Each kind of step
says under which condition it is taken: values are echoed in markup only and through the function
of their policy, code is written in code only, and a block begins in markup only. `Stop` says how a
conversion breaks off.

Blocks have frames of their own, which `Opens` and `Closes` begin and end. `Runs` is what a part of
a conversion does that succeeds, with every block as a whole; `Steps` is what a conversion does
until it succeeds or breaks off, with the beginnings and ends of blocks among the steps.

`lowersInSteps`: every expression, used in any way, is converted in such steps, and what is
converted in code leaves the regions as they are. What holds at the beginning and is kept by every
step therefore holds throughout a conversion. `P` is what is known of all expressions of the
template; a step that uses an expression hands it on.
-/

namespace ServerTemplate

/-! ### Expressions and their parts -/

mutual

/-- Whether `P` holds of an expression and of all its parts. -/
def Expr.All (P : Expr → Prop) : Expr → Prop
  | .member place object property optional =>
    P (.member place object property optional) ∧ object.All P
  | .call place callee arguments =>
    P (.call place callee arguments) ∧ callee.All P ∧ Expr.AllIn P arguments
  | .arrow place parameters body => P (.arrow place parameters body) ∧ body.All P
  | .binary place operator left right =>
    P (.binary place operator left right) ∧ left.All P ∧ right.All P
  | .logical place operator left right =>
    P (.logical place operator left right) ∧ left.All P ∧ right.All P
  | .conditional place test consequent alternate =>
    P (.conditional place test consequent alternate) ∧ test.All P ∧ consequent.All P ∧
      alternate.All P
  | .group place inner => P (.group place inner) ∧ inner.All P
  | .template place chunks holes => P (.template place chunks holes) ∧ Expr.AllIn P holes
  | .tagged place tag templatePlace chunks holes =>
    P (.tagged place tag templatePlace chunks holes) ∧ Expr.AllIn P holes
  | e => P e

/-- Whether `P` holds of all expressions of a list and of all their parts. -/
def Expr.AllIn (P : Expr → Prop) : List Expr → Prop
  | [] => True
  | e :: rest => e.All P ∧ Expr.AllIn P rest

end

/-- What holds of all parts of an expression holds of the expression. -/
theorem Expr.All.self {P : Expr → Prop} {e : Expr} (h : e.All P) : P e := by
  cases e <;> simp only [Expr.All] at h <;> first | exact h.1 | exact h

theorem Expr.AllIn.of_mem {P : Expr → Prop} {es : List Expr} (h : Expr.AllIn P es) {e : Expr}
    (he : e ∈ es) : e.All P := by
  induction es with
  | nil => cases he
  | cons e' es ih =>
    rcases List.mem_cons.mp he with rfl | he
    · exact h.1
    · exact ih h.2 he

mutual

/-- What holds of every expression holds of all parts of each. -/
theorem Expr.All.of_forall {P : Expr → Prop} (h : ∀ e, P e) : ∀ e : Expr, e.All P
  | .member _ object _ _ => ⟨h _, Expr.All.of_forall h object⟩
  | .call _ callee arguments =>
    ⟨h _, Expr.All.of_forall h callee, Expr.AllIn.of_forall h arguments⟩
  | .arrow _ _ body => ⟨h _, Expr.All.of_forall h body⟩
  | .binary _ _ left right => ⟨h _, Expr.All.of_forall h left, Expr.All.of_forall h right⟩
  | .logical _ _ left right => ⟨h _, Expr.All.of_forall h left, Expr.All.of_forall h right⟩
  | .conditional _ test consequent alternate =>
    ⟨h _, Expr.All.of_forall h test, Expr.All.of_forall h consequent,
      Expr.All.of_forall h alternate⟩
  | .group _ inner => ⟨h _, Expr.All.of_forall h inner⟩
  | .template _ _ holes => ⟨h _, Expr.AllIn.of_forall h holes⟩
  | .tagged _ _ _ _ holes => ⟨h _, Expr.AllIn.of_forall h holes⟩
  | .name .. | .this _ | .constant .. | .other .. => h _

theorem Expr.AllIn.of_forall {P : Expr → Prop} (h : ∀ e, P e) : ∀ es : List Expr, Expr.AllIn P es
  | [] => trivial
  | e :: es => ⟨Expr.All.of_forall h e, Expr.AllIn.of_forall h es⟩

end

/-- Whether an expression reads a value: a parameter, a loop item or a field of a loop item, but not
a number of elements. -/
def Expr.isRead : Expr → Bool
  | name .. => true
  | member _ (this _) _ _ => true
  | member _ (name ..) property _ => property != "length"
  | _ => false

/-- At this moment an expression begins that reads a value in markup. -/
def Moment.Reads (m : Moment) (e : Expr) (label : String) : Prop :=
  (∃ bare, m.event = .expression e label bare) ∧ e.isRead = true ∧ m.tracker.inCode = false

/-- The piece that echoes the value which an expression reads. -/
def Job.echoOf (job : Job) (t : Tracker) (k : Cursor) (label : String) (e : Expr) :
    Except Diagnostic Piece := do
  let r ← job.reading t label e
  let function ← job.functionFor k r.field r.array e
  return .echo r.operand function

/-- How a constant is written in code. -/
def Constant.code (v : Constant) (spelling : String) : String :=
  let spelled (otherwise : String) := if spelling = "" then otherwise else spelling
  match v with
  | .null => "null"
  | .bool true => "true"
  | .bool false => "false"
  | .int n => spelled (toString n)
  | .float x => spelled x.text
  | .text s => Literal.ofText s
  | .halves points => Literal.ofText (joined points)

/-- Every constant is written in code. -/
theorem Emit.constant_code (job : Job) (e : Expr) (v : Constant) (spelling label : String) :
    Emit.constant job e v spelling label true = Emit.write (.constant (v.code spelling)) := by
  cases v with
  | bool value => cases value <;> rfl
  | _ => rfl

/-! ### Steps -/

/-- What a conversion does in one go. -/
inductive Step (job : Job) (P : Expr → Prop) : Progress → Progress → Prop
  /-- An expression begins that is no read in markup. -/
  | begins {s : Progress} {e : Expr} {label : String} (known : P e)
      (other : e.isRead = true → s.tracker.inCode = true) :
      Step job P s (s.noting (.expression e label s.tracker.inCode))
  /-- The expression in a hole begins. -/
  | hole {s : Progress} {e : Expr} {label : String} (known : P e) :
      Step job P s (s.noting (.hole e label))
  | chunk {s s' : Progress} {content : String} (replayed : Emit.chunk content s = .ok () s') :
      Step job P s s'
  | constantText {s s' : Progress} {content : String}
      (replayed : Emit.constantText content s = .ok () s') : Step job P s s'
  /-- A read in markup is echoed. -/
  | echo {s : Progress} {e : Expr} {label : String} {piece : Piece} (known : P e)
      (read : e.isRead = true) (markup : s.tracker.inCode = false)
      (resolved : job.echoOf s.tracker s.cursor label e = .ok piece) :
      Step job P s ((s.noting (.expression e label false)).writing piece)
  /-- A number of elements is echoed without a function. -/
  | count {s : Progress} {e : Expr} {label : String} {r : Reading} (known : P e)
      (markup : s.tracker.inCode = false) (read : job.reading s.tracker label e = .ok r) :
      Step job P s (s.writing (.echo (.count r.operand) none))
  | operand {s : Progress} {e : Expr} {label : String} {r : Reading} (known : P e)
      (code : s.tracker.inCode = true) (read : job.reading s.tracker label e = .ok r) :
      Step job P s (s.writing (.operand r.operand))
  | countOperand {s : Progress} {e : Expr} {label : String} {r : Reading} (known : P e)
      (code : s.tracker.inCode = true) (read : job.reading s.tracker label e = .ok r) :
      Step job P s (s.writing (.operand (.count r.operand)))
  | constant {s : Progress} {place : Text.Place} {v : Constant} {spelling : String}
      (known : P (.constant place v spelling)) (code : s.tracker.inCode = true) :
      Step job P s (s.writing (.constant (v.code spelling)))
  | binary {s : Progress} {place : Text.Place} {operator : String} {left right : Expr}
      (known : P (.binary place operator left right)) (code : s.tracker.inCode = true) :
      Step job P s (s.writing (.symbol (" " ++ operator ++ " ")))
  | logical {s : Progress} {place : Text.Place} {operator : String} {left right : Expr}
      (known : P (.logical place operator left right)) (code : s.tracker.inCode = true) :
      Step job P s (s.writing (.symbol (" " ++ operator ++ " ")))
  | bracket {s : Progress} {sign : String} (listed : sign ∈ ["( ", " )", " ) ? ", " : "])
      (code : s.tracker.inCode = true) : Step job P s (s.writing (.symbol sign))
  | resultCount {s : Progress} {e : Expr} {function : Option String} (known : P e)
      (markup : s.tracker.inCode = false)
      (resolved : job.functionFor s.cursor resultCountParameter none e = .ok function) :
      Step job P s (s.writing (.resultCount job.labels function))
  | currentYear {s : Progress} (markup : s.tracker.inCode = false) :
      Step job P s (s.writing .currentYear)
  | stars {s : Progress} {label item : String} {arguments : List Expr} {rating : Operand}
      (known : ∀ e ∈ arguments, P e) (markup : s.tracker.inCode = false)
      (loop : s.tracker.currentItem? = some item)
      (rated : job.ratingOperand s.tracker label item arguments = .ok rating) :
      Step job P s (s.writing (.stars job.stars rating))
  /-- The head of a conditional begins, and with it a region of code. -/
  | openCondition {s : Progress} (markup : s.tracker.inCode = false) :
      Step job P s ((s.writing .ifStart).tracking s.tracker.enterCode)
  /-- The head of a conditional ends, and with it the region of code. -/
  | closeCondition {s : Progress} {t : Tracker} (left : s.tracker.leaveCode = .ok t)
      (markup : t.inCode = false) : Step job P s ((s.tracking t).writing .ifTested)
  /-- A conditional in code has a frame of its own. -/
  | enter {s : Progress} (code : s.tracker.inCode = true) :
      Step job P s (s.tracking (s.tracker.enter .conditional))
  | leave {s : Progress} {frame : Frame} {t : Tracker} (code : s.tracker.inCode = true)
      (left : s.tracker.exit (some .conditional) = .ok (frame, t)) : Step job P s (s.tracking t)
  | loopHead {s : Progress} {array item : String} {optional : Bool} {body : Expr}
      {arrow receiver this : Text.Place} (known : P (.arrow arrow [item] body))
      (known_array : P (.member receiver (.this this) array optional))
      (markup : s.tracker.inCode = false) (array_visible : s.tracker.isVisible array = true)
      (item_fresh : s.tracker.isVisible item = false) :
      Step job P s (s.writing (.loopStart array item))
  /-- One branch of a block ends and the next begins. -/
  | otherwise {s : Progress} : Step job P s (s.writing .otherwise)
  | move {s : Progress} (k : Cursor) : Step job P s (s.moving k)

/-- How the frame of a block is opened. -/
inductive Opens (job : Job) (P : Expr → Prop) : Progress → Progress → Prop
  | conditional {s : Progress} (markup : s.tracker.inCode = false) :
      Opens job P s (s.tracking (s.tracker.enter .conditional))
  | loop {s : Progress} {array item : String} {arrow : Text.Place} {body : Expr}
      (known : P (.arrow arrow [item] body)) (markup : s.tracker.inCode = false)
      (array_visible : s.tracker.isVisible array = true)
      (item_fresh : s.tracker.isVisible item = false) :
      Opens job P s ((s.tracking (s.tracker.enter .loop (some item) (some array))).tracking
        ((s.tracker.enter .loop (some item) (some array)).bind item .loopItem))

/-- How the frame of a block is left. -/
inductive Closes : Progress → Progress → Prop
  | close {s : Progress} {kind : FrameKind} {closer : Piece} {frame : Frame} {t : Tracker}
      (left : s.tracker.exit (some kind) = .ok (frame, t))
      (closes : closer = .ifEnd ∨ closer = .loopEnd) : Closes s ((s.tracking t).writing closer)

/-- A step, or the beginning or end of a frame around literal text. -/
inductive Act (job : Job) (P : Expr → Prop) : Progress → Progress → Prop
  | step {s s' : Progress} (step : Step job P s s') : Act job P s s'
  | opens {s s' : Progress} (opened : Opens job P s s') : Act job P s s'
  | closes {s s' : Progress} (closed : Closes s s') : Act job P s s'
  | enterTemplate {s : Progress} : Act job P s (s.tracking (s.tracker.enter .template))
  | leaveTemplate {s : Progress} {frame : Frame} {t : Tracker}
      (left : s.tracker.exit (some .template) = .ok (frame, t)) : Act job P s (s.tracking t)

/-- How a conversion breaks off. -/
inductive Stop (job : Job) : Progress → Diagnostic → Progress → Prop
  /-- A read in markup has no reference or no policy. -/
  | read {s : Progress} {e : Expr} {label : String} {d : Diagnostic} (read : e.isRead = true)
      (markup : s.tracker.inCode = false)
      (failed : job.echoOf s.tracker s.cursor label e = .error d) :
      Stop job s d (s.noting (.expression e label false))
  /-- Anything else fails; no read in markup has begun. -/
  | other {s s' : Progress} {d : Diagnostic}
      (quiet : ∀ m ∈ s'.journal, m ∈ s.journal ∨ ∀ e label, ¬ m.Reads e label) : Stop job s d s'

/-- What a conversion does in any number of steps. -/
def Steps (job : Job) (P : Expr → Prop) : Progress → Progress → Prop :=
  Relation.ReflTransGen (Act job P)

/-- What a part of a conversion does that succeeds: steps, and whole blocks. -/
inductive Runs (job : Job) (P : Expr → Prop) : Progress → Progress → Prop
  | refl (s : Progress) : Runs job P s s
  | step {s s' : Progress} (step : Step job P s s') : Runs job P s s'
  | trans {s s' s'' : Progress} (first : Runs job P s s') (rest : Runs job P s' s'') :
      Runs job P s s''
  | block {s s₁ s₂ s' : Progress} (opened : Opens job P s s₁) (inner : Runs job P s₁ s₂)
      (closed : Closes s₂ s') : Runs job P s s'

/-- What a part does that succeeds it does in steps. -/
theorem Runs.steps {job : Job} {P : Expr → Prop} {s s' : Progress} (h : Runs job P s s') :
    Steps job P s s' := by
  induction h with
  | refl => exact .refl
  | step step => exact .single (.step step)
  | trans _ _ ih₁ ih₂ => exact ih₁.trans ih₂
  | block opened _ closed ih =>
    have begun : Steps job P _ _ := .single (.opens opened)
    exact (begun.trans ih).tail (.closes closed)

/-- A conversion breaks off after some steps. -/
def Halts (job : Job) (P : Expr → Prop) (s : Progress) (d : Diagnostic) (s' : Progress) : Prop :=
  ∃ s₁, Steps job P s s₁ ∧ Stop job s₁ d s'

end ServerTemplate
