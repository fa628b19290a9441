import ServerTemplate.Proofs.Emission.Lowered

/-!
# The expressions that occur in a template

Each expression of a template has a standing in it: it fills a hole, is converted as a part of
another expression, or is only looked at with the expression around it. `Expr.Occurs` goes from an
expression to all that occurs in it; what is in a template that is skipped does not occur, and what
is in an argument that no helper looks at occurs unused.

`Progress.Covers` says that a conversion has dealt with an occurrence: an expression that is
converted by itself is of a form that the conversion knows and has begun, and one that is looked at
is a plain reference. The facts that are collected along a conversion are `Fact`s, which last.
-/

namespace ServerTemplate

/-! ### Occurrences -/

/-- How an expression stands in what is around it. -/
inductive Standing where
  /-- It fills a hole, perhaps in parentheses. -/
  | hole
  /-- It is a part that is converted by itself: an operand, a branch or the body of a loop. -/
  | part
  /-- It is looked at with the expression around it: the owner of a property, the callee of a call
  or the value that stars are drawn for. -/
  | reference
  /-- It is the function that a loop is given. -/
  | callback
  /-- It is, or stands in, an argument that no helper looks at. -/
  | unused
  deriving DecidableEq, Repr

/-- The standing of a part of an expression. What is in an unused expression is unused. -/
def Standing.inner (outer r : Standing) : Standing := if outer = .unused then .unused else r

/-- The standing of the arguments of a helper that looks for a rating. It looks at the only argument
if that can be read. -/
def Standing.ofRating : List Expr → Standing
  | [.name ..] | [.member ..] => .reference
  | _ => .unused

/-- The standing of the arguments of a call. A loop takes a function with one parameter. Of the
helpers two look at no argument. -/
def CallShape.arguments : Option CallShape → List Expr → Standing
  | some (.loop _), [.arrow _ [_] _] => .callback
  | some (.helper name), given =>
    if name = "formatResultCount" ∨ name = "getCurrentYear" then .unused
    else Standing.ofRating given
  | _, _ => .part

namespace Expr

/-- The parts of an expression and their standings. A template that fills a hole is skipped. -/
def parts (tag : String) (r : Standing) : Expr → List (Standing × Expr)
  | name .. | this _ | constant .. | other .. => []
  | member _ object _ _ => [(r.inner .reference, object)]
  | call _ callee given =>
    (r.inner .reference, callee) ::
      given.map ((r.inner (CallShape.arguments (CallShape.of? callee) given), ·))
  | arrow _ _ body => [(r.inner .part, body)]
  | binary _ _ left right | logical _ _ left right =>
    [(r.inner .part, left), (r.inner .part, right)]
  | conditional _ test consequent alternate =>
    [(r.inner .part, test), (r.inner .part, consequent), (r.inner .part, alternate)]
  | group _ inner => [(r, inner)]
  | template _ _ holes => holes.map ((r.inner .hole, ·))
  | tagged _ tag' _ _ holes =>
    if r = .hole ∧ tag' = tag then [] else holes.map ((r.inner .hole, ·))

/-- In an expression of some standing an expression occurs with some standing. -/
inductive Occurs (tag : String) : Standing → Expr → Standing → Expr → Prop
  | here {r : Standing} {e : Expr} : Occurs tag r e r e
  | inside {r r' r'' : Standing} {e e' e'' : Expr} (part : (r', e') ∈ e.parts tag r)
      (rest : Occurs tag r' e' r'' e'') : Occurs tag r e r'' e''

/-- What is in an unused expression is unused. -/
theorem parts_unused {tag : String} {e : Expr} :
    ∀ p ∈ e.parts tag .unused, p.1 = Standing.unused := by
  intro p hp
  cases e <;> simp only [parts, Standing.inner, if_true, List.mem_cons, List.mem_map,
    List.not_mem_nil, reduceCtorEq, false_and, if_false, or_false] at hp
  case call => rcases hp with rfl | ⟨_, _, rfl⟩ <;> rfl
  case template | tagged =>
    obtain ⟨_, _, rfl⟩ := hp
    rfl
  case binary | logical => rcases hp with rfl | rfl <;> rfl
  case conditional => rcases hp with rfl | rfl | rfl <;> rfl
  all_goals rw [hp]

/-- Whether a conversion has a form for an expression by itself. -/
def HasForm (tag : String) : Expr → Prop
  | this _ | arrow .. | template .. | other .. => False
  | member _ _ _ optional => optional = false
  | tagged _ tag' _ _ _ => tag' = tag
  | _ => True

/-- Whether an expression is the component, a name or a property that is not read optionally. -/
def IsReference : Expr → Prop
  | this _ | name .. => True
  | member _ _ _ optional => optional = false
  | _ => False

/-- Every template that is rendered in an expression has one text more than it has holes. -/
def Interleaved (tag : String) (r : Standing) (e : Expr) : Prop :=
  ∀ place tag' templatePlace texts holes,
    e.Occurs tag r .part (.tagged place tag' templatePlace texts holes) →
      texts.length = holes.length + 1

theorem Interleaved.part {tag : String} {r : Standing} {e : Expr} (h : e.Interleaved tag r)
    {p : Standing × Expr} (hp : p ∈ e.parts tag r) : p.2.Interleaved tag p.1 :=
  fun _ _ _ _ _ occurs => h _ _ _ _ _ (.inside hp occurs)

end Expr

/-- In a template an expression occurs with some standing. -/
def Template.Occurs (template : Template) (tag : String) (r : Standing) (e : Expr) : Prop :=
  ∃ hole ∈ template.holes, hole.Occurs tag .hole r e

/-- A template, and every template that is rendered in it, has one text more than it has holes. -/
structure Template.Interleaved (template : Template) (tag : String) : Prop where
  whole : template.chunks.length = template.holes.length + 1
  inner : ∀ hole ∈ template.holes, hole.Interleaved tag .hole

/-! ### What a conversion has dealt with -/

namespace Progress

/-- Something has happened. -/
def Has (s : Progress) (event : Event) : Prop := ∃ m ∈ s.journal, m.event = event

/-- An expression has been converted: its conversion has begun, or it is written as text, or as a
template whose texts are written. Parentheses are converted with what is in them. -/
def Converted (s : Progress) (e : Expr) : Prop :=
  (∃ label bare, s.Has (.expression e label bare)) ∨
    match e with
    | .group .. => True
    | .constant _ (.text content) _ => content = "" ∨ s.Has (.constantText content)
    | .constant _ (.halves points) _ =>
      Constant.joined points = "" ∨ s.Has (.constantText (Constant.joined points))
    | .tagged _ _ _ texts _ => ∀ content ∈ texts, s.Has (.chunk content)
    | _ => False

/-- A conversion has dealt with an expression of some standing. -/
def Covers (s : Progress) (tag : String) (r : Standing) (e : Expr) : Prop :=
  match r with
  | .hole | .part => e.HasForm tag ∧ s.Converted e
  | .reference => e.IsReference
  | .callback => ∃ place item body, e = .arrow place [item] body
  | .unused => True

end Progress

/-- What may have come about in a conversion, and lasts. -/
structure Fact where
  holds : Progress → Prop
  lasts : ∀ {s s' : Progress}, s.journal <:+ s'.journal → holds s → holds s'

namespace Fact

/-- What holds from the beginning, or never. -/
def known (p : Prop) : Fact := ⟨fun _ => p, fun _ h => h⟩

def and (f g : Fact) : Fact :=
  ⟨fun s => f.holds s ∧ g.holds s, fun older h => ⟨f.lasts older h.1, g.lasts older h.2⟩⟩

/-- Something has happened. -/
def happened (event : Event) : Fact :=
  ⟨fun s => s.Has event, fun older ⟨m, hm, h⟩ => ⟨m, older.subset hm, h⟩⟩

/-- The conversion of an expression has begun. -/
def begun (e : Expr) : Fact where
  holds s := ∃ label bare, s.Has (.expression e label bare)
  lasts := fun older ⟨label, bare, h⟩ => ⟨label, bare, (happened _).lasts older h⟩

/-- The texts of a template have been written. -/
def written (texts : List String) : Fact where
  holds s := ∀ content ∈ texts, s.Has (.chunk content)
  lasts := fun older h content hc => (happened _).lasts older (h content hc)

end Fact

/-- What has been converted stays so. -/
theorem Progress.Converted.lasts {s s' : Progress} {e : Expr} (older : s.journal <:+ s'.journal)
    (h : s.Converted e) : s'.Converted e := by
  refine h.imp ((Fact.begun e).lasts older) fun h => ?_
  cases e with
  | group => trivial
  | constant place v spelling =>
    cases v with
    | text | halves => exact h.imp_right ((Fact.happened _).lasts older)
    | _ => exact h
  | tagged place tag templatePlace texts holes => exact (Fact.written _).lasts older h
  | _ => exact h

/-- What has been dealt with stays so. -/
theorem Progress.Covers.lasts {s s' : Progress} {tag : String} {r : Standing} {e : Expr}
    (older : s.journal <:+ s'.journal) (h : s.Covers tag r e) : s'.Covers tag r e := by
  cases r with
  | hole | part => exact ⟨h.1, h.2.lasts older⟩
  | reference | callback | unused => exact h

namespace Fact

/-- All that occurs in an expression has been dealt with. -/
def covered (tag : String) (r : Standing) (e : Expr) : Fact where
  holds s := ∀ r' e', e.Occurs tag r r' e' → s.Covers tag r' e'
  lasts := fun older h r' e' occurs => (h r' e' occurs).lasts older

/-- All that occurs in some parts of an expression has been dealt with. -/
def coveredAll (tag : String) (parts : List (Standing × Expr)) : Fact where
  holds s := ∀ p ∈ parts, (covered tag p.1 p.2).holds s
  lasts := fun older h p hp => (covered tag p.1 p.2).lasts older (h p hp)

variable {tag : String} {r : Standing} {e : Expr} {s : Progress} {p : Standing × Expr}
  {parts : List (Standing × Expr)}

theorem coveredAll_nil : (coveredAll tag []).holds s := List.forall_mem_nil _

theorem coveredAll_cons : (coveredAll tag (p :: parts)).holds s ↔
    (covered tag p.1 p.2).holds s ∧ (coveredAll tag parts).holds s := List.forall_mem_cons

/-- All in an expression is dealt with if the expression is and all in its parts is. -/
theorem covered_of_parts (own : s.Covers tag r e)
    (inner : (coveredAll tag (e.parts tag r)).holds s) : (covered tag r e).holds s := by
  intro r' e' occurs
  cases occurs with
  | here => exact own
  | inside part rest => exact inner _ part _ _ rest

/-- Nothing in an unused expression needs to be dealt with. -/
theorem covered_unused : (covered tag .unused e).holds s := by
  intro r' e' occurs
  generalize hr : Standing.unused = r at occurs
  induction occurs with
  | here => exact hr ▸ trivial
  | inside part _ ih =>
    subst hr
    exact ih (Expr.parts_unused _ part).symm

theorem coveredAll_unused {es : List Expr} (h : r = .unused) :
    (coveredAll tag (es.map ((r, ·)))).holds s := by
  intro p hp
  obtain ⟨e, -, rfl⟩ := List.mem_map.mp hp
  subst h
  exact covered_unused

end Fact

end ServerTemplate
