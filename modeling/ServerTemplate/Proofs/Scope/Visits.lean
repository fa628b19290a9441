import ServerTemplate.Proofs.Outline.Reference

/-!
# Visits

An expression is visited where its conversion begins. `Template.visits` lists the visits of a
template in order, each with the loops in whose bodies the expression stands, as recursion on the
template gives them.

A visit checks the names that its expression uses, and `Job.check` is this check as the loops around
the expression determine it. A check that misses a name lists the names that are visible there
(`Job.check_lists`), and a visit of a value passes if the value can be read there
(`Job.check_of_reference?`).
-/

namespace ServerTemplate

/-- The beginning of the conversion of an expression. -/
structure Visit where
  e : Expr
  label : String
  /-- Whether the expression is written bare. -/
  bare : Bool
  /-- The loops in whose bodies the expression stands, the innermost first. -/
  loops : Loops

/-- The visit of an expression that is used in some way. -/
def Visit.of (loops : Loops) (use : Use) (label : String) (e : Expr) : Visit :=
  ⟨e, label, use == .operand, loops⟩

/-- Whether a constant is a text. -/
def Constant.isText : Constant → Bool
  | .text _ | .halves _ => true
  | _ => false

mutual

/-- The visits of an expression and of its parts, in order. A template that is rendered and a text
as the branch of a conditional are not visited themselves. The body of a loop, and nothing else, has
one loop more around it. -/
def Expr.visits (tag : String) (loops : Loops) (use : Use) (label : String) (e : Expr) :
    List Visit :=
  match e with
  | .group _ inner =>
    if use = .block then inner.visits tag loops .block label
    else .of loops use label e :: inner.visits tag loops use label
  | .tagged _ tag' _ texts holes =>
    if use = .block ∧ tag' = tag then Expr.visitsOfParts tag loops (labelPrefix label) 0 holes texts
    else [.of loops use label e]
  | .constant _ v _ => if use = .block ∧ v.isText then [] else [.of loops use label e]
  | .binary _ _ left right =>
    .of loops use label e ::
      if use = .operand then
        left.visits tag loops .operand (label ++ "-left")
          ++ right.visits tag loops .operand (label ++ "-right")
      else []
  | .logical _ operator left right =>
    .of loops use label e ::
      if use = .operand then
        left.visits tag loops .operand (label ++ "-left")
          ++ right.visits tag loops .operand (label ++ "-right")
      else if operator = "&&" ∧ right.isMarkup tag then
        left.visits tag loops .operand (label ++ "-test")
          ++ right.visits tag loops .block (label ++ "-consequent")
      else []
  | .conditional _ test consequent alternate =>
    .of loops use label e ::
      if use = .operand then
        test.visits tag loops .operand (label ++ "-test")
          ++ consequent.visits tag loops .operand (label ++ "-consequent")
          ++ alternate.visits tag loops .operand (label ++ "-alternate")
      else
        test.visits tag loops .operand (label ++ "-test")
          ++ consequent.visits tag loops .block (label ++ "-consequent")
          ++ (if alternate.isEmptyText then []
              else alternate.visits tag loops .block (label ++ "-alternate"))
  | .call _ callee arguments =>
    .of loops use label e ::
      match CallShape.of? callee, arguments with
      | some (.loop array), [.arrow _ [item] body] =>
        if use = .operand then []
        else body.visits tag ((item, array) :: loops) .block "map-loop-body"
      | _, _ => []
  | .name .. | .member .. | .this _ | .arrow .. | .template .. | .other .. =>
    [.of loops use label e]

/-- The visits of the expressions between the texts of a template. -/
def Expr.visitsOfParts (tag : String) (loops : Loops) (front : String) (index : Nat) :
    List Expr → List String → List Visit
  | [], _ => []
  | _ :: _, [] => []
  | e :: holes, _ :: texts =>
    e.visits tag loops .value (holeLabel front index)
      ++ Expr.visitsOfParts tag loops front (index + 1) holes texts

end

/-- The visits of a template, in order. -/
def Template.visits (template : Template) (tag : String) : List Visit :=
  Expr.visitsOfParts tag [] "" 0 template.holes template.chunks

namespace Expr

variable {tag : String} {loops : Loops} {use : Use} {label : String} {place place' : Text.Place}
  {callee body : Expr} {arguments : List Expr} {array item : String}

/-- A loop is visited, and then its body, inside the loop. -/
theorem visits_loop (markup : use ≠ .operand)
    (shape : CallShape.of? callee = some (.loop array)) :
    (Expr.call place callee [.arrow place' [item] body]).visits tag loops use label =
      .of loops use label (.call place callee [.arrow place' [item] body]) ::
        body.visits tag ((item, array) :: loops) .block "map-loop-body" := by
  rw [visits, if_neg markup]
  exact shape

/-- Of a call in code only the call is visited. -/
theorem visits_call_operand : (Expr.call place callee arguments).visits tag loops .operand label =
    [.of loops .operand label (.call place callee arguments)] := by
  unfold visits
  split
  · rw [if_pos rfl]
  · rfl

/-- Of a call that is no loop only the call is visited. -/
theorem visits_call (noLoop : ∀ array place' item body,
      CallShape.of? callee = some (.loop array) → arguments ≠ [.arrow place' [item] body]) :
    (Expr.call place callee arguments).visits tag loops use label =
      [.of loops use label (.call place callee arguments)] := by
  rw [visits]
  exact noLoop

end Expr

/-! ### Visible names -/

namespace Job

variable {job : Job} {loops : Loops} {label : String} {e : Expr}

/-- The names that are visible inside loops, in order: the parameters and the items. -/
def namesIn (job : Job) (loops : Loops) : List String :=
  Text.sortedDistinct (job.declaration.parameterNames ++ loops.map Prod.fst)

theorem mem_namesIn {name : String} :
    name ∈ job.namesIn loops ↔
      name ∈ job.declaration.parameterNames ∨ name ∈ loops.map Prod.fst := by
  rw [namesIn, Text.mem_sortedDistinct, List.mem_append]

theorem mem_namesIn_iff_sees {name : String} :
    name ∈ job.namesIn loops ↔ job.sees loops name = true := by
  rw [mem_namesIn, sees, Bool.or_eq_true, List.contains_iff_mem, or_comm]
  simp

theorem requireSeen_of_mem {name : String} (h : name ∈ job.namesIn loops) :
    job.requireSeen loops e name label = .ok () := by
  rw [requireSeen, if_pos (mem_namesIn_iff_sees.mp h)]

theorem requireSeen_of_notMem {name : String} (h : name ∉ job.namesIn loops) :
    job.requireSeen loops e name label =
      .error ⟨.unresolved name label (job.namesIn loops), job.siteOf e⟩ := by
  rw [requireSeen, if_neg (mt mem_namesIn_iff_sees.mpr h)]
  rfl

/-! ### The names that a visit checks -/

/-- The item of the function that a loop is given. -/
def loopItem? : List Expr → Option String
  | [.arrow _ [item] _] => some item
  | _ => none

/-- The check of the names that a helper uses. -/
def checkHelper (job : Job) (loops : Loops) (label : String) (e : Expr) (name : String)
    (arguments : List Expr) : Except Diagnostic Unit :=
  if name = "formatResultCount" then job.requireSeen loops e resultCountParameter label
  else if name = "getCurrentYear" then .ok ()
  else
    match loops.head? with
    | none => .error ⟨.outsideLoop "this.renderStars()" label, job.siteOf e⟩
    | some (item, _) => (job.ratingIn loops label item arguments).map fun _ => ()

/-- The check of the names that an expression uses which is visited. Calls have no form in code, so
their names are not looked at there. -/
def check (job : Job) (v : Visit) : Except Diagnostic Unit :=
  match v.e with
  | .name .. | .member .. => (job.accessIn v.loops v.label v.e).map fun _ => ()
  | .call _ callee arguments => do
    job.plain v.label callee
    job.plainOwner v.label callee
    if v.bare then return
    match CallShape.of? callee with
    | none => return
    | some (.helper name) => job.checkHelper v.loops v.label v.e name arguments
    | some (.loop array) =>
      job.loopHeadIn v.loops v.label v.e array (loopItem? arguments)
  | _ => .ok ()

/-- Where a check misses a name, it lists the visible names, and the name is not among them. -/
def Lists (job : Job) (loops : Loops) (label : String) {α : Type} (r : Except Diagnostic α) :
    Prop :=
  ∀ d name context names, r = .error d → d.cause = .unresolved name context names →
    context = label ∧ names = job.namesIn loops ∧ name ∉ names

namespace Lists

variable {α β : Type}

theorem ok (a : α) : job.Lists loops label (.ok a) := fun _ _ _ _ h => by cases h

theorem error {d : Diagnostic}
    (h : ∀ name context names, d.cause ≠ .unresolved name context names) :
    job.Lists loops label (.error d : Except Diagnostic α) := by
  rintro _ name context names ⟨⟩ cause
  exact (h _ _ _ cause).elim

theorem bind {x : Except Diagnostic α} {f : α → Except Diagnostic β} (hx : job.Lists loops label x)
    (hf : ∀ a, job.Lists loops label (f a)) : job.Lists loops label (x >>= f) := by
  cases x with
  | ok a => exact hf a
  | error d => exact fun d' name context names h => hx d' name context names (by cases h; rfl)

theorem map {x : Except Diagnostic α} {f : α → β} (hx : job.Lists loops label x) :
    job.Lists loops label (x.map f) := by
  cases x with
  | ok a => exact ok _
  | error d => exact fun d' name context names h => hx d' name context names (by cases h; rfl)

theorem requireSeen {name : String} :
    job.Lists loops label (job.requireSeen loops e name label) := by
  by_cases h : name ∈ job.namesIn loops
  · rw [requireSeen_of_mem h]
    exact ok _
  · rw [requireSeen_of_notMem h]
    rintro _ _ _ _ ⟨⟩ ⟨⟩
    exact ⟨rfl, rfl, h⟩

theorem refusal {construct : Unsupported} :
    job.Lists loops label (.error (job.refusal e label construct) : Except Diagnostic α) :=
  error nofun

theorem plain : job.Lists loops label (job.plain label e) := by
  unfold Job.plain
  split
  · exact refusal
  · exact ok _

theorem plainOwner : job.Lists loops label (job.plainOwner label e) := by
  unfold Job.plainOwner
  split
  · exact plain
  · exact ok _

theorem readingIn : job.Lists loops label (job.readingIn loops label e) := by
  unfold Job.readingIn
  refine plain.bind fun _ => ?_
  split
  · exact requireSeen.bind fun _ => ok _
  · -- a property of a name is refused outside loops, before its name is looked at
    by_cases outside : loops = []
    · rw [if_pos outside]
      exact error nofun
    · rw [if_neg outside]
      refine requireSeen.bind fun _ => ?_
      split
      · exact ok _
      · exact refusal
  · exact requireSeen.bind fun _ => ok _
  · exact refusal

theorem accessIn : job.Lists loops label (job.accessIn loops label e) := by
  unfold Job.accessIn
  refine plain.bind fun _ => ?_
  split
  · exact readingIn.bind fun _ => ok _
  · split
    · exact readingIn.bind fun _ => ok _
    · exact readingIn.bind fun _ => ok _
  · exact readingIn.bind fun _ => ok _

theorem ratingIn {item : String} {arguments : List Expr} :
    job.Lists loops label (job.ratingIn loops label item arguments) := by
  unfold Job.ratingIn
  split
  · exact readingIn.bind fun _ => ok _
  · exact readingIn.bind fun _ => ok _
  · exact ok _

theorem checkHelper {name : String} {arguments : List Expr} :
    job.Lists loops label (job.checkHelper loops label e name arguments) := by
  unfold Job.checkHelper
  split
  · exact requireSeen
  split
  · exact ok _
  split
  · exact error nofun
  · exact ratingIn.map

theorem loopHeadIn {array : String} {item? : Option String} :
    job.Lists loops label (job.loopHeadIn loops label e array item?) := by
  refine requireSeen.bind fun _ => ?_
  split
  · exact refusal
  · split
    · exact refusal
    · exact ok _

end Lists

/-- A check that misses a name lists the names that are visible inside the loops. -/
theorem check_lists (job : Job) (v : Visit) : job.Lists v.loops v.label (job.check v) := by
  unfold check
  split
  · exact Lists.accessIn.map
  · exact Lists.accessIn.map
  · refine Lists.plain.bind fun _ => Lists.plainOwner.bind fun _ => ?_
    split
    · exact .ok _
    split
    · exact .ok _
    · exact .checkHelper
    · exact .loopHeadIn
  · exact .ok _

end Job

/-! ### The value that a visit reads -/

/-- The value that stands for the number of full stars, if the expression writes stars for one. -/
def Expr.rating? : Expr → Option Expr
  | .call _ (.member _ (.this _) helper false) [argument] =>
    if helper = "renderStars" then
      match argument with
      | .name _ _ | .member _ _ _ _ => some argument
      | _ => none
    else none
  | _ => none

/-- The value that an expression reads which is visited: the expression itself, the owner of a
length, or the rating that is given to stars inside a loop. -/
def Visit.reference? (v : Visit) : Option Expr :=
  match v.e with
  | .name _ _ => some v.e
  | .member _ (.this _) _ false => some v.e
  | .member _ object property false => some (if property = "length" then object else v.e)
  | .call _ _ _ => if v.bare = false ∧ v.loops ≠ [] then v.e.rating? else none
  | _ => none

namespace Job

variable {job : Job} {loops : Loops} {label : String}

/-- A call of the helper for stars inside a loop checks its rating. -/
theorem check_stars {place callee this : Text.Place} {argument : Expr} {loop : String × String} :
    job.check ⟨.call place (.member callee (.this this) "renderStars" false) [argument], label,
        false, loop :: loops⟩ =
      (job.ratingIn (loop :: loops) label loop.1 [argument]).map fun _ => () :=
  rfl

/-- What is made of a value does not matter to its check. -/
theorem forget_reading {β : Type} (r : Except Diagnostic Reading) (f : Reading → β) :
    (do return f (← r) : Except Diagnostic β).map (fun _ => ()) = r.map fun _ => () := by
  cases r <;> rfl

/-- A rating that reads a value is checked as the value is. -/
theorem check_of_rating? {v : Visit} {e : Expr} (rating : v.e.rating? = some e)
    (markup : v.bare = false) (inside : v.loops ≠ []) :
    job.check v = (job.readingIn v.loops v.label e).map fun _ => () := by
  obtain ⟨e', label, bare, loops⟩ := v
  dsimp only at rating markup inside
  obtain ⟨loop, outer, rfl⟩ := List.exists_cons_of_ne_nil inside
  subst markup
  unfold Expr.rating? at rating
  split at rating
  · split at rating
    · rename_i place callee this helper argument stars
      subst stars
      cases argument with
      | name | member =>
        cases rating
        exact check_stars.trans (forget_reading _ _)
      | _ => cases rating
    · cases rating
  · cases rating

/-- A visit that reads a value passes if the value can be read inside the loops, and fails as the
reading fails. -/
theorem check_of_reference? {v : Visit} {e : Expr} (reference : v.reference? = some e) :
    job.check v = (job.readingIn v.loops v.label e).map fun _ => () := by
  obtain ⟨e', label, bare, loops⟩ := v
  unfold Visit.reference? at reference
  dsimp only at reference
  split at reference
  · cases reference
    exact forget_reading _ _
  · cases reference
    exact forget_reading _ _
  · rename_i place object property noThis
    cases reference
    change (job.accessIn loops label (.member place object property false)).map _ = _
    have access : job.accessIn loops label (.member place object property false) =
        if property = "length" then do
          return .count (← job.readingIn loops label object).operand
        else do
          return .value (← job.readingIn loops label (.member place object property false)) := by
      cases object with
      | this place' => exact (noThis place' rfl).elim
      | _ => rfl
    rw [access]
    split
    · exact forget_reading _ _
    · exact forget_reading _ _
  · split at reference
    · rename_i inside
      exact check_of_rating? reference inside.1 inside.2
    · cases reference
  · cases reference

/-- A name is read if it is visible, and else listed as missing. -/
theorem readingIn_name {place : Text.Place} {name : String} :
    job.readingIn loops label (.name place name) =
      if name ∈ job.namesIn loops then
        .ok ⟨.var name, (loops.lookup name).getD name, none⟩
      else
        .error ⟨.unresolved name label (job.namesIn loops), job.siteOf (.name place name)⟩ := by
  change (do job.requireSeen loops (.name place name) name label; return _) = _
  split
  · rename_i h
    rw [requireSeen_of_mem h]
    rfl
  · rename_i h
    rw [requireSeen_of_notMem h]
    rfl

/-- A property of a name can be read only if the name is the item of a loop around. -/
theorem mem_of_readingIn_member {place place' : Text.Place} {owner field : String} {r : Reading}
    (h : job.readingIn loops label (.member place (.name place' owner) field false) = .ok r) :
    owner ∈ loops.map Prod.fst := by
  obtain ⟨_, -, h⟩ := exists_ok_of_bind h
  dsimp only at h
  split at h
  · cases h
  · obtain ⟨_, -, h⟩ := exists_ok_of_bind h
    split at h
    · rename_i array found
      have seen : (loops.lookup owner).isSome = true := by rw [found]; rfl
      simpa using seen
    · cases h

/-- Outside loops no property of a name can be read. -/
theorem readingIn_member_outside {place place' : Text.Place} {owner field : String} :
    job.readingIn [] label (.member place (.name place' owner) field false) =
      .error ⟨.outsideLoop (owner ++ "." ++ field) label,
        job.siteOf (.member place (.name place' owner) field false)⟩ :=
  rfl

end Job

end ServerTemplate
