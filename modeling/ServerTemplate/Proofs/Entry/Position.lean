import Mathlib.Data.List.Perm.Basic
import ServerTemplate.Proofs.Entry.Expression
import ServerTemplate.Script.Entry

/-!
# Where the templates of an entry stand

Whether a value is given by the function of the sought name depends on the nodes around it:
`valuesAt` says which value a position in a tree gives, by the nearest function around it, of
whatever kind. `entryTemplates` are the templates among the values of all positions, so that each
position counts once.

A function can as well be asked for all its values. `occurrences_perm` says that the functions of
the sought name give the values of all positions, each once (`entryTemplates_perm`).
-/

namespace ServerTemplate.Script

/-- The nodes around a node, the innermost first. With each goes the number of the child that leads
inwards. -/
abbrev Around := List (Node × Nat)

/-- Whether a node is a function, of whatever kind. -/
def NodeKind.isFunction : NodeKind → Bool
  | function | generator | functionDeclaration | generatorDeclaration | method | arrow => Bool.true
  | _ => Bool.false

namespace Node

/-! ### Positions -/

mutual

/-- A node and the nodes in it, each with the nodes around it. -/
def occurrences (around : Around) : Node → List (Around × Node)
  | ⟨kind, slot, start, stop, children⟩ =>
    (around, ⟨kind, slot, start, stop, children⟩) ::
      occurrencesIn around ⟨kind, slot, start, stop, children⟩ 0 children

/-- The occurrences in children, of which the first has the given number. -/
def occurrencesIn (around : Around) (parent : Node) (i : Nat) : List Node → List (Around × Node)
  | [] => []
  | child :: rest =>
    child.occurrences ((parent, i) :: around) ++ occurrencesIn around parent (i + 1) rest

end

mutual

/-- A node without the parentheses around it and without comments in these. -/
def stripped? : Node → Option Node
  | ⟨.parenthesized, _, _, _, children⟩ => strippedOf? children
  | node => some node

/-- The first node that is neither a mere token nor a comment of any kind, without the parentheses
around it. -/
def strippedOf? : List Node → Option Node
  | [] => none
  | child :: rest =>
    if child.kind.isPassed || child.kind == .lineComment then strippedOf? rest else child.stripped?

end

/-- The value that a return gives, without the parentheses around it. -/
def returned? (n : Node) : Option Node :=
  if n.kind == .returnStatement then n.content?.bind stripped? else none

/-- Whether the child of a number is the first in a slot. -/
def isChild (n : Node) (slot : Slot) (i : Nat) : Bool :=
  (n.children.findIdx? fun child => child.slot == slot) == some i

variable (s : Source) (sought : Sought)

/-- Whether a node has the sought name. -/
def isCalled (n : Node) : Bool :=
  match n.child? .name with
  | some name => some (name.text s) == sought.name?
  | none => false

/-- Whether a function is of the sought name: it has the name, or is an arrow function and the value
of what has the name. -/
def isEntry (around : Around) (f : Node) : Bool :=
  if f.kind == .arrow then
    match around with
    | (p, i) :: _ => p.kind.isBinding && p.isCalled s sought && p.isChild .value i
    | [] => false
  else f.kind.isNamedFunction && f.isCalled s sought

/-- Whether the nearest function around a node is of the sought name. -/
def isOwned : Around → Bool
  | [] => false
  | (f, _) :: outer => if f.kind.isFunction then f.isEntry s sought outer else isOwned outer

/-- Whether a node is the expression that an arrow function of the sought name gives. -/
def isEntryBody (around : Around) (n : Node) : Bool :=
  match around with
  | (f, i) :: outer =>
    f.kind == .arrow && f.isEntry s sought outer && f.isChild .body i && n.kind != .block
  | [] => false

/-- The values that functions of the sought name give at a position. -/
def valuesAt (position : Around × Node) : List Node :=
  (if isOwned s sought position.1 then position.2.returned?.toList else []) ++
    if isEntryBody s sought position.1 position.2 then position.2.stripped?.toList else []

/-- A value that is a template with the sought tag. -/
def asCandidate (value : Node) : Option Candidate :=
  (value.markup? s sought.tag).map fun template => ⟨value, template⟩

/-- The templates that functions of the sought name give, one for each position. -/
def entryTemplates (tree : Node) : List Candidate :=
  ((tree.occurrences []).flatMap (valuesAt s sought)).filterMap (asCandidate s sought)

/-! ### The values of functions -/

mutual

/-- The values of the returns in a node that are in no function inside it. -/
def ownValues : Node → List Node
  | ⟨kind, slot, start, stop, children⟩ =>
    if kind.isFunction then []
    else (returned? ⟨kind, slot, start, stop, children⟩).toList ++ ownValuesOf children

/-- The values of the returns in nodes that are in no function inside them. -/
def ownValuesOf : List Node → List Node
  | [] => []
  | node :: rest => node.ownValues ++ ownValuesOf rest

end

/-- The expression that an arrow function gives. -/
def expressionBody (f : Node) : List Node :=
  if f.kind == .arrow then
    ((f.child? .body).filter fun body => body.kind != .block).toList.flatMap (·.stripped?.toList)
  else []

/-- The values that a function gives. -/
def values (f : Node) : List Node := ownValuesOf f.children ++ f.expressionBody

/-- The function that a node of the sought name is, or is the name of. -/
def entryFunction? (n : Node) : Option Node :=
  if n.isCalled s sought then
    if n.kind.isNamedFunction then some n
    else if n.kind.isBinding then (n.child? .value).filter fun value => value.kind == .arrow
    else none
  else none

/-- The values that the function gives which a node is, or is the name of. -/
def valuesHere (n : Node) : List Node := (n.entryFunction? s sought).toList.flatMap values

mutual

/-- The values of the functions of the sought name in a node. -/
def given : Node → List Node
  | ⟨kind, slot, start, stop, children⟩ =>
    valuesHere s sought ⟨kind, slot, start, stop, children⟩ ++ givenOf children

/-- The values of the functions of the sought name in nodes. -/
def givenOf : List Node → List Node
  | [] => []
  | node :: rest => node.given ++ givenOf rest

end

/-! ### Each position counts once -/

variable {s sought} {around : Around} {n : Node}

theorem occurrences_eq : n.occurrences around =
    (around, n) :: occurrencesIn around n 0 n.children := by
  cases n
  rw [occurrences]

theorem ownValues_eq : n.ownValues =
    if n.kind.isFunction then [] else n.returned?.toList ++ ownValuesOf n.children := by
  cases n
  rw [ownValues]

theorem ownValuesOf_eq (nodes : List Node) : ownValuesOf nodes = nodes.flatMap ownValues := by
  induction nodes with
  | nil => rfl
  | cons node rest ih => rw [ownValuesOf, ih, List.flatMap_cons]

theorem given_eq : n.given s sought = n.valuesHere s sought ++ givenOf s sought n.children := by
  cases n
  rw [given]

/-- What is taken of the child that is the first of its kind. -/
theorem flatMap_zipIdx_findIdx? {α β : Type} {xs : List α} {p : α → Bool} {f : α → List β}
    (k : Nat) : ((xs.zipIdx k).flatMap fun x =>
      if (xs.findIdx? p).map (· + k) = some x.2 then f x.1 else []) =
      (xs.find? p).toList.flatMap f := by
  induction xs generalizing k with
  | nil => rfl
  | cons x xs ih =>
    rw [List.zipIdx_cons, List.flatMap_cons, List.findIdx?_cons, List.find?_cons]
    cases h : p x with
    | true =>
      -- the first child is the one, and all others have a greater number
      have rest : ((xs.zipIdx (k + 1)).flatMap fun y =>
          if (some 0).map (· + k) = some y.2 then f y.1 else []) = [] := by
        refine List.flatMap_eq_nil_iff.mpr fun y hy => if_neg ?_
        have := List.le_snd_of_mem_zipIdx hy
        simp only [Option.map_some, Option.some.injEq]
        omega
      simp only [if_true, rest]
      simp
    | false =>
      have first : ((xs.findIdx? p).map (· + 1)).map (· + k) ≠ some k := by
        cases xs.findIdx? p <;> simp
      simp only [Bool.false_eq_true, if_false, if_neg first, List.nil_append]
      rw [← ih (k + 1)]
      simp only [Option.map_map, Function.comp_def, Nat.add_assoc, Nat.add_comm 1 k]

/-- What is taken of the child in a slot, on conditions. -/
theorem flatMap_isChild {β : Type} (b : Bool) (q : Node → Bool) (f : Node → List β) (slot : Slot) :
    (n.children.zipIdx.flatMap fun c => if b && n.isChild slot c.2 && q c.1 then f c.1 else []) =
      if b then ((n.child? slot).filter q).toList.flatMap f else [] := by
  cases b with
  | false => simp
  | true =>
    have nested : (fun c : Node × Nat =>
        if (true && n.isChild slot c.2 && q c.1) = true then f c.1 else []) = fun c =>
          if (n.children.findIdx? fun child => child.slot == slot).map (· + 0) = some c.2 then
            (if q c.1 then f c.1 else []) else [] := by
      funext c
      simp [isChild, ite_and]
    rw [nested, flatMap_zipIdx_findIdx? (f := fun c => if q c then f c else []) 0, if_pos rfl,
      child?]
    cases n.children.find? fun child => child.slot == slot with
    | none => rfl
    | some child => cases h : q child <;> simp [h, Option.filter]

/-- What is taken of all children, on a condition. -/
theorem flatMap_zipIdx {β : Type} (b : Bool) (f : Node → List β) :
    (n.children.zipIdx.flatMap fun c => if b then f c.1 else []) =
      if b then n.children.flatMap f else [] := by
  cases b with
  | false => simp
  | true =>
    have map := List.flatMap_map Prod.fst f n.children.zipIdx
    rw [List.zipIdx_map_fst] at map
    exact map.symm

/-- The values in a node that functions around it give, and those that it gives itself if it is an
arrow function of the sought name. -/
def valuesFrom (s : Source) (sought : Sought) (around : Around) (n : Node) : List Node :=
  (if isOwned s sought around then n.ownValues else []) ++
    (if isEntryBody s sought around n then n.stripped?.toList else []) ++
    if n.kind == .arrow && n.isEntry s sought around then n.values else []

/-- The nearest function around a child is the node, or the nearest one around this. -/
theorem isOwned_cons (i : Nat) : isOwned s sought ((n, i) :: around) =
    if n.kind.isFunction then n.isEntry s sought around else isOwned s sought around := rfl

/-- The returns of the children that belong to a function around them. -/
theorem flatMap_ownValues : (n.children.zipIdx.flatMap fun c =>
      if isOwned s sought ((n, c.2) :: around) then c.1.ownValues else []) =
    if isOwned s sought ((n, 0) :: around) then ownValuesOf n.children else [] := by
  rw [ownValuesOf_eq, ← flatMap_zipIdx]
  rfl

/-- The child that is the expression of an arrow function of the sought name. -/
theorem flatMap_entryBody : (n.children.zipIdx.flatMap fun c =>
      if isEntryBody s sought ((n, c.2) :: around) c.1 then c.1.stripped?.toList else []) =
    if n.isEntry s sought around then n.expressionBody else [] := by
  refine (flatMap_isChild (n := n) (n.kind == .arrow && n.isEntry s sought around)
    (fun c => c.kind != .block) (fun c => c.stripped?.toList) .body).trans ?_
  rw [expressionBody]
  cases n.kind == .arrow <;> cases n.isEntry s sought around <;> rfl

/-- The child that is an arrow function and the value of a node of the sought name. -/
theorem flatMap_entryValue : (n.children.zipIdx.flatMap fun c =>
      if c.1.kind == .arrow && c.1.isEntry s sought ((n, c.2) :: around) then c.1.values else []) =
    if n.kind.isBinding && n.isCalled s sought then
      ((n.child? .value).filter fun value => value.kind == .arrow).toList.flatMap values
    else [] := by
  rw [← flatMap_isChild]
  congr 1
  funext c
  congr 1
  by_cases arrow : c.1.kind = .arrow
  · simp [isEntry, arrow]
  · simp [arrow]

/-- What the functions around the children of a node give in these. -/
theorem flatMap_valuesFrom_perm : (n.children.zipIdx.flatMap fun c =>
      valuesFrom s sought ((n, c.2) :: around) c.1).Perm
    ((if isOwned s sought ((n, 0) :: around) then ownValuesOf n.children else []) ++
      (if n.isEntry s sought around then n.expressionBody else []) ++
      if n.kind.isBinding && n.isCalled s sought then
        ((n.child? .value).filter fun value => value.kind == .arrow).toList.flatMap values
      else []) := by
  rw [← flatMap_ownValues, ← flatMap_entryBody, ← flatMap_entryValue]
  exact (((List.flatMap_append_perm _ _ _).append_right _).trans
    (List.flatMap_append_perm _ _ _)).symm

/-- What a node that is no function gives, with what is given around it in its children, goes
together. -/
theorem perm_regroup {α : Type} (b : Bool) (a c d e : List α) :
    ((if b then a else []) ++ c ++ ((if b then d else []) ++ [] ++ e)).Perm
      (e ++ ((if b then a ++ d else []) ++ c ++ [])) := by
  cases b with
  | false => simpa using List.perm_append_comm
  | true =>
    simp only [if_true, List.append_nil]
    calc
    (a ++ c ++ (d ++ e)).Perm (a ++ c ++ d ++ e) := by rw [List.append_assoc (a ++ c)]
      List.Perm _ (e ++ (a ++ c ++ d)) := List.perm_append_comm
      List.Perm _ (e ++ (a ++ d ++ c)) := by
        simp only [List.append_assoc]
        exact (List.perm_append_comm.append_left a).append_left e

/-- What a node gives and what is given in its children is what its function gives and what is given
in it. -/
theorem valuesAt_append_perm : (valuesAt s sought (around, n) ++ n.children.zipIdx.flatMap fun c =>
      valuesFrom s sought ((n, c.2) :: around) c.1).Perm
    (n.valuesHere s sought ++ valuesFrom s sought around n) := by
  refine (flatMap_valuesFrom_perm.append_left _).trans ?_
  rw [valuesAt, valuesFrom, valuesHere, isOwned_cons, ownValues_eq]
  cases arrow : n.kind == .arrow with
  | true =>
    have kind := eq_of_beq arrow
    have notNamed : n.kind.isNamedFunction = false := by rw [kind]; rfl
    have notBinding : n.kind.isBinding = false := by rw [kind]; rfl
    have function : n.kind.isFunction = true := by rw [kind]; rfl
    have noReturn : n.returned? = none := by rw [returned?, kind]; rfl
    have nothing : n.entryFunction? s sought = none := by
      simp [entryFunction?, notNamed, notBinding]
    rw [nothing, noReturn, function, notBinding, values]
    cases n.isEntry s sought around <;> simp
  | false =>
    have entry : n.isEntry s sought around = (n.kind.isNamedFunction && n.isCalled s sought) := by
      unfold isEntry
      rw [arrow]
      rfl
    have noBody : n.expressionBody = [] := by
      rw [expressionBody, arrow]
      rfl
    rw [entry, noBody]
    cases function : n.kind.isFunction with
    | true =>
      have notBinding : n.kind.isBinding = false := by
        cases kind : n.kind <;> rw [kind] at function <;> first | rfl | cases function
      have noReturn : n.returned? = none := by
        rw [returned?, if_neg]
        intro kind
        rw [eq_of_beq kind] at function
        cases function
      rw [noReturn, notBinding, entryFunction?, notBinding]
      cases n.kind.isNamedFunction <;> cases n.isCalled s sought <;>
        simp [values, noBody, List.perm_append_comm]
    | false =>
      have notNamed : n.kind.isNamedFunction = false := by
        cases kind : n.kind <;> rw [kind] at function <;> first | rfl | cases function
      have calls : (n.entryFunction? s sought).toList.flatMap values =
          if n.kind.isBinding && n.isCalled s sought then
            ((n.child? .value).filter fun value => value.kind == .arrow).toList.flatMap values
          else [] := by
        rw [entryFunction?, notNamed]
        cases n.kind.isBinding <;> cases n.isCalled s sought <;> rfl
      rw [notNamed, calls]
      exact perm_regroup _ _ _ _ _

/-- Positions in children give what these give and what functions around them give in them. -/
theorem occurrencesIn_perm {nodes : List Node}
    (each : ∀ c ∈ nodes, ∀ around, ((c.occurrences around).flatMap (valuesAt s sought)).Perm
      (c.given s sought ++ valuesFrom s sought around c)) (k : Nat) :
    ((occurrencesIn around n k nodes).flatMap (valuesAt s sought)).Perm
      (givenOf s sought nodes ++
        (nodes.zipIdx k).flatMap fun c => valuesFrom s sought ((n, c.2) :: around) c.1) := by
  induction nodes generalizing k with
  | nil => exact .nil
  | cons child rest ih =>
    have first := each child (.head rest) ((n, k) :: around)
    have others := ih (fun c h => each c (.tail child h)) (k + 1)
    rw [occurrencesIn, List.flatMap_append, givenOf, List.zipIdx_cons, List.flatMap_cons]
    refine (first.append others).trans ?_
    simp only [List.append_assoc]
    refine .append_left _ ?_
    simp only [← List.append_assoc]
    exact .append_right _ List.perm_append_comm

/-- Positions in a node give what functions in it give and what functions around it give in it. -/
theorem occurrences_perm (n : Node) : ∀ around,
    ((n.occurrences around).flatMap (valuesAt s sought)).Perm
      (n.given s sought ++ valuesFrom s sought around n) := by
  induction n using Node.induction with | h n each => ?_
  intro around
  rw [occurrences_eq, List.flatMap_cons, given_eq]
  generalize moved : (n.children.zipIdx.flatMap fun c =>
    valuesFrom s sought ((n, c.2) :: around) c.1) = inward
  have inside : ((occurrencesIn around n 0 n.children).flatMap (valuesAt s sought)).Perm
      (givenOf s sought n.children ++ inward) := moved ▸ occurrencesIn_perm each 0
  have here : (valuesAt s sought (around, n) ++ inward).Perm
      (n.valuesHere s sought ++ valuesFrom s sought around n) := moved ▸ valuesAt_append_perm
  calc
    List.Perm _ (valuesAt s sought (around, n) ++ (inward ++ givenOf s sought n.children)) :=
      (inside.trans List.perm_append_comm).append_left _
    List.Perm _ (n.valuesHere s sought ++ valuesFrom s sought around n ++
        givenOf s sought n.children) := by
      rw [← List.append_assoc]
      exact here.append_right _
    List.Perm _ (n.valuesHere s sought ++ givenOf s sought n.children ++
        valuesFrom s sought around n) := by
      simp only [List.append_assoc]
      exact List.perm_append_comm.append_left _

/-- The templates that functions of the sought name give are those that they are asked for. -/
theorem entryTemplates_perm (tree : Node) : (tree.entryTemplates s sought).Perm
    ((tree.given s sought).filterMap (asCandidate s sought)) := by
  have nothing : valuesFrom s sought [] tree = [] := by
    unfold valuesFrom isEntry
    cases tree.kind == .arrow <;> rfl
  have perm : ((tree.occurrences []).flatMap (valuesAt s sought)).Perm
      (tree.given s sought ++ valuesFrom s sought [] tree) := occurrences_perm tree []
  rw [nothing, List.append_nil] at perm
  exact perm.filterMap _

end Node

end ServerTemplate.Script
