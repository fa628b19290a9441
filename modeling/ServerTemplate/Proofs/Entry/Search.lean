import ServerTemplate.Proofs.Entry.Position

/-!
# The search for the entry of a script

The search asks each function of the sought name for its returns. In a body it goes down to nested
functions and classes, but through generator functions; of a return and of parentheses it takes the
first node that is neither a mere token nor a plain comment. A tree is regular if none of this
matters (`isRegular`): then the templates found are those that functions of the sought name give, by
the nearest function around each position (`candidates_eq`, `entryTemplates_perm`), and the entry is
the only one of these (`entry_of_ofScript_iff`).
-/

namespace ServerTemplate

open Script

namespace Script.Node

variable (s : Source) (sought : Sought)

/-! ### Regular trees -/

/-- Whether no return in a node that is in no function inside it gives a template. -/
def isBare (n : Node) : Bool := (n.ownValues.filterMap (asCandidate s sought)).isEmpty

/-- The children of a function other than its body. -/
def besideBody (f : Node) : List Node := f.children.eraseP fun child => child.slot == .body

/-- Whether the search finds of a node what it gives. -/
def isRegular (n : Node) : Bool :=
  match n.kind with
  | .generator | .classExpression | .classDeclaration => n.children.all (isBare s sought)
  | .returnStatement =>
    n.children.all fun child => child.isBare s sought && child.kind != .lineComment
  | .parenthesized => n.children.all fun child => child.kind != .lineComment
  | .function | .functionDeclaration | .generatorDeclaration | .method =>
    n.besideBody.all (isBare s sought) && (n.child? .body).all fun body => body.kind == .block
  | .arrow =>
    n.besideBody.all (isBare s sought) &&
      (n.child? .body).all fun body => body.kind == .block || body.isBare s sought
  | _ => true

variable {s sought} {n : Node}

/-! ### What the search finds -/

/-- The template that the search takes of a return. -/
def taken? (s : Source) (sought : Sought) (r : Node) : Option Candidate :=
  r.firstNamed?.bind fun value => value.unwrapped?.bind (asCandidate s sought)

theorem filterMap_taken (returns : List Node) :
    ((returns.filterMap firstNamed?).filterMap unwrapped?).filterMap (asCandidate s sought) =
      returns.filterMap (taken? s sought) := by
  rw [List.filterMap_filterMap, List.filterMap_filterMap]
  rfl

theorem returnsOf_eq (nodes : List Node) : returnsOf nodes = nodes.flatMap returns := by
  induction nodes with
  | nil => rfl
  | cons node rest ih => rw [returnsOf, ih, List.flatMap_cons]

theorem returns_eq : n.returns =
    if n.kind == .returnStatement then [n] else if n.kind.isBarrier then []
    else returnsOf n.children := by
  cases n
  rw [returns]

/-- Nodes are without the parentheses around them what they are without comments. -/
theorem unwrappedOf?_eq {nodes : List Node} (plain : ∀ c ∈ nodes, c.kind ≠ .lineComment)
    (each : ∀ c ∈ nodes, c.unwrapped? = c.stripped?) : unwrappedOf? nodes = strippedOf? nodes := by
  induction nodes with
  | nil => rfl
  | cons child rest ih =>
    obtain ⟨first, others⟩ := List.forall_mem_cons.mp plain
    obtain ⟨same, each⟩ := List.forall_mem_cons.mp each
    rw [unwrappedOf?, strippedOf?, beq_eq_false_iff_ne.mpr first, Bool.or_false, same,
      ih others each]

/-- Without comments of a document in parentheses the first node in these is the one that counts. -/
theorem unwrapped?_eq (regular : n.all (isRegular s sought) = true) :
    n.unwrapped? = n.stripped? := by
  induction n using Node.induction with | h n ih => ?_
  obtain ⟨kind, slot, start, stop, children⟩ := n
  obtain ⟨here, inside⟩ := all_iff.mp regular
  cases kind
  case parenthesized =>
    rw [unwrapped?, stripped?]
    refine unwrappedOf?_eq (fun c hc => ?_) fun c hc => ih c hc (inside c hc)
    exact bne_iff_ne.mp (List.all_eq_true.mp here c hc)
  all_goals rfl

theorem filterMap_ownValuesOf {nodes : List Node}
    (bare : nodes.all (isBare s sought) = true) :
    (ownValuesOf nodes).filterMap (asCandidate s sought) = [] := by
  rw [ownValuesOf_eq, List.filterMap_flatMap, List.flatMap_eq_nil_iff]
  intro c hc
  exact List.isEmpty_iff.mp (List.all_eq_true.mp bare c hc)

/-- What is found of the returns in nodes is what these give, if this holds of each. -/
theorem filterMap_returnsOf {nodes : List Node} (each : ∀ c ∈ nodes,
      c.returns.filterMap (taken? s sought) = c.ownValues.filterMap (asCandidate s sought)) :
    (returnsOf nodes).filterMap (taken? s sought) =
      (ownValuesOf nodes).filterMap (asCandidate s sought) := by
  rw [returnsOf_eq, ownValuesOf_eq, List.filterMap_flatMap, List.filterMap_flatMap]
  exact List.flatMap_congr each

/-- Without comments in front the first node in a node is its content. -/
theorem content?_eq (plain : ∀ c ∈ n.children, c.kind ≠ .lineComment) :
    n.content? = n.firstNamed? := by
  rw [firstNamed?_eq, content?, ← List.head?_filter, ← List.head?_filter]
  congr 1
  refine List.filter_congr fun c hc => ?_
  rw [bne_iff_ne.mpr (plain c hc), Bool.and_true]

/-- The template of a return whose value stands behind no comment. -/
theorem taken?_eq (kind : n.kind = .returnStatement) (regular : n.all (isRegular s sought) = true)
    (plain : ∀ c ∈ n.children, c.kind ≠ .lineComment) :
    taken? s sought n = n.returned?.bind (asCandidate s sought) := by
  rw [returned?, kind, if_pos (beq_self_eq_true _), content?_eq plain, taken?]
  cases first : n.firstNamed? with
  | none => rfl
  | some value =>
    have inside : value ∈ n.children := List.mem_of_find?_eq_some (firstNamed?_eq ▸ first)
    simp only [Option.bind_some, unwrapped?_eq ((all_iff.mp regular).2 value inside)]

/-- What is found of the returns in a node is what these give. -/
theorem filterMap_returns (regular : n.all (isRegular s sought) = true) :
    n.returns.filterMap (taken? s sought) = n.ownValues.filterMap (asCandidate s sought) := by
  induction n using Node.induction with | h n ih => ?_
  obtain ⟨here, inside⟩ := all_iff.mp regular
  have below : (returnsOf n.children).filterMap (taken? s sought) =
      (ownValuesOf n.children).filterMap (asCandidate s sought) :=
    filterMap_returnsOf fun c hc => ih c hc (inside c hc)
  cases isReturn : n.kind == .returnStatement with
  | true =>
    have kind := eq_of_beq isReturn
    simp only [isRegular, kind, List.all_eq_true, Bool.and_eq_true, bne_iff_ne] at here
    have taken := taken?_eq kind regular fun c hc => (here c hc).2
    have bare := filterMap_ownValuesOf (List.all_eq_true.mpr fun c hc => (here c hc).1)
    have own : n.ownValues = n.returned?.toList ++ ownValuesOf n.children := by
      rw [ownValues_eq, kind]
      rfl
    rw [returns_eq, isReturn, if_pos rfl, own, List.filterMap_append, bare, List.append_nil]
    cases value : n.returned? <;> simp [List.filterMap_cons, taken, value]
  | false =>
    have nothing : n.returned? = none := by rw [returned?, isReturn]; rfl
    rw [returns_eq, isReturn, if_neg Bool.false_ne_true, ownValues_eq, nothing]
    obtain ⟨kind, slot, start, stop, children⟩ := n
    cases kind
    case generator => exact below.trans (filterMap_ownValuesOf here)
    case classExpression | classDeclaration => exact (filterMap_ownValuesOf here).symm
    case returnStatement => cases isReturn
    all_goals first | rfl | exact below

/-! ### What a function gives -/

/-- What the returns in a function give is what those in its body give. -/
theorem filterMap_ownValuesOf_children (beside : n.besideBody.all (isBare s sought) = true) :
    (ownValuesOf n.children).filterMap (asCandidate s sought) =
      ((n.child? .body).toList.flatMap ownValues).filterMap (asCandidate s sought) := by
  have bare := filterMap_ownValuesOf beside
  cases found : n.child? .body with
  | none =>
    have all : n.besideBody = n.children :=
      List.eraseP_of_forall_not fun c hc => List.find?_eq_none.mp found c hc
    rw [all] at bare
    exact bare
  | some body =>
    obtain ⟨isBody, before, behind, children, others⟩ := List.find?_eq_some_iff_append.mp found
    have erased : n.besideBody = before ++ behind := by
      rw [besideBody, children, List.eraseP_append_right _ fun c hc => by simpa using others c hc,
        List.eraseP_cons_of_pos (p := fun child : Node => child.slot == .body) isBody]
    rw [erased, ownValuesOf_eq, List.flatMap_append, List.filterMap_append,
      List.append_eq_nil_iff] at bare
    rw [children, ownValuesOf_eq, List.flatMap_append, List.flatMap_cons, List.filterMap_append,
      List.filterMap_append, bare.1, bare.2, List.append_nil]
    simp

/-- What a function gives, as the search asks its body for it. -/
def bodyResults (f : Node) : List Node :=
  (f.child? .body).toList.flatMap fun body => body.results (f.kind == .arrow && body.kind != .block)

/-- The search finds of a body what the returns in it give. -/
theorem filterMap_results_block (block : n.kind = .block)
    (regular : n.all (isRegular s sought) = true) :
    (n.results false).filterMap (asCandidate s sought) =
      n.ownValues.filterMap (asCandidate s sought) := by
  have own : n.ownValues = ownValuesOf n.children := by
    rw [ownValues_eq, returned?, block]
    rfl
  rw [results, own]
  refine (filterMap_taken _).trans (filterMap_returnsOf fun c hc => ?_)
  exact filterMap_returns ((all_iff.mp regular).2 c hc)

/-- The search finds of a function what it gives. -/
theorem filterMap_bodyResults (function : n.kind.isNamedFunction = true ∨ n.kind = .arrow)
    (regular : n.all (isRegular s sought) = true) :
    n.bodyResults.filterMap (asCandidate s sought) = n.values.filterMap (asCandidate s sought) := by
  obtain ⟨here, inside⟩ := all_iff.mp regular
  have parts : n.besideBody.all (isBare s sought) = true ∧ ∀ body, n.child? .body = some body →
      body.kind = .block ∨ n.kind = .arrow ∧ body.isBare s sought = true := by
    obtain ⟨kind, slot, start, stop, children⟩ := n
    cases kind
    case arrow =>
      obtain ⟨beside, body⟩ := Bool.and_eq_true_iff.mp here
      refine ⟨beside, fun b found => ?_⟩
      rw [found, Option.all_some, Bool.or_eq_true, beq_iff_eq] at body
      exact body.imp_right fun bare => ⟨rfl, bare⟩
    case function | functionDeclaration | generatorDeclaration | method =>
      obtain ⟨beside, body⟩ := Bool.and_eq_true_iff.mp here
      refine ⟨beside, fun b found => .inl ?_⟩
      rw [found, Option.all_some, beq_iff_eq] at body
      exact body
    all_goals cases function <;> contradiction
  rw [values, List.filterMap_append, filterMap_ownValuesOf_children parts.1, bodyResults,
    expressionBody]
  cases found : n.child? .body with
  | none => simp
  | some body =>
    have within := inside body (Node.mem_of_child? found)
    rcases parts.2 body found with block | ⟨arrow, bare⟩
    · simp [block, filterMap_results_block block within]
    · have nothing : body.ownValues.filterMap (asCandidate s sought) = [] :=
        List.isEmpty_iff.mp bare
      by_cases block : body.kind = .block
      · simp [block, filterMap_results_block block within]
      · have single : [body].filterMap unwrapped? = body.stripped?.toList := by
          rw [← unwrapped?_eq within]
          cases value : body.unwrapped? <;> simp [value]
        simp [arrow, block, nothing, results, single, Option.filter]

/-- The search asks the body of the function of the sought name that a node is or names. -/
theorem givenBy_eq :
    n.givenBy s sought = (n.entryFunction? s sought).toList.flatMap bodyResults := by
  unfold givenBy entryFunction? isCalled
  cases n.child? .name with
  | none => rfl
  | some name =>
    dsimp only
    by_cases called : some (name.text s) = sought.name?
    · have called : (some (name.text s) == sought.name?) = true := beq_iff_eq.mpr called
      simp only [bne, called, Bool.not_true, Bool.false_eq_true, if_false, if_true]
      cases named : n.kind.isNamedFunction with
      | true =>
        have plain : (n.kind == .arrow) = false := by
          cases kind : n.kind <;> rw [kind] at named <;> first | rfl | cases named
        rw [if_pos rfl, if_pos rfl, Option.toList_some, List.flatMap_singleton, bodyResults, plain]
        cases n.child? .body <;> simp
      | false =>
        cases n.kind.isBinding with
        | false => rfl
        | true =>
          cases n.child? .value with
          | none => simp
          | some value =>
            cases arrow : value.kind == .arrow with
            | false => simp [Option.filter, arrow]
            | true =>
              cases body : value.child? .body <;>
                simp [Option.filter, arrow, bodyResults, body, bne]
    · simp [called]

/-- The search finds of a node what the function of the sought name gives that it is or names. -/
theorem candidatesHere_eq (regular : n.all (isRegular s sought) = true) :
    n.candidatesHere s sought = (n.valuesHere s sought).filterMap (asCandidate s sought) := by
  change (n.givenBy s sought).filterMap (asCandidate s sought) = _
  rw [givenBy_eq, valuesHere]
  cases found : n.entryFunction? s sought with
  | none => rfl
  | some f =>
    rw [Option.toList_some, List.flatMap_singleton, List.flatMap_singleton]
    unfold entryFunction? at found
    split at found
    · split at found
      · rename_i named
        obtain rfl := Option.some.inj found
        exact filterMap_bodyResults (.inl named) regular
      · split at found
        · obtain ⟨value, arrow⟩ := Option.filter_eq_some_iff.mp found
          exact filterMap_bodyResults (.inr (eq_of_beq arrow))
            ((all_iff.mp regular).2 f (mem_of_child? value))
        · cases found
    · cases found

theorem candidates_eq_append :
    n.candidates s sought = n.candidatesHere s sought ++ candidatesOf s sought n.children := by
  cases n
  rw [candidates]

/-- The search finds in nodes what the functions of the sought name give, if this holds of each. -/
theorem candidatesOf_eq {nodes : List Node} (each : ∀ c ∈ nodes,
      c.candidates s sought = (c.given s sought).filterMap (asCandidate s sought)) :
    candidatesOf s sought nodes = (givenOf s sought nodes).filterMap (asCandidate s sought) := by
  induction nodes with
  | nil => rfl
  | cons node rest ih =>
    rw [candidatesOf, givenOf, List.filterMap_append, each node (.head rest),
      ih fun c hc => each c (.tail node hc)]

/-- The search finds what the functions of the sought name give. -/
theorem candidates_eq (regular : n.all (isRegular s sought) = true) :
    n.candidates s sought = (n.given s sought).filterMap (asCandidate s sought) := by
  induction n using Node.induction with | h n ih => ?_
  have inside := candidatesOf_eq fun c hc => ih c hc ((all_iff.mp regular).2 c hc)
  rw [candidates_eq_append, given_eq, List.filterMap_append, inside, candidatesHere_eq regular]

/-! ### Nodes in a tree -/

/-- What passes for all nodes in a node passes for all nodes in each node in it. -/
theorem all_of_mem_occurrences {p : Node → Bool} {o : Around × Node} :
    ∀ {around}, n.all p = true → o ∈ n.occurrences around → o.2.all p = true := by
  induction n using Node.induction with | h n ih => ?_
  intro around passes mem
  have inside {nodes : List Node} (sub : nodes ⊆ n.children) (k : Nat) :
      o ∈ occurrencesIn around n k nodes → o.2.all p = true := by
    induction nodes generalizing k with
    | nil => exact fun h => absurd h List.not_mem_nil
    | cons child rest ihr =>
      intro h
      rcases List.mem_append.mp h with h | h
      · exact ih child (sub (.head rest)) ((all_iff.mp passes).2 child (sub (.head rest))) h
      · exact ihr (fun c hc => sub (.tail child hc)) (k + 1) h
  rw [occurrences_eq] at mem
  rcases List.mem_cons.mp mem with rfl | mem
  · exact passes
  · exact inside (List.Subset.refl _) 0 mem

theorem exists_of_strippedOf? {m : Node} {nodes : List Node}
    (stripped : strippedOf? nodes = some m) : ∃ c ∈ nodes, c.stripped? = some m := by
  induction nodes with
  | nil => cases stripped
  | cons child rest ih =>
    rw [strippedOf?] at stripped
    split at stripped
    · obtain ⟨c, hc, h⟩ := ih stripped
      exact ⟨c, .tail child hc, h⟩
    · exact ⟨child, .head rest, stripped⟩

/-- What passes for all nodes in a node passes for those in it without its parentheses. -/
theorem all_of_stripped? {p : Node → Bool} {m : Node} (passes : n.all p = true)
    (stripped : n.stripped? = some m) : m.all p = true := by
  induction n using Node.induction with | h n ih => ?_
  have inside := (all_iff.mp passes).2
  obtain ⟨kind, slot, start, stop, children⟩ := n
  cases kind
  case parenthesized =>
    obtain ⟨c, hc, h⟩ := exists_of_strippedOf? stripped
    exact ih c hc (inside c hc) h
  all_goals
    cases stripped
    exact passes

/-- What passes for all nodes in a tree passes for those in each template of an entry. -/
theorem all_of_mem_entryTemplates {p : Node → Bool} {found : Candidate} (passes : n.all p = true)
    (mem : found ∈ n.entryTemplates s sought) : found.template.all p = true := by
  obtain ⟨value, given, taken⟩ := List.mem_filterMap.mp mem
  obtain ⟨o, ho, at_o⟩ := List.mem_flatMap.mp given
  have here := all_of_mem_occurrences passes ho
  have passes : value.all p = true := by
    rcases List.mem_append.mp at_o with own | body
    · split at own
      · have own := Option.mem_toList.mp own
        rw [returned?] at own
        split at own
        · obtain ⟨c, content, stripped⟩ := Option.bind_eq_some_iff.mp own
          have inside := (all_iff.mp here).2 c (List.mem_of_find?_eq_some content)
          exact all_of_stripped? inside stripped
        · cases own
      · cases own
    · split at body
      · exact all_of_stripped? here (Option.mem_toList.mp body)
      · cases body
  obtain ⟨template, markup, rfl⟩ := Option.map_eq_some_iff.mp taken
  refine (all_iff.mp passes).2 template ?_
  unfold markup? at markup
  split at markup
  · rename_i text _ _ text_eq
    split at markup
    · cases markup
      exact mem_of_child? text_eq
    · cases markup
  · cases markup

end Script.Node

/-! ### The template that is read -/

open Script Node

/-- Whether a node is no string, or one whose escapes denote code points. -/
def Script.Node.isSpelled (s : Source) (n : Node) : Bool :=
  n.kind != .string ||
    (stringPoints s (n.children.filter fun child => child.kind != .operator)).isOk

variable {s : Source} {n : Node}

theorem exists_ok_bind {ε α β : Type} {x : Except ε α} {f : α → Except ε β}
    (first : ∃ a, x = .ok a) (rest : ∀ a, ∃ b, f a = .ok b) : ∃ b, x >>= f = .ok b := by
  obtain ⟨a, rfl⟩ := first
  exact rest a

theorem exists_mapM_ok {ε α β : Type} {f : α → Except ε β} {xs : List α}
    (each : ∀ x ∈ xs, ∃ y, f x = .ok y) : ∃ ys, xs.mapM f = .ok ys := by
  induction xs with
  | nil => exact ⟨[], rfl⟩
  | cons x xs ih =>
    rw [List.mapM_cons]
    obtain ⟨first, others⟩ := List.forall_mem_cons.mp each
    exact exists_ok_bind first fun y => exists_ok_bind (ih others) fun ys => ⟨y :: ys, rfl⟩

theorem Expr.exists_ofOption_ok {whole : Expr} {node? : Option Node}
    (each : ∀ c, node? = some c → ∃ e, ofNode s c = .ok e) :
    ∃ e, ofOption s whole node? = .ok e := by
  cases node? with
  | none => exact ⟨whole, rfl⟩
  | some c => exact each c rfl

theorem exists_ok_of_isOk {ε α : Type} {x : Except ε α} (h : x.isOk = true) : ∃ a, x = .ok a := by
  cases x with
  | ok a => exact ⟨a, rfl⟩
  | error e => cases h

theorem Expr.exists_ofHoles_ok {nodes : List Node}
    (each : ∀ hole ∈ nodes, ∀ c ∈ hole.children, ∃ e, ofNode s c = .ok e) :
    ∃ es, ofHoles s nodes = .ok es := by
  rw [ofHoles_eq]
  refine exists_mapM_ok fun hole hhole => ?_
  rw [ofHole, ofFirst_eq]
  exact exists_ofOption_ok fun c hc =>
    each hole (List.mem_of_mem_filter hhole) c (List.mem_of_find?_eq_some hc)

/-- The expression of a node can be read if its strings are spelled right. -/
theorem Expr.exists_ofNode_ok (spelled : n.all (isSpelled s) = true) : ∃ e, ofNode s n = .ok e := by
  suffices all : (∃ e, ofNode s n = .ok e) ∧ ∀ c ∈ n.children, ∃ e, ofNode s c = .ok e from all.1
  induction n using Node.induction with | h n ih => ?_
  obtain ⟨here, inside⟩ := all_iff.mp spelled
  refine ⟨?_, fun c hc => (ih c hc (inside c hc)).1⟩
  have part (whole : Expr) (slot : Slot) : ∃ e, ofPart s whole slot n.children = .ok e := by
    rw [ofPart_eq]
    exact exists_ofOption_ok fun c hc =>
      (ih c (List.mem_of_find?_eq_some hc) (inside c (List.mem_of_find?_eq_some hc))).1
  obtain ⟨kind, slot, start, stop, children⟩ := n
  unfold ofNode
  dsimp only at *
  cases kind
  case string =>
    simp only [isSpelled, bne_self_eq_false, Bool.false_or] at here
    exact exists_ok_bind (exists_ok_of_isOk here) fun points => ⟨_, rfl⟩
  case member =>
    dsimp only
    split
    · exact exists_ok_bind (part _ _) fun object => ⟨_, rfl⟩
    · exact ⟨_, rfl⟩
  case call =>
    dsimp only
    split
    · rename_i callee given callee_eq given_eq
      split
      · split
        · refine exists_ok_bind (part _ _) fun template => ?_
          split <;> exact ⟨_, rfl⟩
        · exact ⟨_, rfl⟩
      · refine exists_ok_bind (part _ _) fun function => exists_ok_bind ?_ fun arguments => ⟨_, rfl⟩
        rw [ofArguments_eq, given_eq]
        refine exists_mapM_ok fun c hc => ?_
        have mem := List.mem_of_find?_eq_some given_eq
        exact (ih given mem (inside given mem)).2 c (List.mem_of_mem_filter hc)
    · exact ⟨_, rfl⟩
  case arrow =>
    dsimp only
    split
    · exact ⟨_, rfl⟩
    · split
      · exact ⟨_, rfl⟩
      · exact exists_ok_bind (part _ _) fun body => ⟨_, rfl⟩
  case binary =>
    dsimp only
    split
    · refine exists_ok_bind (part _ _) fun left => exists_ok_bind (part _ _) fun right => ⟨_, rfl⟩
    · exact ⟨_, rfl⟩
  case ternary =>
    exact exists_ok_bind (part _ _) fun test => exists_ok_bind (part _ _) fun consequent =>
      exists_ok_bind (part _ _) fun alternate => ⟨_, rfl⟩
  case parenthesized =>
    refine exists_ok_bind ?_ fun inner => ⟨_, rfl⟩
    rw [ofFirst_eq]
    exact exists_ofOption_ok fun c hc =>
      (ih c (List.mem_of_find?_eq_some hc) (inside c (List.mem_of_find?_eq_some hc))).1
  case template =>
    exact exists_ok_bind (exists_ofHoles_ok fun hole hhole => (ih hole hhole (inside hole hhole)).2)
      fun holes => ⟨_, rfl⟩
  all_goals exact ⟨_, rfl⟩

/-- The template of a node can be read if its strings are spelled right. -/
theorem Template.exists_ofNode_ok (spelled : n.all (isSpelled s) = true) :
    ∃ template, Template.ofNode s n = .ok template := by
  refine exists_ok_bind (Expr.exists_ofHoles_ok fun hole hhole c hc => ?_) fun holes => ⟨_, rfl⟩
  exact Expr.exists_ofNode_ok ((all_iff.mp ((all_iff.mp spelled).2 hole hhole)).2 c hc)

/-! ### The entry of a script -/

/-- The source of a script that nothing is put in front of. -/
abbrev Script.Source.plain (script : String) : Source := ⟨script.toList, 0⟩

theorem exists_of_any {α : Type} {p : α → Bool} {o : Option α} (h : o.any p = true) :
    ∃ a, o = some a ∧ p a = true := by
  cases o with
  | none => cases h
  | some a => exact ⟨a, rfl, h⟩

/-- The entry of a script is the one template that functions of the sought name give. -/
theorem entry_of_ofScript_iff {script name tag : String} {component : Option String}
    {parser : Parser} {tree : Node} (read : parser.read script.toList = some tree)
    (regular : tree.all (isRegular (.plain script) ⟨some name, tag⟩) = true)
    (spelled : tree.all (isSpelled (.plain script)) = true) :
    ((∃ entry, Entry.ofScript script (.named name) tag component parser = .ok entry) ↔
      ∃ only, tree.entryTemplates (.plain script) ⟨some name, tag⟩ = [only]) ∧
    ∀ entry, Entry.ofScript script (.named name) tag component parser = .ok entry →
      ∃ only template, tree.entryTemplates (.plain script) ⟨some name, tag⟩ = [only] ∧
        Template.ofNode (.plain script) only.template = .ok template ∧
        entry = ⟨only.call.place (.plain script), tag, template⟩ := by
  have found : (tree.entryTemplates (.plain script) ⟨some name, tag⟩).Perm
      (tree.candidates (.plain script) ⟨some name, tag⟩) := by
    rw [candidates_eq regular]
    exact entryTemplates_perm tree
  have entry_iff (entry : Entry) :
      Entry.ofScript script (.named name) tag component parser = .ok entry ↔
      ∃ only template, tree.entryTemplates (.plain script) ⟨some name, tag⟩ = [only] ∧
        Template.ofNode (.plain script) only.template = .ok template ∧
        entry = ⟨only.call.place (.plain script), tag, template⟩ := by
    refine Entry.ofSource_eq_ok_iff.trans ⟨?_, ?_⟩
    · rintro ⟨_, only, template, read', one, rest⟩
      cases read.symm.trans read'
      exact ⟨only, template, List.perm_singleton.mp (one ▸ found), rest⟩
    · rintro ⟨only, template, one, rest⟩
      exact ⟨tree, only, template, read, List.singleton_perm.mp (one ▸ found) |>.symm, rest⟩
  refine ⟨⟨fun ⟨entry, h⟩ => ?_, fun ⟨only, one⟩ => ?_⟩, fun entry => (entry_iff entry).mp⟩
  · obtain ⟨only, _, one, _⟩ := (entry_iff entry).mp h
    exact ⟨only, one⟩
  · have mem : only ∈ tree.entryTemplates (.plain script) ⟨some name, tag⟩ := by simp [one]
    obtain ⟨template, h⟩ := Template.exists_ofNode_ok (all_of_mem_entryTemplates spelled mem)
    exact ⟨_, (entry_iff _).mpr ⟨only, template, one, h, rfl⟩⟩

/-- A script whose entry returns a template in parentheses and has functions in it that return
others. -/
def nestedScript : String :=
  "class Page \x7b render() \x7b const row = item => \x7b return html`<li>`; \x7d; " ++
    "function other() \x7b return html`x`; \x7d return (html`<ul>`); \x7d \x7d"

/-- The entry of a script with functions in it that return other templates. -/
theorem entry_of_nestedScript :
    ∃ tree, Script.parser.read nestedScript.toList = some tree ∧
      tree.all (isRegular (.plain nestedScript) ⟨some "render", "html"⟩) = true ∧
      tree.all (isSpelled (.plain nestedScript)) = true ∧
      (∃ only, tree.entryTemplates (.plain nestedScript) ⟨some "render", "html"⟩ = [only]) ∧
      ∃ entry, Entry.ofScript nestedScript (.named "render") "html" none = .ok entry := by
  have checks : ((Script.parser.read nestedScript.toList).any fun tree =>
      tree.all (isRegular (.plain nestedScript) ⟨some "render", "html"⟩) &&
      tree.all (isSpelled (.plain nestedScript)) &&
      (tree.entryTemplates (.plain nestedScript) ⟨some "render", "html"⟩).length == 1) =
        true := by
    decide +kernel
  obtain ⟨tree, read, checks⟩ := exists_of_any checks
  simp only [Bool.and_eq_true, beq_iff_eq, List.length_eq_one_iff] at checks
  obtain ⟨⟨regular, spelled⟩, one⟩ := checks
  exact ⟨tree, read, regular, spelled, one, (entry_of_ofScript_iff read regular spelled).1.mpr one⟩

/-- A script whose entry has a generator function in it that returns another template. -/
def generatorScript : String :=
  "function render() \x7b const g = function*() \x7b return html`a`; \x7d; return html`b`; \x7d"

/-- A template that a generator function in the entry returns is taken for one of the entry. -/
theorem generator_template_counted :
    ∃ tree only, Script.parser.read generatorScript.toList = some tree ∧
      tree.entryTemplates (.plain generatorScript) ⟨some "render", "html"⟩ = [only] ∧
      ∀ entry, Entry.ofScript generatorScript (.named "render") "html" none ≠ .ok entry := by
  have one : ((Script.parser.read generatorScript.toList).any fun tree =>
      (tree.entryTemplates (.plain generatorScript) ⟨some "render", "html"⟩).length == 1) =
        true := by
    decide +kernel
  have fails : (Entry.ofScript generatorScript (.named "render") "html" none).isOk = false := by
    decide +kernel
  obtain ⟨tree, read, one⟩ := exists_of_any one
  obtain ⟨only, one⟩ := List.length_eq_one_iff.mp (eq_of_beq one)
  refine ⟨tree, only, read, one, fun entry h => ?_⟩
  rw [h] at fails
  cases fails

end ServerTemplate
