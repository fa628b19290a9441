import Mathlib.Data.List.Forall2
import ServerTemplate.Proofs.Emission.Step
import ServerTemplate.Template.FromScript

/-!
# Expressions of nodes

The recursion of `Expr.ofNode` on a node and the nodes in it, taken apart: `ofPart`, `ofFirst`,
`ofEach`, `ofArguments` and `ofHoles` find nodes in a list and read these, so that a proof can go by
induction on the node alone (`Node.induction`).

Every template that is read has one text more than it has holes (`all_even_of_ofNode`).
-/

namespace ServerTemplate

open Script

/-- What holds of a node if it holds of the nodes in it holds of every node. -/
theorem Script.Node.induction {P : Node → Prop} (h : ∀ n : Node, (∀ c ∈ n.children, P c) → P n)
    (n : Node) : P n :=
  Node.rec (motive_1 := P) (motive_2 := fun nodes => ∀ c ∈ nodes, P c)
    (fun _ _ _ _ children ih => h ⟨_, _, _, _, children⟩ ih) (List.forall_mem_nil P)
    (fun _ _ first rest => List.forall_mem_cons.mpr ⟨first, rest⟩) n

variable {s : Source} {whole e : Expr} {slot : Slot} {nodes : List Node} {n c : Node}

theorem Script.Node.mem_of_child? (h : n.child? slot = some c) : c ∈ n.children :=
  List.mem_of_find?_eq_some h

theorem Script.Node.firstNamed?_eq :
    n.firstNamed? = n.children.find? fun child => !child.kind.isPassed := by
  rw [Node.firstNamed?, Node.named, List.head?_filter]

/-- The first node in a node that is neither a mere token nor a comment. -/
def Script.Node.content? (n : Node) : Option Node :=
  n.children.find? fun child => !child.kind.isPassed && child.kind != .lineComment

/-- The first node that is not passed over is the content, unless it is a comment of a document. -/
theorem Script.Node.firstNamed?_of_content? (content : n.content? = some c) :
    n.firstNamed? = some c ∨ ∃ d, n.firstNamed? = some d ∧ d.kind = .lineComment := by
  rw [firstNamed?_eq]
  unfold content? at content
  cases first : n.children.find? fun child => !child.kind.isPassed with
  | none =>
    have holds := List.find?_some content
    have fails := List.find?_eq_none.mp first c (List.mem_of_find?_eq_some content)
    exact (fails (Bool.and_eq_true_iff.mp holds).1).elim
  | some d =>
    by_cases comment : d.kind = .lineComment
    · exact .inr ⟨d, rfl, comment⟩
    · obtain ⟨holds, before, behind, children, fails⟩ := List.find?_eq_some_iff_append.mp first
      have found : n.children.find? (fun child =>
          !child.kind.isPassed && child.kind != .lineComment) = some d := by
        refine List.find?_eq_some_iff_append.mpr ⟨?_, before, behind, children, fun a ha => ?_⟩
        · rw [holds, Bool.true_and]
          exact bne_iff_ne.mpr comment
        · rw [Bool.not_eq_true', Bool.and_eq_false_iff]
          exact .inl (Bool.not_eq_true' _ ▸ fails a ha)
      exact .inl (found.symm.trans content)

/-- A check of every element of a list passes if it passes for each. -/
theorem mapM_eq_ok_iff {ε α β : Type} {f : α → Except ε β} {xs : List α} {ys : List β} :
    xs.mapM f = .ok ys ↔ List.Forall₂ (fun x y => f x = .ok y) xs ys := by
  induction xs generalizing ys with
  | nil =>
    rw [List.mapM_nil, List.forall₂_nil_left_iff]
    exact ⟨fun h => by cases h; rfl, fun h => h ▸ rfl⟩
  | cons x xs ih =>
    rw [List.mapM_cons, List.forall₂_cons_left_iff]
    constructor
    · intro h
      obtain ⟨y, hy, h⟩ := exists_ok_of_bind h
      obtain ⟨ys', hys, h⟩ := exists_ok_of_bind h
      cases h
      exact ⟨y, ys', hy, ih.mp hys, rfl⟩
    · rintro ⟨y, ys', hy, hys, rfl⟩
      rw [hy, ih.mpr hys]
      rfl

namespace Expr

/-! ### The nodes that are read -/

/-- The expression of a part that need not be there. -/
def ofOption (s : Source) (whole : Expr) : Option Node → Result Expr
  | some node => ofNode s node
  | none => .ok whole

theorem ofPart_eq : ofPart s whole slot nodes =
    ofOption s whole (nodes.find? fun node => node.slot == slot) := by
  induction nodes with
  | nil => rfl
  | cons node rest ih =>
    rw [ofPart, List.find?_cons]
    split
    · rename_i h
      rw [h]
      rfl
    · rename_i h
      rw [Bool.not_eq_true] at h
      rw [h, ih]

theorem ofFirst_eq : ofFirst s whole nodes =
    ofOption s whole (nodes.find? fun node => !node.kind.isPassed) := by
  induction nodes with
  | nil => rfl
  | cons node rest ih =>
    rw [ofFirst, List.find?_cons]
    cases node.kind.isPassed with
    | true => exact ih
    | false => rfl

theorem ofEach_eq : ofEach s nodes =
    (nodes.filter fun node => !node.kind.isPassed).mapM (ofNode s) := by
  induction nodes with
  | nil => rfl
  | cons node rest ih =>
    rw [ofEach, ih, List.filter_cons]
    cases h : node.kind.isPassed with
    | true => simp
    | false => simp

theorem ofArguments_eq : ofArguments s nodes =
    ((nodes.find? fun node => node.slot == .arguments).elim [] Node.named).mapM (ofNode s) := by
  induction nodes with
  | nil => rfl
  | cons node rest ih =>
    obtain ⟨kind, slot, start, stop, given⟩ := node
    rw [ofArguments, List.find?_cons]
    split
    · rename_i h
      rw [h]
      exact ofEach_eq
    · rename_i h
      rw [Bool.not_eq_true] at h
      rw [h, ih]

/-- The expression in a hole. -/
def ofHole (s : Source) (hole : Node) : Result Expr :=
  ofFirst s (.other (hole.place s) "empty substitution" "") hole.children

theorem ofHoles_eq : ofHoles s nodes =
    (nodes.filter fun node => node.kind == .hole).mapM (ofHole s) := by
  induction nodes with
  | nil => rfl
  | cons node rest ih =>
    obtain ⟨kind, slot, start, stop, inner⟩ := node
    rw [ofHoles, ih, List.filter_cons]
    cases h : kind == .hole with
    | true => simp [ofHole, Node.place]
    | false => simp

/-! ### The expressions that are read -/

/-- The kinds of nodes that are read without the nodes in them. -/
def isLeafKind : NodeKind → Bool
  | .identifier | .this | .true | .false | .null | .number | .string => Bool.true
  | _ => Bool.false

/-- Whether an expression has no parts and stands for itself. -/
def isLeaf : Expr → Bool
  | name .. | this _ | constant .. => true
  | _ => false

/-- What the expression of a node can be. -/
inductive OfNode (s : Source) (n : Node) : Expr → Prop
  | leaf {e : Expr} (kind : isLeafKind n.kind = true) (leaf : e.isLeaf = true) : OfNode s n e
  | other (place : Text.Place) (kind source : String) : OfNode s n (.other place kind source)
  | member {object : Expr} (place : Text.Place) (property : String) (kind : n.kind = .member)
      (object_eq :
        ofOption s (.other place n.kind.name (n.text s)) (n.child? .object) = .ok object) :
      OfNode s n (.member place object property
        (n.children.any fun child => child.kind == .optionalMark))
  | tagged {callee text : Node} {templatePlace : Text.Place} {chunks : List String}
      {holes : List Expr} (place : Text.Place) (kind : n.kind = .call)
      (callee_eq : n.child? .callee = some callee) (name : callee.kind = .identifier)
      (text_eq : n.child? .arguments = some text) (template : text.kind = .template)
      (read : ofNode s text = .ok (.template templatePlace chunks holes)) :
      OfNode s n (.tagged place (callee.text s) templatePlace chunks holes)
  | call {callee given : Node} {function : Expr} {arguments : List Expr} (place : Text.Place)
      (kind : n.kind = .call) (callee_eq : n.child? .callee = some callee)
      (given_eq : n.child? .arguments = some given) (plain : given.kind ≠ .template)
      (function_eq : ofNode s callee = .ok function)
      (arguments_eq : given.named.mapM (ofNode s) = .ok arguments) :
      OfNode s n (.call place function arguments)
  | arrow {body : Node} {e : Expr} (place : Text.Place) (parameters : List String)
      (kind : n.kind = .arrow) (parameters_eq : arrowParameters s n.children = .ok parameters)
      (body_eq : n.child? .body = some body) (read : ofNode s body = .ok e) :
      OfNode s n (.arrow place parameters e)
  | binary {left right e : Expr} (place : Text.Place) (operator : String) (kind : n.kind = .binary)
      (left_eq : ofOption s (.other place n.kind.name (n.text s)) (n.child? .left) = .ok left)
      (right_eq : ofOption s (.other place n.kind.name (n.text s)) (n.child? .right) = .ok right)
      (shape : e = .binary place operator left right ∨ e = .logical place operator left right) :
      OfNode s n e
  | ternary {test consequent alternate : Expr} (place : Text.Place) (kind : n.kind = .ternary)
      (test_eq : ofOption s (.other place n.kind.name (n.text s)) (n.child? .condition) = .ok test)
      (consequent_eq :
        ofOption s (.other place n.kind.name (n.text s)) (n.child? .consequence) = .ok consequent)
      (alternate_eq :
        ofOption s (.other place n.kind.name (n.text s)) (n.child? .alternative) = .ok alternate) :
      OfNode s n (.conditional place test consequent alternate)
  | group {inner : Expr} (place : Text.Place) (kind : n.kind = .parenthesized)
      (inner_eq : ofOption s (.other place n.kind.name (n.text s)) n.firstNamed? = .ok inner) :
      OfNode s n (.group place inner)
  | template {holes : List Expr} (place : Text.Place) (kind : n.kind = .template)
      (holes_eq :
        (n.children.filter fun child => child.kind == .hole).mapM (ofHole s) = .ok holes) :
      OfNode s n (.template place (chunksOf s n) holes)

/-- An expression has the form of its node, and its place. -/
theorem ofNode_cases (h : ofNode s n = .ok e) : OfNode s n e ∧ e.place = n.place s := by
  obtain ⟨kind, slot, start, stop, children⟩ := n
  unfold ofNode at h
  dsimp only at h
  cases kind
  case identifier | this | true | false | null | number =>
    cases h
    exact ⟨.leaf rfl rfl, rfl⟩
  case string =>
    obtain ⟨_, _, h⟩ := exists_ok_of_bind h
    cases h
    exact ⟨.leaf rfl rfl, rfl⟩
  case member =>
    dsimp only at h
    split at h
    · obtain ⟨object, hobject, h⟩ := exists_ok_of_bind h
      cases h
      rw [ofPart_eq] at hobject
      exact ⟨.member _ _ rfl hobject, rfl⟩
    · cases h
      exact ⟨.other _ _ _, rfl⟩
  case call =>
    dsimp only at h
    split at h
    · rename_i callee given callee_eq given_eq
      split at h
      · split at h
        · obtain ⟨template, htemplate, h⟩ := exists_ok_of_bind h
          split at h
          · rename_i template name _ _ _ _ _
            cases h
            rw [ofPart_eq, given_eq] at htemplate
            have template := eq_of_beq template
            exact ⟨.tagged _ rfl callee_eq (eq_of_beq name) given_eq template htemplate, rfl⟩
          · cases h
            exact ⟨.other _ _ _, rfl⟩
        · cases h
          exact ⟨.other _ _ _, rfl⟩
      · rename_i plain
        obtain ⟨function, hfunction, h⟩ := exists_ok_of_bind h
        obtain ⟨arguments, harguments, h⟩ := exists_ok_of_bind h
        cases h
        rw [ofPart_eq, callee_eq] at hfunction
        rw [ofArguments_eq, given_eq] at harguments
        exact ⟨.call _ rfl callee_eq given_eq (by simpa using plain) hfunction harguments, rfl⟩
    · cases h
      exact ⟨.other _ _ _, rfl⟩
  case arrow =>
    dsimp only at h
    split at h
    · cases h
      exact ⟨.other _ _ _, rfl⟩
    split at h
    · cases h
      exact ⟨.other _ _ _, rfl⟩
    · rename_i parameters parameters_eq body
      obtain ⟨inner, hinner, h⟩ := exists_ok_of_bind h
      cases h
      rw [ofPart_eq] at hinner
      cases body_eq : children.find? fun child => child.slot == .body with
      | none => exact (body (by rw [body_eq]; rfl)).elim
      | some body =>
        rw [body_eq] at hinner
        exact ⟨.arrow _ _ rfl parameters_eq body_eq hinner, rfl⟩
  case binary =>
    dsimp only at h
    split at h
    · rename_i sign _
      obtain ⟨left, hleft, h⟩ := exists_ok_of_bind h
      obtain ⟨right, hright, h⟩ := exists_ok_of_bind h
      rw [ofPart_eq] at hleft hright
      cases h
      refine ⟨.binary _ (sign.text s) rfl hleft hright ?_, ?_⟩
      · split
        · exact .inr rfl
        · exact .inl rfl
      · split <;> rfl
    · cases h
      exact ⟨.other _ _ _, rfl⟩
  case ternary =>
    obtain ⟨test, htest, h⟩ := exists_ok_of_bind h
    obtain ⟨consequent, hconsequent, h⟩ := exists_ok_of_bind h
    obtain ⟨alternate, halternate, h⟩ := exists_ok_of_bind h
    rw [ofPart_eq] at htest hconsequent halternate
    cases h
    exact ⟨.ternary _ rfl htest hconsequent halternate, rfl⟩
  case parenthesized =>
    obtain ⟨inner, hinner, h⟩ := exists_ok_of_bind h
    rw [ofFirst_eq] at hinner
    cases h
    refine ⟨.group _ rfl ?_, rfl⟩
    rw [Node.firstNamed?_eq]
    exact hinner
  case template =>
    obtain ⟨holes, hholes, h⟩ := exists_ok_of_bind h
    rw [ofHoles_eq] at hholes
    cases h
    exact ⟨.template _ rfl hholes, rfl⟩
  all_goals
    cases h
    exact ⟨.other _ _ _, rfl⟩

theorem ofNode_of_eq_ok (h : ofNode s n = .ok e) : OfNode s n e := (ofNode_cases h).1

theorem place_of_ofNode (h : ofNode s n = .ok e) : e.place = n.place s := (ofNode_cases h).2

/-! ### Templates have one text more than holes -/

/-- A template has one text more than it has holes. -/
def Even : Expr → Prop
  | template _ chunks holes | tagged _ _ _ chunks holes => chunks.length = holes.length + 1
  | _ => True

/-- What is read of a node, if there is one, and else is no template. -/
theorem all_even_of_ofOption {node? : Option Node} {place : Text.Place} {kind source : String}
    (known : ∀ c, node? = some c → ∀ e, ofNode s c = .ok e → e.All Even)
    (h : ofOption s (.other place kind source) node? = .ok e) : e.All Even := by
  cases node? with
  | some c => exact known c rfl e h
  | none =>
    cases h
    trivial

theorem allIn_even_of_mapM {f : Node → Result Expr} {es : List Expr}
    (known : ∀ c ∈ nodes, ∀ e, f c = .ok e → e.All Even) (h : nodes.mapM f = .ok es) :
    AllIn Even es := by
  have read := mapM_eq_ok_iff.mp h
  clear h
  induction read with
  | nil => trivial
  | cons first _ ih =>
    obtain ⟨known_first, known_rest⟩ := List.forall_mem_cons.mp known
    exact ⟨known_first _ first, ih known_rest⟩

/-- Every template that is read of holes has one text more than there are holes. -/
theorem length_chunksBetween_of_ofHoles {start stop : Nat} {holes : List Expr}
    (h : ofHoles s nodes = .ok holes) :
    (chunksBetween s start stop nodes).length = holes.length + 1 := by
  rw [ofHoles_eq] at h
  rw [length_chunksBetween, (mapM_eq_ok_iff.mp h).length_eq]

/-- What is read of a node has templates with one text more than holes. -/
theorem all_even_of_ofNode (n : Node) : ∀ e, ofNode s n = .ok e → e.All Even := by
  suffices all : (∀ e, ofNode s n = .ok e → e.All Even) ∧
      ∀ c ∈ n.children, ∀ e, ofNode s c = .ok e → e.All Even from all.1
  -- a call and a template read nodes in the nodes in them, so both levels are kept
  induction n using Node.induction with | h n ih => ?_
  refine ⟨fun e h => ?_, fun c hc => (ih c hc).1⟩
  have part {place : Text.Place} {kind source : String} {slot : Slot} {e : Expr}
      (h : ofOption s (.other place kind source) (n.child? slot) = .ok e) : e.All Even :=
    all_even_of_ofOption (fun c hc => (ih c (Node.mem_of_child? hc)).1) h
  cases ofNode_of_eq_ok h with
  | leaf kind leaf => cases e <;> trivial
  | other => trivial
  | member place property kind object_eq => exact ⟨trivial, part object_eq⟩
  | tagged place kind callee_eq name text_eq template read =>
    have whole := (ih _ (Node.mem_of_child? text_eq)).1 _ read
    exact ⟨whole.1, whole.2⟩
  | call place kind callee_eq given_eq plain function_eq arguments_eq =>
    refine ⟨trivial, (ih _ (Node.mem_of_child? callee_eq)).1 _ function_eq, ?_⟩
    refine allIn_even_of_mapM (fun c hc => ?_) arguments_eq
    exact (ih _ (Node.mem_of_child? given_eq)).2 c (List.mem_of_mem_filter hc)
  | arrow place parameters kind _ body_eq read =>
    exact ⟨trivial, (ih _ (Node.mem_of_child? body_eq)).1 _ read⟩
  | binary place operator kind left_eq right_eq shape =>
    rcases shape with rfl | rfl <;> exact ⟨trivial, part left_eq, part right_eq⟩
  | ternary place kind test_eq consequent_eq alternate_eq =>
    exact ⟨trivial, part test_eq, part consequent_eq, part alternate_eq⟩
  | group place kind inner_eq =>
    rw [Node.firstNamed?_eq] at inner_eq
    exact ⟨trivial, all_even_of_ofOption (fun c hc => (ih c (List.mem_of_find?_eq_some hc)).1)
      inner_eq⟩
  | template place kind holes_eq =>
    refine ⟨length_chunksBetween_of_ofHoles (ofHoles_eq.trans holes_eq), ?_⟩
    refine allIn_even_of_mapM (fun hole hhole e he => ?_) holes_eq
    rw [ofHole, ofFirst_eq] at he
    refine all_even_of_ofOption (fun c hc => ?_) he
    exact (ih hole (List.mem_of_mem_filter hhole)).2 c (List.mem_of_find?_eq_some hc)

end Expr

/-! ### Entries -/

/-- The template of a node has one text more than it has holes, and so have the templates in it. -/
theorem Template.even_of_ofNode {template : Template} (h : Template.ofNode s n = .ok template) :
    template.chunks.length = template.holes.length + 1 ∧
      Expr.AllIn Expr.Even template.holes := by
  obtain ⟨holes, hholes, h⟩ := exists_ok_of_bind h
  cases h
  refine ⟨Expr.length_chunksBetween_of_ofHoles hholes, ?_⟩
  rw [Expr.ofHoles_eq] at hholes
  refine Expr.allIn_even_of_mapM (fun hole _ e he => ?_) hholes
  rw [Expr.ofHole, Expr.ofFirst_eq] at he
  exact Expr.all_even_of_ofOption (fun c _ => Expr.all_even_of_ofNode c) he

/-- The entry of a script is found if there is one template, and this can be read. -/
theorem Entry.ofSource_eq_ok_iff {entryPoint : EntryPoint} {tag : String}
    {component : Option String} {parser : Parser} {entry : Entry} :
    Entry.ofSource s entryPoint tag component parser = .ok entry ↔
      ∃ tree only template, parser.read s.chars = some tree ∧
        tree.candidates s ⟨entryPoint.name?, tag⟩ = [only] ∧
        Template.ofNode s only.template = .ok template ∧
        entry = ⟨only.call.place s, tag, template⟩ := by
  unfold Entry.ofSource
  constructor
  · intro h
    cases tree_eq : parser.read s.chars with
    | none => rw [tree_eq] at h; cases h
    | some tree =>
      rw [tree_eq] at h
      dsimp only at h
      split at h
      · cases h
      · rename_i only only_eq
        obtain ⟨template, htemplate, h⟩ := exists_ok_of_bind h
        cases h
        exact ⟨tree, only, template, rfl, only_eq, htemplate, rfl⟩
      · cases h
  · rintro ⟨tree, only, template, tree_eq, only_eq, htemplate, rfl⟩
    rw [tree_eq]
    dsimp only
    rw [only_eq]
    dsimp only
    rw [htemplate]
    rfl

/-- The script that the text of a template is read in. -/
def Entry.around (text : String) (entryPoint : EntryPoint) (tag : String) : Source :=
  ⟨Entry.opening entryPoint tag ++ text.toList ++ Entry.closing,
    (Entry.opening entryPoint tag).length⟩

theorem Entry.ofTemplate_eq (text : String) (entryPoint : EntryPoint) (tag : String)
    (component : Option String) (parser : Parser) :
    Entry.ofTemplate text entryPoint tag component parser =
      Entry.ofSource (Entry.around text entryPoint tag) entryPoint tag component parser := rfl

end ServerTemplate
