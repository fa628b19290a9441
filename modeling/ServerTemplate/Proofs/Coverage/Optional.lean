import ServerTemplate.Proofs.Coverage.Conversion

/-!
# Optional chains

In an entry whose conversion succeeds no property is read optionally, at any depth of an owner or a
callee (`not_converted_of_optional`). The mark of a property is kept in its expression, and refused;
the mark of a call is in no expression, so that an optional call is converted like a plain one
(`optional_call_converted`).

`Node.Contains` says of the nodes of a script what `Expr.parts` says of expressions: which nodes in
a node are converted with it. It leaves out templates that are skipped and the arguments of helpers.
-/

namespace ServerTemplate

open Script

namespace Script.Node

/-- Whether a node stands in front of the arguments of a helper. -/
def IsHelper (s : Source) (callee : Node) : Prop :=
  ∃ e name, Expr.ofNode s callee = .ok e ∧ CallShape.of? e = some (.helper name)

/-- The kinds of nodes that have nodes in them which are not told apart. -/
def isOpaqueKind (kind : NodeKind) : Bool :=
  !Expr.isLeafKind kind &&
    !List.contains [.parenthesized, .call, .member, .arrow, .binary, .ternary] kind

/-- A node in a node, each `direct` if it fills a hole, perhaps in parentheses. A template with the
tag that fills a hole is skipped, and so are the arguments of helpers. -/
inductive Contains (s : Source) (tag : String) : Bool → Node → Bool → Node → Prop
  | parentheses {direct : Bool} {n c : Node} (kind : n.kind = .parenthesized)
      (content : n.content? = some c) : Contains s tag direct n direct c
  | hole {direct : Bool} {n text hole c : Node} (kind : n.kind = .call)
      (text_eq : n.child? .arguments = some text) (template : text.kind = .template)
      (rendered : ¬ (direct = true ∧ (n.markup? s tag).isSome = true))
      (mem : hole ∈ text.children) (hole_kind : hole.kind = .hole)
      (content : hole.content? = some c) : Contains s tag direct n true c
  | callee {direct : Bool} {n c given : Node} (kind : n.kind = .call)
      (callee_eq : n.child? .callee = some c) (given_eq : n.child? .arguments = some given)
      (plain : given.kind ≠ .template ∨ c.kind ≠ .identifier) : Contains s tag direct n false c
  | argument {direct : Bool} {n callee given c : Node} (kind : n.kind = .call)
      (callee_eq : n.child? .callee = some callee) (given_eq : n.child? .arguments = some given)
      (plain : given.kind ≠ .template) (used : ¬ callee.IsHelper s) (mem : c ∈ given.named) :
      Contains s tag direct n false c
  | object {direct : Bool} {n c : Node} (kind : n.kind = .member)
      (object_eq : n.child? .object = some c) : Contains s tag direct n false c
  | parameter {direct : Bool} {n formal c : Node} (kind : n.kind = .arrow)
      (several : n.child? .parameter = none) (formal_eq : n.child? .parameters = some formal)
      (mem : c ∈ formal.named) (pattern : c.kind ≠ .identifier) : Contains s tag direct n false c
  | body {direct : Bool} {n c : Node} (kind : n.kind = .arrow)
      (body_eq : n.child? .body = some c) : Contains s tag direct n false c
  | operand {direct : Bool} {n c : Node} (kind : n.kind = .binary) (slot : Slot)
      (operand : slot = .left ∨ slot = .right) (part_eq : n.child? slot = some c) :
      Contains s tag direct n false c
  | branch {direct : Bool} {n c : Node} (kind : n.kind = .ternary) (slot : Slot)
      (part : slot = .condition ∨ slot = .consequence ∨ slot = .alternative)
      (part_eq : n.child? slot = some c) : Contains s tag direct n false c
  | inOpaque {direct : Bool} {n c : Node} (kind : isOpaqueKind n.kind = true)
      (mem : c ∈ n.children) : Contains s tag direct n false c

/-- A node at any depth in a node. -/
inductive Holds (s : Source) (tag : String) : Bool → Node → Node → Prop
  | here {direct : Bool} {n : Node} : Holds s tag direct n n
  | inside {direct direct' : Bool} {n c m : Node} (contains : Contains s tag direct n direct' c)
      (rest : Holds s tag direct' c m) : Holds s tag direct n m

/-- A node at any depth in an expression that fills a hole of a template. -/
def Interpolates (s : Source) (tag : String) (template n : Node) : Prop :=
  ∃ hole ∈ template.children, hole.kind = .hole ∧
    ∃ c, hole.content? = some c ∧ c.Holds s tag true n

/-- Whether a node has the mark of an optional chain. -/
def isOptional (n : Node) : Bool := n.children.any fun child => child.kind == .optionalMark

end Script.Node

variable {s : Source} {tag : String} {n c : Node} {e : Expr} {r : Standing} {p : Progress}
  {direct direct' : Bool}

/-! ### Nodes that have been dealt with -/

/-- A node has an expression, and a conversion has dealt with all that occurs in it. -/
def Progress.Handles (p : Progress) (s : Source) (tag : String) (direct : Bool) (n : Node) : Prop :=
  ∃ r e, Expr.ofNode s n = .ok e ∧ (Fact.covered tag r e).holds p ∧ r ≠ .unused ∧
    (direct = true ↔ r = .hole)

/-- A construct that is not known has not been dealt with. -/
theorem Fact.not_covered_other {place : Text.Place} {kind written : String} (used : r ≠ .unused)
    (h : (covered tag r (.other place kind written)).holds p) : False :=
  used (h _ _ .here).stands

theorem Standing.inner_eq (used : r ≠ .unused) (r' : Standing) : r.inner r' = r' := if_neg used

/-- A call with a template behind its callee is a template with a tag if the callee is a name. -/
theorem Script.Node.markup?_eq {callee text : Node} (kind : n.kind = .call)
    (callee_eq : n.child? .callee = some callee) (text_eq : n.child? .arguments = some text) :
    n.markup? s tag =
      if callee.kind == .identifier && callee.text s == tag && text.kind == .template then some text
      else none := by
  rw [markup?, kind, callee_eq, text_eq]

/-- A comment of a document is no construct that is known. -/
theorem Expr.ofNode_of_lineComment (h : n.kind = .lineComment) :
    ∃ place kind written, ofNode s n = .ok (.other place kind written) := by
  obtain ⟨kind, slot, start, stop, children⟩ := n
  cases h
  exact ⟨_, _, _, by unfold ofNode; rfl⟩

/-- What is read of the first node that is not passed over is read of the content, or is a comment
of a document. -/
theorem Expr.ofOption_content {whole : Expr} (content : n.content? = some c)
    (h : ofOption s whole n.firstNamed? = .ok e) :
    ofNode s c = .ok e ∨ ∃ place kind written, e = .other place kind written := by
  rcases Node.firstNamed?_of_content? content with first | ⟨d, first, comment⟩
  · rw [first] at h
    exact .inl h
  · rw [first] at h
    obtain ⟨place, kind, written, hd⟩ := ofNode_of_lineComment (s := s) comment
    exact .inr ⟨place, kind, written, Except.ok.inj (h.symm.trans hd)⟩

/-- Of what is read of several nodes, each is read of one. -/
theorem exists_of_mapM {ε α β : Type} {f : α → Except ε β} {xs : List α} {ys : List β}
    (h : xs.mapM f = .ok ys) {x : α} (hx : x ∈ xs) : ∃ y ∈ ys, f x = .ok y := by
  have read := mapM_eq_ok_iff.mp h
  clear h
  induction read with
  | nil => cases hx
  | cons first rest ih =>
    rcases List.mem_cons.mp hx with rfl | hx
    · exact ⟨_, List.mem_cons_self, first⟩
    · obtain ⟨y, hy, read⟩ := ih hx
      exact ⟨y, List.mem_cons_of_mem _ hy, read⟩

/-- The holes of a template are read one by one. -/
theorem Expr.holes_of_template {place : Text.Place} {chunks : List String} {holes : List Expr}
    (h : ofNode s n = .ok (.template place chunks holes)) :
    (n.children.filter fun child => child.kind == .hole).mapM (ofHole s) = .ok holes := by
  cases ofNode_of_eq_ok h with
  | leaf _ leaf => cases leaf
  | binary _ _ _ _ _ shape => cases shape <;> rename_i shape <;> cases shape
  | template _ _ holes_eq => exact holes_eq

/-- A parameter that is no name is not read. -/
theorem Script.not_arrowParameters {formal : Node} {parameters : List String}
    (several : n.child? .parameter = none) (formal_eq : n.child? .parameters = some formal)
    (mem : c ∈ formal.named) (pattern : c.kind ≠ .identifier) :
    arrowParameters s n.children ≠ .ok parameters := by
  intro h
  unfold arrowParameters at h
  unfold Node.child? at several formal_eq
  rw [several, formal_eq] at h
  dsimp only at h
  split at h
  · cases h
  · rename_i names
    exact List.find?_eq_none.mp names c mem (bne_iff_ne.mpr pattern)

namespace CallShape

/-- Only the arguments of helpers are unused. -/
theorem eq_helper_of_arguments {shape : Option CallShape} {given : List Expr}
    (h : arguments shape given = .unused) : ∃ name, shape = some (.helper name) := by
  unfold arguments at h
  split at h
  · cases h
  · exact ⟨_, rfl⟩
  · cases h

theorem arguments_ne_hole {shape : Option CallShape} {given : List Expr} :
    arguments shape given ≠ .hole := by
  unfold arguments Standing.ofRating
  split
  · nofun
  · split
    · nofun
    · split <;> nofun
  · nofun

end CallShape

namespace Progress.Handles

/-- A part of an expression that has been dealt with, and the node it is read of. -/
theorem of_part {q : Standing} {e' : Expr} (used : r ≠ .unused)
    (covered : (Fact.covered tag r e).holds p) (part : (r.inner q, e') ∈ e.parts tag r)
    (used' : q ≠ .unused) (fills : direct' = true ↔ q = .hole) (read : Expr.ofNode s c = .ok e') :
    p.Handles s tag direct' c := by
  refine ⟨q, e', read, ?_, used', fills⟩
  have h := Fact.covered_part covered part
  rwa [Standing.inner_eq used] at h

/-- An expression that is read of a node, if there is one. -/
theorem of_option {q : Standing} {e' whole : Expr} {node? : Option Node} (used : r ≠ .unused)
    (covered : (Fact.covered tag r e).holds p) (part : (r.inner q, e') ∈ e.parts tag r)
    (used' : q ≠ .unused) (fills : direct' = true ↔ q = .hole)
    (read : Expr.ofOption s whole node? = .ok e') (found : node? = some c) :
    p.Handles s tag direct' c := by
  subst found
  exact of_part used covered part used' fills read

/-- A mere part of an expression, read of a node, if there is one. -/
theorem of_mere {e' whole : Expr} {node? : Option Node} (used : r ≠ .unused)
    (covered : (Fact.covered tag r e).holds p) (part : (r.inner .part, e') ∈ e.parts tag r)
    (read : Expr.ofOption s whole node? = .ok e') (found : node? = some c) :
    p.Handles s tag false c :=
  of_option used covered part (by decide) (by decide) read found

/-- The nodes in a node that has been dealt with have been dealt with. -/
theorem of_contains (contains : n.Contains s tag direct direct' c)
    (h : p.Handles s tag direct n) : p.Handles s tag direct' c := by
  obtain ⟨r, e, read, covered, used, fills⟩ := h
  have known (place kind written) : e ≠ .other place kind written := by
    rintro rfl
    exact Fact.not_covered_other used covered
  have shape := Expr.ofNode_of_eq_ok read
  cases contains with
  | parentheses kind content =>
    cases shape with
    | other => exact (known _ _ _ rfl).elim
    | group place _ inner_eq =>
      have inner := Fact.covered_part covered (List.mem_singleton_self _)
      rcases Expr.ofOption_content content inner_eq with read | ⟨_, _, _, rfl⟩
      · exact ⟨r, _, read, inner, used, fills⟩
      · exact (Fact.not_covered_other used inner).elim
    | _ => simp_all [Expr.isLeafKind]
  | hole kind text_eq template rendered mem hole_kind content =>
    cases shape with
    | other => exact (known _ _ _ rfl).elim
    | @tagged callee _ templatePlace chunks holes place _ callee_eq name text_eq' _ read =>
      cases text_eq.symm.trans text_eq'
      obtain ⟨e', he', hole_eq⟩ := exists_of_mapM (Expr.holes_of_template read)
        (List.mem_filter.mpr ⟨mem, by rw [hole_kind]; rfl⟩)
      have kept : ¬ (r = .hole ∧ callee.text s = tag) := by
        rintro ⟨hole, htag⟩
        refine rendered ⟨fills.mpr hole, ?_⟩
        rw [Node.markup?_eq kind callee_eq text_eq, name, htag, template]
        simp
      have part : (r.inner .hole, e') ∈
          (Expr.tagged place (callee.text s) templatePlace chunks holes).parts tag r := by
        rw [Expr.parts, if_neg kept]
        exact List.mem_map_of_mem he'
      rw [Expr.ofHole, Expr.ofFirst_eq, ← Node.firstNamed?_eq] at hole_eq
      rcases Expr.ofOption_content content hole_eq with read | ⟨_, _, _, rfl⟩
      · exact of_part (q := .hole) used covered part (by decide) (by decide) read
      · have inner := Fact.covered_part covered part
        rw [Standing.inner_eq used] at inner
        exact (Fact.not_covered_other (r := .hole) (by decide) inner).elim
    | call _ _ _ given_eq plain =>
      cases text_eq.symm.trans given_eq
      exact (plain template).elim
    | _ => simp_all [Expr.isLeafKind]
  | callee kind callee_eq given_eq plain =>
    cases shape with
    | other => exact (known _ _ _ rfl).elim
    | tagged _ _ callee_eq' name text_eq template =>
      cases callee_eq.symm.trans callee_eq'
      cases given_eq.symm.trans text_eq
      exact (plain.elim (· template) (· name)).elim
    | call _ _ callee_eq' _ _ function_eq =>
      cases callee_eq.symm.trans callee_eq'
      exact of_part used covered List.mem_cons_self (by decide) (by decide) function_eq
    | _ => simp_all [Expr.isLeafKind]
  | argument kind callee_eq given_eq plain noHelper mem =>
    cases shape with
    | other => exact (known _ _ _ rfl).elim
    | tagged _ _ _ _ text_eq template =>
      cases given_eq.symm.trans text_eq
      exact (plain template).elim
    | @call _ _ function arguments _ _ callee_eq' given_eq' _ function_eq arguments_eq =>
      cases callee_eq.symm.trans callee_eq'
      cases given_eq.symm.trans given_eq'
      obtain ⟨e', he', read⟩ := exists_of_mapM arguments_eq mem
      refine of_part used covered (List.mem_cons_of_mem _ (List.mem_map_of_mem he')) ?_ ?_ read
      · intro unused
        obtain ⟨name, shape⟩ := CallShape.eq_helper_of_arguments unused
        exact noHelper ⟨function, name, function_eq, shape⟩
      · exact ⟨fun h => (Bool.false_ne_true h).elim, fun h => (CallShape.arguments_ne_hole h).elim⟩
    | _ => simp_all [Expr.isLeafKind]
  | object kind object_eq =>
    cases shape with
    | other => exact (known _ _ _ rfl).elim
    | member _ _ _ object_eq' =>
      exact of_option used covered (List.mem_singleton_self _) (by decide) (by decide) object_eq'
        object_eq
    | _ => simp_all [Expr.isLeafKind]
  | parameter kind several formal_eq mem pattern =>
    cases shape with
    | other => exact (known _ _ _ rfl).elim
    | arrow _ _ _ parameters_eq =>
      exact (Script.not_arrowParameters several formal_eq mem pattern parameters_eq).elim
    | _ => simp_all [Expr.isLeafKind]
  | body kind body_eq =>
    cases shape with
    | other => exact (known _ _ _ rfl).elim
    | arrow _ _ _ _ body_eq' read =>
      cases body_eq.symm.trans body_eq'
      exact of_part used covered (List.mem_singleton_self _) (by decide) (by decide) read
    | _ => simp_all [Expr.isLeafKind]
  | operand kind slot operand part_eq =>
    cases shape with
    | other => exact (known _ _ _ rfl).elim
    | binary _ _ _ left_eq right_eq shape =>
      rcases shape with rfl | rfl <;> rcases operand with rfl | rfl
      · exact of_mere used covered (by simp [Expr.parts]) left_eq part_eq
      · exact of_mere used covered (by simp [Expr.parts]) right_eq part_eq
      · exact of_mere used covered (by simp [Expr.parts]) left_eq part_eq
      · exact of_mere used covered (by simp [Expr.parts]) right_eq part_eq
    | _ => simp_all [Expr.isLeafKind]
  | branch kind slot part part_eq =>
    cases shape with
    | other => exact (known _ _ _ rfl).elim
    | ternary _ _ test_eq consequent_eq alternate_eq =>
      rcases part with rfl | rfl | rfl
      · exact of_mere used covered (by simp [Expr.parts]) test_eq part_eq
      · exact of_mere used covered (by simp [Expr.parts]) consequent_eq part_eq
      · exact of_mere used covered (by simp [Expr.parts]) alternate_eq part_eq
    | _ => simp_all [Expr.isLeafKind]
  | inOpaque kind mem =>
    cases shape with
    | other => exact (known _ _ _ rfl).elim
    | template => exact ((covered _ _ .here).stands |> used).elim
    | _ => simp_all [Node.isOpaqueKind]

theorem of_holds {m : Node} (holds : n.Holds s tag direct m) (h : p.Handles s tag direct n) :
    ∃ direct', p.Handles s tag direct' m := by
  induction holds with
  | here => exact ⟨_, h⟩
  | inside contains _ ih => exact ih (of_contains contains h)

/-- A property of a node that has been dealt with is not read optionally. -/
theorem not_optional (h : p.Handles s tag direct n)
    (property : n.kind = .member ∨ n.kind = .subscript) : n.isOptional = false := by
  obtain ⟨r, e, read, covered, used, -⟩ := h
  have own := covered _ _ .here
  cases Expr.ofNode_of_eq_ok read with
  | other => exact (Fact.not_covered_other used covered).elim
  | member =>
    cases r with
    | hole | part => exact own.1
    | reference => exact own
    | callback =>
      obtain ⟨_, _, _, h⟩ := own
      cases h
    | unused => exact (used rfl).elim
  | _ => rcases property with property | property <;> simp_all [Expr.isLeafKind]

end Progress.Handles

/-! ### Entries -/

/-- In an entry that is converted all nodes that a hole holds are dealt with. -/
theorem Job.handles_of_interpolates {job : Job} {template : Node} {t : Template}
    {pieces : List Piece} (read : Template.ofNode s template = .ok t)
    (whole : t.Interleaved job.tag) (converted : job.pieces t = .ok pieces)
    (inside : template.Interpolates s job.tag n) :
    ∃ direct, (job.final t).Handles s job.tag direct n := by
  obtain ⟨hole, mem, hole_kind, c, content, holds⟩ := inside
  obtain ⟨holes, holes_eq, h⟩ := exists_ok_of_bind read
  cases h
  rw [Expr.ofHoles_eq] at holes_eq
  obtain ⟨e, he, hole_eq⟩ := exists_of_mapM holes_eq
    (List.mem_filter.mpr ⟨mem, by rw [hole_kind]; rfl⟩)
  have covered : (Fact.covered job.tag .hole e).holds (job.final _) := fun _ _ occurs =>
    Job.covers_of_pieces whole converted ⟨e, he, occurs⟩
  rw [Expr.ofHole, Expr.ofFirst_eq, ← Node.firstNamed?_eq] at hole_eq
  rcases Expr.ofOption_content content hole_eq with read | ⟨_, _, _, rfl⟩
  · exact Progress.Handles.of_holds holds
      ⟨.hole, e, read, covered, by decide, ⟨fun _ => rfl, fun _ => rfl⟩⟩
  · exact (Fact.not_covered_other (r := .hole) (by decide) covered).elim

/-- **No property is read optionally.** An entry is not converted if in an expression that fills a
hole, outside templates that are skipped and arguments of helpers, a property is read optionally, at
any depth. -/
theorem not_converted_of_optional (s : Source) (entryPoint : EntryPoint)
    (component : Option String) (parser : Parser) (job : Job) (tree : Node) (only : Candidate)
    (n : Node) (tree_eq : parser.read s.chars = some tree)
    (only_eq : tree.candidates s ⟨entryPoint.name?, job.tag⟩ = [only])
    (inside : only.template.Interpolates s job.tag n) (optional : n.isOptional = true)
    (property : n.kind = .member ∨ n.kind = .subscript) :
    ∀ entry, Entry.ofSource s entryPoint job.tag component parser = .ok entry →
      ∀ pieces, job.pieces entry.template ≠ .ok pieces := by
  intro entry read pieces converted
  have whole := Entry.interleaved read
  obtain ⟨tree', only', template, tree_eq', only_eq', template_eq, rfl⟩ :=
    Entry.ofSource_eq_ok_iff.mp read
  cases tree_eq.symm.trans tree_eq'
  cases only_eq.symm.trans only_eq'
  obtain ⟨direct, handled⟩ := Job.handles_of_interpolates template_eq whole converted inside
  rw [handled.not_optional property] at optional
  cases optional

/-- The first expression that fills a hole of the entry of a template with the tag `html`. -/
def Script.Node.firstContent? (tree : Node) (s : Source) : Option Node :=
  match tree.candidates s ⟨some "render", "html"⟩ with
  | [only] => (only.template.children.find? fun child => child.kind == .hole).bind Node.content?
  | _ => none

theorem Script.Node.interpolates_of_firstContent? {tree : Node}
    (h : tree.firstContent? s = some c) :
    ∃ only, tree.candidates s ⟨some "render", "html"⟩ = [only] ∧
      ∀ n, c.Holds s "html" true n → only.template.Interpolates s "html" n := by
  unfold firstContent? at h
  split at h
  · rename_i only only_eq
    obtain ⟨hole, found, content⟩ := Option.bind_eq_some_iff.mp h
    have hole_kind := List.find?_some found
    exact ⟨only, only_eq, fun n holds =>
      ⟨hole, List.mem_of_find?_eq_some found, eq_of_beq hole_kind, c, content, holds⟩⟩
  · cases h

/-- The template `${this.items?.map(item => html`x`)}`, which reads the items optionally. -/
def optionalItems : Source :=
  Entry.around "$\x7bthis.items?.map(item => html`x`)\x7d" (.named "render") "html"

/-- A loop over items that are read optionally is not converted. -/
theorem not_converted_of_optional_items :
    ∃ tree only n, Script.parser.read optionalItems.chars = some tree ∧
      tree.candidates optionalItems ⟨some "render", "html"⟩ = [only] ∧
      only.template.Interpolates optionalItems "html" n ∧ n.isOptional = true ∧
      n.kind = .member ∧
      ∀ entry, Entry.ofSource optionalItems (.named "render") "html" none = .ok entry →
        ∀ pieces, listJob.pieces entry.template ≠ .ok pieces := by
  -- the owner of the call is what is optional
  have found : ((Script.parser.read optionalItems.chars).bind fun tree =>
      (tree.firstContent? optionalItems).bind fun call =>
        (call.child? .callee).bind fun callee => (call.child? .arguments).map fun given =>
          (call.kind, callee.kind, callee.isOptional, given.kind)) =
        some (.call, .member, true, .arguments) := by
    decide +kernel
  obtain ⟨tree, tree_eq, found⟩ := Option.bind_eq_some_iff.mp found
  obtain ⟨call, call_eq, found⟩ := Option.bind_eq_some_iff.mp found
  obtain ⟨callee, callee_eq, found⟩ := Option.bind_eq_some_iff.mp found
  obtain ⟨given, given_eq, found⟩ := Option.map_eq_some_iff.mp found
  obtain ⟨only, only_eq, interpolates⟩ := Node.interpolates_of_firstContent? call_eq
  simp only [Prod.mk.injEq] at found
  obtain ⟨kind, property, optional, plain⟩ := found
  have inside := interpolates callee
    (.inside (.callee kind callee_eq given_eq (.inl (plain ▸ by decide))) .here)
  exact ⟨tree, only, callee, tree_eq, only_eq, inside, optional, property,
    not_converted_of_optional optionalItems (.named "render") none Script.parser listJob tree only
      callee tree_eq only_eq inside optional (.inl property)⟩

/-- The template `${this.getCurrentYear?.()}`, which calls a helper optionally. -/
def optionalYear : Source := Entry.around "${this.getCurrentYear?.()}" (.named "render") "html"

/-- A helper that is called optionally is converted like one that is not. -/
theorem optional_call_converted :
    ∃ tree only n entry, Script.parser.read optionalYear.chars = some tree ∧
      tree.candidates optionalYear ⟨some "render", "html"⟩ = [only] ∧
      only.template.Interpolates optionalYear "html" n ∧ n.isOptional = true ∧ n.kind = .call ∧
      Entry.ofSource optionalYear (.named "render") "html" none = .ok entry ∧
      listJob.convert entry.template = .ok "<?php echo date( 'Y' ); ?>" := by
  obtain ⟨entry, read, converted⟩ := exists_ok_of_map_toOption
    (x := Entry.ofSource optionalYear (.named "render") "html" none)
    (f := fun entry => (listJob.convert entry.template).toOption)
    (b := some "<?php echo date( 'Y' ); ?>") (by decide +kernel)
  have found : ((Script.parser.read optionalYear.chars).bind fun tree =>
      (tree.firstContent? optionalYear).map fun call => (call.kind, call.isOptional)) =
        some (.call, true) := by
    decide +kernel
  obtain ⟨tree, tree_eq, found⟩ := Option.bind_eq_some_iff.mp found
  obtain ⟨call, call_eq, found⟩ := Option.map_eq_some_iff.mp found
  obtain ⟨only, only_eq, interpolates⟩ := Node.interpolates_of_firstContent? call_eq
  obtain ⟨kind, optional⟩ := Prod.mk.inj found
  exact ⟨tree, only, call, entry, tree_eq, only_eq, interpolates call .here, optional, kind, read,
    eq_ok_of_toOption converted⟩

end ServerTemplate
