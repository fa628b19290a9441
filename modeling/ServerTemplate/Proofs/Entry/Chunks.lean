import ServerTemplate.Proofs.Entry.Search
import ServerTemplate.Proofs.Script.Span

/-!
# Texts and holes of templates

Every template in the tree of a script, however deep it is nested, is cut into texts and holes
without loss: the texts with the sources of the holes between them are all that stands between its
quotes, and the expression of a hole is that of the first node in it that is no comment
(`Template.Splits`, `splits_of_has`).
-/

namespace ServerTemplate

open Script Text

variable {s : Source} {nodes : List Node} {n c tree : Node} {e : Expr} {t : Template} {i j : Nat}

/-! ### Texts between holes -/

/-- Texts, each but the last with another behind it. -/
def interleave : List String → List String → String
  | chunk :: chunks, hole :: holes => chunk ++ (hole ++ interleave chunks holes)
  | chunk :: chunks, [] => chunk ++ interleave chunks []
  | [], _ => ""

/-- The sources of the holes among nodes. -/
def holeTexts (s : Source) (nodes : List Node) : List String :=
  (nodes.filter fun node => node.kind == .hole).map (Node.text s)

namespace Script

/-- From where to where a node reaches. -/
def Node.span (n : Node) : Nat × Nat := (n.start.octet, n.stop)

/-- Some of the nodes that stand one behind the other still do between narrower ends. -/
theorem Ordered.filter {p : Node → Bool} {start stop start' stop' : Nat}
    (ordered : Ordered start stop (nodes.map Node.span)) (le : start' ≤ stop')
    (within : ∀ c ∈ nodes, p c = true → start' ≤ c.start.octet ∧ c.stop ≤ stop') :
    Ordered start' stop' ((nodes.filter p).map Node.span) := by
  induction nodes generalizing start start' with
  | nil => exact le
  | cons c nodes ih =>
    obtain ⟨-, inside, behind⟩ := ordered
    obtain ⟨first, others⟩ := List.forall_mem_cons.mp within
    rw [List.filter_cons]
    split
    · rename_i taken
      obtain ⟨starts, stops⟩ := first taken
      refine ⟨starts, inside, ih behind stops fun d mem taken => ⟨?_, (others d mem taken).2⟩⟩
      exact (behind.bounds (List.mem_map_of_mem mem)).1
    · exact ih behind le others

end Script

/-- The texts between holes and the sources of these are what is written. -/
theorem interleave_chunksBetween (hi : i ≤ s.chars.length)
    (sound : ∀ c ∈ nodes, c.Sound s.chars)
    (ordered : Ordered (offset s.chars i) (offset s.chars j)
      ((nodes.filter fun node => node.kind == .hole).map Node.span)) :
    interleave (chunksBetween s (offset s.chars i) (offset s.chars j) nodes) (holeTexts s nodes) =
      s.slice (offset s.chars i) (offset s.chars j) := by
  induction nodes generalizing i with
  | nil =>
    rw [chunksBetween, holeTexts, List.filter_nil, List.map_nil, interleave, interleave,
      String.append_empty]
  | cons part rest ih =>
    obtain ⟨first, others⟩ := List.forall_mem_cons.mp sound
    rw [List.filter_cons] at ordered
    rw [chunksBetween, holeTexts, List.filter_cons]
    split
    · rename_i hole
      rw [if_pos hole, List.map_cons] at ordered
      obtain ⟨before, -, behind⟩ := ordered
      obtain ⟨k, l, spans⟩ := first.exists_spans
      rw [Node.span, spans.octet_eq] at before
      rw [Node.span, spans.stop_eq] at behind
      have hk : i ≤ k := (offset_le_iff hi).mp before
      have hl : l ≤ j := (offset_le_iff spans.le_length).mp behind.le
      have rest_eq := ih spans.le_length others behind
      rw [holeTexts] at rest_eq
      rw [List.map_cons, interleave, spans.stop_eq, rest_eq, Node.text, spans.octet_eq,
        spans.stop_eq, Source.slice_append spans.le hl,
        Source.slice_append hk (Nat.le_trans spans.le hl)]
    · rename_i noHole
      rw [if_neg noHole] at ordered
      exact ih hi others ordered

/-- The texts of a template with the sources of its holes are what stands between its quotes. -/
theorem Script.Node.Sound.interleave_chunksOf (sound : n.Sound s.chars) (kind : n.kind = .template)
    (inside : ∀ c ∈ n.children, c.Sound s.chars) :
    interleave (chunksOf s n) (holeTexts s n.children) =
      s.slice (n.start.octet + 1) (n.stop - 1) := by
  obtain ⟨i, j, spans⟩ := sound.exists_spans
  obtain ⟨length, -, -, start, stop⟩ := sound.template kind spans
  have le_length := spans.le_length
  have between : ∀ c ∈ n.children, (c.kind == .hole) = true →
      n.start.octet + 1 ≤ c.start.octet ∧ c.stop ≤ n.stop - 1 := fun c mem hole =>
    sound.between kind c mem (by rw [eq_of_beq hole]; decide)
  have le : n.start.octet + 1 ≤ n.stop - 1 := by
    rw [start, stop, offset_le_iff (by omega)]
    omega
  have ordered := sound.ordered.filter le between
  rw [chunksOf]
  rw [start, stop] at ordered ⊢
  exact interleave_chunksBetween (by omega) inside ordered

/-- A template is written as what stands between its quotes, in quotes. -/
theorem Script.Node.Sound.text_eq (sound : n.Sound s.chars) (kind : n.kind = .template) :
    n.text s = "`" ++ s.slice (n.start.octet + 1) (n.stop - 1) ++ "`" := by
  obtain ⟨i, j, spans⟩ := sound.exists_spans
  obtain ⟨length, opening, closing, start, stop⟩ := sound.template kind spans
  have le_length := spans.le_length
  have quote (k : Nat) (at_k : s.chars[k]? = some '\x60') :
      s.slice (offset s.chars k) (offset s.chars (k + 1)) = "`" := by
    rw [Source.slice_offset (Nat.le_succ k), List.take_add_one, at_k]
    obtain ⟨lt, -⟩ := List.getElem?_eq_some_iff.mp at_k
    have taken : (s.chars.take k).length = k := List.length_take_of_le (Nat.le_of_lt lt)
    rw [List.drop_left' taken]
    rfl
  have first := quote i opening
  have last := quote (j - 1) closing
  rw [Nat.sub_add_cancel (by omega)] at last
  calc
    n.text s = s.slice (offset s.chars i) (offset s.chars j) := by
      rw [Node.text, spans.octet_eq, spans.stop_eq]
    _ = "`" ++ s.slice (offset s.chars (i + 1)) (offset s.chars (j - 1)) ++ "`" := by
      rw [← Source.slice_append (Nat.le_succ i) (by omega),
        ← Source.slice_append (s := s) (show i + 1 ≤ j - 1 by omega) (Nat.sub_le j 1), first, last,
        String.append_assoc]
    _ = "`" ++ s.slice (n.start.octet + 1) (n.stop - 1) ++ "`" := by rw [start, stop]

namespace Script.Node

/-- The holes of a template. -/
def holes (n : Node) : List Node := n.children.filter fun child => child.kind == .hole

/-- A node of which something does not hold is found if it does not hold of all. -/
theorem exists_has_of_all_eq_false {p : Node → Bool} (h : n.all p = false) :
    ∃ m, n.Has m ∧ p m = false := by
  induction n using Node.induction with | h n ih => ?_
  by_cases here : p n = true
  · have inside : ¬∀ c ∈ n.children, c.all p = true := fun all =>
      Bool.false_ne_true (h.symm.trans (all_iff.mpr ⟨here, all⟩))
    obtain ⟨c, child, fails⟩ : ∃ c ∈ n.children, c.all p = false := by simpa using inside
    obtain ⟨m, has, found⟩ := ih c child fails
    exact ⟨m, .inner child has, found⟩
  · exact ⟨n, .self n, Bool.not_eq_true _ ▸ here⟩

end Script.Node

/-- A node for which a check passes, in the tree of a script. -/
theorem Script.Parser.exists_has {parser : Parser} {chars : List Char} {p : Node → Bool}
    (h : ((parser.read chars).any fun tree => !tree.all fun n => !p n) = true) :
    ∃ tree n, parser.read chars = some tree ∧ tree.Has n ∧ p n = true := by
  obtain ⟨tree, read, some⟩ := exists_of_any h
  rw [Bool.not_eq_true'] at some
  obtain ⟨n, has, passes⟩ := Node.exists_has_of_all_eq_false some
  exact ⟨tree, n, read, has, by simpa using passes⟩

/-! ### Reading a template -/

theorem exists_ok_of_mapM {ε α β : Type} {f : α → Except ε β} {xs : List α} {ys : List β} {x : α}
    (h : xs.mapM f = .ok ys) (mem : x ∈ xs) : ∃ y, f x = .ok y := by
  have each := mapM_eq_ok_iff.mp h
  clear h
  induction each with
  | nil => cases mem
  | cons first _ ih =>
    rcases List.mem_cons.mp mem with rfl | mem
    · exact ⟨_, first⟩
    · exact ih mem

/-- A template is read by itself as it is where it is an expression. -/
theorem Expr.ofNode_template (kind : n.kind = .template) :
    ofNode s n = (Template.ofNode s n).map fun t => .template t.place t.chunks t.holes := by
  obtain ⟨_, slot, start, stop, children⟩ := n
  cases kind
  rw [ofNode, Template.ofNode]
  cases ofHoles s children <;> rfl

/-- Whether an expression is that of the first node in a hole that is no comment, or says that there
is none. -/
def Expr.Fills (s : Source) (hole : Node) (e : Expr) : Prop :=
  (∀ c, hole.firstNamed? = some c → ofNode s c = .ok e) ∧
    (hole.firstNamed? = none → e = .other (hole.place s) "empty substitution" "")

theorem Expr.fills_iff {hole : Node} : e.Fills s hole ↔ ofHole s hole = .ok e := by
  rw [ofHole, ofFirst_eq, ← Node.firstNamed?_eq, Fills]
  cases hole.firstNamed? with
  | none => simp [ofOption, eq_comm]
  | some c => simp [ofOption]

/-- A template is made of the texts and holes that a node is written with. -/
structure Template.Splits (s : Source) (n : Node) (t : Template) : Prop where
  length : t.chunks.length = t.holes.length + 1
  /-- The texts with the sources of the holes between them are what stands between the quotes. -/
  text : n.text s = "`" ++ interleave t.chunks (holeTexts s n.children) ++ "`"
  /-- The expression of a hole is that of the first node in it. -/
  holes : List.Forall₂ (fun hole e => Expr.Fills s hole e) n.holes t.holes

/-- What is read of a template is made of its texts and holes. -/
theorem splits_of_ofNode (sound : n.Sound s.chars) (kind : n.kind = .template)
    (inside : ∀ c ∈ n.children, c.Sound s.chars) (h : Template.ofNode s n = .ok t) :
    t.Splits s n := by
  have length := (Template.even_of_ofNode h).1
  obtain ⟨es, hes, rest⟩ := exists_ok_of_bind h
  cases rest
  rw [Expr.ofHoles_eq] at hes
  refine ⟨length, ?_, (mapM_eq_ok_iff.mp hes).imp fun hole e => Expr.fills_iff.mpr⟩
  rw [sound.interleave_chunksOf kind inside]
  exact sound.text_eq kind

/-- A template can be read if what is in its holes can. -/
theorem exists_template_iff : (∃ t, Template.ofNode s n = .ok t) ↔
    ∀ hole ∈ n.holes, ∀ c, hole.firstNamed? = some c → ∃ e, Expr.ofNode s c = .ok e := by
  constructor
  · rintro ⟨t, h⟩ hole mem c first
    obtain ⟨es, hes, -⟩ := exists_ok_of_bind h
    rw [Expr.ofHoles_eq] at hes
    obtain ⟨e, he⟩ := exists_ok_of_mapM hes mem
    exact ⟨e, (Expr.fills_iff.mpr he).1 c first⟩
  · intro each
    have holes : ∃ es, Expr.ofHoles s n.children = .ok es := by
      rw [Expr.ofHoles_eq]
      refine exists_mapM_ok fun hole mem => ?_
      rw [Expr.ofHole, Expr.ofFirst_eq, ← Node.firstNamed?_eq]
      exact Expr.exists_ofOption_ok fun c first => each hole mem c first
    exact exists_ok_bind holes fun es => ⟨_, rfl⟩

/-- Every template in the tree of a script can be read if and only if what is in its holes can. What
is read is made of its texts and holes, whether the template stands alone or is an expression in
the hole of another. -/
theorem splits_of_has {parser : Parser} (read : parser.read s.chars = some tree)
    (has : tree.Has n) (kind : n.kind = .template) :
    ((∃ t, Template.ofNode s n = .ok t) ↔
      ∀ hole ∈ n.holes, ∀ c, hole.firstNamed? = some c → ∃ e, Expr.ofNode s c = .ok e) ∧
    (∀ t, Template.ofNode s n = .ok t → t.Splits s n) ∧
    Expr.ofNode s n =
      (Template.ofNode s n).map fun t => .template t.place t.chunks t.holes :=
  ⟨exists_template_iff, fun _ => splits_of_ofNode (parser.sound read has) kind
    fun _ child => parser.sound read (has.child child), Expr.ofNode_template kind⟩

/-- A script with a template in the hole of another, behind a comment. -/
def twoTemplates : Script.Source := ⟨"`é$\x7b/**/`b$\x7bc\x7d`\x7dd`".toList, 0⟩

/-- The inner of two templates is cut into its texts and holes as well. -/
theorem splits_of_twoTemplates : ∃ tree n t, Script.parser.read twoTemplates.chars = some tree ∧
    tree.Has n ∧ n.kind = .template ∧ n.start.octet = 9 ∧ Template.ofNode twoTemplates n = .ok t ∧
    t.Splits twoTemplates n := by
  have checks : ((Script.parser.read twoTemplates.chars).any fun tree => !tree.all fun n =>
      !(n.kind == .template && n.start.octet == 9 &&
        (Template.ofNode twoTemplates n).isOk)) = true := by
    decide +kernel
  obtain ⟨tree, n, read, has, checks⟩ := Script.Parser.exists_has checks
  simp only [Bool.and_eq_true, beq_iff_eq] at checks
  obtain ⟨⟨kind, start⟩, ok⟩ := checks
  obtain ⟨t, h⟩ := exists_ok_of_isOk ok
  exact ⟨tree, n, t, read, has, kind, start, h, (splits_of_has read has kind).2.1 t h⟩

end ServerTemplate
