import ServerTemplate.Proofs.Entry.Snippet

/-!
# The text at a place

An expression has the place of the node that it is read from. If that node is in a hole of the entry
template, the source goes on from the place with the text of the node (`Options.text_at_place`),
however wide the characters in front are.
-/

namespace ServerTemplate

open Script

/-- What ends in the text is a part of it. -/
theorem Script.Node.text_prefix {front text behind : List Char} {n : Node} {i j : Nat}
    (spans : n.Spans (front ++ text ++ behind) i j) (ge : front.length ≤ i)
    (le : j ≤ front.length + text.length) :
    (n.text ⟨front ++ text ++ behind, front.length⟩).toList <+: text.drop (i - front.length) := by
  rw [toList_text, spans.written_eq, Source.take_around le,
    List.take_of_length_le (Nat.le_trans ge spans.le), List.drop_append,
    List.drop_of_length_le ge, List.nil_append, List.drop_take]
  exact List.take_prefix _ _

namespace Options

variable {o : Options} {form : SourceForm} {source : String} {d : Declaration} {n : Node} {e : Expr}

/-- Whether an expression is that of a node in a hole of the entry template. -/
def LowersInside (o : Options) (form : SourceForm) (source : String) (d : Declaration) (n : Node)
    (e : Expr) : Prop :=
  let s := o.sourceOf form source d
  ∃ tree only hole c, o.parser.read s.chars = some tree ∧
    tree.candidates s ⟨(o.entryPointOf d).name?, o.tag⟩ = [only] ∧
    hole ∈ only.template.children ∧ hole.kind = .hole ∧ c ∈ hole.children ∧
    Node.Has c n ∧ Expr.ofNode s n = .ok e

/-- From the place of an expression that is read from a node in a hole of the entry template on, the
source goes on with the text of the node. -/
theorem text_at_place (inside : o.LowersInside form source d n e) :
    ∃ left, Text.fromPlace? source.toList e.place = some left ∧
      (n.text (o.sourceOf form source d)).toList <+: left := by
  obtain ⟨tree, only, hole, c, read, one, child, isHole, inner, has, lowered⟩ := inside
  have mem := one ▸ List.mem_singleton_self only
  obtain ⟨front, behind, single, first, last, eq⟩ := sourceOf_eq_of_found read mem
  have inTree := Node.has_template_of_mem_candidates mem
  have kind := Node.kind_of_mem_candidates mem
  have sound (m : Node) (has : only.template.Has m) := o.parser.sound read (inTree.trans has)
  have within : only.template.Has n := .inner child (.inner inner has)
  -- the quotes of the template are in the source or next to it, so that its holes are in the source
  obtain ⟨k, l, template⟩ := (sound _ (.self _)).exists_spans
  obtain ⟨length, opening, closing, start, stop⟩ := (sound _ (.self _)).template kind template
  obtain ⟨i, j, spans⟩ := (sound n within).exists_spans
  have bounds := Node.bounds_of_hole sound kind child isHole inner has
  have le_length := template.le_length
  rw [start, stop, spans.octet_eq, spans.stop_eq, offset_le_iff (by omega),
    offset_le_iff spans.le_length] at bounds
  have place := (Expr.place_of_ofNode lowered).trans spans.place_eq
  rw [eq] at opening closing place spans ⊢
  have opens := Source.le_of_quote first opening
  have closes := Source.quote_le last closing
  have le := spans.le
  refine ⟨_, ?_, Node.text_prefix spans (by omega) (by omega)⟩
  rw [place, Source.place_eq single (by omega) (by omega)]
  exact Text.fromPlace?_after (by omega)

theorem lowersInside_of_mem_holeNodes (mem : (n, e) ∈ o.holeNodes form source d) :
    o.LowersInside form source d n e := by
  obtain ⟨tree, only, template, read, one, first, second, lowered⟩ := exists_of_mem_holeNodes mem
  have found := one ▸ List.mem_singleton_self only
  obtain ⟨-, markup⟩ := Node.has_of_mem_candidates found
  obtain ⟨parts, -, kind⟩ := Node.readParts_of_markup? markup
  rw [parts, List.mem_singleton] at first
  obtain ⟨hole, child, isHole, inner, -⟩ :=
    Node.exists_hole_of_mem_readParts (first ▸ kind) second
  exact ⟨tree, only, hole, n, read, one, first ▸ child, isHole, inner, .self n, lowered⟩

/-- A template with more bytes than characters in front of a value on its second line. -/
def accented : String := "<p>\n  \u00a1Ol\u00e9! $\x7bthis.title\x7d</p>"

/-- The value stands behind ten characters of the second line. -/
theorem text_at_place_accented : ∃ n e,
    ({} : Options).LowersInside .template accented bare n e ∧ e.place = ⟨2, 10⟩ ∧
      ∃ left, Text.fromPlace? accented.toList ⟨2, 10⟩ = some left ∧
        "this.title".toList <+: left := by
  have checks : ((({} : Options).holeNodes .template accented bare).any fun (n, e) =>
      decide (e.place = ⟨2, 10⟩) &&
        n.text (({} : Options).sourceOf .template accented bare) == "this.title") = true := by
    decide +kernel
  obtain ⟨⟨n, e⟩, mem, checks⟩ := List.any_eq_true.mp checks
  simp only [Bool.and_eq_true, beq_iff_eq, decide_eq_true_eq] at checks
  have inside := lowersInside_of_mem_holeNodes mem
  obtain ⟨left, stands, begins⟩ := text_at_place inside
  rw [checks.1] at stands
  rw [checks.2] at begins
  exact ⟨n, e, inside, checks.1, left, stands, begins⟩

end Options

end ServerTemplate
