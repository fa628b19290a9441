import ServerTemplate.Proofs.Entry.Around
import ServerTemplate.Proofs.Entry.Chunks

/-!
# The text of a template is its entry

The text of a template is read in a script: a function that returns it between quotes. What is found
there is the whole text (`entry_is_whole`), if there is no quote in it, as a template stands between
quotes (`Entry.encloses_of_found`). With quotes in it, it is the whole text if for the parser the
template that begins with the quote in front of the text ends with the one behind it
(`Entry.IsClosed`).

A text with quotes in it can as well close the template and go on with statements of its own
(`closingText_dropped`).
-/

namespace ServerTemplate

open Script

/-! ### The function around a text -/

namespace Script.Node

variable {s : Source} {name tag : String} {n m t : Node} {sought : Sought} {found : Candidate}

/-- The template with a tag in the first return of a function that is declared under a name. -/
def ownTemplate? (s : Source) (name tag : String) (f : Node) : Option Node :=
  if f.kind == .functionDeclaration && (f.child? .name).any fun called => called.text s == name then
    (f.child? .body).bind fun body =>
      (body.children.find? fun c => c.kind == .returnStatement).bind fun r =>
        r.firstNamed?.bind fun value => value.markup? s tag
  else none

/-- Whether a template begins with the quote in front of a text and ends with the one behind it. -/
def Encloses (front text : List Char) (n : Node) : Prop :=
  n.start.octet + 1 = Text.width front ∧ n.stop = Text.width (front ++ text) + 1

/-- The templates of a node are found in each node around it. -/
theorem Has.mem_candidates (has : n.Has m) (mem : found ∈ m.candidatesHere s sought) :
    found ∈ n.candidates s sought := by
  induction has with
  | self =>
    rw [candidates_eq_append]
    exact List.mem_append_left _ mem
  | inner child _ ih =>
    rw [candidates_eq_append]
    rw [candidatesOf_eq_flatMap]
    exact List.mem_append_right _ (List.mem_flatMap.mpr ⟨_, child, ih mem⟩)

theorem kind_of_markup? (h : n.markup? s tag = some m) : n.kind = .call := by
  unfold markup? at h
  split at h
  · assumption
  · cases h

/-- The template that a function of the sought name returns is found. -/
theorem mem_candidatesHere_of_ownTemplate? (h : n.ownTemplate? s name tag = some t) :
    ∃ c ∈ n.candidatesHere s ⟨some name, tag⟩, c.template = t := by
  unfold ownTemplate? at h
  split at h
  · rename_i checks
    rw [Bool.and_eq_true, Option.any_eq_true] at checks
    obtain ⟨kind, called, called_eq, name_eq⟩ := checks
    obtain ⟨body, body_eq, h⟩ := Option.bind_eq_some_iff.mp h
    obtain ⟨r, found, h⟩ := Option.bind_eq_some_iff.mp h
    obtain ⟨value, first, markup⟩ := Option.bind_eq_some_iff.mp h
    have isReturn := List.find?_some (p := fun c : Node => c.kind == .returnStatement) found
    have returned : r ∈ returnsOf body.children := by
      rw [returnsOf_eq]
      refine List.mem_flatMap.mpr ⟨r, List.mem_of_find?_eq_some found, ?_⟩
      rw [returns_eq, if_pos isReturn]
      exact .head _
    have unwrapped : value.unwrapped? = some value := by
      obtain ⟨kind, slot, start, stop, children⟩ := value
      cases kind_of_markup? markup
      rfl
    have results : value ∈ body.results false :=
      List.mem_filterMap.mpr ⟨value, List.mem_filterMap.mpr ⟨r, returned, first⟩, unwrapped⟩
    have given : value ∈ n.givenBy s ⟨some name, tag⟩ := by
      rw [givenBy, called_eq, eq_of_beq kind, body_eq]
      simp only [eq_of_beq name_eq, bne_self_eq_false, Bool.false_eq_true, if_false]
      exact results
    exact ⟨⟨value, t⟩, List.mem_filterMap.mpr ⟨value, given, by rw [markup, Option.map_some]⟩, rfl⟩
  · cases h

end Script.Node

namespace Entry

variable {parser : Parser} {text name tag : String}

/-- Whether the function around a text returns, for a parser, the template that reaches from the
quote in front of the text to the one behind it. -/
def IsClosed (parser : Parser) (text name tag : String) : Prop :=
  let s := around text (.named name) tag
  ∃ tree f template, parser.read s.chars = some tree ∧ tree.Has f ∧
    f.ownTemplate? s name tag = some template ∧
    template.Encloses (opening (.named name) tag) text.toList

/-- A function that stands first in a script is found to return the whole text. -/
theorem isClosed_of_any (h : ((parser.read (around text (.named name) tag).chars).any fun tree =>
      (tree.children.head?.bind (Node.ownTemplate? (around text (.named name) tag) name tag)).any
        fun template =>
          template.start.octet + 1 == Text.width (opening (.named name) tag) &&
          template.stop == Text.width (opening (.named name) tag ++ text.toList) + 1) = true) :
    IsClosed parser text name tag := by
  obtain ⟨tree, read, h⟩ := exists_of_any h
  obtain ⟨template, found, h⟩ := exists_of_any h
  obtain ⟨f, first, own⟩ := Option.bind_eq_some_iff.mp found
  rw [Bool.and_eq_true, beq_iff_eq, beq_iff_eq] at h
  exact ⟨tree, f, template, read, .inner (List.mem_of_head? first) (.self f), own, h⟩

/-- Around a text without quotes the template that is found begins with the quote in front of the
text and ends with the one behind it. -/
theorem encloses_of_found {tree : Node} {found : Candidate} (plain : '\x60' ∉ text.toList)
    (read : parser.read (around text (.named name) tag).chars = some tree)
    (mem : found ∈ tree.candidates (around text (.named name) tag) ⟨some name, tag⟩) :
    found.template.Encloses (opening (.named name) tag) text.toList := by
  have sound := parser.sound read (Node.has_template_of_mem_candidates mem)
  obtain ⟨i, j, spans⟩ := sound.exists_spans
  obtain ⟨length, opens, closes, start, stop⟩ :=
    sound.template (Node.kind_of_mem_candidates mem) spans
  obtain ⟨-, first⟩ := opening_of_found (fun _ => Option.some.inj) read mem
  have last : '\x60' ∉ closing.drop 1 := by decide
  -- both quotes of the template stand next to the text, the one in front of it and the other behind
  have begins := Source.eq_of_quote first plain last opens
  have ends := Source.eq_of_quote first plain last closes
  have before : (around text (.named name) tag).chars.take (i + 1) =
      opening (.named name) tag := by
    change (opening (.named name) tag ++ text.toList ++ closing).take (i + 1) = _
    rw [List.append_assoc]
    exact List.take_left' (by omega)
  have whole : (around text (.named name) tag).chars.take (j - 1) =
      opening (.named name) tag ++ text.toList :=
    List.take_left' (by rw [List.length_append]; omega)
  have closed : found.template.stop - 1 < found.template.stop := by
    rw [stop, spans.stop_eq, offset_lt_iff spans.le_length]
    omega
  rw [offset, before] at start
  rw [offset, whole] at stop
  exact ⟨start, by omega⟩

end Entry

/-- Whether a template is the only one found in a script and is written as a text: its texts with
the sources of its holes between them. -/
def Template.IsWrittenAs (template : Template) (parser : Parser) (s : Source) (sought : Sought)
    (w : String) : Prop :=
  ∃ tree only, parser.read s.chars = some tree ∧ tree.candidates s sought = [only] ∧
    Template.ofNode s only.template = .ok template ∧
    interleave template.chunks (holeTexts s only.template.children) = w

/-- A template is written in one way. -/
theorem Template.IsWrittenAs.unique {template : Template} {parser : Parser} {s : Source}
    {sought : Sought} {v w : String} (hv : template.IsWrittenAs parser s sought v)
    (hw : template.IsWrittenAs parser s sought w) : v = w := by
  obtain ⟨tree, only, read, found, -, rfl⟩ := hv
  obtain ⟨tree', only', read', found', -, rfl⟩ := hw
  cases read.symm.trans read'
  cases found.symm.trans found'
  rfl

/-- If there is no quote in a text or the template in front of it ends behind it, and the entry is
found, the text is what the template of the entry is written as. -/
theorem entry_is_whole {parser : Parser} {text name tag : String} {component : Option String}
    {entry : Entry} (closed : '\x60' ∉ text.toList ∨ Entry.IsClosed parser text name tag)
    (h : Entry.ofTemplate text (.named name) tag component parser = .ok entry) :
    entry.template.IsWrittenAs parser (Entry.around text (.named name) tag) ⟨some name, tag⟩
      text := by
  rw [Entry.ofTemplate_eq] at h
  obtain ⟨tree, only, lowered, read, found, lowers, rfl⟩ := Entry.ofSource_eq_ok_iff.mp h
  refine ⟨tree, only, read, found, lowers, ?_⟩
  have mem : only ∈ tree.candidates (Entry.around text (.named name) tag) ⟨some name, tag⟩ :=
    found ▸ List.mem_singleton_self only
  obtain ⟨start, stop⟩ :
      only.template.Encloses (Entry.opening (.named name) tag) text.toList := by
    rcases closed with plain | ⟨tree', f, template, read', has, own, ends⟩
    · exact Entry.encloses_of_found plain read mem
    · -- the template in front of the text is a candidate, and so the only one
      cases read.symm.trans read'
      obtain ⟨c, here, rfl⟩ := Node.mem_candidatesHere_of_ownTemplate? own
      have same : c = only := List.mem_singleton.mp (found ▸ has.mem_candidates here)
      exact same ▸ ends
  obtain ⟨holes, _, lowers⟩ := exists_ok_of_bind lowers
  cases lowers
  have inTree := Node.has_template_of_mem_candidates mem
  have sound := parser.sound read inTree
  have whole : (Entry.around text (.named name) tag).chars =
      Entry.opening (.named name) tag ++ (text.toList ++ Entry.closing) := List.append_assoc _ _ _
  calc
    interleave (chunksOf (Entry.around text (.named name) tag) only.template)
        (holeTexts (Entry.around text (.named name) tag) only.template.children)
    _ = (Entry.around text (.named name) tag).slice (only.template.start.octet + 1)
          (only.template.stop - 1) :=
      sound.interleave_chunksOf (Node.kind_of_mem_candidates mem) fun _ child =>
        parser.sound read (inTree.child child)
    _ = text := by
      rw [start, stop, Nat.add_sub_cancel, Text.width_append, Source.slice_of_split whole,
        String.ofList_toList]

/-- The text of a template with another in a hole. -/
def nestedText : String :=
  "<ul>$\x7bthis.items.map(i => html`<li>$\x7bi\x7d</li>`)\x7d</ul>$\x7bthis.note\x7d"

/-- A text with a template in a hole is found as a whole. -/
theorem entry_is_whole_nestedText :
    Entry.IsClosed Script.parser nestedText "render" "html" ∧
      ∃ entry, Entry.ofTemplate nestedText (.named "render") "html" none = .ok entry ∧
        entry.template.IsWrittenAs Script.parser (Entry.around nestedText (.named "render") "html")
          ⟨some "render", "html"⟩ nestedText := by
  have closed : Entry.IsClosed Script.parser nestedText "render" "html" := by
    refine Entry.isClosed_of_any ?_
    decide +kernel
  have ok : (Entry.ofTemplate nestedText (.named "render") "html" none).isOk = true := by
    decide +kernel
  obtain ⟨entry, h⟩ := exists_ok_of_isOk ok
  exact ⟨closed, entry, h, entry_is_whole (.inr closed) h⟩

/-- The text of a template that closes it and goes on with a function. -/
def closingText : String := "a`; \x7d function other() \x7b return html`b"

/-- What stands behind the quote in a text is dropped. -/
theorem closingText_dropped :
    ∃ entry, Entry.ofTemplate closingText (.named "render") "html" none = .ok entry ∧
      entry.template.IsWrittenAs Script.parser (Entry.around closingText (.named "render") "html")
        ⟨some "render", "html"⟩ "a" ∧
      ¬entry.template.IsWrittenAs Script.parser
        (Entry.around closingText (.named "render") "html") ⟨some "render", "html"⟩
        closingText := by
  have ok : (Entry.ofTemplate closingText (.named "render") "html" none).isOk = true := by
    decide +kernel
  have dropped : ((Script.parser.read
      (Entry.around closingText (.named "render") "html").chars).all fun tree =>
        (tree.candidates (Entry.around closingText (.named "render") "html")
          ⟨some "render", "html"⟩).all fun only =>
            interleave (chunksOf (Entry.around closingText (.named "render") "html") only.template)
              (holeTexts (Entry.around closingText (.named "render") "html")
                only.template.children) == "a") = true := by
    decide +kernel
  obtain ⟨entry, h⟩ := exists_ok_of_isOk ok
  refine ⟨entry, h, ?_⟩
  rw [Entry.ofTemplate_eq] at h
  obtain ⟨tree, only, template, read, found, lowered, rfl⟩ := Entry.ofSource_eq_ok_iff.mp h
  have one : tree.candidates (Entry.around closingText (.named "render") "html")
      ⟨some "render", "html"⟩ = [only] := found
  rw [read, Option.all_some, one, List.all_cons, List.all_nil, Bool.and_true] at dropped
  have written : template.IsWrittenAs Script.parser
      (Entry.around closingText (.named "render") "html") ⟨some "render", "html"⟩ "a" := by
    refine ⟨tree, only, read, one, lowered, ?_⟩
    obtain ⟨holes, _, lowered⟩ := exists_ok_of_bind lowered
    cases lowered
    exact eq_of_beq dropped
  exact ⟨written, fun whole => absurd (written.unique whole) (by decide)⟩

end ServerTemplate
