import ServerTemplate.Proofs.Entry.Inside
import ServerTemplate.Proofs.Text.Place

/-!
# The script around a template

Around the text of a template stands a script. What it puts in front is all on one line and ends
with the only quote in it: the name of the entry point and the tag are words, as no entry template
is found for others (`Entry.opening_of_found`). So places do not count it (`Source.place_eq`), and a
template that is found begins and ends in the text or next to it, and around a text without quotes
next to it (`Source.eq_of_quote`).
-/

namespace ServerTemplate

open Script

/-! ### The name and the tag of a template that is found -/

namespace Script

variable {c : Char} {cs ds : List Char}

instance (cs : List Char) : Decidable (Unbroken cs) := List.decidableBAll _ cs

theorem unbroken_append : Unbroken (cs ++ ds) ↔ Unbroken cs ∧ Unbroken ds := List.forall_mem_append

theorem unbroken_cons : Unbroken (c :: cs) ↔ (c ≠ '\n' ∧ c ≠ '\x60') ∧ Unbroken cs :=
  List.forall_mem_cons

namespace Node

variable {s : Source} {sought : Sought} {parser : Parser} {n tree : Node} {found : Candidate}

/-- A node that gives values has the sought name. -/
theorem name_of_mem_givenBy {v : Node} (mem : v ∈ n.givenBy s sought) :
    n.kind.bearsName = true ∧ ∃ name, n.child? .name = some name ∧
      some (name.text s) = sought.name? := by
  unfold givenBy at mem
  split at mem
  · cases mem
  · rename_i name name_eq
    split at mem
    · cases mem
    · rename_i called
      have called : some (name.text s) = sought.name? := by simpa using called
      have bears : n.kind.isNamedFunction = true ∨ n.kind.isBinding = true := by
        split at mem
        · exact .inl ‹_›
        · split at mem
          · exact .inr ‹_›
          · cases mem
      exact ⟨by simpa [NodeKind.bearsName] using bears, name, name_eq, called⟩

/-- A template is found in a node of the sought name. -/
theorem exists_name_of_mem_candidates (mem : found ∈ n.candidates s sought) :
    ∃ m name, n.Has m ∧ m.kind.bearsName = true ∧ m.child? .name = some name ∧
      some (name.text s) = sought.name? := by
  induction n using Node.induction with | h n ih => ?_
  rw [candidates_eq_append, List.mem_append] at mem
  rcases mem with here | within
  · obtain ⟨value, given, -⟩ := List.mem_filterMap.mp here
    obtain ⟨bears, name, name_eq, called⟩ := name_of_mem_givenBy given
    exact ⟨n, name, .self n, bears, name_eq, called⟩
  · rw [candidatesOf_eq_flatMap] at within
    obtain ⟨c, child, mem⟩ := List.mem_flatMap.mp within
    obtain ⟨m, name, has, h⟩ := ih c child mem
    exact ⟨m, name, .inner child has, h⟩

/-- The name that is sought is spelled like one, if a template is found. -/
theorem exists_isNaming_of_mem_candidates (read : parser.read s.chars = some tree)
    (mem : found ∈ tree.candidates s sought) :
    ∃ name : Node, name.IsNaming s.chars ∧ some (name.text s) = sought.name? := by
  obtain ⟨m, name, has, bears, name_eq, called⟩ := exists_name_of_mem_candidates mem
  have slot := List.find?_some (p := fun child : Node => child.slot == .name) name_eq
  exact ⟨name, (parser.sound read has).name bears name (mem_of_child? name_eq) (eq_of_beq slot),
    called⟩

/-- The tag is a word, if a template is found. -/
theorem unbroken_tag_of_mem_candidates (read : parser.read s.chars = some tree)
    (mem : found ∈ tree.candidates s sought) : Unbroken sought.tag.toList := by
  obtain ⟨has, markup⟩ := has_of_mem_candidates mem
  unfold markup? at markup
  split at markup
  · rename_i callee text call callee_eq text_eq
    split at markup
    · rename_i checks
      simp only [Bool.and_eq_true, beq_iff_eq] at checks
      obtain ⟨⟨word, tag⟩, -⟩ := checks
      rw [← tag, toList_text]
      exact (parser.sound read (has.child (mem_of_child? callee_eq))).word word
    · cases markup
  · cases markup

end Node

end Script

namespace Entry

theorem opening_eq (entryPoint : EntryPoint) (tag : String) :
    opening entryPoint tag = ("function".toList ++ ' ' :: entryPoint.title.toList ++
      "() \x7b return ".toList ++ tag.toList) ++ ['\x60'] := by
  have function : "function ".toList = "function".toList ++ [' '] := by decide
  have front : "function ".toList ++ entryPoint.title.toList =
      "function".toList ++ ' ' :: entryPoint.title.toList :=
    (congrArg (· ++ entryPoint.title.toList) function).trans (List.append_assoc _ _ _)
  rw [opening, String.toList_append, String.toList_append, String.toList_append,
    String.toList_append, front]
  rfl

section Found

variable {parser : Parser} {text tag : String} {entryPoint : EntryPoint} {tree : Node}
  {found : Candidate} (titled : ∀ name, entryPoint.name? = some name → entryPoint.title = name)
  (read : parser.read (around text entryPoint tag).chars = some tree)
  (mem : found ∈ tree.candidates (around text entryPoint tag) ⟨entryPoint.name?, tag⟩)

include titled read mem

/-- The name of the entry point of a template is a word, if the template is found. -/
theorem unbroken_title_of_found : Unbroken entryPoint.title.toList := by
  obtain ⟨name, naming, called⟩ := Node.exists_isNaming_of_mem_candidates read mem
  rw [titled _ called.symm, Node.toList_text]
  rcases naming with unbroken | ⟨c, opener, first⟩
  · exact unbroken
  · -- the script would begin with a function that has no name
    rw [← Node.toList_text, ← titled _ called.symm, List.head?_eq_some_iff] at first
    obtain ⟨rest, title⟩ := first
    obtain ⟨cs, chars⟩ : ∃ cs, (around text entryPoint tag).chars = nameless c cs := by
      change ∃ cs, opening entryPoint tag ++ text.toList ++ closing = _
      rw [opening_eq, title]
      unfold nameless
      generalize "function".toList = function, "() \x7b return ".toList = middle
      simp only [List.append_assoc, List.cons_append]
      exact ⟨_, rfl⟩
    rw [chars, parser.named opener] at read
    cases read

/-- What is put in front of a text goes over no end of a line, and has no quote but the last
character, if a template is found. -/
theorem opening_of_found :
    '\n' ∉ opening entryPoint tag ∧ '\x60' ∉ (opening entryPoint tag).dropLast := by
  have front : Unbroken ("function".toList ++ ' ' :: entryPoint.title.toList ++
      "() \x7b return ".toList ++ tag.toList) := by
    have title := unbroken_title_of_found titled read mem
    have tag := Node.unbroken_tag_of_mem_candidates read mem
    rw [unbroken_append, unbroken_append, unbroken_append, unbroken_cons]
    exact ⟨⟨⟨by decide, by decide, title⟩, by decide⟩, tag⟩
  constructor
  · rw [opening_eq, List.mem_append, not_or]
    exact ⟨fun feed => (front _ feed).1 rfl, by decide⟩
  · rw [opening_eq, List.dropLast_concat]
    exact fun quote => (front _ quote).2 rfl

end Found

end Entry

namespace Options

variable {o : Options} {form : SourceForm} {source : String} {d : Declaration} {tree : Node}
  {found : Candidate}

/-- The name of an entry point, if it has one, is what a script that is put around calls it. -/
theorem title_of_name? {name : String} (h : (o.entryPointOf d).name? = some name) :
    (o.entryPointOf d).title = name := by
  unfold entryPointOf at h ⊢
  split at h
  · exact Option.some.inj h
  · dsimp only at h ⊢
    split at h
    · rename_i name' eq
      rw [eq]
      exact Option.some.inj h
    · cases h

/-- What is put in front of the source goes over no end of a line, and has no quote but the last
character, if an entry template is found. -/
theorem sourceOf_eq_of_found (read : o.parser.read (o.sourceOf form source d).chars = some tree)
    (mem : found ∈ tree.candidates (o.sourceOf form source d)
      ⟨(o.entryPointOf d).name?, o.tag⟩) :
    ∃ front behind : List Char, '\n' ∉ front ∧ '\x60' ∉ front.dropLast ∧
      '\x60' ∉ behind.drop 1 ∧
      o.sourceOf form source d = ⟨front ++ source.toList ++ behind, front.length⟩ := by
  cases form with
  | script =>
    exact ⟨[], [], List.not_mem_nil, List.not_mem_nil, List.not_mem_nil, by simp [sourceOf]⟩
  | template =>
    obtain ⟨single, first⟩ := Entry.opening_of_found (fun _ => title_of_name?) read mem
    exact ⟨Entry.opening (o.entryPointOf d) o.tag, Entry.closing, single, first, by decide, rfl⟩

end Options

/-! ### A text with something put around it -/

namespace Script.Source

variable {front text behind : List Char} {i : Nat}

theorem take_around (le : i ≤ front.length + text.length) : (front ++ text ++ behind).take i =
    front.take i ++ text.take (i - front.length) := by
  rw [List.append_assoc, List.take_append, List.take_append_of_le_length (by omega)]

/-- What is in front of the text counts no line. -/
theorem count_take_around (single : '\n' ∉ front) (le : i ≤ front.length + text.length) :
    ((front ++ text ++ behind).take i).count '\n' = (text.take (i - front.length)).count '\n' := by
  have none : (front.take i).count '\n' = 0 :=
    List.count_eq_zero.mpr fun mem => single (List.mem_of_mem_take mem)
  rw [take_around le, List.count_append, none, Nat.zero_add]

/-- What is put in front counts neither in the line nor in the column of a place in the text. -/
theorem place_eq (single : '\n' ∉ front) (ge : front.length ≤ i)
    (le : i ≤ front.length + text.length) :
    (⟨front ++ text ++ behind, front.length⟩ : Source).place
        (Point.past {} ((front ++ text ++ behind).take i)) =
      Text.Place.after (text.take (i - front.length)) := by
  have inside : i ≤ (front ++ text ++ behind).length := by
    rw [List.length_append, List.length_append]
    omega
  refine (place_past (s := ⟨front ++ text ++ behind, front.length⟩) inside).trans ?_
  dsimp only
  rw [count_take_around single le, take_around le, List.take_of_length_le ge]
  generalize text.take (i - front.length) = taken
  by_cases first : taken.count '\n' = 0
  · have whole : (front ++ taken).count '\n' = 0 := by
      rw [List.count_append, List.count_eq_zero.mpr single, first]
    rw [if_pos first, Text.Place.after, Text.columnAfter_of_count whole,
      Text.columnAfter_of_count first, List.length_append]
    congr 1
    omega
  · rw [if_neg first, Text.columnAfter_append first, Text.Place.after]

/-- The only quote in front stands where the text begins. -/
theorem le_of_quote (single : '\x60' ∉ front.dropLast)
    (at_quote : (front ++ text ++ behind)[i]? = some '\x60') : front.length ≤ i + 1 := by
  refine Nat.le_of_not_lt fun early => single ?_
  rw [List.append_assoc, List.getElem?_append_left (by omega)] at at_quote
  have inside : front.dropLast[i]? = some '\x60' := by
    rw [List.getElem?_dropLast, if_pos (by omega), at_quote]
  exact List.mem_of_getElem? inside

/-- No quote stands further behind than where the text ends. -/
theorem quote_le (single : '\x60' ∉ behind.drop 1)
    (at_quote : (front ++ text ++ behind)[i]? = some '\x60') : i ≤ front.length + text.length := by
  refine Nat.le_of_not_lt fun past => ?_
  have length : (front ++ text).length < i := by
    rw [List.length_append]
    exact past
  rw [List.getElem?_append_right (Nat.le_of_lt length)] at at_quote
  have index : i - (front ++ text).length = 1 + (i - (front ++ text).length - 1) := by omega
  rw [index, ← List.getElem?_drop] at at_quote
  exact single (List.mem_of_getElem? at_quote)

/-- If there is no quote in the text, quotes stand only next to it. -/
theorem eq_of_quote (first : '\x60' ∉ front.dropLast) (plain : '\x60' ∉ text)
    (last : '\x60' ∉ behind.drop 1) (at_quote : (front ++ text ++ behind)[i]? = some '\x60') :
    i + 1 = front.length ∨ i = front.length + text.length := by
  have ge := le_of_quote first at_quote
  have le := quote_le last at_quote
  by_contra apart
  have inside : text[i - front.length]? = some '\x60' := by
    rw [List.append_assoc, List.getElem?_append_right (by omega),
      List.getElem?_append_left (by omega)] at at_quote
    exact at_quote
  exact plain (List.mem_of_getElem? inside)

end Script.Source

end ServerTemplate
