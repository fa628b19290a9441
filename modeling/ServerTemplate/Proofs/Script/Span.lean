import ServerTemplate.Proofs.Text.Utf8
import ServerTemplate.Script.Parser

/-!
# Spans of nodes in characters

The offsets of a node count octets. Those of a node in the tree of a parser are between characters,
so that the node reaches from one character to another (`Node.Spans`, `Node.Sound.exists_spans`).
There its text is the part of the script from the one to the other (`Node.Spans.written_eq`), texts
that meet join to one (`Source.slice_append`), and the place of its beginning is the one behind the
characters in front (`Source.place_past`).

What stands in a node of a tree stands between its ends (`Node.Has.bounds`), and a template in
particular between its quotes (`Node.Sound.template`).
-/

namespace ServerTemplate.Script

open Text (width)

/-! ### Offsets -/

/-- The number of octets in front of a character. -/
def offset (chars : List Char) (i : Nat) : Nat := width (chars.take i)

variable {s : Source} {chars before behind : List Char} {c : Char} {i j k l : Nat}

theorem offset_le_iff (hi : i ≤ chars.length) : offset chars i ≤ offset chars j ↔ i ≤ j :=
  Text.width_take_le_iff hi

theorem offset_lt_iff (hj : j ≤ chars.length) : offset chars i < offset chars j ↔ i < j := by
  rw [← Nat.not_le, offset_le_iff hj, Nat.not_le]

/-- Behind a character that is one octet wide the next offset begins. -/
theorem offset_succ (at_i : chars[i]? = some c) (narrow : width [c] = 1) :
    offset chars (i + 1) = offset chars i + 1 := by
  rw [offset, List.take_add_one, at_i, Text.width_append, Option.toList_some, narrow]
  rfl

theorem octet_past (p : Point) (cs : List Char) : (p.past cs).octet = p.octet + width cs := rfl

theorem past_cons (p : Point) (c : Char) (cs : List Char) :
    p.past (c :: cs) = (p.past [c]).past cs := by
  rw [← List.singleton_append]
  simp only [Point.past, Text.encodeUtf8_append, List.length_append, List.count_append,
    Nat.add_assoc]

/-- The points of a script are those behind its beginnings. -/
theorem mem_pointsFrom {p q : Point} {cs : List Char} :
    q ∈ pointsFrom p cs ↔ ∃ i ≤ cs.length, q = p.past (cs.take i) := by
  induction cs generalizing p with
  | nil =>
    rw [pointsFrom, List.mem_singleton]
    exact ⟨fun eq => ⟨0, Nat.le_refl 0, eq⟩, fun ⟨_, le, eq⟩ => by rw [eq, List.take_nil]; rfl⟩
  | cons c cs ih =>
    rw [pointsFrom, List.mem_cons, ih]
    constructor
    · rintro (rfl | ⟨i, le, rfl⟩)
      · exact ⟨0, Nat.zero_le _, rfl⟩
      · exact ⟨i + 1, Nat.succ_le_succ le, (past_cons p c _).symm⟩
    · rintro ⟨i, le, rfl⟩
      cases i with
      | zero => exact .inl rfl
      | succ i => exact .inr ⟨i, Nat.le_of_succ_le_succ le, past_cons p c _⟩

/-! ### Texts -/

namespace Source

/-- A part of a text is the slice as wide as it is behind what is in front. -/
theorem slice_of_split {middle : List Char} (split : s.chars = before ++ (middle ++ behind)) :
    s.slice (width before) (width before + width middle) = String.ofList middle := by
  rw [slice, octets, split, Text.drop_encodeUtf8, Nat.add_sub_cancel_left, Text.take_encodeUtf8,
    Text.decodeLossy_encodeUtf8]

theorem take_append_drop_take (le : i ≤ j) :
    chars.take i ++ (chars.take j).drop i = chars.take j := by
  have front : (chars.take j).take i = chars.take i := by rw [List.take_take, Nat.min_eq_left le]
  rw [← front, List.take_append_drop]

/-- Between characters a slice is the text from the one to the other. -/
theorem slice_offset (le : i ≤ j) : s.slice (offset s.chars i) (offset s.chars j) =
    String.ofList ((s.chars.take j).drop i) := by
  have split : s.chars = s.chars.take i ++ ((s.chars.take j).drop i ++ s.chars.drop j) := by
    rw [← List.append_assoc, take_append_drop_take le, List.take_append_drop]
  rw [← slice_of_split split, ← Text.width_take le]
  rfl

theorem slice_append (h : i ≤ j) (h' : j ≤ k) :
    s.slice (offset s.chars i) (offset s.chars j) ++ s.slice (offset s.chars j) (offset s.chars k) =
      s.slice (offset s.chars i) (offset s.chars k) := by
  rw [slice_offset h, slice_offset h', slice_offset (Nat.le_trans h h'), ← String.ofList_append]
  congr 1
  rw [← List.append_right_inj (s.chars.take i), ← List.append_assoc, take_append_drop_take h,
    take_append_drop_take h', take_append_drop_take (Nat.le_trans h h')]

/-- The place of a point is the one behind the characters in front of it. What is put in front of the
text is no part of the column on the first line. -/
theorem place_past (h : i ≤ s.chars.length) : s.place (Point.past {} (s.chars.take i)) =
    ⟨(s.chars.take i).count '\n' + 1,
      if (s.chars.take i).count '\n' = 0 then max 0 (Text.columnAfter (s.chars.take i) - s.lead)
      else Text.columnAfter (s.chars.take i)⟩ := by
  have octet : (Point.past {} (s.chars.take i)).octet = offset s.chars i := Nat.zero_add _
  have row : (Point.past {} (s.chars.take i)).row = (s.chars.take i).count '\n' := Nat.zero_add _
  have column : (s.slice (Text.behindLastFeed (s.octets.take (offset s.chars i)))
      (offset s.chars i)).length = Text.columnAfter (s.chars.take i) := by
    have le : Text.columnAfter (s.chars.take i) ≤ i := by
      have := (List.takeWhile_sublist (l := (s.chars.take i).reverse) (· != '\n')).length_le
      rw [List.length_reverse, List.length_take] at this
      exact Nat.le_trans this (Nat.min_le_left _ _)
    have taken : s.octets.take (offset s.chars i) = Text.encodeUtf8 (s.chars.take i) := by
      rw [octets, offset]
      conv_lhs => rw [← List.take_append_drop i s.chars]
      rw [List.take_left' (by rw [List.length_take, Nat.min_eq_left h])]
      exact Text.take_encodeUtf8
    have line : Text.behindLastFeed (Text.encodeUtf8 (s.chars.take i)) =
        offset s.chars (i - Text.columnAfter (s.chars.take i)) := by
      rw [Text.behindLastFeed_encodeUtf8, List.length_take, Nat.min_eq_left h, List.take_take,
        Nat.min_eq_left (Nat.sub_le _ _)]
      rfl
    rw [taken, line, slice_offset (Nat.sub_le _ _), String.length_ofList, List.length_drop,
      List.length_take, Nat.min_eq_left h]
    omega
  rw [place, octet, row, column]

end Source

/-! ### Nodes -/

/-- Spans that stand one behind the other stand between the ends. -/
theorem Ordered.le {start stop : Nat} {spans : List (Nat × Nat)} (h : Ordered start stop spans) :
    start ≤ stop := by
  induction spans generalizing start with
  | nil => exact h
  | cons span rest ih => exact Nat.le_trans h.1 (Nat.le_trans h.2.1 (ih h.2.2))

theorem Ordered.bounds {start stop : Nat} {spans : List (Nat × Nat)} {span : Nat × Nat}
    (h : Ordered start stop spans) (mem : span ∈ spans) : start ≤ span.1 ∧ span.2 ≤ stop := by
  induction spans generalizing start with
  | nil => cases mem
  | cons first rest ih =>
    obtain ⟨before, le, behind⟩ := h
    rcases List.mem_cons.mp mem with rfl | mem
    · exact ⟨before, behind.le⟩
    · obtain ⟨start, stop⟩ := ih behind mem
      exact ⟨Nat.le_trans before (Nat.le_trans le start), stop⟩

namespace Node

variable {n m : Node}

theorem toList_text : (n.text s).toList = n.written s.chars := rfl

/-- A node that reaches from one character to another. -/
structure Spans (chars : List Char) (n : Node) (i j : Nat) : Prop where
  le : i ≤ j
  le_length : j ≤ chars.length
  start_eq : n.start = Point.past {} (chars.take i)
  stop_eq : n.stop = offset chars j

namespace Spans

theorem octet_eq (h : n.Spans chars i j) : n.start.octet = offset chars i := by
  rw [h.start_eq, octet_past, Nat.zero_add]
  rfl

theorem written_eq (h : n.Spans chars i j) : n.written chars = (chars.take j).drop i := by
  rw [written, text, h.octet_eq, h.stop_eq]
  exact (congrArg String.toList (Source.slice_offset (s := ⟨chars, 0⟩) h.le)).trans
    String.toList_ofList

theorem place_eq (h : n.Spans s.chars i j) :
    n.place s = s.place (Point.past {} (s.chars.take i)) := by
  rw [place, h.start_eq]

end Spans

theorem Sound.le (h : n.Sound chars) : n.start.octet ≤ n.stop := h.ordered.le

/-- A sound node reaches from one character to another. -/
theorem Sound.exists_spans (h : n.Sound chars) : ∃ i j, n.Spans chars i j := by
  obtain ⟨i, hi, start⟩ := mem_pointsFrom.mp h.start
  obtain ⟨p, mem, stop⟩ := List.mem_map.mp h.stop
  obtain ⟨j, hj, rfl⟩ := mem_pointsFrom.mp mem
  rw [octet_past, Nat.zero_add] at stop
  have octet : n.start.octet = offset chars i := by
    rw [start, octet_past, Nat.zero_add]
    rfl
  have le : offset chars i ≤ offset chars j := by
    rw [← octet]
    exact Nat.le_trans h.le (Nat.le_of_eq stop.symm)
  exact ⟨i, j, (offset_le_iff hi).mp le, hj, start, stop.symm⟩

/-- What stands in a node stands between its ends. -/
theorem Has.bounds (has : n.Has m) (sound : ∀ m, n.Has m → m.Sound chars) :
    n.start.octet ≤ m.start.octet ∧ m.stop ≤ n.stop := by
  induction has with
  | self => exact ⟨Nat.le_refl _, Nat.le_refl _⟩
  | @inner n c m child has ih =>
    have bounds := (sound n (.self n)).ordered.bounds
      (List.mem_map_of_mem (f := fun c : Node => (c.start.octet, c.stop)) child)
    have within := ih fun m has => sound m (.inner child has)
    exact ⟨Nat.le_trans bounds.1 within.1, Nat.le_trans within.2 bounds.2⟩

theorem Has.trans {k : Node} (h : n.Has m) (h' : m.Has k) : n.Has k := by
  induction h with
  | self => exact h'
  | inner child _ ih => exact .inner child (ih h')

theorem Has.child {c : Node} (h : n.Has m) (child : c ∈ m.children) : n.Has c :=
  h.trans (.inner child (.self c))

/-- A template reaches from one quote to another, behind and in front of which a character ends. -/
theorem Sound.template (h : n.Sound chars) (kind : n.kind = .template) (spans : n.Spans chars i j) :
    i + 2 ≤ j ∧ chars[i]? = some '\x60' ∧ chars[j - 1]? = some '\x60' ∧
      n.start.octet + 1 = offset chars (i + 1) ∧ n.stop - 1 = offset chars (j - 1) := by
  obtain ⟨text, written⟩ := h.quoted kind
  rw [spans.written_eq] at written
  have le := spans.le
  have le_length := spans.le_length
  have length := congrArg List.length written
  rw [List.length_drop, List.length_take, List.length_cons, List.length_append,
    List.length_singleton] at length
  have opening : chars[i]? = some '\x60' := by
    have first := congrArg (·[0]?) written
    simpa [List.getElem?_drop, List.getElem?_take_of_lt (show i < j by omega)] using first
  have closing : chars[j - 1]? = some '\x60' := by
    have last := congrArg (·[text.length + 1]?) written
    have index : i + (text.length + 1) = j - 1 := by omega
    simpa [List.getElem?_drop, index, List.getElem?_take_of_lt (show j - 1 < j by omega)] using last
  have narrow : width ['\x60'] = 1 := by decide
  have back : j - 1 + 1 = j := by omega
  have stop := offset_succ closing narrow
  rw [back] at stop
  refine ⟨by omega, opening, closing, ?_, ?_⟩
  · rw [spans.octet_eq, offset_succ opening narrow]
  · rw [spans.stop_eq, stop, Nat.add_sub_cancel]

end Node

end ServerTemplate.Script
