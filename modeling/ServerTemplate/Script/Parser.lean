import ServerTemplate.Script.Entry
import ServerTemplate.Script.Read

/-!
# Parsers

Scripts are parsed by a parser that is given: a function from scripts to trees, of which no more is
known than what a parser of the language grants of each node of its trees (`Node.Sound`) and of the
names of functions. A `Parser` carries these guarantees with it.

`Parser.checked` makes a parser of any reader, whose trees it checks; `parser` is made of the reader
at hand.
-/

namespace ServerTemplate.Script

/-! ### Points and characters -/

/-- The points of a script from a point on, behind which the characters stand. -/
def pointsFrom (p : Point) : List Char → List Point
  | [] => [p]
  | c :: cs => p :: pointsFrom (p.past [c]) cs

/-- Whether spans stand one behind the other between two offsets. -/
def Ordered (start stop : Nat) : List (Nat × Nat) → Prop
  | [] => start ≤ stop
  | span :: rest => start ≤ span.1 ∧ span.1 ≤ span.2 ∧ Ordered span.2 stop rest

/-- Whether there is neither a line feed nor the quote of a template among characters. -/
def Unbroken (cs : List Char) : Prop := ∀ c ∈ cs, c ≠ '\n' ∧ c ≠ '\x60'

/-- The characters that a name begins with which is no word. -/
def nameOpeners : List Char := "\x22\x27[\x7b.0123456789".toList

/-- The word `function` with a character behind it that begins no word. -/
def nameless (c : Char) (cs : List Char) : List Char := "function".toList ++ ' ' :: c :: cs

/-- Whether nodes in a row are all that stands in front of the closing quote of a string. Plain text
has neither quotes nor backslashes, and an escape is the longest possible. -/
def IsStringRest (s : Source) (quote : Char) : List Node → List Char → Prop
  | [], cs => cs = [quote]
  | part :: parts, cs => ∃ written rest,
      part.text s = String.ofList written ∧ cs = written ++ rest ∧
      (part.kind = .stringText ∧ quote ∉ written ∧ '\\' ∉ written ∨
        part.kind = .escape ∧ escapeLength? cs = some written.length) ∧
      IsStringRest s quote parts rest

/-! ### Nodes -/

/-- Whether a node may give a name to a function or value. -/
def NodeKind.bearsName (kind : NodeKind) : Bool := kind.isNamedFunction || kind.isBinding

namespace Node

/-- Whether a node is another one, or somewhere in it. -/
inductive Has : Node → Node → Prop
  | self (n : Node) : Has n n
  | inner {n c m : Node} (child : c ∈ n.children) (has : Has c m) : Has n m

/-- The characters of a node. -/
def written (chars : List Char) (n : Node) : List Char := (n.text ⟨chars, 0⟩).toList

/-- Whether a node is a word, or begins like a string, a number, or something in brackets. -/
def IsNaming (chars : List Char) (n : Node) : Prop :=
  Unbroken (n.written chars) ∨ ∃ c ∈ nameOpeners, (n.written chars).head? = some c

/-- What is relied on of each node in the tree of a script. -/
structure Sound (chars : List Char) (n : Node) : Prop where
  /-- A node begins behind some of the characters. -/
  start : n.start ∈ pointsFrom {} chars
  /-- A node ends behind some of the characters. -/
  stop : n.stop ∈ (pointsFrom {} chars).map Point.octet
  /-- The nodes in a node stand in it one behind the other. -/
  ordered : Ordered n.start.octet n.stop (n.children.map fun c => (c.start.octet, c.stop))
  /-- A template stands between quotes. -/
  quoted : n.kind = .template → ∃ text, n.written chars = '\x60' :: (text ++ ['\x60'])
  /-- Between the quotes of a template stands what is in it. -/
  between : n.kind = .template → ∀ c ∈ n.children, c.kind ≠ .operator →
    n.start.octet + 1 ≤ c.start.octet ∧ c.stop ≤ n.stop - 1
  /-- The brace of a hole stands behind what is in it. -/
  hole : n.kind = .hole → ∀ c ∈ n.children, c.kind ≠ .operator → c.stop < n.stop
  /-- A string consists of plain text and escapes. (That of an attribute of an element, which has no
  escapes, is a mere part.) -/
  string : n.kind = .string → ∃ quote rest, (quote = '\x27' ∨ quote = '\x22') ∧
    n.written chars = quote :: rest ∧
    IsStringRest ⟨chars, 0⟩ quote (n.children.filter fun child => child.kind != .operator) rest
  /-- A word goes over no end of a line. -/
  word : n.kind = .identifier → Unbroken (n.written chars)
  /-- A function or value is named by a word, unless its name begins like something else. -/
  name : n.kind.bearsName = true → ∀ c ∈ n.children, c.slot = .name → c.IsNaming chars

end Node

/-- A parser of scripts. -/
structure Parser where
  /-- The tree of a script, none if it is not well formed. -/
  read : List Char → Option Node
  sound : ∀ {chars : List Char} {tree n : Node},
    read chars = some tree → tree.Has n → n.Sound chars
  /-- No function is declared without a word for its name. -/
  named : ∀ {c : Char} {cs : List Char}, c ∈ nameOpeners → read (nameless c cs) = none

/-! ### Checked trees -/

/-- Whether spans are found to stand one behind the other. -/
def isOrdered (start stop : Nat) : List (Nat × Nat) → Bool
  | [] => start ≤ stop
  | span :: rest => start ≤ span.1 && span.1 ≤ span.2 && isOrdered span.2 stop rest

/-- Whether characters are found to be unbroken. -/
def isUnbroken (cs : List Char) : Bool := cs.all fun c => c != '\n' && c != '\x60'

/-- Whether nodes are found to be the rest of a string. -/
def isStringRest (s : Source) (quote : Char) : List Node → List Char → Bool
  | [], cs => cs == [quote]
  | part :: parts, cs =>
    let written := (part.text s).toList
    written.isPrefixOf cs &&
      (if part.kind == .escape then escapeLength? cs == some written.length
        else part.kind == .stringText && !written.contains quote && !written.contains '\\') &&
      isStringRest s quote parts (cs.drop written.length)

namespace Node

/-- Whether a node is found to be a template in quotes. -/
def isQuoted (chars : List Char) (n : Node) : Bool :=
  match n.written chars with
  | '\x60' :: rest => rest.getLast? == some '\x60'
  | _ => false

/-- Whether a node is found to be a string. -/
def isString (chars : List Char) (n : Node) : Bool :=
  match n.written chars with
  | quote :: rest => (quote == '\x27' || quote == '\x22') &&
    isStringRest ⟨chars, 0⟩ quote (n.children.filter fun child => child.kind != .operator) rest
  | [] => false

/-- Whether a node is found to be named by a word or by something else that is no word. -/
def isNaming (chars : List Char) (n : Node) : Bool :=
  isUnbroken (n.written chars) || (n.written chars).head?.any nameOpeners.contains

/-- Whether a node is found to be sound among the points of a script. -/
def isSound (points : List Point) (chars : List Char) (n : Node) : Bool :=
  (points.any fun p => p.octet == n.start.octet && p.row == n.start.row) &&
  (points.any fun p => p.octet == n.stop) &&
  isOrdered n.start.octet n.stop (n.children.map fun c => (c.start.octet, c.stop)) &&
  (n.kind != .template || (n.isQuoted chars && n.children.all fun c =>
    c.kind == .operator || (n.start.octet + 1 ≤ c.start.octet && c.stop ≤ n.stop - 1))) &&
  (n.kind != .hole || n.children.all fun c => c.kind == .operator || c.stop < n.stop) &&
  (n.kind != .string || n.isString chars) &&
  (n.kind != .identifier || isUnbroken (n.written chars)) &&
  (!n.kind.bearsName || n.children.all fun c => c.slot != .name || c.isNaming chars)

mutual

/-- Whether a check passes for a node and for each node in it. -/
def all (p : Node → Bool) : Node → Bool
  | ⟨kind, slot, start, stop, children⟩ => p ⟨kind, slot, start, stop, children⟩ && allOf p children

/-- Whether a check passes for each node in nodes. -/
def allOf (p : Node → Bool) : List Node → Bool
  | [] => Bool.true
  | node :: rest => node.all p && allOf p rest

end

theorem all_eq {p : Node → Bool} {n : Node} : n.all p = (p n && allOf p n.children) := by
  cases n
  rw [all]

theorem allOf_eq {p : Node → Bool} (nodes : List Node) : allOf p nodes = nodes.all (all p) := by
  induction nodes with
  | nil => rfl
  | cons node rest ih => rw [allOf, ih, List.all_cons]

/-- What is checked of a node, and of the nodes in it. -/
theorem all_iff {p : Node → Bool} {n : Node} :
    n.all p = Bool.true ↔ p n = Bool.true ∧ ∀ c ∈ n.children, c.all p = Bool.true := by
  rw [all_eq, allOf_eq, Bool.and_eq_true, List.all_eq_true]

theorem of_all {p : Node → Bool} {n m : Node} (passes : n.all p = Bool.true) (has : n.Has m) :
    p m = Bool.true := by
  induction has with
  | self => exact (all_iff.1 passes).1
  | inner child _ ih => exact ih ((all_iff.1 passes).2 _ child)

end Node

/-- Spans that are found to be ordered are. -/
theorem ordered_of_isOrdered {start stop : Nat} {spans : List (Nat × Nat)}
    (h : isOrdered start stop spans = true) : Ordered start stop spans := by
  induction spans generalizing start with
  | nil =>
    rw [isOrdered, decide_eq_true_eq] at h
    exact h
  | cons span rest ih =>
    simp only [isOrdered, Bool.and_eq_true, decide_eq_true_eq] at h
    exact ⟨h.1.1, h.1.2, ih h.2⟩

theorem unbroken_of_isUnbroken {cs : List Char} (h : isUnbroken cs = true) : Unbroken cs := by
  intro c mem
  simpa [isUnbroken] using List.all_eq_true.1 h c mem

/-- Nodes that are found to be the rest of a string are. -/
theorem isStringRest_sound {s : Source} {quote : Char} {parts : List Node} {cs : List Char}
    (h : isStringRest s quote parts cs = true) : IsStringRest s quote parts cs := by
  induction parts generalizing cs with
  | nil => exact eq_of_beq h
  | cons part parts ih =>
    simp only [isStringRest, Bool.and_eq_true] at h
    obtain ⟨⟨pre, kind⟩, rest⟩ := h
    obtain ⟨behind, rfl⟩ := List.isPrefixOf_iff_prefix.1 pre
    rw [List.drop_left] at rest
    refine ⟨(part.text s).toList, behind, String.ofList_toList.symm, rfl, ?_, ih rest⟩
    split at kind
    · next escape => exact .inr ⟨eq_of_beq escape, eq_of_beq kind⟩
    · simp only [Bool.and_eq_true, beq_iff_eq, Bool.not_eq_true', List.contains_eq_mem,
        decide_eq_false_iff_not] at kind
      exact .inl ⟨kind.1.1, kind.1.2, kind.2⟩

namespace Node

variable {chars : List Char} {n : Node}

theorem exists_of_isQuoted (h : n.isQuoted chars = true) :
    ∃ text, n.written chars = '\x60' :: (text ++ ['\x60']) := by
  unfold isQuoted at h
  split at h
  · next rest eq =>
    have last := eq_of_beq h
    obtain ⟨text, rfl⟩ := List.getLast?_eq_some_iff.1 last
    exact ⟨text, eq⟩
  · cases h

theorem exists_of_isString (h : n.isString chars = true) :
    ∃ quote rest, (quote = '\x27' ∨ quote = '\x22') ∧ n.written chars = quote :: rest ∧
      IsStringRest ⟨chars, 0⟩ quote (n.children.filter fun child => child.kind != .operator)
        rest := by
  unfold isString at h
  split at h
  · next quote rest eq =>
    rw [Bool.and_eq_true, Bool.or_eq_true, beq_iff_eq, beq_iff_eq] at h
    exact ⟨quote, rest, h.1, eq, isStringRest_sound h.2⟩
  · cases h

theorem isNaming_sound (h : n.isNaming chars = true) : n.IsNaming chars := by
  rw [isNaming, Bool.or_eq_true] at h
  refine h.imp unbroken_of_isUnbroken fun h => ?_
  obtain ⟨c, first, opener⟩ := (Option.any_eq_true _ _).1 h
  exact ⟨c, List.contains_iff_mem.1 opener, first⟩

/-- A node that is found to be sound is. -/
theorem sound_of_isSound (h : n.isSound (pointsFrom {} chars) chars = true) : n.Sound chars := by
  simp only [isSound, Bool.and_eq_true, Bool.or_eq_true, bne_iff_ne, Bool.not_eq_true',
    List.any_eq_true, List.all_eq_true, beq_iff_eq, decide_eq_true_eq] at h
  obtain ⟨⟨⟨⟨⟨⟨⟨start, stop⟩, ordered⟩, template⟩, hole⟩, string⟩, word⟩, name⟩ := h
  have template (kind : n.kind = .template) := template.resolve_left (absurd kind)
  refine ⟨?_, ?_, ordered_of_isOrdered ordered, fun kind => exists_of_isQuoted (template kind).1,
    fun kind c child other => ((template kind).2 c child).resolve_left other,
    fun kind c child other => (hole.resolve_left (absurd kind) c child).resolve_left other,
    fun kind => exists_of_isString (string.resolve_left (absurd kind)),
    fun kind => unbroken_of_isUnbroken (word.resolve_left (absurd kind)),
    fun bears c child slot => isNaming_sound ?_⟩
  · obtain ⟨p, mem, octet, row⟩ := start
    have same : p = n.start := by
      obtain ⟨_, _⟩ := p
      cases octet
      cases row
      rfl
    exact same ▸ mem
  · obtain ⟨p, mem, octet⟩ := stop
    exact List.mem_map.2 ⟨p, mem, octet⟩
  · exact (name.resolve_left (by simp [bears]) c child).resolve_left (absurd slot)

end Node

/-- Whether a script begins with a function whose name is no word. -/
def isNameless (chars : List Char) : Bool :=
  "function ".toList.isPrefixOf chars && (chars.drop 9).head?.any nameOpeners.contains

theorem isNameless_nameless {c : Char} {cs : List Char} (opener : c ∈ nameOpeners) :
    isNameless (nameless c cs) = true := by
  have first : (nameless c cs).drop 9 = c :: cs := rfl
  have contains : nameOpeners.contains c = true := List.contains_iff_mem.2 opener
  have begins : "function ".toList.isPrefixOf (nameless c cs) = true := rfl
  rw [isNameless, first, begins]
  exact contains

/-- The parser that gives those trees of a reader which are found to be sound. -/
def Parser.checked (read : List Char → Option Node) : Parser where
  read chars :=
    if isNameless chars then none
    else
      let points := pointsFrom {} chars
      (read chars).filter fun tree => tree.all (Node.isSound points chars)
  sound {chars tree n} h has := by
    split at h
    · cases h
    · exact Node.sound_of_isSound (Node.of_all (Option.filter_eq_some_iff.1 h).2 has)
  named opener := if_pos (isNameless_nameless opener)

/-- The parser that the reader at hand makes. -/
def parser : Parser := .checked read?

end ServerTemplate.Script
