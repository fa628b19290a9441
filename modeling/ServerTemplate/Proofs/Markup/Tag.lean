import ServerTemplate.Proofs.Markup.Amid

/-!
# Tags and the walk over them

A tag is a name, attributes, and the sign that ends it. `TagBody` is what stands behind the name:
attributes behind separators, with or without values, in quotes or not. The parts of a tag carry the
proofs that they are spelled as markup spells them. `TagBody.marked` marks every character with the
attribute whose value it belongs to, from the sign of equality on.

A cursor reads such a body as it is marked if it has passed a blank by then (`reads_attributes`).
Directly behind the name of the tag it takes everything up to the first blank for a part of that
name, so there it reads the body as it is marked if no attribute with a value is among what it takes
(`TagBody.reads`).
-/

namespace ServerTemplate.Markup

open MarkedText

/-! ### The grammar of tags -/

/-- White space in a tag. -/
def isTagSpace (c : Char) : Bool := ['\t', '\n', '\x0c', '\r', ' '].contains c

/-- What may stand between attributes. -/
def isSeparator (c : Char) : Bool := isTagSpace c || c == '/'

/-- A quote around a value. -/
def isQuote (c : Char) : Bool := c == '\x22' || c == '\x27'

/-- What may stand in the name of a tag. -/
def isTagNameChar (c : Char) : Bool := !isSeparator c && c != '>'

/-- What may stand in the name of an attribute. -/
def isAttributeNameChar (c : Char) : Bool := isTagNameChar c && c != '='

/-- What may stand in a value without quotes. -/
def isBareChar (c : Char) : Bool := !isTagSpace c && c != '>'

/-- The value of an attribute. -/
inductive AttributeValue where
  | quoted (quote : Char) (content : List Char) (marks : isQuote quote = true)
      (inside : quote ∉ content)
  | bare (first : Char) (rest : List Char) (unmarked : isQuote first = false)
      (inside : (first :: rest).all isBareChar = true)

namespace AttributeValue

/-- The value as far as it is open. -/
def opened : AttributeValue → List Char
  | quoted quote content _ _ => quote :: content
  | bare first rest _ _ => first :: rest

/-- The sign that closes the value. -/
def closing : AttributeValue → List Char
  | quoted quote _ _ _ => [quote]
  | bare .. => []

/-- The characters of a value without quotes. -/
def bareChars : AttributeValue → List Char
  | quoted .. => []
  | bare first rest _ _ => first :: rest

end AttributeValue

/-- What gives an attribute its value. -/
structure Assignment where
  before : List Char
  behind : List Char
  value : AttributeValue
  before_space : before.all isTagSpace = true
  behind_space : behind.all isTagSpace = true

/-- An attribute, with what separates it from what stands in front. -/
structure Attribute where
  gap : List Char
  name : List Char
  assignment : Option Assignment
  gap_ne_nil : gap ≠ []
  gap_separator : gap.all isSeparator = true
  name_ne_nil : name ≠ []
  name_char : name.all isAttributeNameChar = true

/-- An attribute in its text. -/
def Assignment.marked (s : Assignment) (name : String) : MarkedText :=
  mark none s.before ++ mark (some name) ('=' :: (s.behind ++ s.value.opened)) ++
    mark none s.value.closing

namespace Attribute

/-- What gives the attribute its value, marked with the attribute. -/
def value (a : Attribute) : MarkedText :=
  match a.assignment with
  | some s => s.marked (String.ofList a.name)
  | none => []

/-- The attribute in its text. -/
def marked (a : Attribute) : MarkedText := mark none (a.gap ++ a.name) ++ a.value

/-- Whether there is white space in front of the attribute. -/
def isSpaced (a : Attribute) : Bool := a.gap.any isTagSpace

/-- The characters of a value without quotes. -/
def bareValue (a : Attribute) : List Char := (a.assignment.map (·.value.bareChars)).getD []

/-- The characters that no quotes enclose. -/
def bareChars (a : Attribute) : List Char := a.name ++ a.bareValue

end Attribute

/-- What separates attributes, or else an ending, from what stands in front. -/
def gapBefore : List Attribute → List Char → List Char
  | [], ending => ending
  | a :: _, _ => a.gap

/-- Whether no slash follows a value without quotes. It would belong to the value. -/
def Apart : List Attribute → List Char → Prop
  | [], _ => True
  | a :: rest, ending =>
    (a.bareValue ≠ [] → (gapBefore rest ending).head? ≠ some '/') ∧ Apart rest ending

instance decidableApart : (attributes : List Attribute) → (ending : List Char) →
    Decidable (Apart attributes ending)
  | [], _ => inferInstanceAs (Decidable True)
  | _ :: rest, ending =>
    have := decidableApart rest ending
    inferInstanceAs (Decidable (_ ∧ _))

/-- What stands in a tag behind its name. -/
structure TagBody where
  attributes : List Attribute
  ending : List Char
  ending_separator : ending.all isSeparator = true
  apart : Apart attributes ending

/-- Attributes and the end of a tag in their text. -/
def markedBody (attributes : List Attribute) (ending : List Char) : MarkedText :=
  attributes.flatMap Attribute.marked ++ mark none (ending ++ ['>'])

theorem markedBody_nil (ending : List Char) : markedBody [] ending = mark none (ending ++ ['>']) :=
  rfl

theorem markedBody_cons (a : Attribute) (rest : List Attribute) (ending : List Char) :
    markedBody (a :: rest) ending =
      mark none a.gap ++ (mark none a.name ++ (a.value ++ markedBody rest ending)) := by
  rw [markedBody, List.flatMap_cons, Attribute.marked, mark_append, List.append_assoc,
    List.append_assoc, List.append_assoc, markedBody]

namespace TagBody

/-- The body in its text. -/
def marked (b : TagBody) : MarkedText := markedBody b.attributes b.ending

/-- The characters that no quotes enclose. -/
def bareChars (b : TagBody) : List Char := b.attributes.flatMap Attribute.bareChars

end TagBody

/-- Whether no attribute with a value is joined to the name of the tag, that is, stands in front of
all white space. -/
def Spaced : List Attribute → Prop
  | [] => True
  | a :: rest => a.isSpaced = true ∨ (a.assignment.isNone = true ∧ Spaced rest)

instance decidableSpaced : (attributes : List Attribute) → Decidable (Spaced attributes)
  | [] => inferInstanceAs (Decidable True)
  | _ :: rest =>
    have := decidableSpaced rest
    inferInstanceAs (Decidable (_ ∨ _))

/-! ### Characters -/

section Characters

variable {c : Char}

theorem isBlank_of_isTagSpace (h : isTagSpace c = true) : Text.isBlank c = true := by
  rw [isTagSpace, List.contains_iff_mem] at h
  simp only [List.mem_cons, List.not_mem_nil, or_false] at h
  rcases h with rfl | rfl | rfl | rfl | rfl <;> decide

theorem ne_end_of_isBlank (h : Text.isBlank c = true) : c ≠ '>' := by
  rintro rfl
  exact absurd h (by decide)

theorem isBlank_or_slash_of_isSeparator (h : isSeparator c = true) :
    Text.isBlank c = true ∨ c = '/' := by
  rw [isSeparator, Bool.or_eq_true, beq_iff_eq] at h
  exact h.imp_left isBlank_of_isTagSpace

theorem ne_of_isTagNameChar (h : isTagNameChar c = true) : c ≠ '/' ∧ c ≠ '>' := by
  rw [isTagNameChar, Bool.and_eq_true, Bool.not_eq_true', bne_iff_ne] at h
  refine ⟨?_, h.2⟩
  rintro rfl
  exact absurd h.1 (by decide)

theorem ne_of_isAttributeNameChar (h : isAttributeNameChar c = true) :
    c ≠ '/' ∧ c ≠ '>' ∧ c ≠ '=' := by
  rw [isAttributeNameChar, Bool.and_eq_true, bne_iff_ne] at h
  exact ⟨(ne_of_isTagNameChar h.1).1, (ne_of_isTagNameChar h.1).2, h.2⟩

theorem ne_end_of_isBareChar (h : isBareChar c = true) : c ≠ '>' := by
  rw [isBareChar, Bool.and_eq_true, bne_iff_ne] at h
  exact h.2

/-- The ASCII letters are not blank. -/
theorem not_isBlank_of_isAlpha (alpha : c.isAlpha = true) : Text.isBlank c = false := by
  have range : 0x41 ≤ c.toNat ∧ c.toNat ≤ 0x7A := by
    rcases Bool.or_eq_true_iff.mp alpha with upper | lower
    · have bounds : c.val ≥ 'A'.val ∧ c.val ≤ 'Z'.val := of_decide_eq_true upper
      have first := UInt32.le_iff_toNat_le.mp bounds.1
      have last := UInt32.le_iff_toNat_le.mp bounds.2
      exact ⟨first, Nat.le_trans last (by decide)⟩
    · have bounds := Bool.and_eq_true_iff.mp lower
      have first := UInt32.le_iff_toNat_le.mp (of_decide_eq_true bounds.1)
      have last := UInt32.le_iff_toNat_le.mp (of_decide_eq_true bounds.2)
      exact ⟨Nat.le_trans (by decide) first, last⟩
  have narrow : Text.isWideBlank c = false := by
    rw [Bool.eq_false_iff]
    intro wide
    rw [Text.isWideBlank, Bool.or_eq_true, List.contains_iff_mem] at wide
    rcases wide with wide | wide
    · simp only [List.mem_cons, List.not_mem_nil, or_false] at wide
      rcases wide with rfl | rfl | rfl | rfl | rfl | rfl | rfl | rfl <;>
        exact absurd range (by decide)
    · simp only [Bool.and_eq_true, decide_eq_true_eq] at wide
      omega
  simp only [Text.isBlank, narrow, Bool.or_false, Bool.or_eq_false_iff, Bool.and_eq_false_iff,
    decide_eq_false_iff_not]
  omega

end Characters

end ServerTemplate.Markup

namespace ServerTemplate.Cursor

open Markup MarkedText

/-! ### One character in a tag -/

section Advance

variable {k : Cursor} {c : Char} {rest : List Char}

/-- The end of a tag, outside quotes. -/
theorem advance_end (inside : k.inTag = true) (outside : k.state = .value → k.quote = none) :
    k.advance '>' rest = (k.closeTag, 0) := by
  unfold advance
  cases hstate : k.state with
  | text | comment | rawText => simp [inTag, hstate] at inside
  | value =>
    rw [outside hstate]
    rfl
  | _ => rfl

/-- A character of the name of a tag. -/
theorem advance_tagName (state : k.state = .tagName) (blank : Text.isBlank c = false)
    (ends : c ≠ '>') : k.advance c rest = ({ k with tag := k.tag.push c }, 0) := by
  simp [advance, state, blank, ends]

/-- A blank behind the name of a tag. -/
theorem advance_tagName_blank (state : k.state = .tagName) (blank : Text.isBlank c = true) :
    k.advance c rest = ({ k with state := .inTag }, 0) := by
  simp [advance, state, blank, ne_end_of_isBlank blank]

/-- A separator between attributes. -/
theorem advance_between (state : k.state = .inTag ∨ k.state = .afterAttributeName)
    (separator : Text.isBlank c = true ∨ c = '/') : k.advance c rest = (k, 0) := by
  have differ : c ≠ '>' ∧ c ≠ '=' := by
    rcases separator with blank | rfl
    · refine ⟨ne_end_of_isBlank blank, ?_⟩
      rintro rfl
      exact absurd blank (by decide)
    · decide
  rcases state with state | state <;> simp [advance, state, differ.1, differ.2, separator]

/-- The first character of the name of an attribute. -/
theorem advance_between_name (state : k.state = .inTag ∨ k.state = .afterAttributeName)
    (name : isAttributeNameChar c = true) (blank : Text.isBlank c = false) :
    k.advance c rest = ({ k with state := .attributeName, attr := c.toString }, 0) := by
  obtain ⟨slash, ends, equals⟩ := ne_of_isAttributeNameChar name
  rcases state with state | state <;> simp [advance, state, slash, ends, equals, blank]

/-- One more character of the name of an attribute. -/
theorem advance_attributeName (state : k.state = .attributeName)
    (name : isAttributeNameChar c = true) (blank : Text.isBlank c = false) :
    k.advance c rest = ({ k with attr := k.attr.push c }, 0) := by
  obtain ⟨slash, ends, equals⟩ := ne_of_isAttributeNameChar name
  simp [advance, state, slash, ends, equals, blank]

/-- A slash behind the name of an attribute. -/
theorem advance_attributeName_slash (state : k.state = .attributeName) :
    k.advance '/' rest = ({ k with state := .inTag }, 0) := by
  simp [advance, state]

/-- A blank behind the name of an attribute. -/
theorem advance_attributeName_blank (state : k.state = .attributeName)
    (blank : Text.isBlank c = true) :
    k.advance c rest = ({ k with state := .afterAttributeName }, 0) := by
  have differ : c ≠ '>' ∧ c ≠ '=' ∧ c ≠ '/' := by
    refine ⟨?_, ?_, ?_⟩ <;>
    · rintro rfl
      exact absurd blank (by decide)
  simp [advance, state, blank, differ]

/-- The sign of equality behind the name of an attribute. -/
theorem advance_equals
    (state : k.state = .attributeName ∨ k.state = .afterAttributeName) :
    k.advance '=' rest = ({ k with state := .beforeValue }, 0) := by
  rcases state with state | state <;> simp [advance, state]

/-- A blank in front of a value. -/
theorem advance_beforeValue_blank (state : k.state = .beforeValue)
    (blank : Text.isBlank c = true) : k.advance c rest = (k, 0) := by
  have differ : c ≠ '\x22' ∧ c ≠ '\x27' := by
    refine ⟨?_, ?_⟩ <;>
    · rintro rfl
      exact absurd blank (by decide)
  simp [advance, state, blank, ne_end_of_isBlank blank, differ]

/-- The quote in front of a value. -/
theorem advance_beforeValue_quote (state : k.state = .beforeValue) (quote : isQuote c = true) :
    k.advance c rest = ({ k with state := .value, quote := some c }, 0) := by
  rw [isQuote] at quote
  simp only [advance, state, quote, if_true]

/-- The first character of a value without quotes. -/
theorem advance_beforeValue_bare (state : k.state = .beforeValue) (quote : isQuote c = false)
    (ends : c ≠ '>') (blank : Text.isBlank c = false) :
    k.advance c rest = ({ k with state := .value, quote := none }, 0) := by
  rw [isQuote] at quote
  simp [advance, state, quote, ends, blank]

/-- A character of a value in quotes. -/
theorem advance_value_quoted {quote : Char} (state : k.state = .value)
    (quoted : k.quote = some quote) (inside : c ≠ quote) : k.advance c rest = (k, 0) := by
  simp [advance, state, quoted, inside]

/-- The quote behind a value. -/
theorem advance_value_quote (state : k.state = .value) (quoted : k.quote = some c) :
    k.advance c rest = ({ k with state := .inTag }, 0) := by
  simp [advance, state, quoted]

/-- A character of a value without quotes. -/
theorem advance_value_bare (state : k.state = .value) (quoted : k.quote = none) (ends : c ≠ '>')
    (blank : Text.isBlank c = false) : k.advance c rest = (k, 0) := by
  simp [advance, state, quoted, ends, blank]

/-- A blank behind a value without quotes. -/
theorem advance_value_blank (state : k.state = .value) (quoted : k.quote = none)
    (blank : Text.isBlank c = true) : k.advance c rest = ({ k with state := .inTag }, 0) := by
  simp [advance, state, quoted, blank, ne_end_of_isBlank blank]

end Advance

end ServerTemplate.Cursor

namespace ServerTemplate.Markup

open MarkedText

/-! ### Parts of a tag -/

/-- Whether a cursor stands between the attributes of a tag. -/
structure Between (k : Cursor) (tag : String) : Prop where
  state : k.state = .inTag ∨ k.state = .afterAttributeName
  tag_eq : k.tag = tag

/-- Whether a cursor stands behind a part of a tag, in front of a separator or the end. -/
structure AtGap (k : Cursor) (tag : String) (gap : List Char) : Prop where
  state : k.state = .inTag ∨ k.state = .attributeName ∨ k.state = .afterAttributeName ∨
    (k.state = .value ∧ k.quote = none ∧ gap.head? ≠ some '/')
  tag_eq : k.tag = tag

section Parts

variable {ys : List Char} {k : Cursor} {tag : String} {gap : List Char}

theorem Between.attributeName? (h : Between k tag) : k.attributeName? = none := by
  rcases h.state with state | state <;> simp [Cursor.attributeName?, Cursor.inAttribute, state]

theorem reads_separators (h : Between k tag)
    (separators : ∀ c ∈ gap, Text.isBlank c = true ∨ c = '/') : Reads ys k (mark none gap) k := by
  rw [← h.attributeName?]
  exact Reads.stays fun c hc _ => Cursor.advance_between h.state (separators c hc)

theorem reads_gap (ys : List Char) (h : AtGap k tag gap) (nonempty : gap ≠ [])
    (separators : ∀ c ∈ gap, isSeparator c = true) :
    ∃ k', Reads ys k (mark none gap) k' ∧ Between k' tag := by
  cases gap with
  | nil => exact (nonempty rfl).elim
  | cons c gap =>
    have separator (d : Char) (hd : d ∈ c :: gap) := isBlank_or_slash_of_isSeparator
      (separators d hd)
    have first := separator c List.mem_cons_self
    -- behind the first character the cursor is between attributes
    suffices hfirst : ∃ k', (∀ rest, k.advance c rest = (k', 0)) ∧ Between k' tag by
      obtain ⟨k', step, between⟩ := hfirst
      exact ⟨k', .cons (step _) between.attributeName?
        (reads_separators between fun d hd => separator d (List.mem_cons_of_mem c hd)), between⟩
    rcases h.state with state | state | state | ⟨state, bare, noSlash⟩
    · exact ⟨k, fun _ => Cursor.advance_between (.inl state) first, ⟨.inl state, h.tag_eq⟩⟩
    · rcases first with blank | rfl
      · exact ⟨_, fun _ => Cursor.advance_attributeName_blank state blank, ⟨.inr rfl, h.tag_eq⟩⟩
      · exact ⟨_, fun _ => Cursor.advance_attributeName_slash state, ⟨.inl rfl, h.tag_eq⟩⟩
    · exact ⟨k, fun _ => Cursor.advance_between (.inr state) first, ⟨.inr state, h.tag_eq⟩⟩
    · have blank : Text.isBlank c = true :=
        first.resolve_right fun slash => noSlash (by rw [slash]; rfl)
      exact ⟨_, fun _ => Cursor.advance_value_blank state bare blank, ⟨.inl rfl, h.tag_eq⟩⟩

/-- What is joined to the name of a tag. -/
theorem reads_tagName {cs : List Char} (state : k.state = .tagName)
    (plain : ∀ c ∈ cs, Text.isBlank c = false ∧ c ≠ '>') :
    Reads ys k (mark none cs) { k with tag := String.ofList (k.tag.toList ++ cs) } := by
  induction cs generalizing k with
  | nil =>
    rw [List.append_nil, String.ofList_toList]
    exact .nil k
  | cons c cs ih =>
    obtain ⟨blank, ends⟩ := plain c List.mem_cons_self
    refine .cons (Cursor.advance_tagName state blank ends) ?_ ?_
    · simp [Cursor.attributeName?, Cursor.inAttribute, state]
    · have rest := ih (k := { k with tag := k.tag.push c }) state
        fun d hd => plain d (List.mem_cons_of_mem c hd)
      rwa [String.toList_push, List.append_assoc] at rest

/-- The name of an attribute goes on. -/
theorem reads_attributeName_rest {cs : List Char} (state : k.state = .attributeName)
    (chars : ∀ c ∈ cs, isAttributeNameChar c = true)
    (unblank : ∀ c ∈ cs, Text.isBlank c = false) :
    Reads ys k (mark none cs) { k with attr := String.ofList (k.attr.toList ++ cs) } := by
  induction cs generalizing k with
  | nil =>
    rw [List.append_nil, String.ofList_toList]
    exact .nil k
  | cons c cs ih =>
    obtain ⟨char, chars⟩ := List.forall_mem_cons.mp chars
    obtain ⟨unblank_head, unblank⟩ := List.forall_mem_cons.mp unblank
    refine .cons (Cursor.advance_attributeName state char unblank_head) ?_ ?_
    · simp [Cursor.attributeName?, Cursor.inAttribute, state]
    · have rest := ih (k := { k with attr := k.attr.push c }) state chars unblank
      rwa [String.toList_push, List.append_assoc] at rest

/-- The name of an attribute between others. -/
theorem reads_attributeName {name : List Char} (h : Between k tag) (nonempty : name ≠ [])
    (chars : ∀ c ∈ name, isAttributeNameChar c = true)
    (unblank : ∀ c ∈ name, Text.isBlank c = false) :
    Reads ys k (mark none name)
      { k with state := .attributeName, attr := String.ofList name } := by
  cases name with
  | nil => exact (nonempty rfl).elim
  | cons c cs =>
    obtain ⟨char, chars⟩ := List.forall_mem_cons.mp chars
    obtain ⟨unblank_head, unblank⟩ := List.forall_mem_cons.mp unblank
    have rest : Reads ys { k with state := .attributeName, attr := c.toString } (mark none cs)
        { k with state := .attributeName, attr := String.ofList (c.toString.toList ++ cs) } :=
      reads_attributeName_rest rfl chars unblank
    rw [show c.toString.toList ++ cs = c :: cs by simp [Char.toString]] at rest
    exact .cons (Cursor.advance_between_name h.state char unblank_head) rfl rest

/-- White space between the name of an attribute and the sign of equality. -/
theorem reads_before (ys : List Char) {before : List Char} (state : k.state = .attributeName)
    (space : ∀ c ∈ before, isTagSpace c = true) :
    ∃ k', Reads ys k (mark none before) k' ∧
      (k'.state = .attributeName ∨ k'.state = .afterAttributeName) ∧ k'.attr = k.attr ∧
      k'.tag = k.tag := by
  cases before with
  | nil => exact ⟨k, .nil k, .inl state, rfl, rfl⟩
  | cons c before =>
    obtain ⟨first, space⟩ := List.forall_mem_cons.mp space
    refine ⟨{ k with state := .afterAttributeName }, ?_, .inr rfl, rfl, rfl⟩
    refine .cons (Cursor.advance_attributeName_blank state (isBlank_of_isTagSpace first)) rfl ?_
    exact reads_separators ⟨.inr rfl, rfl⟩ fun d hd => .inl (isBlank_of_isTagSpace (space d hd))

/-- White space between the sign of equality and a value belongs to the value. -/
theorem reads_behind {behind : List Char} (state : k.state = .beforeValue)
    (space : ∀ c ∈ behind, isTagSpace c = true) :
    Reads ys k (mark (some k.attr) behind) k := by
  have shown : k.attributeName? = some k.attr := by
    simp [Cursor.attributeName?, Cursor.inAttribute, state]
  rw [← shown]
  exact Reads.stays fun c hc _ =>
    Cursor.advance_beforeValue_blank state (isBlank_of_isTagSpace (space c hc))

/-- A value is read with the name of its attribute. -/
theorem reads_value (ys : List Char) (v : AttributeValue) (state : k.state = .beforeValue)
    (unblank : ∀ c ∈ v.bareChars, Text.isBlank c = false)
    (apart : v.bareChars ≠ [] → gap.head? ≠ some '/') :
    ∃ k', Reads ys k (mark (some k.attr) v.opened ++ mark none v.closing) k' ∧
      AtGap k' k.tag gap := by
  cases v with
  | quoted quote content marks outside =>
    let inside : Cursor := { k with state := .value, quote := some quote }
    have content_reads (ys : List Char) : Reads ys inside (mark (some k.attr) content) inside := by
      refine Reads.stays (k := inside) fun c hc _ => Cursor.advance_value_quoted rfl rfl ?_
      rintro rfl
      exact outside hc
    refine ⟨{ inside with state := .inTag }, ?_, ⟨.inl rfl, rfl⟩⟩
    refine .cons (Cursor.advance_beforeValue_quote state marks) rfl ?_
    exact (content_reads _).append (.single (Cursor.advance_value_quote rfl rfl) rfl)
  | bare first rest unmarked chars =>
    let inside : Cursor := { k with state := .value, quote := none }
    have plain (c : Char) (hc : c ∈ first :: rest) : c ≠ '>' ∧ Text.isBlank c = false :=
      ⟨ne_end_of_isBareChar (List.all_eq_true.mp chars c hc), unblank c hc⟩
    obtain ⟨⟨ends, unblank⟩, plain⟩ := List.forall_mem_cons.mp plain
    have rest_reads : Reads ys inside (mark (some k.attr) rest) inside :=
      Reads.stays (k := inside) fun c hc _ =>
        Cursor.advance_value_bare rfl rfl (plain c hc).1 (plain c hc).2
    refine ⟨inside, ?_, ⟨.inr (.inr (.inr ⟨rfl, rfl, apart (List.cons_ne_nil _ _)⟩)), rfl⟩⟩
    rw [AttributeValue.closing, mark_nil, List.append_nil]
    exact .cons (Cursor.advance_beforeValue_bare state unmarked ends unblank) rfl rest_reads

/-- What gives an attribute its value is read with the name of the attribute. -/
theorem reads_assignment (ys : List Char) (s : Assignment) (state : k.state = .attributeName)
    (unblank : ∀ c ∈ s.value.bareChars, Text.isBlank c = false)
    (apart : s.value.bareChars ≠ [] → gap.head? ≠ some '/') :
    ∃ k', Reads ys k (s.marked k.attr) k' ∧ AtGap k' k.tag gap := by
  obtain ⟨k₁, first, hstate, hattr, htag⟩ := reads_before
    (text (mark (some k.attr) ('=' :: (s.behind ++ s.value.opened)) ++
      mark none s.value.closing) ++ ys) state (List.all_eq_true.mp s.before_space)
  have space (ys : List Char) : Reads ys { k₁ with state := .beforeValue }
      (mark (some k₁.attr) s.behind) { k₁ with state := .beforeValue } :=
    reads_behind rfl (List.all_eq_true.mp s.behind_space)
  obtain ⟨k', last, atGap⟩ := reads_value ys (k := { k₁ with state := .beforeValue }) s.value rfl
    unblank apart
  refine ⟨k', ?_, htag ▸ atGap⟩
  rw [Assignment.marked, List.append_assoc]
  refine first.append ?_
  rw [mark_cons, mark_append, ← hattr, List.cons_append, List.append_assoc]
  exact .cons (Cursor.advance_equals hstate) rfl ((space _).append last)

end Parts

end ServerTemplate.Markup

namespace ServerTemplate.Markup

open MarkedText

/-! ### Attributes -/

/-- What the cursor joins to the name of a tag, of the text behind that name. -/
def joined (cs : List Char) : List Char := cs.takeWhile fun c => !Text.isBlank c && c != '>'

theorem joined_append {xs ys : List Char} (plain : ∀ c ∈ xs, Text.isBlank c = false ∧ c ≠ '>') :
    joined (xs ++ ys) = xs ++ joined ys := by
  refine List.takeWhile_append_of_pos fun c hc => ?_
  rw [Bool.and_eq_true, Bool.not_eq_true', bne_iff_ne]
  exact plain c hc

theorem joined_slash (cs : List Char) : joined ('/' :: cs) = '/' :: joined cs :=
  List.takeWhile_cons_of_pos (by decide)

theorem joined_cons_stop {c : Char} {cs : List Char} (stop : Text.isBlank c = true ∨ c = '>') :
    joined (c :: cs) = [] := by
  refine List.takeWhile_cons_of_neg ?_
  rcases stop with blank | rfl
  · simp [blank]
  · decide

/-- A separator that is no white space is a slash. -/
theorem eq_slash_of_isSeparator {c : Char} (separator : isSeparator c = true)
    (space : isTagSpace c = false) : c = '/' := by
  rwa [isSeparator, space, Bool.false_or, beq_iff_eq] at separator

/-- A gap without white space is joined to the name of a tag. -/
theorem plain_of_separators {gap : List Char} (separators : ∀ c ∈ gap, isSeparator c = true)
    (spaced : gap.any isTagSpace = false) : ∀ c ∈ gap, Text.isBlank c = false ∧ c ≠ '>' := by
  intro c hc
  have space := Bool.eq_false_iff.mpr (List.any_eq_false.mp spaced c hc)
  obtain rfl := eq_slash_of_isSeparator (separators c hc) space
  decide

/-- An attribute behind slashes is joined to the name of a tag, as far as its name. -/
theorem Attribute.plain_of_tight {a : Attribute} (tight : a.isSpaced = false)
    (unblank : ∀ c ∈ a.bareChars, Text.isBlank c = false) :
    ∀ c ∈ a.gap ++ a.name, Text.isBlank c = false ∧ c ≠ '>' := by
  intro c hc
  rcases List.mem_append.mp hc with hc | hc
  · exact plain_of_separators (List.all_eq_true.mp a.gap_separator) tight c hc
  · have char := List.all_eq_true.mp a.name_char c hc
    exact ⟨unblank c (List.mem_append_left _ hc), (ne_of_isAttributeNameChar char).2.1⟩

section Attributes

variable {ys : List Char} {k : Cursor} {tag : String} {gap : List Char}

/-- A gap with white space ends the name of a tag. -/
theorem reads_gap_of_tagName (ys : List Char) (state : k.state = .tagName)
    (separators : ∀ c ∈ gap, isSeparator c = true) (spaced : gap.any isTagSpace = true)
    (behind : List Char) :
    ∃ k', Reads ys k (mark none gap) k' ∧
      Between k' (String.ofList (k.tag.toList ++ joined (gap ++ behind))) := by
  induction gap generalizing k with
  | nil => cases spaced
  | cons c gap ih =>
    have separators_rest (d : Char) (hd : d ∈ gap) := separators d (List.mem_cons_of_mem c hd)
    cases space : isTagSpace c with
    | true =>
      have blank := isBlank_of_isTagSpace space
      have between : Between { k with state := .inTag } k.tag := ⟨.inl rfl, rfl⟩
      rw [List.cons_append, joined_cons_stop (.inl blank), List.append_nil, String.ofList_toList]
      have rest : Reads ys { k with state := .inTag } (mark none gap) _ :=
        reads_separators between fun d hd => isBlank_or_slash_of_isSeparator (separators_rest d hd)
      exact ⟨_, .cons (Cursor.advance_tagName_blank state blank) between.attributeName? rest,
        between⟩
    | false =>
      obtain rfl := eq_slash_of_isSeparator (separators c List.mem_cons_self) space
      have spaced_rest : gap.any isTagSpace = true := by rwa [List.any_cons, space] at spaced
      obtain ⟨k', rest, between⟩ :=
        ih (k := { k with tag := k.tag.push '/' }) state separators_rest spaced_rest
      refine ⟨k', .cons (Cursor.advance_tagName state (by decide) (by decide)) ?_ rest, ?_⟩
      · simp [Cursor.attributeName?, Cursor.inAttribute, state]
      · rw [List.cons_append, joined_slash]
        rwa [String.toList_push, List.append_assoc] at between

/-- An attribute behind its gap. -/
theorem reads_attribute (ys : List Char) (a : Attribute) (h : Between k tag)
    (unblank : ∀ c ∈ a.bareChars, Text.isBlank c = false)
    (apart : a.bareValue ≠ [] → gap.head? ≠ some '/') :
    ∃ k', Reads ys k (mark none a.name ++ a.value) k' ∧ AtGap k' tag gap := by
  have name (ys : List Char) : Reads ys k (mark none a.name)
      { k with state := .attributeName, attr := String.ofList a.name } :=
    reads_attributeName h a.name_ne_nil (List.all_eq_true.mp a.name_char) fun c hc =>
      unblank c (List.mem_append_left _ hc)
  have inside (c : Char) (hc : c ∈ a.bareValue) := unblank c (List.mem_append_right _ hc)
  rw [Attribute.bareValue] at inside apart
  rw [Attribute.value]
  cases hs : a.assignment with
  | none =>
    rw [List.append_nil]
    exact ⟨_, name ys, ⟨.inr (.inl rfl), h.tag_eq⟩⟩
  | some s =>
    rw [hs] at inside apart
    obtain ⟨k', value, atGap⟩ := reads_assignment ys
      (k := { k with state := .attributeName, attr := String.ofList a.name }) s rfl inside apart
    exact ⟨k', (name _).append value, h.tag_eq ▸ atGap⟩

/-- The sign that ends a tag. -/
theorem reads_close (inside : k.inTag = true) (outside : k.state = .value → k.quote = none) :
    Reads ys k (mark none ['>']) k.closeTag := by
  refine .single (Cursor.advance_end inside outside) ?_
  unfold Cursor.closeTag
  split <;> rfl

theorem Between.close (h : Between k tag) : Reads ys k (mark none ['>']) k.closeTag := by
  refine reads_close ?_ ?_ <;> rcases h.state with state | state <;> simp [Cursor.inTag, state]

/-- The end of a tag with the separators in front of it. -/
theorem reads_ending (ys : List Char) {ending : List Char} (h : AtGap k tag ending)
    (separators : ∀ c ∈ ending, isSeparator c = true) :
    ∃ k' : Cursor, Reads ys k (mark none (ending ++ ['>'])) k'.closeTag ∧ k'.tag = tag := by
  cases ending with
  | nil =>
    refine ⟨k, reads_close ?_ ?_, h.tag_eq⟩ <;>
      rcases h.state with state | state | state | ⟨state, bare, -⟩ <;>
      simp_all [Cursor.inTag]
  | cons c cs =>
    obtain ⟨k', gap, between⟩ := reads_gap (text (mark none ['>']) ++ ys) h
      (List.cons_ne_nil c cs) separators
    rw [mark_append]
    exact ⟨k', gap.append between.close, between.tag_eq⟩

/-- Attributes are read with their names, up to the end of the tag. -/
theorem reads_attributes (ys : List Char) {attributes : List Attribute} {ending : List Char}
    (h : AtGap k tag (gapBefore attributes ending)) (apart : Apart attributes ending)
    (separators : ∀ c ∈ ending, isSeparator c = true)
    (unblank : ∀ a ∈ attributes, ∀ c ∈ a.bareChars, Text.isBlank c = false) :
    ∃ k' : Cursor, Reads ys k (markedBody attributes ending) k'.closeTag ∧ k'.tag = tag := by
  induction attributes generalizing k with
  | nil => exact reads_ending ys h separators
  | cons a rest ih =>
    obtain ⟨unblank_head, unblank⟩ := List.forall_mem_cons.mp unblank
    obtain ⟨k₁, gap, between⟩ := reads_gap
      (text (mark none a.name ++ (a.value ++ markedBody rest ending)) ++ ys) h a.gap_ne_nil
      (List.all_eq_true.mp a.gap_separator)
    obtain ⟨k₂, first, atGap⟩ := reads_attribute (text (markedBody rest ending) ++ ys) a between
      unblank_head apart.1
    obtain ⟨k', others, tag_eq⟩ := ih atGap apart.2 unblank
    have walk := first.append others
    rw [List.append_assoc] at walk
    rw [markedBody_cons]
    exact ⟨k', gap.append walk, tag_eq⟩

/-- Attributes and the end of a tag, directly behind the name of the tag. -/
theorem reads_joined (ys : List Char) {attributes : List Attribute} {ending : List Char}
    (state : k.state = .tagName) (spaced : Spaced attributes) (apart : Apart attributes ending)
    (separators : ∀ c ∈ ending, isSeparator c = true)
    (unblank : ∀ a ∈ attributes, ∀ c ∈ a.bareChars, Text.isBlank c = false) :
    ∃ k' : Cursor, Reads ys k (markedBody attributes ending) k'.closeTag ∧
      k'.tag = String.ofList (k.tag.toList ++ joined (text (markedBody attributes ending))) := by
  induction attributes generalizing k with
  | nil =>
    rw [markedBody_nil, text_mark]
    cases space : ending.any isTagSpace with
    | true =>
      obtain ⟨k', gap, between⟩ := reads_gap_of_tagName (text (mark none ['>']) ++ ys)
        state separators space ['>']
      rw [mark_append]
      exact ⟨k', gap.append between.close, between.tag_eq⟩
    | false =>
      have plain := plain_of_separators separators space
      rw [mark_append, joined_append plain, joined_cons_stop (.inr rfl), List.append_nil]
      refine ⟨_, (reads_tagName state plain).append (reads_close ?_ ?_), rfl⟩ <;>
        simp [Cursor.inTag, state]
  | cons a rest ih =>
    obtain ⟨unblank_head, unblank⟩ := List.forall_mem_cons.mp unblank
    rw [markedBody_cons]
    cases space : a.isSpaced with
    | true =>
      -- the white space ends the name, and all attributes are read
      obtain ⟨k₁, gap, between⟩ := reads_gap_of_tagName
        (text (mark none a.name ++ (a.value ++ markedBody rest ending)) ++ ys) state
        (List.all_eq_true.mp a.gap_separator) space
        (text (mark none a.name ++ (a.value ++ markedBody rest ending)))
      obtain ⟨k₂, first, atGap⟩ := reads_attribute (text (markedBody rest ending) ++ ys) a
        between unblank_head apart.1
      obtain ⟨k', others, tag_eq⟩ := reads_attributes ys atGap apart.2 separators unblank
      have walk := first.append others
      rw [List.append_assoc] at walk
      refine ⟨k', gap.append walk, ?_⟩
      rw [tag_eq, text_append (mark none a.gap), text_mark none a.gap]
    | false =>
      -- the attribute has no value and becomes a part of the name
      obtain ⟨bare, spaced⟩ := spaced.resolve_left (by simp [space])
      have value : a.value = [] := by
        rw [Attribute.value, Option.isNone_iff_eq_none.mp bare]
      have plain := Attribute.plain_of_tight space unblank_head
      obtain ⟨k', behind, tag_eq⟩ := ih
        (k := { k with tag := String.ofList (k.tag.toList ++ (a.gap ++ a.name)) })
        state spaced apart.2 unblank
      rw [value, List.nil_append, ← List.append_assoc, ← mark_append]
      refine ⟨k', (reads_tagName state plain).append behind, ?_⟩
      rw [tag_eq, text_append, text_mark, joined_append plain, String.toList_ofList,
        List.append_assoc]

end Attributes

/-- A tag in which no attribute with a value is joined to the name is read as it is marked. -/
theorem TagBody.reads (ys : List Char) {k : Cursor} (b : TagBody) (state : k.state = .tagName)
    (spaced : Spaced b.attributes) (unblank : ∀ c ∈ b.bareChars, Text.isBlank c = false) :
    ∃ k' : Cursor, Reads ys k b.marked k'.closeTag ∧
      k'.tag = String.ofList (k.tag.toList ++ joined (text b.marked)) :=
  reads_joined ys state spaced b.apart (List.all_eq_true.mp b.ending_separator) fun a ha c hc =>
    unblank c (List.mem_flatMap.mpr ⟨a, ha, hc⟩)

end ServerTemplate.Markup
