import ServerTemplate.Proofs.Markup.Lookahead
import ServerTemplate.Proofs.Markup.StartTag

/-!
# Raw text

Behind the start tag of an element with raw text a cursor waits for the end tag of that element.
What it looks for is the mark of an end tag and the name, in any letter case (`MentionsEnd`), and
not what follows the name: a longer name that begins in the same way, which markup takes for raw
text, ends it as well.

A text is walked as raw text if and only if it mentions no end tag in this way. At the end tag
behind such a text the cursor leaves the raw text, and it is in text behind the end tag
(`StartTag.rawText`).
-/

namespace ServerTemplate.Markup

open MarkedText

/-- Whether the mark of an end tag and the name of the element, in any letter case, are in a
text. -/
def MentionsEnd (element : String) (cs : List Char) : Prop :=
  ∃ front word behind, cs = front ++ word ++ behind ∧
    word.map Char.toLower = "</".toList ++ element.toList

/-- Whether an end tag of the element begins in a text: behind the name is a separator, or the end
of the tag. -/
def HasEndTag (element : String) (cs : List Char) : Prop :=
  ∃ front word c behind, cs = front ++ word ++ c :: behind ∧
    word.map Char.toLower = "</".toList ++ element.toList ∧ (isSeparator c = true ∨ c = '>')

/-- An end tag of an element. -/
structure EndTag (element : String) where
  name : List Char
  body : TagBody
  name_lower : name.map Char.toLower = element.toList

namespace EndTag

variable {element : String}

/-- The tag in its text. -/
def text (e : EndTag element) : List Char := '<' :: '/' :: (e.name ++ e.body.marked.text)

end EndTag

/-- Whether a cursor is in raw text, where no attribute and no tag is open. -/
structure InRawText (k : Cursor) : Prop where
  state : k.state = .rawText
  attributeName? : k.attributeName? = none
  inTag : k.inTag = false

theorem inRawText_iff {k : Cursor} : InRawText k ↔ k.state = .rawText := by
  refine ⟨InRawText.state, fun state => ⟨state, ?_, ?_⟩⟩
  · simp [Cursor.attributeName?, Cursor.inAttribute, state]
  · simp [Cursor.inTag, state]

/-! ### Names of elements with raw text -/

section Names

variable {element : String}

/-- The names have no mark of a tag in them. -/
theorem no_mark (raw : element ∈ Cursor.rawTextElements) : '<' ∉ element.toList := by
  have names : ∀ e ∈ Cursor.rawTextElements, '<' ∉ e.toList := by decide
  exact names element raw

/-- A name in any letter case belongs to the name of a tag. -/
theorem plain_of_lower (raw : element ∈ Cursor.rawTextElements) {name : List Char}
    (lower : name.map Char.toLower = element.toList) :
    ∀ c ∈ name, Text.isBlank c = false ∧ c ≠ '>' := by
  intro c hc
  have inside : c.toLower ∈ element.toList := lower ▸ List.mem_map_of_mem hc
  have names : ∀ e ∈ Cursor.rawTextElements, e.toList.all Char.isAlpha = true := by decide
  have letter := List.all_eq_true.mp (names element raw) _ inside
  cases upper : c.isUpper with
  | true =>
    have alpha : c.isAlpha = true := Bool.or_eq_true_iff.mpr (.inl upper)
    refine ⟨not_isBlank_of_isAlpha alpha, ?_⟩
    rintro rfl
    exact absurd alpha (by decide)
  | false =>
    have same : c.toLower = c := dif_neg (of_decide_eq_false upper)
    rw [same] at letter
    refine ⟨not_isBlank_of_isAlpha letter, ?_⟩
    rintro rfl
    exact absurd letter (by decide)

end Names

/-! ### Looking for the end tag -/

section Search

variable {element : String}

/-- An end tag begins a text with the word that is looked for. -/
theorem startsEndTag_iff {cs : List Char} :
    Cursor.startsEndTag element cs = true ↔ ∃ word behind, cs = word ++ behind ∧
      word.map Char.toLower = "</".toList ++ element.toList := by
  rw [Cursor.startsEndTag, List.isPrefixOf_iff_prefix]
  constructor
  · rintro ⟨behind, h⟩
    obtain ⟨word, behind, rfl, hword, -⟩ := List.map_eq_append_iff.mp h.symm
    exact ⟨word, behind, rfl, hword⟩
  · rintro ⟨word, behind, rfl, hword⟩
    rw [List.map_append, hword]
    exact List.prefix_append _ _

/-- An end tag is mentioned in a text if it begins somewhere in it. -/
theorem mentionsEnd_of_suffix {cs front behind : List Char} (h : cs = front ++ behind)
    (starts : Cursor.startsEndTag element behind = true) : MentionsEnd element cs := by
  obtain ⟨word, behind, rfl, hword⟩ := startsEndTag_iff.mp starts
  exact ⟨front, word, behind, by rw [h, List.append_assoc], hword⟩

instance decidableMentionsEnd (element : String) (cs : List Char) :
    Decidable (MentionsEnd element cs) :=
  decidable_of_iff (∃ rest ∈ cs.tails, Cursor.startsEndTag element rest = true) <| by
    constructor
    · rintro ⟨rest, hrest, starts⟩
      obtain ⟨front, rfl⟩ := (List.mem_tails ..).mp hrest
      exact mentionsEnd_of_suffix rfl starts
    · rintro ⟨front, word, behind, rfl, hword⟩
      exact ⟨word ++ behind, (List.mem_tails ..).mpr ⟨front, (List.append_assoc ..).symm⟩,
        startsEndTag_iff.mpr ⟨word, behind, rfl, hword⟩⟩

instance decidableHasEndTag (element : String) (cs : List Char) :
    Decidable (HasEndTag element cs) :=
  decidable_of_iff (∃ rest ∈ cs.tails, Cursor.startsEndTag element rest = true ∧
      (rest.drop (element.toList.length + 2)).head?.any (fun c => isSeparator c || c == '>') =
        true) <| by
    have length {word : List Char} (h : word.map Char.toLower = "</".toList ++ element.toList) :
        element.toList.length + 2 = word.length := by
      have same := congrArg List.length h
      rw [List.length_map, List.length_append] at same
      exact (Nat.add_comm ..).trans same.symm
    constructor
    · rintro ⟨rest, hrest, starts, ends⟩
      obtain ⟨front, rfl⟩ := (List.mem_tails ..).mp hrest
      obtain ⟨word, behind, rfl, hword⟩ := startsEndTag_iff.mp starts
      rw [length hword, List.drop_left] at ends
      cases behind with
      | nil => cases ends
      | cons c behind =>
        refine ⟨front, word, c, behind, (List.append_assoc ..).symm, hword, ?_⟩
        rwa [List.head?_cons, Option.any_some, Bool.or_eq_true, beq_iff_eq] at ends
    · rintro ⟨front, word, c, behind, rfl, hword, ends⟩
      refine ⟨word ++ c :: behind, (List.mem_tails ..).mpr ⟨front, by simp⟩,
        startsEndTag_iff.mpr ⟨word, c :: behind, rfl, hword⟩, ?_⟩
      rwa [length hword, List.drop_left, List.head?_cons, Option.any_some, Bool.or_eq_true,
        beq_iff_eq]

theorem mentionsEnd_cons {c : Char} {cs : List Char} (h : MentionsEnd element (c :: cs)) :
    Cursor.startsEndTag element (c :: cs) = true ∨ MentionsEnd element cs := by
  obtain ⟨front, word, behind, hcs, hword⟩ := h
  cases front with
  | nil => exact .inl (startsEndTag_iff.mpr ⟨word, behind, hcs, hword⟩)
  | cons d front =>
    cases hcs
    exact .inr ⟨front, word, behind, rfl, hword⟩

/-- A text that mentions no end tag has none cut at the mark that follows it. -/
theorem not_startsEndTag_append (raw : element ∈ Cursor.rawTextElements) {c : Char}
    {rest ys : List Char} (none_inside : Cursor.startsEndTag element (c :: rest) = false) :
    Cursor.startsEndTag element (c :: rest ++ '<' :: ys) = false := by
  rw [Bool.eq_false_iff, ne_eq, Cursor.startsEndTag, List.isPrefixOf_iff_prefix] at none_inside ⊢
  intro across
  rw [List.map_append] at across
  rcases prefix_append_cases across with inside | ⟨q, hq, hword, hprefix⟩
  · exact none_inside inside
  · -- the rest of the word would begin with the mark
    obtain ⟨d, q, rfl⟩ := List.exists_cons_of_ne_nil hq
    rw [List.map_cons, List.cons_prefix_cons] at hprefix
    obtain ⟨hd, -⟩ := hprefix
    rw [List.map_cons, List.cons_append] at hword
    have behind : '/' :: element.toList = rest.map Char.toLower ++ d :: q :=
      (List.cons.inj hword).2
    have member : '<' ∈ '/' :: element.toList := by
      rw [behind, hd]
      exact List.mem_append_right _ List.mem_cons_self
    rcases List.mem_cons.mp member with h | h
    · exact absurd h (by decide)
    · exact no_mark raw h

/-- A text that mentions no end tag is walked as raw text, also in front of the mark of a tag. -/
theorem reads_rawText (ys : List Char) {k : Cursor} {cs : List Char} (state : k.state = .rawText)
    (raw : k.tag ∈ Cursor.rawTextElements) (none_inside : ¬ MentionsEnd k.tag cs)
    (next : ys = [] ∨ ys.head? = some '<') : Reads ys k (mark none cs) k := by
  induction cs with
  | nil => exact .nil k
  | cons c rest ih =>
    have here : Cursor.startsEndTag k.tag (c :: rest) = false := by
      rw [Bool.eq_false_iff]
      exact fun starts => none_inside (mentionsEnd_of_suffix (List.nil_append _).symm starts)
    have across : Cursor.startsEndTag k.tag (c :: (rest ++ ys)) = false := by
      rcases next with rfl | next
      · rwa [List.append_nil]
      · obtain ⟨ys, rfl⟩ := List.head?_eq_some_iff.mp next
        exact not_startsEndTag_append raw here
    rw [mark_cons]
    refine .cons ?_ (inRawText_iff.mpr state).attributeName? (ih fun h => none_inside ?_)
    · rw [text_mark, Cursor.advance, state]
      simp only [across]
      rfl
    · obtain ⟨front, word, behind, rfl, hword⟩ := h
      exact ⟨c :: front, word, behind, rfl, hword⟩

/-- At the word that is looked for the cursor leaves raw text and reads the name of a tag. -/
theorem walk_endTag_word {k : Cursor} {c d : Char} {name : List Char} (state : k.state = .rawText)
    (raw : k.tag ∈ Cursor.rawTextElements)
    (hword : (c :: d :: name).map Char.toLower = "</".toList ++ k.tag.toList) (ys : List Char) :
    k.amid (c :: d :: name) ys =
        { k with state := .tagName, tag := String.ofList ('/' :: name) } ∧
      k.feed (c :: d :: name ++ ys) =
        Cursor.feed { k with state := .tagName, tag := String.ofList ('/' :: name) } ys := by
  have starts : Cursor.startsEndTag k.tag (c :: d :: (name ++ ys)) = true :=
    startsEndTag_iff.mpr ⟨c :: d :: name, ys, rfl, hword⟩
  -- the mark is passed in one step
  have step : k.advance c (d :: (name ++ ys)) = ({ k with state := .tagName, tag := "/" }, 1) := by
    rw [Cursor.advance, state]
    simp only [starts]
    rfl
  have hname : name.map Char.toLower = k.tag.toList := by
    have behind := congrArg (List.drop 2) hword
    exact behind
  have walk : Reads ys { k with state := .tagName, tag := "/" } (mark none name)
      { k with state := .tagName, tag := String.ofList ("/".toList ++ name) } :=
    reads_tagName rfl (plain_of_lower raw hname)
  rw [show "/".toList = ['/'] by decide, List.singleton_append] at walk
  have place := walk.amid
  have feed := walk.feed
  rw [text_mark] at place feed
  constructor
  · rw [Cursor.amid, Cursor.amidFrom, List.cons_append, step]
    exact place
  · rw [List.cons_append, List.cons_append, Cursor.feed_cons, step]
    exact feed

/-- Behind the word that is looked for the cursor is in the name of a tag. -/
theorem feed_endTag_word {k : Cursor} {word : List Char} (state : k.state = .rawText)
    (raw : k.tag ∈ Cursor.rawTextElements)
    (hword : word.map Char.toLower = "</".toList ++ k.tag.toList) :
    (k.feed word).state = .tagName := by
  obtain ⟨mark, name, rfl, hmark, -⟩ := List.map_eq_append_iff.mp hword
  obtain ⟨c, mark, rfl, -, hmark⟩ := List.map_eq_cons_iff.mp hmark
  obtain ⟨d, mark, rfl, -, hmark⟩ := List.map_eq_cons_iff.mp hmark
  obtain rfl := List.map_eq_nil_iff.mp hmark
  have left := (walk_endTag_word state raw hword []).2
  rw [List.append_nil] at left
  exact congrArg Cursor.state left

/-- Where a text mentions an end tag, the cursor leaves raw text behind some part of it. -/
theorem exists_left {k : Cursor} {cs : List Char} (state : k.state = .rawText)
    (raw : k.tag ∈ Cursor.rawTextElements) (mentions : MentionsEnd k.tag cs) :
    ∃ front, front <+: cs ∧ (k.feed front).state ≠ .rawText := by
  induction cs with
  | nil =>
    obtain ⟨front, word, behind, h, hword⟩ := mentions
    obtain ⟨h, -⟩ := List.append_eq_nil_iff.mp h.symm
    obtain ⟨-, rfl⟩ := List.append_eq_nil_iff.mp h
    cases hword
  | cons c rest ih =>
    cases starts : Cursor.startsEndTag k.tag (c :: rest) with
    | true =>
      obtain ⟨word, behind, hcs, hword⟩ := startsEndTag_iff.mp starts
      refine ⟨word, hcs ▸ List.prefix_append _ _, ?_⟩
      rw [feed_endTag_word state raw hword]
      exact MarkupState.noConfusion
    | false =>
      have behind := (mentionsEnd_cons mentions).resolve_left (by simp [starts])
      obtain ⟨front, ⟨others, rfl⟩, left⟩ := ih behind
      refine ⟨c :: front, List.cons_prefix_cons.mpr ⟨rfl, List.prefix_append _ _⟩, ?_⟩
      have here : Cursor.startsEndTag k.tag (c :: front) = false := by
        rw [Bool.eq_false_iff, ne_eq, Cursor.startsEndTag, List.isPrefixOf_iff_prefix] at starts ⊢
        refine fun h => starts (h.trans ?_)
        rw [← List.cons_append, List.map_append]
        exact List.prefix_append _ _
      have step : k.advance c front = (k, 0) := by
        rw [Cursor.advance, state]
        simp only [here]
        rfl
      rwa [Cursor.feed_cons, step]

end Search

/-! ### The content of an element -/

section Content

variable {k : Cursor}

/-- Raw text is left only at an end tag. -/
theorem inRawText_iff_not_mentionsEnd (state : k.state = .rawText)
    (raw : k.tag ∈ Cursor.rawTextElements) (cs : List Char) :
    (∀ front, front <+: cs → InRawText (k.feed front)) ↔ ¬ MentionsEnd k.tag cs := by
  constructor
  · intro stays mentions
    obtain ⟨front, hfront, left⟩ := exists_left state raw mentions
    exact left (stays front hfront).state
  · rintro none_inside front ⟨others, rfl⟩
    have none_front : ¬ MentionsEnd k.tag front := by
      rintro ⟨first, word, behind, rfl, hword⟩
      exact none_inside ⟨first, word, behind ++ others, by simp, hword⟩
    have walk := (reads_rawText [] state raw none_front (.inl rfl)).feed
    rw [text_mark, List.append_nil] at walk
    rw [walk]
    exact inRawText_iff.mpr state

/-- At an end tag behind raw text the cursor is in the name of a tag, and behind it in text. -/
theorem feed_endTag (state : k.state = .rawText) (raw : k.tag ∈ Cursor.rawTextElements)
    (e : EndTag k.tag) (spaced : Spaced e.body.attributes)
    (unblank : ∀ c ∈ e.body.bareChars, Text.isBlank c = false) :
    (k.amid ('<' :: '/' :: e.name) e.body.marked.text).state = .tagName ∧
      (k.feed e.text).state = .text := by
  have hword : ('<' :: '/' :: e.name).map Char.toLower = "</".toList ++ k.tag.toList := by
    rw [List.map_cons, List.map_cons, e.name_lower]
    rfl
  obtain ⟨leaves, walk⟩ := walk_endTag_word state raw hword e.body.marked.text
  refine ⟨by rw [leaves], ?_⟩
  obtain ⟨k', body, tag_eq⟩ := TagBody.reads []
    (k := { k with state := .tagName, tag := String.ofList ('/' :: e.name) }) e.body rfl spaced
    unblank
  have close := body.feed
  rw [List.append_nil, Cursor.feed_nil] at close
  have walk : k.feed e.text = _ := walk
  rw [walk, close, Cursor.closeTag, tag_eq, not_raw_of_slash (by simp)]
  rfl

/-- The element that a tag begins. -/
def StartTag.element (t : StartTag) : String := Cursor.elementName t.name

/-- Behind the start tag of an element with raw text the cursor waits for the end tag of the
element. -/
theorem StartTag.feed_raw (t : StartTag) (state : k.state = .text)
    (spaced : Spaced t.body.attributes) (unblank : ∀ c ∈ t.bareChars, Text.isBlank c = false)
    (raw : t.isRaw = true) (unslashed : t.isSlashed = false) :
    (k.feed t.text).state = .rawText ∧ (k.feed t.text).tag = t.element := by
  refine ⟨(t.feed_state state spaced unblank).mpr ⟨raw, unslashed⟩, ?_⟩
  obtain ⟨k', reads, tag_eq⟩ := t.reads [] state spaced unblank
  have walk := reads.feed
  have joined_nil : joined t.body.marked.text = [] := by simp [t.joined_body, unslashed]
  rw [joined_nil, List.append_nil] at tag_eq
  have tag_eq : k'.tag = t.name := tag_eq
  rw [List.append_nil, Cursor.feed_nil] at walk
  rw [StartTag.isRaw] at raw
  rw [StartTag.text, walk, Cursor.closeTag, tag_eq, if_pos raw]
  rfl

/-- Behind the start tag of an element with raw text, a text is walked as raw text if and only if it
mentions no end tag of the element. At an end tag that follows such a text the cursor leaves raw
text, and it is in text behind the end tag. -/
theorem StartTag.rawText (t : StartTag) (k : Cursor) (state : k.state = .text)
    (spaced : Spaced t.body.attributes) (unblank : ∀ c ∈ t.bareChars, Text.isBlank c = false)
    (raw : t.isRaw = true) (unslashed : t.isSlashed = false) (cs : List Char) :
    ((∀ front, front <+: cs → InRawText ((k.feed t.text).feed front)) ↔
      ¬ MentionsEnd t.element cs) ∧
    ∀ e : EndTag t.element, ¬ MentionsEnd t.element cs → Spaced e.body.attributes →
      (∀ c ∈ e.body.bareChars, Text.isBlank c = false) →
      ((k.feed t.text).amid (cs ++ '<' :: '/' :: e.name) e.body.marked.text).state = .tagName ∧
      ((k.feed t.text).feed (cs ++ e.text)).state = .text := by
  obtain ⟨inside, tag_eq⟩ := t.feed_raw state spaced unblank raw unslashed
  generalize k.feed t.text = j at inside tag_eq
  have raw : j.tag ∈ Cursor.rawTextElements := tag_eq ▸ List.contains_iff_mem.mp raw
  rw [← tag_eq]
  refine ⟨inRawText_iff_not_mentionsEnd inside raw cs, fun e none_inside hspaced hunblank => ?_⟩
  obtain ⟨leaves, ends⟩ := feed_endTag inside raw e hspaced hunblank
  have walk (ys : List Char) := reads_rawText ('<' :: ys) inside raw none_inside (.inr rfl)
  have endTag : Reads ('<' :: '/' :: e.name ++ e.body.marked.text) j (mark none cs) j := walk _
  have leave := endTag.amid_append
  have close := (walk ('/' :: (e.name ++ e.body.marked.text))).feed
  rw [text_mark] at leave close
  exact ⟨leave ▸ leaves, close ▸ ends⟩

/-- The tag `<script>`. -/
def scriptTag : StartTag where
  letter := 's'
  letters := "cript".toList
  body := { attributes := [], ending := [], ending_separator := List.all_nil, apart := trivial }
  letter_isAlpha := by decide
  letters_char := by decide

/-- The tag `</SCRIPT>`. -/
def scriptEnd : EndTag scriptTag.element where
  name := "SCRIPT".toList
  body := { attributes := [], ending := [], ending_separator := List.all_nil, apart := trivial }
  name_lower := by decide

theorem rawText_scriptTag :
    (({} : Cursor).state = .text ∧ Spaced scriptTag.body.attributes ∧
      (∀ c ∈ scriptTag.bareChars, Text.isBlank c = false) ∧ scriptTag.isRaw = true ∧
      scriptTag.isSlashed = false) ∧
    ¬ MentionsEnd scriptTag.element "\x22</style><a href='".toList ∧
    ((({} : Cursor).feed scriptTag.text).feed
      ("\x22</style><a href='".toList ++ scriptEnd.text)).state = .text := by
  have all : (scriptTag.bareChars.all fun c => !Text.isBlank c) = true := by decide
  have unblank : ∀ c ∈ scriptTag.bareChars, Text.isBlank c = false := fun c hc =>
    Bool.not_eq_true' _ ▸ List.all_eq_true.mp all c hc
  have unmentioned : ¬ MentionsEnd scriptTag.element "\x22</style><a href='".toList := by decide
  have content := StartTag.rawText scriptTag {} rfl (by decide) unblank (by decide) (by decide)
    "\x22</style><a href='".toList
  exact ⟨⟨rfl, by decide, unblank, by decide, by decide⟩, unmentioned,
    (content.2 scriptEnd unmentioned (by decide) fun c hc => absurd hc List.not_mem_nil).2⟩

/-- A longer name that begins in the same way leaves the raw text, in which no end tag begins. -/
theorem not_inRawText_longerName :
    ¬ HasEndTag scriptTag.element "</scripts>".toList ∧
      ¬ InRawText ((({} : Cursor).feed scriptTag.text).feed "</scripts>".toList) := by
  refine ⟨by decide, fun h => absurd h.state (by decide)⟩

end Content

end ServerTemplate.Markup
