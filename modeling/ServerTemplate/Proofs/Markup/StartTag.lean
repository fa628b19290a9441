import ServerTemplate.Proofs.Markup.Tag

/-!
# Start tags

A start tag is tokenised as markup reads it (`StartTag.Tokenised`) if, in front of every character
of it, the cursor names the attribute whose value is open there, and is behind the tag in raw text
if the tag begins an element with such content.

A slash directly behind the name of a tag separates an attribute from the name, but the cursor takes
it for a part of the name, and goes on to the first blank. This is all that is amiss: a start tag is
tokenised if and only if no attribute with a value stands in front of all white space, and no slash
directly behind the name of an element with raw text (`StartTag.tokenised_iff`). That the names and
the bare values have no blank characters but those of markup is assumed.
-/

namespace ServerTemplate.Markup

open MarkedText

/-- A start tag: an ASCII letter begins its name. -/
structure StartTag where
  letter : Char
  letters : List Char
  body : TagBody
  letter_isAlpha : letter.isAlpha = true
  letters_char : letters.all isTagNameChar = true

namespace StartTag

/-- The name of the tag. -/
def name (t : StartTag) : String := String.ofList (t.letter :: t.letters)

/-- The tag in its text. -/
def marked (t : StartTag) : MarkedText := mark none ('<' :: t.letter :: t.letters) ++ t.body.marked

/-- The text of the tag. -/
def text (t : StartTag) : List Char := t.marked.text

/-- The characters that no quotes enclose. -/
def bareChars (t : StartTag) : List Char := t.letters ++ t.body.bareChars

/-- Whether the tag begins an element whose content is raw text. -/
def isRaw (t : StartTag) : Bool := Cursor.rawTextElements.contains (Cursor.elementName t.name)

/-- Whether a slash stands directly behind the name. -/
def isSlashed (t : StartTag) : Bool := t.body.marked.text.head? == some '/'

/-- Whether a cursor in front of the tag names, everywhere in it, the attribute whose value is open,
and is behind it in raw text if the content of the element is. -/
structure Tokenised (t : StartTag) (k : Cursor) : Prop where
  names : ∀ front behind, t.marked = front ++ behind →
    (k.amid front.text behind.text).attributeName? = front.last
  raw : (k.feed t.text).state = .rawText ↔ t.isRaw = true

end StartTag

/-! ### The name of a tag -/

section Name

variable {k : Cursor} {ys : List Char}

/-- The mark of a tag in front of a letter. -/
theorem reads_opening {letter : Char} (state : k.state = .text) (alpha : letter.isAlpha = true) :
    Reads (letter :: ys) k [('<', none)] { k with state := .tagName, tag := "" } := by
  have noComment : letter ≠ '!' := by
    rintro rfl
    exact absurd alpha (by decide)
  have starts : Cursor.startsTag '<' (letter :: ys) = true := by
    simp [Cursor.startsTag, Text.isLetter_of_isAlpha alpha]
  refine .single ?_ rfl
  rw [Cursor.advance, state]
  simp [starts, noComment.symm]

/-- The characters of the name of a tag. -/
theorem StartTag.plain_name (t : StartTag) (unblank : ∀ c ∈ t.bareChars, Text.isBlank c = false) :
    ∀ c ∈ t.letter :: t.letters, Text.isBlank c = false ∧ c ≠ '>' := by
  intro c hc
  rcases List.mem_cons.mp hc with rfl | hc
  · refine ⟨not_isBlank_of_isAlpha t.letter_isAlpha, fun ends => ?_⟩
    exact absurd (ends ▸ t.letter_isAlpha) (by decide)
  · have char := List.all_eq_true.mp t.letters_char c hc
    exact ⟨unblank c (List.mem_append_left _ hc), (ne_of_isTagNameChar char).2⟩

/-- In front of its body a tag is read as far as its name. -/
theorem StartTag.reads_front (t : StartTag) (state : k.state = .text)
    (unblank : ∀ c ∈ t.bareChars, Text.isBlank c = false) :
    Reads ys k (mark none ('<' :: t.letter :: t.letters))
      { k with state := .tagName, tag := t.name } := by
  have front : Reads (t.letter :: (t.letters ++ ys)) k _ _ := reads_opening state t.letter_isAlpha
  rw [← List.cons_append, ← text_mark none (t.letter :: t.letters)] at front
  exact front.append (reads_tagName rfl (t.plain_name unblank))

end Name

/-! ### What is joined to the name -/

/-- The first character behind the name of a tag is a separator or ends the tag. -/
theorem head_markedBody (attributes : List Attribute) {ending : List Char}
    (separators : ∀ c ∈ ending, isSeparator c = true) :
    ∃ c cs, (markedBody attributes ending).text = c :: cs ∧ (isSeparator c = true ∨ c = '>') := by
  cases attributes with
  | nil =>
    rw [markedBody_nil, text_mark]
    cases ending with
    | nil => exact ⟨'>', [], rfl, .inr rfl⟩
    | cons c cs => exact ⟨c, cs ++ ['>'], rfl, .inl (separators c List.mem_cons_self)⟩
  | cons a rest =>
    obtain ⟨c, gap, hgap⟩ := List.exists_cons_of_ne_nil a.gap_ne_nil
    have separator := List.all_eq_true.mp a.gap_separator c (hgap ▸ List.mem_cons_self)
    rw [markedBody_cons, hgap]
    exact ⟨c, _, rfl, .inl separator⟩

/-- Nothing is joined to the name of a tag, or else a slash. -/
theorem StartTag.joined_body (t : StartTag) :
    joined t.body.marked.text =
      if t.isSlashed then '/' :: joined t.body.marked.text.tail else [] := by
  obtain ⟨c, cs, hbody, first⟩ := head_markedBody t.body.attributes
    (List.all_eq_true.mp t.body.ending_separator)
  have hbody : t.body.marked.text = c :: cs := hbody
  rw [StartTag.isSlashed, hbody, List.head?_cons, List.tail_cons]
  by_cases slash : c = '/'
  · subst slash
    exact joined_slash cs
  · rw [if_neg (by simpa using slash)]
    refine joined_cons_stop (first.imp_left fun separator => ?_)
    exact (isBlank_or_slash_of_isSeparator separator).resolve_right slash

/-- No element with raw text has a slash in its name. -/
theorem not_raw_of_slash {tag : String} (slash : '/' ∈ tag.toList) :
    Cursor.rawTextElements.contains (Cursor.elementName tag) = false := by
  have inside : '/' ∈ (Cursor.elementName tag).toList := by
    rw [Cursor.elementName, String.toList_ofList]
    exact List.mem_map_of_mem slash
  rw [Bool.eq_false_iff]
  intro raw
  have names : ∀ e ∈ Cursor.rawTextElements, '/' ∉ e.toList := by decide
  exact names _ (List.contains_iff_mem.mp raw) inside

/-- Behind the end of a tag a cursor is in raw text if the tag is one of an element with such
content. -/
theorem closeTag_state (k : Cursor) :
    k.closeTag.state = .rawText ↔
      Cursor.rawTextElements.contains (Cursor.elementName k.tag) = true := by
  unfold Cursor.closeTag
  split <;> simp_all

/-! ### Tokenised start tags -/

section Tokenised

variable {k : Cursor} {ys : List Char}

/-- A start tag is read as it is marked if no attribute with a value is joined to its name. -/
theorem StartTag.reads (ys : List Char) (t : StartTag) (state : k.state = .text)
    (spaced : Spaced t.body.attributes) (unblank : ∀ c ∈ t.bareChars, Text.isBlank c = false) :
    ∃ k' : Cursor, Reads ys k t.marked k'.closeTag ∧
      k'.tag = String.ofList (t.letter :: t.letters ++ joined t.body.marked.text) := by
  obtain ⟨k', body, tag_eq⟩ := TagBody.reads ys
    (k := { k with state := .tagName, tag := t.name }) t.body rfl spaced
    fun c hc => unblank c (List.mem_append_right _ hc)
  refine ⟨k', (t.reads_front state unblank).append body, ?_⟩
  rw [tag_eq, StartTag.name, String.toList_ofList]

/-- Behind a start tag that is read so a cursor is in raw text if no slash hides the name of an
element with such content. -/
theorem StartTag.feed_state (t : StartTag) (state : k.state = .text)
    (spaced : Spaced t.body.attributes) (unblank : ∀ c ∈ t.bareChars, Text.isBlank c = false) :
    (k.feed t.text).state = .rawText ↔ t.isRaw = true ∧ t.isSlashed = false := by
  obtain ⟨k', reads, tag_eq⟩ := t.reads [] state spaced unblank
  have feed := reads.feed
  rw [List.append_nil] at feed
  rw [StartTag.text, feed, Cursor.feed_nil, closeTag_state, tag_eq, t.joined_body]
  cases slashed : t.isSlashed with
  | true =>
    rw [not_raw_of_slash (by simp)]
    simp
  | false => simp [StartTag.isRaw, StartTag.name]

/-- Behind the name of a tag and white space, no attribute is open behind a sign of equality. -/
theorem reads_stray_equals (ys : List Char) {before : List Char} (state : k.state = .tagName)
    (space : ∀ c ∈ before, isTagSpace c = true) :
    ∃ k', Reads ys k (mark none (before ++ ['='])) k' := by
  cases before with
  | nil =>
    -- it is one more character of the name of the tag
    have plain : Text.isBlank '=' = false ∧ '=' ≠ '>' := by decide
    exact ⟨_, reads_tagName state fun c hc => List.mem_singleton.mp hc ▸ plain⟩
  | cons c before =>
    -- it begins the name of an attribute
    have blank := isBlank_of_isTagSpace (space c List.mem_cons_self)
    have between : Between { k with state := .inTag } k.tag := ⟨.inl rfl, rfl⟩
    refine ⟨{ k with state := .attributeName, attr := "=" }, ?_⟩
    rw [mark_append, mark_cons]
    refine Reads.append (.cons (Cursor.advance_tagName_blank state blank) between.attributeName?
      (reads_separators between fun d hd => ?_)) (.single rfl rfl)
    exact .inl (isBlank_of_isTagSpace (space d (List.mem_cons_of_mem c hd)))

/-- Where an attribute with a value is joined to the name of a tag, no attribute is open behind its
sign of equality. -/
theorem exists_misread (ys : List Char) {attributes : List Attribute} (ending : List Char)
    (state : k.state = .tagName) (tight : ¬ Spaced attributes)
    (unblank : ∀ a ∈ attributes, ∀ c ∈ a.bareChars, Text.isBlank c = false) :
    ∃ (front : MarkedText) (name : String) (behind : MarkedText),
      markedBody attributes ending = front ++ ('=', some name) :: behind ∧
      ∃ k', Reads (behind.text ++ ys) k (mark none (front.text ++ ['='])) k' := by
  induction attributes generalizing k with
  | nil => exact (tight trivial).elim
  | cons a rest ih =>
    obtain ⟨unblank_head, unblank⟩ := List.forall_mem_cons.mp unblank
    obtain ⟨unspaced, others⟩ := not_or.mp tight
    have plain := Attribute.plain_of_tight (Bool.eq_false_iff.mpr unspaced) unblank_head
    rw [markedBody_cons, ← List.append_assoc, ← mark_append]
    cases hs : a.assignment with
    | none =>
      have tight_rest : ¬ Spaced rest := fun spaced => others ⟨by rw [hs]; rfl, spaced⟩
      obtain ⟨front, name, behind, hrest, k', reads⟩ := ih
        (k := { k with tag := String.ofList (k.tag.toList ++ (a.gap ++ a.name)) })
        state tight_rest unblank
      refine ⟨mark none (a.gap ++ a.name) ++ front, name, behind, ?_, k', ?_⟩
      · rw [Attribute.value, hs, hrest, List.append_assoc]
        rfl
      · rw [text_append, text_mark, List.append_assoc, mark_append]
        exact (reads_tagName state plain).append reads
    | some s =>
      let name := String.ofList a.name
      let behind := mark (some name) (s.behind ++ s.value.opened) ++
        (mark none s.value.closing ++ markedBody rest ending)
      obtain ⟨k', reads⟩ := reads_stray_equals (behind.text ++ ys)
        (k := { k with tag := String.ofList (k.tag.toList ++ (a.gap ++ a.name)) })
        state (List.all_eq_true.mp s.before_space)
      refine ⟨mark none (a.gap ++ a.name) ++ mark none s.before, name, behind, ?_, k', ?_⟩
      · simp only [Attribute.value, hs, Assignment.marked, mark_cons, List.append_assoc,
          List.cons_append, mark_append, behind, name]
      · rw [← mark_append, text_mark, List.append_assoc, mark_append]
        exact (reads_tagName state plain).append reads

/-- Where an attribute with a value is joined to the name of a start tag, the cursor names no
attribute behind its sign of equality. -/
theorem StartTag.exists_misread (t : StartTag) (state : k.state = .text)
    (tight : ¬ Spaced t.body.attributes) (unblank : ∀ c ∈ t.bareChars, Text.isBlank c = false) :
    ∃ (front : MarkedText) (name : String) (behind : MarkedText),
      t.marked = front ++ ('=', some name) :: behind ∧
      (k.amid (front.text ++ ['=']) behind.text).attributeName? = none := by
  obtain ⟨front, name, behind, hbody, k', misread⟩ := Markup.exists_misread []
    (k := { k with state := .tagName, tag := t.name }) t.body.ending rfl tight
    fun a ha c hc => unblank c (List.mem_append_right _ (List.mem_flatMap.mpr ⟨a, ha, hc⟩))
  refine ⟨mark none ('<' :: t.letter :: t.letters) ++ front, name, behind, ?_, ?_⟩
  · rw [StartTag.marked, TagBody.marked, hbody, List.append_assoc]
  · have walk := (t.reads_front state unblank).append misread
    rw [← mark_append] at walk
    have place := walk.amid
    have found := walk.attributeName? (by simp [Cursor.attributeName?, Cursor.inAttribute, state])
    rw [text_mark, List.append_nil, ← List.append_assoc] at place
    rw [text_append, text_mark, place, found, ← List.append_assoc, mark_append]
    exact last_concat _ '=' none

/-- A start tag is tokenised if and only if no attribute with a value is joined to its name, and no
slash stands directly behind the name of an element with raw text. -/
theorem StartTag.tokenised_iff (t : StartTag) (k : Cursor) (state : k.state = .text)
    (unblank : ∀ c ∈ t.bareChars, Text.isBlank c = false) :
    t.Tokenised k ↔
      Spaced t.body.attributes ∧ (t.isRaw = true → t.isSlashed = false) := by
  constructor
  · intro h
    have spaced : Spaced t.body.attributes := by
      by_contra tight
      obtain ⟨front, name, behind, hmarked, found⟩ := t.exists_misread state tight unblank
      have wanted := h.names (front ++ [('=', some name)]) behind (by rw [hmarked]; simp)
      rw [text_append, last_concat] at wanted
      cases found.symm.trans wanted
    refine ⟨spaced, fun raw => ?_⟩
    exact ((t.feed_state state spaced unblank).mp (h.raw.mpr raw)).2
  · rintro ⟨spaced, unslashed⟩
    constructor
    · intro front behind hmarked
      obtain ⟨k', reads, -⟩ := t.reads [] state spaced unblank
      have shows := reads.shows
        (by simp [Cursor.attributeName?, Cursor.inAttribute, state]) hmarked
      rwa [List.append_nil] at shows
    · rw [t.feed_state state spaced unblank, and_iff_left_iff_imp]
      exact unslashed

/-- The tag `<a/hidden title = 'b' href=/c >`. -/
def spacedTag : StartTag where
  letter := 'a'
  letters := []
  body := {
    attributes := [
      { gap := ['/'], name := "hidden".toList, assignment := none, gap_ne_nil := by decide,
        gap_separator := by decide, name_ne_nil := by decide, name_char := by decide },
      { gap := [' '], name := "title".toList
        assignment := some {
          before := [' '], behind := [' '], value := .quoted '\x27' ['b'] (by decide) (by decide)
          before_space := by decide, behind_space := by decide }
        gap_ne_nil := by decide, gap_separator := by decide, name_ne_nil := by decide
        name_char := by decide },
      { gap := [' '], name := "href".toList
        assignment := some {
          before := [], behind := [], value := .bare '/' ['c'] (by decide) (by decide)
          before_space := by decide, behind_space := by decide }
        gap_ne_nil := by decide, gap_separator := by decide, name_ne_nil := by decide
        name_char := by decide }]
    ending := [' ']
    ending_separator := by decide
    apart := by decide }
  letter_isAlpha := by decide
  letters_char := by decide

theorem tokenised_spacedTag :
    ({} : Cursor).state = .text ∧ (∀ c ∈ spacedTag.bareChars, Text.isBlank c = false) ∧
      spacedTag.text = "<a/hidden title = 'b' href=/c >".toList ∧ spacedTag.Tokenised {} :=
  have all : (spacedTag.bareChars.all fun c => !Text.isBlank c) = true := by decide
  have unblank : ∀ c ∈ spacedTag.bareChars, Text.isBlank c = false := fun c hc =>
    Bool.not_eq_true' _ ▸ List.all_eq_true.mp all c hc
  ⟨rfl, unblank, by decide,
    (StartTag.tokenised_iff spacedTag {} rfl unblank).mpr (by decide)⟩

/-- The tag `<a/href="b">`. -/
def tightTag : StartTag where
  letter := 'a'
  letters := []
  body := {
    attributes := [
      { gap := ['/'], name := "href".toList
        assignment := some {
          before := [], behind := [], value := .quoted '\x22' ['b'] (by decide) (by decide)
          before_space := by decide, behind_space := by decide }
        gap_ne_nil := by decide, gap_separator := by decide, name_ne_nil := by decide
        name_char := by decide }]
    ending := []
    ending_separator := by decide
    apart := by decide }
  letter_isAlpha := by decide
  letters_char := by decide

/-- Behind a slash the value of `href` is not seen. -/
theorem not_tokenised_tightTag :
    tightTag.text = "<a/href=\x22b\x22>".toList ∧ ¬ tightTag.Tokenised {} := by
  refine ⟨by decide, fun h => ?_⟩
  have open_href := h.names (mark none "<a/href".toList ++ mark (some "href") "=\x22".toList)
    (mark (some "href") ['b'] ++ mark none "\x22>".toList) (by decide)
  exact absurd open_href (by decide)

end Tokenised

end ServerTemplate.Markup
