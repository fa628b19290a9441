import ServerTemplate.Proofs.Markup.RawText

/-!
# Holes between texts

Where a value is written between two texts, the cursor walks the first text, is told of the value,
and walks the second (`throughHoles`). A value is content as a letter is: where the cursor
stands at a hole can be compared with the place in the one text in which a letter fills each hole
(`filled`).

A value is not always counted as a letter is. `HoleCounts` says where it is: everywhere in text
except behind the mark of a tag, everywhere in the name or the value of an attribute and where a
value is waited for, and in the name of a tag that is not the beginning of the name of an element
with raw text; between attributes it is not. The two walks agree at every hole if and only if all
holes count (`agreeAt_iff`).
-/

namespace ServerTemplate.Markup

open MarkedText

/-! ### The two walks -/

/-- The letter that stands for a value. -/
def holeLetter : Char := 'x'

/-- Texts in which a letter fills the hole behind each. -/
def filled (texts : List (List Char)) : List Char := texts.flatMap (· ++ [holeLetter])

/-- The cursor behind the texts and the value behind each. -/
def throughHoles (k : Cursor) (texts : List (List Char)) : Cursor :=
  texts.foldl (fun k cs => (k.feed cs).interpolated) k

/-- Whether the hole behind `last`, with the texts `front` and their holes in front of it, is inside
the value of an attribute for both walks or for none, whatever follows. -/
def AgreeAt (k j : Cursor) (front : List (List Char)) (last : List Char) : Prop :=
  ∀ behind, ((throughHoles k front).feed last).inAttribute =
    (j.amid (filled front ++ last) (holeLetter :: behind)).inAttribute

/-- Whether a name of a tag, whatever is written on to it, is none of an element with raw text. -/
def IsOrdinary (tag : String) : Prop :=
  ∀ element ∈ Cursor.rawTextElements, ¬ (Cursor.elementName tag).toList <+: element.toList

instance (tag : String) : Decidable (IsOrdinary tag) := by
  unfold IsOrdinary
  infer_instance

/-- Whether a hole behind the text `last`, at whose end the cursor stands, is counted as a letter
is. -/
def HoleCounts (k : Cursor) (last : List Char) : Prop :=
  match k.state with
  | .text => last.getLast? ≠ some '<'
  | .tagName => IsOrdinary k.tag
  | .inTag | .afterAttributeName => False
  | .comment | .rawText | .attributeName | .beforeValue | .value => True

instance (k : Cursor) (last : List Char) : Decidable (HoleCounts k last) := by
  unfold HoleCounts
  split <;> infer_instance

/-! ### Names of tags that open no raw text -/

theorem elementName_toList (tag : String) :
    (Cursor.elementName tag).toList = tag.toList.map Char.toLower := by
  rw [Cursor.elementName, String.toList_ofList]

theorem IsOrdinary.of_prefix {tag tag' : String} (h : IsOrdinary tag)
    (longer : tag.toList <+: tag'.toList) : IsOrdinary tag' := by
  intro element raw shorter
  rw [elementName_toList] at shorter
  refine h element raw ?_
  rw [elementName_toList]
  exact (longer.map _).trans shorter

theorem IsOrdinary.push {tag : String} (h : IsOrdinary tag) (c : Char) : IsOrdinary (tag.push c) :=
  h.of_prefix (by rw [String.toList_push]; exact List.prefix_append _ _)

theorem IsOrdinary.not_raw {tag : String} (h : IsOrdinary tag) :
    Cursor.rawTextElements.contains (Cursor.elementName tag) = false := by
  rw [Bool.eq_false_iff]
  exact fun raw => h _ (List.contains_iff_mem.mp raw) List.prefix_rfl

/-- With a letter for a value in it a name is ordinary. -/
theorem isOrdinary_of_holeLetter {tag : String} (h : holeLetter ∈ tag.toList) : IsOrdinary tag := by
  intro element raw shorter
  have inside : holeLetter ∈ element.toList := by
    rw [elementName_toList] at shorter
    exact shorter.subset (List.mem_map_of_mem (f := Char.toLower) h)
  have names : ∀ e ∈ Cursor.rawTextElements, holeLetter ∉ e.toList := by decide
  exact names element raw inside

/-! ### Cursors that agree -/

/-- Whether two names of tags are the same, or both open no raw text. -/
def SameRole (tag tag' : String) : Prop := tag = tag' ∨ (IsOrdinary tag ∧ IsOrdinary tag')

theorem SameRole.push {tag tag' : String} (h : SameRole tag tag') (c : Char) :
    SameRole (tag.push c) (tag'.push c) :=
  h.imp (congrArg (String.push · c)) fun both => ⟨both.1.push c, both.2.push c⟩

/-- Whether two cursors stand at the same place, up to names that matter no more: those of
attributes, and those of tags of which none opens raw text. -/
structure Kin (k j : Cursor) : Prop where
  state : k.state = j.state
  tag : SameRole k.tag j.tag
  raw : k.state = .rawText → k.tag = j.tag ∧ k.tag ∈ Cursor.rawTextElements
  quote : k.state = .value → k.quote = j.quote
  unlettered : k.state = .value → k.quote ≠ some holeLetter

namespace Kin

variable {k j : Cursor}

/-- The second cursor is at its own place. -/
theorem right (h : Kin k j) : Kin j j where
  state := rfl
  tag := .inl rfl
  raw state := by
    obtain ⟨same, raw⟩ := h.raw (h.state.trans state)
    exact ⟨rfl, same ▸ raw⟩
  quote _ := rfl
  unlettered state := by
    have state := h.state.trans state
    exact h.quote state ▸ h.unlettered state

theorem inAttribute (h : Kin k j) : k.inAttribute = j.inAttribute := by
  rw [Cursor.inAttribute, Cursor.inAttribute, h.state]

/-- A state in which quotes and the name of an element are not used. -/
theorem of_state {s : MarkupState} {a b t u : String} {q r : Option Char} (h : SameRole t u)
    (notRaw : s ≠ .rawText) (notValue : s ≠ .value) : Kin ⟨s, a, q, t⟩ ⟨s, b, r, u⟩ :=
  ⟨rfl, h, fun raw => (notRaw raw).elim, fun value => (notValue value).elim,
    fun value => (notValue value).elim⟩

/-- The value of an attribute. -/
theorem of_value {a b t u : String} {q : Option Char} (h : SameRole t u)
    (unlettered : q ≠ some holeLetter) : Kin ⟨.value, a, q, t⟩ ⟨.value, b, q, u⟩ :=
  ⟨rfl, h, MarkupState.noConfusion, fun _ => rfl, fun _ => unlettered⟩

/-- Behind the end of a tag. -/
theorem closeTag (h : SameRole k.tag j.tag) : Kin k.closeTag j.closeTag := by
  obtain ⟨_, _, _, tag⟩ := k
  obtain ⟨_, _, _, tag'⟩ := j
  unfold Cursor.closeTag
  rcases h with same | ⟨hk, hj⟩
  · obtain rfl : tag = tag' := same
    dsimp only
    split
    · exact ⟨rfl, .inl rfl, fun _ => ⟨rfl, List.contains_iff_mem.mp ‹_›⟩,
        MarkupState.noConfusion, MarkupState.noConfusion⟩
    · exact of_state (.inl rfl) (by decide) (by decide)
  · rw [hk.not_raw, hj.not_raw]
    exact of_state (.inr ⟨hk, hj⟩) (by decide) (by decide)

/-- A character moves two cursors to the same place again. -/
theorem advance (h : Kin k j) (c : Char) (rest : List Char) :
    Kin (k.advance c rest).1 (j.advance c rest).1 ∧
      (k.advance c rest).2 = (j.advance c rest).2 := by
  obtain ⟨state, attr, quote, tag⟩ := k
  obtain ⟨state', attr', quote', tag'⟩ := j
  obtain rfl : state = state' := h.state
  have htag : SameRole tag tag' := h.tag
  have goes {s : MarkupState} {a b : String} {q r : Option Char} (notRaw : s ≠ .rawText)
      (notValue : s ≠ .value) : Kin ⟨s, a, q, tag⟩ ⟨s, b, r, tag'⟩ :=
    of_state htag notRaw notValue
  have closes {s : MarkupState} {a b : String} {q r : Option Char} :
      Kin (Cursor.closeTag ⟨s, a, q, tag⟩, 0).1 (Cursor.closeTag ⟨s, b, r, tag'⟩, 0).1 ∧ 0 = 0 := by
    refine ⟨?_, rfl⟩
    dsimp only
    exact closeTag htag
  cases state with
  | text =>
    simp only [Cursor.advance]
    split
    · exact ⟨goes (by decide) (by decide), rfl⟩
    split
    · exact ⟨of_state (.inl rfl) (by decide) (by decide), rfl⟩
    · exact ⟨h, rfl⟩
  | rawText =>
    obtain rfl : tag = tag' := (h.raw rfl).1
    simp only [Cursor.advance]
    split
    · exact ⟨of_state (.inl rfl) (by decide) (by decide), rfl⟩
    · exact ⟨h, rfl⟩
  | comment =>
    simp only [Cursor.advance]
    split
    · exact ⟨goes (by decide) (by decide), rfl⟩
    · exact ⟨h, rfl⟩
  | tagName =>
    simp only [Cursor.advance]
    split
    · exact closes
    split
    · exact ⟨goes (by decide) (by decide), rfl⟩
    · exact ⟨of_state (htag.push c) (by decide) (by decide), rfl⟩
  | inTag =>
    simp only [Cursor.advance]
    split
    · exact closes
    split
    · exact ⟨h, rfl⟩
    · exact ⟨goes (by decide) (by decide), rfl⟩
  | afterAttributeName =>
    simp only [Cursor.advance]
    split
    · exact closes
    split
    · exact ⟨goes (by decide) (by decide), rfl⟩
    split
    · exact ⟨h, rfl⟩
    · exact ⟨goes (by decide) (by decide), rfl⟩
  | attributeName =>
    simp only [Cursor.advance]
    split
    · exact ⟨goes (by decide) (by decide), rfl⟩
    split
    · exact closes
    split
    · exact ⟨goes (by decide) (by decide), rfl⟩
    split <;> exact ⟨goes (by decide) (by decide), rfl⟩
  | beforeValue =>
    simp only [Cursor.advance]
    split
    · rename_i mark
      refine ⟨of_value htag fun letter => ?_, rfl⟩
      rw [Option.some.inj letter] at mark
      exact absurd mark (by decide)
    split
    · exact closes
    split
    · exact ⟨h, rfl⟩
    · exact ⟨of_value htag (Option.some_ne_none _).symm, rfl⟩
  | value =>
    obtain rfl : quote = quote' := h.quote rfl
    simp only [Cursor.advance]
    cases quote with
    | some mark =>
      refine ⟨?_, rfl⟩
      dsimp only
      split
      · exact goes (by decide) (by decide)
      · exact h
    | none =>
      dsimp only
      split
      · exact closes
      split
      · exact ⟨goes (by decide) (by decide), rfl⟩
      · exact ⟨h, rfl⟩

theorem feedFrom (h : Kin k j) (taken : Nat) (cs : List Char) :
    Kin (Cursor.feedFrom taken k cs) (Cursor.feedFrom taken j cs) := by
  induction cs generalizing taken k j with
  | nil => rwa [Cursor.feedFrom_nil, Cursor.feedFrom_nil]
  | cons c rest ih =>
    cases taken with
    | succ taken => exact ih h taken
    | zero =>
      obtain ⟨same, taken⟩ := h.advance c rest
      rw [Cursor.feedFrom, Cursor.feedFrom, taken]
      exact ih same _

/-- A text leads two cursors to the same place again. -/
theorem feed (h : Kin k j) (cs : List Char) : Kin (k.feed cs) (j.feed cs) := h.feedFrom 0 cs

end Kin

/-! ### A letter for a value -/

/-- The cursor behind a letter that stands for a value. -/
def behindLetter (k : Cursor) : Cursor := (k.advance holeLetter []).1

/-- Behind the letter the cursor is at one place, whatever follows. -/
theorem advance_holeLetter (k : Cursor) (rest : List Char) :
    k.advance holeLetter rest = (behindLetter k, 0) := by
  obtain ⟨state, attr, quote, tag⟩ := k
  have ends (cs : List Char) : Cursor.startsEndTag tag (holeLetter :: cs) = false := rfl
  cases state with
  | rawText => simp [behindLetter, Cursor.advance, ends]
  | value => cases quote <;> rfl
  | _ => rfl

/-- A word without the letter is not cut by it. -/
theorem isPrefixOf_append_letter {word cs ys : List Char} (h : holeLetter ∉ word) :
    word.isPrefixOf (cs ++ holeLetter :: ys) = word.isPrefixOf cs := by
  by_contra differ
  obtain ⟨q, hq, hword, hprefix⟩ := exists_rest_of_isPrefixOf_append_ne differ
  obtain ⟨d, q, rfl⟩ := List.exists_cons_of_ne_nil hq
  obtain ⟨rfl, -⟩ := List.cons_prefix_cons.mp hprefix
  exact h (hword ▸ List.mem_append_right _ List.mem_cons_self)

section Lookahead

variable {j : Cursor} {c : Char} {rest ys : List Char}

/-- Only at the mark of a tag in text does a cursor see that the letter follows. -/
theorem advance_append_letter (sound : Kin j j)
    (unmarked : ¬ (j.state = .text ∧ c = '<' ∧ rest = [])) :
    j.advance c (rest ++ holeLetter :: ys) = j.advance c rest := by
  cases hstate : j.state with
  | text =>
    have comment : "<!--".toList.isPrefixOf (c :: (rest ++ holeLetter :: ys)) =
        "<!--".toList.isPrefixOf (c :: rest) := by
      rw [← List.cons_append, isPrefixOf_append_letter (by decide)]
    rw [Cursor.advance, Cursor.advance, hstate]
    dsimp only
    rw [comment]
    cases rest with
    | cons d rest => rfl
    | nil =>
      have mark : c ≠ '<' := fun mark => unmarked ⟨hstate, mark, rfl⟩
      have starts (cs : List Char) : Cursor.startsTag c cs = false := by
        simp [Cursor.startsTag, mark]
      rw [starts, starts]
  | comment =>
    rw [Cursor.advance, Cursor.advance, hstate]
    dsimp only
    rw [← List.cons_append, isPrefixOf_append_letter (by decide)]
  | rawText =>
    have word : holeLetter ∉ "</".toList ++ j.tag.toList := by
      have names : ∀ e ∈ Cursor.rawTextElements, holeLetter ∉ "</".toList ++ e.toList := by decide
      exact names _ (sound.raw hstate).2
    have ends : Cursor.startsEndTag j.tag (c :: (rest ++ holeLetter :: ys)) =
        Cursor.startsEndTag j.tag (c :: rest) := by
      rw [Cursor.startsEndTag, Cursor.startsEndTag, ← List.cons_append, List.map_append]
      exact isPrefixOf_append_letter word
    rw [Cursor.advance, Cursor.advance, hstate]
    dsimp only
    rw [ends]
  | tagName | inTag | attributeName | afterAttributeName | beforeValue | value =>
    rw [Cursor.advance, Cursor.advance, hstate]

/-- No mark of a tag is taken along. -/
theorem not_mem_take_advance (j : Cursor) (c : Char) (rest : List Char) :
    '<' ∉ rest.take (j.advance c rest).2 := by
  unfold Cursor.advance
  split
  · split
    · rename_i comment
      have word : ['<', '!', '-', '-'] <+: c :: rest := List.isPrefixOf_iff_prefix.mp comment
      obtain ⟨more, h⟩ := word
      cases h
      simp
    · split <;> exact List.not_mem_nil
  · split
    · rename_i ends
      obtain ⟨word, behind, h, hword⟩ := startsEndTag_iff.mp ends
      obtain ⟨_, word, rfl, -, hword⟩ := List.map_eq_cons_iff.mp hword
      obtain ⟨d, word, rfl, slash, -⟩ := List.map_eq_cons_iff.mp hword
      cases h
      have slash : d.toLower = '/' := slash
      change '<' ∉ [d]
      rw [List.mem_singleton]
      rintro rfl
      exact absurd slash (by decide)
    · exact List.not_mem_nil
  · split
    · rename_i closes
      have word : ['-', '-', '>'] <+: c :: rest := List.isPrefixOf_iff_prefix.mp closes
      obtain ⟨more, h⟩ := word
      cases h
      simp
    · exact List.not_mem_nil
  all_goals
    repeat' split
    all_goals exact List.not_mem_nil

/-- The mark of a tag leads to text only from there. -/
theorem text_of_advance_mark (h : (j.advance '<' rest).1.state = .text) : j.state = .text := by
  obtain ⟨state, attr, quote, tag⟩ := j
  cases state with
  | text => rfl
  | rawText =>
    simp only [Cursor.advance] at h
    split at h <;> cases h
  | value =>
    cases quote with
    | none => cases h
    | some quote =>
      simp only [Cursor.advance] at h
      split at h <;> cases h
  | _ => cases h

/-- In front of the letter a cursor stands where it stands at the end of the text, but for the mark
of a tag at the end of text. -/
theorem amidFrom_letter {taken : Nat} {xs : List Char} (sound : Kin j j)
    (noMark : '<' ∉ xs.take taken) :
    Cursor.amidFrom taken j xs (holeLetter :: ys) =
      if (Cursor.feedFrom taken j xs).state = .text ∧ xs.getLast? = some '<' then
        { Cursor.feedFrom taken j xs with state := .tagName, tag := "" }
      else Cursor.feedFrom taken j xs := by
  induction xs generalizing taken j with
  | nil =>
    rw [if_neg (by simp), Cursor.amidFrom_nil, Cursor.feedFrom_nil]
  | cons c rest ih =>
    cases taken with
    | succ taken =>
      have inside := ih sound fun h => noMark (List.mem_cons_of_mem c h)
      rw [Cursor.amidFrom, Cursor.feedFrom, inside]
      cases rest with
      | nil =>
        have other : c ≠ '<' := by
          rintro rfl
          exact noMark List.mem_cons_self
        simp [other]
      | cons d rest => rw [List.getLast?_cons_cons]
    | zero =>
      by_cases marked : j.state = .text ∧ c = '<' ∧ rest = []
      · obtain ⟨text, rfl, rfl⟩ := marked
        have opens : j.advance '<' (holeLetter :: ys) =
            ({ j with state := .tagName, tag := "" }, 0) := by
          rw [Cursor.advance, text]
          rfl
        have alone : j.advance '<' [] = (j, 0) := by
          rw [Cursor.advance, text]
          rfl
        rw [Cursor.amidFrom, Cursor.feedFrom, List.nil_append, opens, alone]
        exact (if_pos ⟨text, rfl⟩).symm
      · rw [Cursor.amidFrom, Cursor.feedFrom, advance_append_letter sound marked,
          ih (sound.advance c rest).1 (not_mem_take_advance j c rest)]
        cases rest with
        | nil =>
          rw [if_neg (by simp), if_neg]
          rintro ⟨text, mark⟩
          obtain rfl : c = '<' := Option.some.inj mark
          rw [Cursor.feedFrom_nil] at text
          exact marked ⟨text_of_advance_mark text, rfl, rfl⟩
        | cons d rest => rw [List.getLast?_cons_cons]

/-- The walk over a text and the letter behind it. -/
theorem amid_append_letter (sound : Kin j j) (xs zs ws : List Char) :
    j.amid (xs ++ holeLetter :: zs) ws =
      (behindLetter (j.amid xs (holeLetter :: (zs ++ ws)))).amid zs ws := by
  suffices h : ∀ taken, taken ≤ xs.length → Cursor.amidFrom taken j (xs ++ holeLetter :: zs) ws =
      (behindLetter (Cursor.amidFrom taken j xs (holeLetter :: (zs ++ ws)))).amid zs ws from
    h 0 (Nat.zero_le _)
  intro taken inside
  induction xs generalizing taken j with
  | nil =>
    obtain rfl := Nat.le_zero.mp inside
    change Cursor.amidFrom (j.advance holeLetter (zs ++ ws)).2 _ zs ws = _
    rw [advance_holeLetter]
    rfl
  | cons c rest ih =>
    cases taken with
    | succ taken => exact ih sound taken (Nat.le_of_succ_le_succ inside)
    | zero =>
      rw [List.cons_append, Cursor.amidFrom, Cursor.amidFrom, List.append_assoc, List.cons_append]
      refine ih (sound.advance _ _).1 _ ?_
      by_cases marked : j.state = .text ∧ c = '<' ∧ rest = []
      · obtain ⟨text, rfl, rfl⟩ := marked
        rw [Cursor.advance, text]
        exact Nat.le_refl 0
      · rw [advance_append_letter sound marked]
        exact Cursor.advance_le_length j c rest

end Lookahead

/-! ### Holes that count -/

section Holes

variable {k j : Cursor} {cs : List Char} {texts : List (List Char)}

/-- Behind a value that is counted as a letter the cursors are at the same place again. -/
theorem Kin.interpolated (h : Kin k j) (counts : HoleCounts k cs) :
    Kin k.interpolated (behindLetter j) := by
  obtain ⟨state, attr, quote, tag⟩ := k
  obtain ⟨state', attr', quote', tag'⟩ := j
  obtain rfl : state = state' := h.state
  have htag : SameRole tag tag' := h.tag
  cases state with
  | text | comment => exact h
  | rawText =>
    have ends : Cursor.startsEndTag tag' [holeLetter] = false := rfl
    simp only [Cursor.interpolated, behindLetter, Cursor.advance, ends]
    exact h
  | tagName =>
    have ordinary : IsOrdinary tag := counts
    have ordinary' : IsOrdinary tag' := by
      rcases htag with rfl | both
      · exact ordinary
      · exact both.2
    exact of_state (.inr ⟨ordinary, ordinary'.push holeLetter⟩) (by decide) (by decide)
  | inTag | afterAttributeName => exact counts.elim
  | attributeName => exact of_state htag (by decide) (by decide)
  | beforeValue => exact of_value htag (Option.some_ne_none _).symm
  | value =>
    have same : quote = quote' := h.quote rfl
    subst same
    cases quote with
    | none => exact h
    | some quote =>
      have other : holeLetter ≠ quote := fun mark => h.unlettered rfl (congrArg some mark.symm)
      have stays : behindLetter ⟨.value, attr', some quote, tag'⟩ =
          ⟨.value, attr', some quote, tag'⟩ := by
        simp [behindLetter, Cursor.advance, other]
      rw [stays]
      exact h

/-- The place of both walks at the first hole. -/
theorem Kin.agreeAt_nil (h : Kin k j) (last : List Char) : AgreeAt k j [] last := by
  intro behind
  have same := (h.feed last).inAttribute
  change (k.feed last).inAttribute = (Cursor.amidFrom 0 j last _).inAttribute
  rw [amidFrom_letter h.right List.not_mem_nil, same]
  split
  · rename_i mark
    obtain ⟨text, -⟩ := mark
    have text : (j.feed last).state = .text := text
    simp [Cursor.inAttribute, text]
  · rfl

/-- Where a hole counts, the letter that follows makes no difference in front of it. -/
theorem HoleCounts.amid (h : Kin k j) (counts : HoleCounts (k.feed cs) cs) (ys : List Char) :
    j.amid cs (holeLetter :: ys) = j.feed cs := by
  refine (amidFrom_letter h.right List.not_mem_nil).trans (if_neg ?_)
  rintro ⟨text, mark⟩
  rw [HoleCounts, (h.feed cs).state.trans text] at counts
  exact counts mark

/-- Behind a hole that counts, the walks go on from cursors at the same place. -/
theorem agreeAt_cons (h : Kin k j) (counts : HoleCounts (k.feed cs) cs)
    (front : List (List Char)) (last : List Char) :
    AgreeAt k j (cs :: front) last ↔
      AgreeAt (k.feed cs).interpolated (behindLetter (j.feed cs)) front last := by
  refine forall_congr' fun behind => ?_
  have walk := amid_append_letter h.right cs (filled front ++ last) (holeLetter :: behind)
  rw [counts.amid h] at walk
  rw [← walk, filled, List.flatMap_cons, List.append_assoc, List.append_assoc]
  rfl

end Holes

/-! ### Holes that do not count -/

section Hidden

variable {k j : Cursor} {cs : List Char}

/-- The beginning of a tag, up to the value of an attribute. -/
def probe : List Char := "<a b=".toList

/-- In raw text the probe is text. -/
theorem inAttribute_of_raw {more : List Char} (state : k.state = .tagName)
    (plain : ∀ c ∈ more, Text.isBlank c = false ∧ c ≠ '>') {element : String}
    (raw : element ∈ Cursor.rawTextElements)
    (name : Cursor.elementName (String.ofList (k.tag.toList ++ more)) = element) :
    (k.feed (more ++ '>' :: probe)).inAttribute = false := by
  have walk : Reads ('>' :: probe) k (mark none more)
      { k with tag := String.ofList (k.tag.toList ++ more) } := reads_tagName state plain
  have close : Cursor.advance { k with tag := String.ofList (k.tag.toList ++ more) } '>' probe =
      ({ k with state := .rawText, tag := element }, 0) := by
    rw [Cursor.advance_end (by simp [Cursor.inTag, state]) (by simp [state]), Cursor.closeTag, name,
      if_pos (List.contains_iff_mem.mpr raw)]
  have short : probe.length < element.toList.length + 2 := by
    have names : ∀ e ∈ Cursor.rawTextElements, probe.length < e.toList.length + 2 := by decide
    exact names element raw
  have behind : Cursor.feed { k with tag := String.ofList (k.tag.toList ++ more) } ('>' :: probe) =
      { k with state := .rawText, tag := element } := by
    rw [Cursor.feed_cons, close]
    exact Cursor.feed_rawText_of_short rfl short
  have feed := walk.feed
  rw [text_mark, behind] at feed
  rw [feed]
  rfl

/-- Behind a tag with an ordinary name the probe begins a tag. -/
theorem inAttribute_of_ordinary {more : List Char} (state : k.state = .tagName)
    (plain : ∀ c ∈ more, Text.isBlank c = false ∧ c ≠ '>')
    (ordinary : IsOrdinary (String.ofList (k.tag.toList ++ more))) :
    (k.amid (more ++ '>' :: probe) [holeLetter]).inAttribute = true := by
  have walk : Reads ('>' :: probe ++ [holeLetter]) k (mark none more)
      { k with tag := String.ofList (k.tag.toList ++ more) } := reads_tagName state plain
  have close (cs : List Char) :
      Cursor.advance { k with tag := String.ofList (k.tag.toList ++ more) } '>' cs =
        ({ k with state := .text, tag := String.ofList (k.tag.toList ++ more) }, 0) := by
    rw [Cursor.advance_end (by simp [Cursor.inTag, state]) (by simp [state]), Cursor.closeTag,
      ordinary.not_raw]
    rfl
  have place := walk.amid_append
  rw [text_mark] at place
  rw [place, Cursor.amid, Cursor.amidFrom, close]
  rfl

/-- A name of a tag that may become one of an element with raw text becomes one without the letter,
and none with it. -/
theorem exists_differ_tagName (h : Kin k j) (state : k.state = .tagName)
    (hidden : ¬ IsOrdinary k.tag) :
    ∃ next, (k.feed next).inAttribute ≠ ((behindLetter j).amid next [holeLetter]).inAttribute := by
  obtain ⟨element, raw, more, hmore⟩ : ∃ element ∈ Cursor.rawTextElements, ∃ more,
      (Cursor.elementName k.tag).toList ++ more = element.toList := by
    simpa [IsOrdinary, List.IsPrefix] using hidden
  have lower : element.toList.map Char.toLower = element.toList := by
    have names : ∀ e ∈ Cursor.rawTextElements, e.toList.map Char.toLower = e.toList := by decide
    exact names element raw
  have plain : ∀ c ∈ more, Text.isBlank c = false ∧ c ≠ '>' := fun c hc =>
    plain_of_lower raw lower c (hmore ▸ List.mem_append_right _ hc)
  have name : Cursor.elementName (String.ofList (k.tag.toList ++ more)) = element := by
    rw [← hmore, List.map_append] at lower
    rw [Cursor.elementName, String.toList_ofList, List.map_append,
      (List.append_inj lower (by simp)).2, ← elementName_toList, hmore, String.ofList_toList]
  have state' : j.state = .tagName := h.state.symm.trans state
  have letter : behindLetter j = { j with tag := j.tag.push holeLetter } := by
    rw [behindLetter, Cursor.advance_tagName state' (by decide) (by decide)]
  have ordinary : IsOrdinary (String.ofList ((j.tag.push holeLetter).toList ++ more)) :=
    isOrdinary_of_holeLetter (by simp)
  refine ⟨more ++ '>' :: probe, ?_⟩
  have seen := inAttribute_of_ordinary (k := { j with tag := j.tag.push holeLetter }) state' plain
    ordinary
  rw [inAttribute_of_raw state plain raw name, letter, seen]
  exact Bool.false_ne_true

/-- Between attributes, and in a name of a tag that may become one of an element with raw text, the
letter leads to another place than the value. -/
theorem exists_differ (h : Kin k j) (tagged : k.state ≠ .text)
    (hidden : ¬ HoleCounts k cs) :
    ∃ next, (k.interpolated.feed next).inAttribute ≠
      ((behindLetter j).amid next [holeLetter]).inAttribute := by
  cases hstate : k.state with
  | text => exact (tagged hstate).elim
  | comment | rawText | attributeName | beforeValue | value =>
    rw [HoleCounts, hstate] at hidden
    exact (hidden trivial).elim
  | tagName =>
    rw [HoleCounts, hstate] at hidden
    have stays : k.interpolated = k := by rw [Cursor.interpolated, hstate]
    rw [stays]
    exact exists_differ_tagName h hstate hidden
  | inTag =>
    obtain ⟨state, attr, quote, tag⟩ := k
    obtain ⟨state', attr', quote', tag'⟩ := j
    obtain rfl : state = .inTag := hstate
    obtain rfl : .inTag = state' := h.state
    exact ⟨"=".toList, Bool.false_ne_true⟩
  | afterAttributeName =>
    obtain ⟨state, attr, quote, tag⟩ := k
    obtain ⟨state', attr', quote', tag'⟩ := j
    obtain rfl : state = .afterAttributeName := hstate
    obtain rfl : .afterAttributeName = state' := h.state
    exact ⟨"/=".toList, Bool.false_ne_true.symm⟩

/-- Behind a hole that does not count, the walks differ at the next one for some text. -/
theorem exists_not_agreeAt (h : Kin k j) (hidden : ¬ HoleCounts (k.feed cs) cs) :
    ∃ next, ¬ AgreeAt k j [cs] next := by
  have place (ys : List Char) : j.amid cs (holeLetter :: ys) = _ :=
    amidFrom_letter h.right List.not_mem_nil
  -- a text at which the two walks differ behind the hole
  suffices differ : ∃ next, ((k.feed cs).interpolated.feed next).inAttribute ≠
      ((behindLetter (j.amid cs (holeLetter :: (next ++ [holeLetter])))).amid next
        [holeLetter]).inAttribute by
    obtain ⟨next, differ⟩ := differ
    refine ⟨next, fun agree => differ ?_⟩
    rw [← amid_append_letter h.right cs next [holeLetter]]
    have here := agree []
    rwa [filled, List.flatMap_cons, List.flatMap_nil, List.append_nil, List.append_assoc] at here
  by_cases text : (k.feed cs).state = .text
  · -- the letter begins the name of a tag behind the mark
    have mark : cs.getLast? = some '<' := by
      rw [HoleCounts, text] at hidden
      exact not_not.mp hidden
    refine ⟨" b=".toList, ?_⟩
    have text' : (j.feed cs).state = .text := (h.feed cs).state.symm.trans text
    rw [place, if_pos ⟨text', mark⟩, Cursor.interpolated, text]
    generalize k.feed cs = i at text
    obtain ⟨state, attr, quote, tag⟩ := i
    obtain rfl : state = .text := text
    exact Bool.false_ne_true
  · obtain ⟨next, differ⟩ := exists_differ (h.feed cs) text hidden
    refine ⟨next, ?_⟩
    rwa [place, if_neg fun marked => text ((h.feed cs).state.trans marked.1)]

end Hidden

/-- The walks agree at every hole, behind whatever text, if and only if all holes in front of it
count as letters do. -/
theorem agreeAt_iff_of_kin {k j : Cursor} (h : Kin k j) (texts : List (List Char)) :
    (∀ front, front <+: texts → ∀ last, AgreeAt k j front last) ↔
      ∀ front last, front ++ [last] <+: texts →
        HoleCounts ((throughHoles k front).feed last) last := by
  induction texts generalizing k j with
  | nil =>
    constructor
    · intro _ front last inside
      exact absurd (List.prefix_nil.mp inside) (by simp)
    · intro _ front inside last
      obtain rfl := List.prefix_nil.mp inside
      exact h.agreeAt_nil last
  | cons cs rest ih =>
    have behind (counts : HoleCounts (k.feed cs) cs) :=
      ih ((h.feed cs).interpolated counts)
    constructor
    · intro agree
      have counts : HoleCounts (k.feed cs) cs := by
        by_contra hidden
        obtain ⟨next, differ⟩ := exists_not_agreeAt h hidden
        exact differ (agree [cs] (List.cons_prefix_cons.mpr ⟨rfl, List.nil_prefix⟩) next)
      have others := (behind counts).mp fun front inside last => (agreeAt_cons h counts _ _).mp
        (agree (cs :: front) (List.cons_prefix_cons.mpr ⟨rfl, inside⟩) last)
      intro front last inside
      cases front with
      | nil =>
        obtain ⟨rfl, -⟩ := List.cons_prefix_cons.mp inside
        exact counts
      | cons first front =>
        obtain ⟨rfl, inner⟩ := List.cons_prefix_cons.mp inside
        exact others front last inner
    · intro counts front inside last
      have here : HoleCounts (k.feed cs) cs :=
        counts [] cs (List.cons_prefix_cons.mpr ⟨rfl, List.nil_prefix⟩)
      cases front with
      | nil => exact h.agreeAt_nil last
      | cons first front =>
        obtain ⟨rfl, inner⟩ := List.cons_prefix_cons.mp inside
        refine (agreeAt_cons h here front last).mpr ((behind here).mpr ?_ front inner last)
        intro front last inner
        exact counts (first :: front) last (List.cons_prefix_cons.mpr ⟨rfl, inner⟩)

/-- A new cursor is told of the values between texts. It agrees at every hole, behind whatever text,
with the walk over the texts with letters for the values, if and only if all holes in front of it
count as letters do. -/
theorem agreeAt_iff (texts : List (List Char)) :
    (∀ front, front <+: texts → ∀ last, AgreeAt {} {} front last) ↔
      ∀ front last, front ++ [last] <+: texts →
        HoleCounts ((throughHoles {} front).feed last) last := by
  have fresh : Kin {} {} := Kin.of_state (s := .text) (.inl rfl) (by decide) (by decide)
  exact agreeAt_iff_of_kin fresh texts

/-- A value for the name of a tag is not counted: `<`, a hole, ` href="` and a hole. -/
theorem not_agreeAt_tagName : ¬ AgreeAt {} {} ["<".toList] " href=\x22".toList := by
  intro agree
  exact absurd (agree []) (by decide)

end ServerTemplate.Markup
