import Mathlib.Data.List.Infix
import ServerTemplate.Markup.Cursor

/-!
# Texts that are walked one after the other

A cursor looks ahead: at the beginning of a comment, of a tag and of an end tag it reads more than
one character. `Cursor.looksPast` says that in a text some character moves the cursor otherwise if
another text follows. Where none does, the two texts may be walked one after the other
(`Cursor.feed_append`).

A cursor that ends outside comments and tags looks past the end of a text only if the beginning of a
comment or of a tag is cut there (`Cursor.cut_of_looksPast`).
-/

namespace ServerTemplate

/-- Whether a word begins in one text and ends in the next. -/
def WordCut (word xs ys : List Char) : Prop :=
  ∃ p q : List Char, p ≠ [] ∧ q ≠ [] ∧ word = p ++ q ∧ p <:+ xs ∧ q <+: ys

instance (word xs ys : List Char) : Decidable (WordCut word xs ys) :=
  decidable_of_iff
    (∃ p ∈ word.inits, p ≠ [] ∧ word.drop p.length ≠ [] ∧ p <:+ xs ∧
      word.drop p.length <+: ys) <| by
    constructor
    · rintro ⟨p, hp, nonempty, rest, front, back⟩
      obtain ⟨q, hq⟩ := (List.mem_inits ..).mp hp
      rw [← hq, List.drop_left] at rest back
      exact ⟨p, q, nonempty, rest, hq.symm, front, back⟩
    · rintro ⟨p, q, nonempty, rest, hword, front, back⟩
      refine ⟨p, (List.mem_inits ..).mpr ⟨q, hword.symm⟩, nonempty, ?_⟩
      rw [hword, List.drop_left]
      exact ⟨rest, front, back⟩

/-- A word that is cut between parts of two texts is cut between the texts. -/
theorem WordCut.of_parts {word xs xs' ys ys' : List Char} (h : WordCut word xs ys)
    (last : xs <:+ xs') (first : ys <+: ys') : WordCut word xs' ys' := by
  obtain ⟨p, q, hp, hq, hword, front, back⟩ := h
  exact ⟨p, q, hp, hq, hword, front.trans last, back.trans first⟩

/-- A word at the beginning of two texts is in the first, or the first is a part of the word and the
second goes on with the rest. -/
theorem prefix_append_cases {word xs ys : List Char} (h : word <+: xs ++ ys) :
    word <+: xs ∨ ∃ q, q ≠ [] ∧ word = xs ++ q ∧ q <+: ys := by
  rcases List.prefix_or_prefix_of_prefix h (List.prefix_append xs ys) with inside | ⟨q, hq⟩
  · exact .inl inside
  · by_cases hempty : q = []
    · rw [hempty, List.append_nil] at hq
      exact .inl (hq ▸ List.prefix_rfl)
    · have rest : q <+: ys := (List.prefix_append_right_inj xs).mp (hq ▸ h)
      exact .inr ⟨q, hempty, hq.symm, rest⟩

/-- A word that is at the beginning of a text only if another follows goes on from the first into
the second. -/
theorem exists_rest_of_isPrefixOf_append_ne {word xs ys : List Char}
    (differ : word.isPrefixOf (xs ++ ys) ≠ word.isPrefixOf xs) :
    ∃ q, q ≠ [] ∧ word = xs ++ q ∧ q <+: ys := by
  have both : word <+: xs ++ ys := by
    rw [← List.isPrefixOf_iff_prefix]
    by_contra hboth
    refine differ ((Bool.eq_false_iff.mpr hboth).trans (Bool.eq_false_iff.mpr fun h => ?_).symm)
    refine hboth (List.isPrefixOf_iff_prefix.mpr ?_)
    exact (List.isPrefixOf_iff_prefix.mp h).trans (List.prefix_append xs ys)
  rcases prefix_append_cases both with inside | rest
  · refine (differ ?_).elim
    rw [List.isPrefixOf_iff_prefix.mpr both, List.isPrefixOf_iff_prefix.mpr inside]
  · exact rest

/-- Whether the mark of a tag ends a text and the next goes on as a tag does. -/
def OpenerCut (xs ys : List Char) : Prop :=
  xs.getLast? = some '<' ∧ Cursor.startsTag '<' ys = true

instance (xs ys : List Char) : Decidable (OpenerCut xs ys) := by
  unfold OpenerCut
  infer_instance

theorem OpenerCut.of_parts {xs xs' ys ys' : List Char} (h : OpenerCut xs ys) (last : xs <:+ xs')
    (first : ys <+: ys') : OpenerCut xs' ys' := by
  obtain ⟨mark, goes⟩ := h
  obtain ⟨front, rfl⟩ := last
  obtain ⟨behind, rfl⟩ := first
  refine ⟨by rw [List.getLast?_append, mark]; rfl, ?_⟩
  cases ys with
  | nil => cases goes
  | cons c ys => exact goes

namespace Cursor

/-! ### Characters that are taken along -/

/-- The characters that are taken along stand in the text. -/
theorem advance_le_length (k : Cursor) (c : Char) (rest : List Char) :
    (k.advance c rest).2 ≤ rest.length := by
  have opening (h : "<!--".toList.isPrefixOf (c :: rest) = true) : 3 ≤ rest.length := by
    have length := (List.isPrefixOf_iff_prefix.mp h).length_le
    exact Nat.le_of_succ_le_succ length
  have closing (h : "-->".toList.isPrefixOf (c :: rest) = true) : 2 ≤ rest.length := by
    have length := (List.isPrefixOf_iff_prefix.mp h).length_le
    exact Nat.le_of_succ_le_succ length
  have endTag (h : startsEndTag k.tag (c :: rest) = true) : 1 ≤ rest.length := by
    have length := (List.isPrefixOf_iff_prefix.mp h).length_le
    rw [List.length_append, List.length_map, List.length_cons] at length
    have mark : "</".toList.length = 2 := rfl
    omega
  unfold advance
  split
  · split
    · exact opening ‹_›
    · split <;> exact Nat.zero_le _
  · split
    · exact endTag ‹_›
    · exact Nat.zero_le _
  · split
    · exact closing ‹_›
    · exact Nat.zero_le _
  -- the transitions that read one character only
  all_goals
    repeat' split
    all_goals exact Nat.zero_le _

/-! ### Looking past the end -/

/-- Whether some character of a text, of which the first `taken` are passed already, moves the
cursor otherwise where another text follows. -/
def looksPastFrom : Nat → Cursor → List Char → List Char → Bool
  | _, _, [], _ => false
  | taken + 1, k, _ :: rest, ys => looksPastFrom taken k rest ys
  | 0, k, c :: rest, ys =>
    k.advance c (rest ++ ys) != k.advance c rest ||
      looksPastFrom (k.advance c rest).2 (k.advance c rest).1 rest ys

/-- Whether some character of a text moves the cursor otherwise where another text follows. -/
def looksPast (k : Cursor) (xs ys : List Char) : Bool := looksPastFrom 0 k xs ys

theorem feedFrom_append {taken : Nat} {k : Cursor} {xs ys : List Char}
    (inside : taken ≤ xs.length) (blind : looksPastFrom taken k xs ys = false) :
    feedFrom taken k (xs ++ ys) = (feedFrom taken k xs).feed ys := by
  induction xs generalizing taken k with
  | nil =>
    obtain rfl := Nat.le_zero.mp inside
    rfl
  | cons c rest ih =>
    cases taken with
    | succ taken => exact ih (Nat.le_of_succ_le_succ inside) blind
    | zero =>
      rw [looksPastFrom, Bool.or_eq_false_iff, bne_eq_false_iff_eq] at blind
      rw [List.cons_append, feedFrom, feedFrom, blind.1]
      exact ih (advance_le_length k c rest) blind.2

/-- A cursor that does not look past the end of a text walks the next from there on. -/
theorem feed_append {k : Cursor} {xs ys : List Char} (blind : k.looksPast xs ys = false) :
    k.feed (xs ++ ys) = (k.feed xs).feed ys :=
  feedFrom_append (Nat.zero_le _) blind

/-! ### What is cut there -/

/-- A comment goes on over a text that is shorter than its end. -/
theorem feed_comment_of_short {k : Cursor} (comment : k.state = .comment) {cs : List Char}
    (short : cs.length < 3) : k.feed cs = k := by
  induction cs with
  | nil => rfl
  | cons c rest ih =>
    have noEnd : "-->".toList.isPrefixOf (c :: rest) = false := by
      rw [Bool.eq_false_iff, ne_eq, List.isPrefixOf_iff_prefix]
      exact fun h => absurd h.length_le (Nat.not_le.mpr short)
    have stays : k.advance c rest = (k, 0) := by
      rw [advance, comment]
      dsimp only
      rw [noEnd]
      rfl
    rw [feed_cons, stays]
    exact ih (Nat.lt_of_succ_lt short)

/-- Raw text goes on over a text that is shorter than its end tag. -/
theorem feed_rawText_of_short {k : Cursor} (raw : k.state = .rawText) {cs : List Char}
    (short : cs.length < k.tag.toList.length + 2) : k.feed cs = k := by
  induction cs with
  | nil => rfl
  | cons c rest ih =>
    have noEnd : startsEndTag k.tag (c :: rest) = false := by
      rw [startsEndTag, Bool.eq_false_iff, ne_eq, List.isPrefixOf_iff_prefix]
      intro h
      have length := h.length_le
      rw [List.length_append, List.length_map] at length
      have mark : "</".toList.length = 2 := rfl
      omega
    have stays : k.advance c rest = (k, 0) := by
      rw [advance, raw]
      dsimp only
      rw [noEnd]
      rfl
    rw [feed_cons, stays]
    exact ih (Nat.lt_of_succ_lt short)

/-- Whether a text is the beginning of a longer word for which the cursor looks: of the mark of a
comment, of its end, or of an end tag in any letter case. -/
def LeavesOpen (k : Cursor) (cs : List Char) : Prop :=
  match k.state with
  | .text => cs <+: "<!--".toList ∧ cs.length < 4
  | .comment => cs <+: "-->".toList ∧ cs.length < 3
  | .rawText =>
    cs.map Char.toLower <+: "</".toList ++ k.tag.toList ∧ cs.length < k.tag.toList.length + 2
  | _ => False

theorem LeavesOpen.text_cases {k : Cursor} {cs : List Char} (opens : k.LeavesOpen cs)
    (text : k.state = .text) : cs = [] ∨ cs = ['<'] ∨ cs = ['<', '!'] ∨ cs = ['<', '!', '-'] := by
  rw [LeavesOpen, text] at opens
  obtain ⟨first, short⟩ := opens
  have parts : cs ∈ [[], ['<'], ['<', '!'], ['<', '!', '-'], ['<', '!', '-', '-']] :=
    (List.mem_inits ..).mpr first
  simp only [List.mem_cons, List.not_mem_nil, or_false] at parts
  rcases parts with h | h | h | h | rfl
  · exact .inl h
  · exact .inr (.inl h)
  · exact .inr (.inr (.inl h))
  · exact .inr (.inr (.inr h))
  · exact absurd short (by decide)

theorem LeavesOpen.comment_cases {k : Cursor} {cs : List Char} (opens : k.LeavesOpen cs)
    (comment : k.state = .comment) : cs = [] ∨ cs = ['-'] ∨ cs = ['-', '-'] := by
  rw [LeavesOpen, comment] at opens
  obtain ⟨first, short⟩ := opens
  have parts : cs ∈ [[], ['-'], ['-', '-'], ['-', '-', '>']] := (List.mem_inits ..).mpr first
  simp only [List.mem_cons, List.not_mem_nil, or_false] at parts
  rcases parts with h | h | h | rfl
  · exact .inl h
  · exact .inr (.inl h)
  · exact .inr (.inr h)
  · exact absurd short (by decide)

/-- At such a beginning the cursor does not move. -/
theorem LeavesOpen.feed {k : Cursor} {cs : List Char} (opens : k.LeavesOpen cs) :
    k.feed cs = k := by
  cases hstate : k.state with
  | text =>
    have parts := opens.text_cases hstate
    obtain ⟨_, attr, quote, tag⟩ := k
    obtain rfl : _ = MarkupState.text := hstate
    rcases parts with rfl | rfl | rfl | rfl <;> rfl
  | comment =>
    rw [LeavesOpen, hstate] at opens
    exact feed_comment_of_short hstate opens.2
  | rawText =>
    rw [LeavesOpen, hstate] at opens
    exact feed_rawText_of_short hstate opens.2
  | tagName | inTag | attributeName | afterAttributeName | beforeValue | value =>
    rw [LeavesOpen, hstate] at opens
    exact opens.elim

section Advance

variable {k : Cursor} {c : Char} {rest ys : List Char}

/-- In text a character is read otherwise where another text follows if it begins a comment that
goes on there, or if it is the mark of a tag that does. -/
theorem advance_text_cases (text : k.state = .text)
    (differ : k.advance c (rest ++ ys) ≠ k.advance c rest) :
    (∃ q, q ≠ [] ∧ "<!--".toList = c :: rest ++ q ∧ q <+: ys) ∨
      (c = '<' ∧ rest = [] ∧ startsTag '<' ys = true) := by
  by_cases hcomment :
      "<!--".toList.isPrefixOf (c :: rest ++ ys) = "<!--".toList.isPrefixOf (c :: rest)
  · right
    have tag : startsTag c (rest ++ ys) ≠ startsTag c rest := by
      intro htag
      refine differ ?_
      rw [advance, advance, text]
      dsimp only
      rw [← List.cons_append, hcomment, htag]
    cases rest with
    | cons d rest => exact (tag rfl).elim
    | nil =>
      have alone : startsTag c [] = false := by rw [startsTag]; exact Bool.and_false _
      rw [alone, List.nil_append, ne_eq, Bool.not_eq_false] at tag
      have mark : c = '<' := by
        rw [startsTag, Bool.and_eq_true] at tag
        exact beq_iff_eq.mp tag.1
      subst mark
      exact ⟨rfl, rfl, tag⟩
  · exact .inl (exists_rest_of_isPrefixOf_append_ne hcomment)

/-- In a comment a character is read otherwise if it begins the end of the comment. -/
theorem exists_rest_of_advance_comment (comment : k.state = .comment)
    (differ : k.advance c (rest ++ ys) ≠ k.advance c rest) :
    ∃ q, q ≠ [] ∧ "-->".toList = c :: rest ++ q ∧ q <+: ys := by
  refine exists_rest_of_isPrefixOf_append_ne fun same => differ ?_
  rw [advance, advance, comment]
  dsimp only
  rw [← List.cons_append, same]

/-- In raw text a character is read otherwise if it begins an end tag. -/
theorem exists_rest_of_advance_rawText (raw : k.state = .rawText)
    (differ : k.advance c (rest ++ ys) ≠ k.advance c rest) :
    ∃ q, q ≠ [] ∧ "</".toList ++ k.tag.toList = (c :: rest).map Char.toLower ++ q ∧
      q <+: ys.map Char.toLower := by
  refine exists_rest_of_isPrefixOf_append_ne fun same => differ ?_
  have ends : startsEndTag k.tag (c :: rest ++ ys) = startsEndTag k.tag (c :: rest) := by
    rw [startsEndTag, startsEndTag, List.map_append, same]
  rw [advance, advance, raw]
  dsimp only
  rw [← List.cons_append, ends]

/-- In the other states a character is read alone. -/
theorem advance_append_of_inTag (inside : k.inTag = true) :
    k.advance c (rest ++ ys) = k.advance c rest := by
  rw [advance, advance]
  cases hstate : k.state with
  | text | comment | rawText => simp [inTag, hstate] at inside
  | _ => rfl

/-- Where a character is read otherwise, the text from it on leaves open what the cursor looks
for. -/
theorem leavesOpen_of_advance_ne (differ : k.advance c (rest ++ ys) ≠ k.advance c rest) :
    k.LeavesOpen (c :: rest) := by
  -- a word that goes on behind a text is longer than the text
  have longer {word cs q : List Char} (some : q ≠ []) (hword : word = cs ++ q) :
      cs <+: word ∧ cs.length < word.length := by
    rw [hword, List.length_append]
    exact ⟨List.prefix_append cs q, Nat.lt_add_of_pos_right (List.length_pos_iff.mpr some)⟩
  rw [LeavesOpen]
  cases hstate : k.state with
  | text =>
    rcases advance_text_cases hstate differ with ⟨q, some, hword, -⟩ | ⟨rfl, rfl, -⟩
    · exact longer some hword
    · exact ⟨by decide, by decide⟩
  | comment =>
    obtain ⟨q, some, hword, -⟩ := exists_rest_of_advance_comment hstate differ
    exact longer some hword
  | rawText =>
    obtain ⟨q, some, hword, -⟩ := exists_rest_of_advance_rawText hstate differ
    obtain ⟨first, short⟩ := longer some hword
    rw [List.length_map, List.length_append] at short
    exact ⟨first, Nat.lt_of_lt_of_eq short (Nat.add_comm ..)⟩
  | tagName | inTag | attributeName | afterAttributeName | beforeValue | value =>
    exact differ (advance_append_of_inTag (by rw [inTag, hstate]))

end Advance

/-- A cursor that looks past the end of a text is behind it where it was in front of the characters
that another text makes it read otherwise. -/
theorem exists_of_looksPastFrom {taken : Nat} {k : Cursor} {xs ys : List Char}
    (past : looksPastFrom taken k xs ys = true) :
    ∃ c rest, c :: rest <:+ xs ∧
      (feedFrom taken k xs).advance c (rest ++ ys) ≠ (feedFrom taken k xs).advance c rest := by
  induction xs generalizing taken k with
  | nil => cases past
  | cons d xs ih =>
    have behind {taken : Nat} {k : Cursor} (past : looksPastFrom taken k xs ys = true) :
        ∃ c rest, c :: rest <:+ d :: xs ∧
          (feedFrom taken k xs).advance c (rest ++ ys) ≠ (feedFrom taken k xs).advance c rest := by
      obtain ⟨c, rest, last, differ⟩ := ih past
      exact ⟨c, rest, last.trans (List.suffix_cons d xs), differ⟩
    cases taken with
    | succ taken => exact behind past
    | zero =>
      rw [looksPastFrom, Bool.or_eq_true, bne_iff_ne] at past
      rcases past with differ | past
      · have stays : feedFrom 0 k (d :: xs) = k := (leavesOpen_of_advance_ne differ).feed
        exact ⟨d, xs, List.suffix_rfl, by rwa [stays]⟩
      · exact behind past

theorem exists_of_looksPast {k : Cursor} {xs ys : List Char} (past : k.looksPast xs ys = true) :
    ∃ c rest, c :: rest <:+ xs ∧
      (k.feed xs).advance c (rest ++ ys) ≠ (k.feed xs).advance c rest :=
  exists_of_looksPastFrom past

/-- A cursor that ends outside comments and tags has looked past the end only at the beginning of a
comment or of a tag that is cut there. -/
theorem cut_of_looksPast {k : Cursor} {xs ys : List Char} (text : (k.feed xs).state = .text)
    (past : k.looksPast xs ys = true) : WordCut "<!--".toList xs ys ∨ OpenerCut xs ys := by
  obtain ⟨c, rest, last, differ⟩ := exists_of_looksPast past
  rcases advance_text_cases text differ with ⟨q, some, hword, first⟩ | ⟨rfl, rfl, goes⟩
  · exact .inl ⟨c :: rest, q, List.cons_ne_nil _ _, some, hword, last, first⟩
  · exact .inr (OpenerCut.of_parts ⟨rfl, goes⟩ last List.prefix_rfl)

end Cursor

end ServerTemplate
