import ServerTemplate.Proofs.Markup.History
import ServerTemplate.Proofs.Markup.RawText

/-!
# Texts that are cut within a word

A text may be walked in two parts unless the first part ends within a word for which the cursor
looks ahead: the mark of a comment, its end, or an end tag in raw text (`Cursor.EndsWithin`).
Behind such a part some text shows the difference. Only the mark of a comment itself, whose last
characters look like the beginning of its end, is no such part.

The main statement is `Cursor.feed_append_after`, for every cursor that operations on a new one lead
to.
-/

namespace ServerTemplate.Cursor

/-- Whether a text, at whose end the cursor stands, ends within a word for which it looks. -/
def EndsWithin (k : Cursor) (cs : List Char) : Prop :=
  match k.state with
  | .text => ∃ word ∈ ["<", "<!", "<!-"], word.toList <:+ cs
  | .comment => "-".toList <:+ cs
  | .rawText => ∃ word, word ≠ [] ∧ word <:+ cs ∧
      word.map Char.toLower <+: "</".toList ++ k.tag.toList ∧
      word.length < k.tag.toList.length + 2
  | _ => False

instance decidableEndsWithin (k : Cursor) (cs : List Char) : Decidable (k.EndsWithin cs) :=
  match state : k.state with
  | .text =>
    decidable_of_iff (∃ word ∈ ["<", "<!", "<!-"], word.toList <:+ cs) (by rw [EndsWithin, state])
  | .comment => decidable_of_iff ("-".toList <:+ cs) (by rw [EndsWithin, state])
  | .rawText =>
    decidable_of_iff (∃ word ∈ cs.tails, word ≠ [] ∧
      word.map Char.toLower <+: "</".toList ++ k.tag.toList ∧
      word.length < k.tag.toList.length + 2) <| by
        rw [EndsWithin, state]
        exact exists_congr fun _ => (and_congr_left' (List.mem_tails ..)).trans and_left_comm
  | .tagName | .inTag | .attributeName | .afterAttributeName | .beforeValue | .value =>
    isFalse (by rw [EndsWithin, state]; exact id)

section Parts

variable {k : Cursor} {word cs xs : List Char}

/-! ### Texts that are not cut -/

/-- A text whose last characters leave open what the cursor looks for ends within a word. -/
theorem LeavesOpen.endsWithin (opens : k.LeavesOpen word) (some : word ≠ []) (last : word <:+ cs) :
    k.EndsWithin cs := by
  rw [EndsWithin]
  cases hstate : k.state with
  | text =>
    rcases opens.text_cases hstate with rfl | rfl | rfl | rfl
    · exact absurd rfl some
    · exact ⟨"<", by decide, last⟩
    · exact ⟨"<!", by decide, last⟩
    · exact ⟨"<!-", by decide, last⟩
  | comment =>
    rcases opens.comment_cases hstate with rfl | rfl | rfl
    · exact absurd rfl some
    · exact last
    · exact (List.suffix_cons '-' ['-']).trans last
  | rawText =>
    rw [LeavesOpen, hstate] at opens
    exact ⟨word, some, last, opens⟩
  | tagName | inTag | attributeName | afterAttributeName | beforeValue | value =>
    rw [LeavesOpen, hstate] at opens
    exact opens

/-- Two texts may be walked one after the other if the first does not end within a word. -/
theorem feed_append_of_not_endsWithin (whole : ¬ (k.feed xs).EndsWithin xs) (ys : List Char) :
    k.feed (xs ++ ys) = (k.feed xs).feed ys := by
  refine feed_append (Bool.eq_false_iff.mpr fun past => whole ?_)
  obtain ⟨c, rest, last, differ⟩ := exists_of_looksPast past
  exact (leavesOpen_of_advance_ne differ).endsWithin (List.cons_ne_nil c rest) last

/-! ### Marks and ends of tags -/

/-- Without the end of a tag in it, no text leads back to text or raw text. -/
theorem advance_eq_of_unended {c : Char} {rest : List Char} (unended : '>' ∉ c :: rest)
    (outside : (k.advance c rest).1.state = .text ∨ (k.advance c rest).1.state = .rawText) :
    (k.advance c rest).1 = k := by
  have other : ¬ (c == '>') = true := by
    rw [beq_iff_eq]
    rintro rfl
    exact unended List.mem_cons_self
  obtain ⟨state, attr, quote, tag⟩ := k
  revert outside
  cases state with
  | text =>
    simp only [advance]
    split
    · rintro (inside | inside) <;> cases inside
    split
    · rintro (inside | inside) <;> cases inside
    · exact fun _ => rfl
  | rawText =>
    simp only [advance]
    split
    · rintro (inside | inside) <;> cases inside
    · exact fun _ => rfl
  | comment =>
    have goes : "-->".toList.isPrefixOf (c :: rest) = false := by
      rw [Bool.eq_false_iff, ne_eq, List.isPrefixOf_iff_prefix]
      exact fun ends => unended (ends.subset (by decide))
    simp only [advance, goes]
    exact fun _ => rfl
  | value =>
    cases quote <;> simp only [advance, if_neg other]
    all_goals
      split
      all_goals rintro (inside | inside) <;> cases inside
  | tagName | inTag | attributeName | afterAttributeName | beforeValue =>
    -- the tag goes on
    simp only [advance, if_neg other]
    repeat' split
    all_goals rintro (inside | inside) <;> cases inside

theorem feedFrom_eq_of_unended {taken : Nat} (unended : '>' ∉ cs)
    (outside : (feedFrom taken k cs).state = .text ∨ (feedFrom taken k cs).state = .rawText) :
    feedFrom taken k cs = k := by
  induction cs generalizing taken k with
  | nil => cases taken <;> rfl
  | cons c rest ih =>
    have unended_rest : '>' ∉ rest := fun h => unended (List.mem_cons_of_mem c h)
    cases taken with
    | succ taken => exact ih unended_rest outside
    | zero =>
      have same : feedFrom 0 k (c :: rest) = (k.advance c rest).1 := ih unended_rest outside
      rw [same] at outside ⊢
      exact advance_eq_of_unended unended outside

theorem feed_eq_of_unended (unended : '>' ∉ cs)
    (outside : (k.feed cs).state = .text ∨ (k.feed cs).state = .rawText) : k.feed cs = k :=
  feedFrom_eq_of_unended unended outside

/-- In front of the mark of a tag a text may be cut: no word for which the cursor looks has such a
mark in it but at its beginning. -/
theorem feed_append_mark (sound : k.Sound) (ys : List Char) :
    k.feed (xs ++ '<' :: ys) = (k.feed xs).feed ('<' :: ys) := by
  refine feed_append (Bool.eq_false_iff.mpr fun past => ?_)
  obtain ⟨c, rest, -, differ⟩ := exists_of_looksPast past
  -- the rest of the word would begin with the mark
  have inside {word front q : List Char} {d : Char} {zs : List Char} (some : q ≠ [])
      (hword : word = d :: front ++ q) (first : q <+: '<' :: zs) : '<' ∈ word.tail := by
    obtain ⟨e, q, rfl⟩ := List.exists_cons_of_ne_nil some
    obtain ⟨rfl, -⟩ := List.cons_prefix_cons.mp first
    rw [hword]
    exact List.mem_append_right front List.mem_cons_self
  cases hstate : (k.feed xs).state with
  | text =>
    rcases advance_text_cases hstate differ with ⟨q, some, hword, first⟩ | ⟨-, -, goes⟩
    · exact absurd (inside some hword first) (by decide)
    · cases goes
  | comment =>
    obtain ⟨q, some, hword, first⟩ := exists_rest_of_advance_comment hstate differ
    exact absurd (inside some hword first) (by decide)
  | rawText =>
    obtain ⟨q, some, hword, first⟩ := exists_rest_of_advance_rawText hstate differ
    have member : '<' ∈ '/' :: (k.feed xs).tag.toList := inside some hword first
    rcases List.mem_cons.mp member with h | h
    · exact absurd h (by decide)
    · exact Markup.no_mark ((sound.feed xs).tag hstate) h
  | tagName | inTag | attributeName | afterAttributeName | beforeValue | value =>
    exact differ (advance_append_of_inTag (by rw [inTag, hstate]))

/-- In a comment a text may be cut in front of the end of the comment. -/
theorem feed_append_commentEnd (comment : (k.feed xs).state = .comment) :
    k.feed (xs ++ "-->".toList) = (k.feed xs).feed "-->".toList := by
  refine feed_append (Bool.eq_false_iff.mpr fun past => ?_)
  obtain ⟨c, rest, -, differ⟩ := exists_of_looksPast past
  obtain ⟨q, some, hword, first⟩ := exists_rest_of_advance_comment comment differ
  -- the rest of the word would be both its end and its beginning
  have last : q <:+ "-->".toList := ⟨c :: rest, hword.symm⟩
  have opens : (k.feed xs).LeavesOpen q := by
    have length := congrArg List.length hword
    rw [List.length_append, List.length_cons] at length
    have mark : "-->".toList.length = 3 := rfl
    rw [LeavesOpen, comment]
    exact ⟨first, by omega⟩
  rcases opens.comment_cases comment with rfl | rfl | rfl
  · exact some rfl
  · exact absurd last (by decide)
  · exact absurd last (by decide)

theorem feed_commentEnd (comment : k.state = .comment) : (k.feed "-->".toList).state = .text := by
  obtain ⟨_, attr, quote, tag⟩ := k
  obtain rfl : _ = MarkupState.comment := comment
  rfl

/-! ### Texts that are cut -/

/-- What leaves open what the cursor looks for is read otherwise where the rest of the word
follows. -/
theorem LeavesOpen.exists_differ (opens : k.LeavesOpen word) (sound : k.Sound) (some : word ≠ []) :
    ∃ ys, (k.feed (word ++ ys)).state ≠ (k.feed ys).state := by
  have begun := List.length_pos_iff.mpr some
  cases hstate : k.state with
  | text =>
    have parts := opens.text_cases hstate
    obtain ⟨_, attr, quote, tag⟩ := k
    obtain rfl : _ = MarkupState.text := hstate
    rcases parts with rfl | rfl | rfl | rfl
    · exact absurd rfl some
    · exact ⟨"!--".toList, MarkupState.noConfusion⟩
    · exact ⟨"--".toList, MarkupState.noConfusion⟩
    · exact ⟨"-".toList, MarkupState.noConfusion⟩
  | comment =>
    rw [LeavesOpen, hstate] at opens
    obtain ⟨⟨ys, hword⟩, -⟩ := opens
    have rest : ys.length < 3 := by
      have length := congrArg List.length hword
      rw [List.length_append] at length
      have mark : "-->".toList.length = 3 := rfl
      omega
    refine ⟨ys, ?_⟩
    rw [hword, feed_commentEnd hstate, feed_comment_of_short hstate rest, hstate]
    exact MarkupState.noConfusion
  | rawText =>
    rw [LeavesOpen, hstate] at opens
    obtain ⟨⟨ys, hword⟩, -⟩ := opens
    have raw := sound.tag hstate
    -- the rest of the word is in lower case
    have lower : ("</".toList ++ k.tag.toList).map Char.toLower = "</".toList ++ k.tag.toList := by
      have names : ∀ e ∈ rawTextElements,
          ("</".toList ++ e.toList).map Char.toLower = "</".toList ++ e.toList := by decide
      exact names _ raw
    rw [← hword, List.map_append] at lower
    have lower_rest := List.append_inj_right' lower (List.length_map ..)
    have ends : (word ++ ys).map Char.toLower = "</".toList ++ k.tag.toList := by
      rw [List.map_append, lower_rest, hword]
    have rest : ys.length < k.tag.toList.length + 2 := by
      have length := congrArg List.length hword
      rw [List.length_append, List.length_append, List.length_map] at length
      have mark : "</".toList.length = 2 := rfl
      omega
    refine ⟨ys, ?_⟩
    rw [Markup.feed_endTag_word hstate raw ends, feed_rawText_of_short hstate rest, hstate]
    exact MarkupState.noConfusion
  | tagName | inTag | attributeName | afterAttributeName | beforeValue | value =>
    rw [LeavesOpen, hstate] at opens
    exact opens.elim

/-- Only the mark of a tag has it for its lower case. -/
theorem eq_mark_of_toLower {c : Char} (h : c.toLower = '<') : c = '<' := by
  unfold Char.toLower at h
  split at h
  · rename_i upper
    have low : 65 ≤ c.val.toNat := UInt32.le_iff_toNat_le.mp upper.1
    have high : c.val.toNat ≤ 90 := UInt32.le_iff_toNat_le.mp upper.2
    have sum : (c.val.toNat + 32) % 2 ^ 32 = 60 := congrArg (fun d => d.val.toNat) h
    omega
  · exact h

/-- In text and in raw text, what is cut begins with the mark of a tag and has no end of one in
it. -/
theorem EndsWithin.exists_mark (ends : k.EndsWithin cs) (sound : k.Sound)
    (outside : k.state = .text ∨ k.state = .rawText) :
    ∃ front rest, cs = front ++ '<' :: rest ∧ k.LeavesOpen ('<' :: rest) ∧ '>' ∉ '<' :: rest := by
  rw [EndsWithin] at ends
  simp only [LeavesOpen]
  rcases outside with text | raw
  · rw [text] at ends ⊢
    obtain ⟨word, listed, front, rfl⟩ := ends
    simp only [List.mem_cons, List.not_mem_nil, or_false] at listed
    rcases listed with rfl | rfl | rfl
    · exact ⟨front, [], rfl, ⟨by decide, by decide⟩, by decide⟩
    · exact ⟨front, ['!'], rfl, ⟨by decide, by decide⟩, by decide⟩
    · exact ⟨front, ['!', '-'], rfl, ⟨by decide, by decide⟩, by decide⟩
  · rw [raw] at ends ⊢
    obtain ⟨word, some, ⟨front, rfl⟩, first, short⟩ := ends
    obtain ⟨c, rest, rfl⟩ := List.exists_cons_of_ne_nil some
    have mark : c.toLower = '<' := (List.cons_prefix_cons.mp first).1
    obtain rfl := eq_mark_of_toLower mark
    refine ⟨front, rest, rfl, ⟨first, short⟩, fun ended => ?_⟩
    have names : ∀ e ∈ rawTextElements, '>' ∉ "</".toList ++ e.toList := by decide
    exact names _ (sound.tag raw) (first.subset (List.mem_map_of_mem (f := Char.toLower) ended))

/-- Where a text ends within a word, some text is walked otherwise behind it. The word of a comment
has to begin behind the mark of the comment. -/
theorem EndsWithin.exists_differ (ends : (k.feed xs).EndsWithin xs) (sound : k.Sound)
    (begun : (k.feed xs).state = .comment → (k.feed xs.dropLast).state = .comment) :
    ∃ ys, k.feed (xs ++ ys) ≠ (k.feed xs).feed ys := by
  cases hstate : (k.feed xs).state with
  | text | rawText =>
    have outside : (k.feed xs).state = .text ∨ (k.feed xs).state = .rawText := by simp [hstate]
    obtain ⟨front, rest, hxs, opens, unended⟩ := ends.exists_mark (sound.feed xs) outside
    -- the cursor is already there in front of the mark
    have walk (ys : List Char) :
        k.feed (xs ++ ys) = (k.feed front).feed ('<' :: rest ++ ys) := by
      rw [hxs, List.append_assoc]
      exact feed_append_mark sound (rest ++ ys)
    have behind : k.feed xs = (k.feed front).feed ('<' :: rest) := by
      simpa only [List.append_nil] using walk []
    have there : k.feed front = k.feed xs :=
      (behind.trans (feed_eq_of_unended unended (behind ▸ outside))).symm
    obtain ⟨ys, differ⟩ := opens.exists_differ (sound.feed xs) (List.cons_ne_nil _ _)
    exact ⟨ys, fun same => differ (by rw [← there, ← walk, same, there])⟩
  | comment =>
    rw [EndsWithin, hstate] at ends
    obtain ⟨front, rfl⟩ := ends
    have comment : (k.feed front).state = .comment := by simpa using begun hstate
    refine ⟨"->".toList, fun same => ?_⟩
    have stays : (k.feed (front ++ "-".toList)).feed "->".toList = k.feed (front ++ "-".toList) :=
      feed_comment_of_short hstate (by decide)
    have ends := feed_commentEnd comment
    rw [stays, List.append_assoc, show "-".toList ++ "->".toList = "-->".toList by decide,
      feed_append_commentEnd comment] at same
    rw [same, hstate] at ends
    cases ends
  | tagName | inTag | attributeName | afterAttributeName | beforeValue | value =>
    rw [EndsWithin, hstate] at ends
    exact ends.elim

end Parts

/-- Behind any operations on a new cursor, a text may be walked in two parts if the first does not
end within a word for which the cursor looks. If it does, some text is walked otherwise behind it,
unless the mark of a comment has only just been passed. -/
theorem feed_append_after (os : List Operation) (xs : List Char) :
    let k := cursorAfter os
    (¬ (k.feed xs).EndsWithin xs → ∀ ys, k.feed (xs ++ ys) = (k.feed xs).feed ys) ∧
      ((k.feed xs).EndsWithin xs →
        ((k.feed xs).state = .comment → (k.feed xs.dropLast).state = .comment) →
        ∃ ys, k.feed (xs ++ ys) ≠ (k.feed xs).feed ys) :=
  ⟨feed_append_of_not_endsWithin, fun ends begun => ends.exists_differ (sound_cursorAfter os) begun⟩

/-- Another end tag in a script is passed in two parts, and a part of the end tag of the script is
not. -/
theorem feed_append_after_script :
    let k := cursorAfter [.feed "<script>".toList]
    (k.feed "</style".toList).state = .rawText ∧
      k.feed ("</style".toList ++ "></script>".toList) =
        (k.feed "</style".toList).feed "></script>".toList ∧
      ∃ ys, k.feed ("</SCR".toList ++ ys) ≠ (k.feed "</SCR".toList).feed ys := by
  intro k
  have whole : ¬ (k.feed "</style".toList).EndsWithin "</style".toList := by decide +kernel
  have cut : (k.feed "</SCR".toList).EndsWithin "</SCR".toList := by decide +kernel
  have raw : (k.feed "</SCR".toList).state = .rawText := by decide +kernel
  refine ⟨by decide +kernel, (feed_append_after [.feed "<script>".toList] _).1 whole _, ?_⟩
  exact (feed_append_after [.feed "<script>".toList] _).2 cut fun comment =>
    MarkupState.noConfusion (raw.symm.trans comment)

end ServerTemplate.Cursor
