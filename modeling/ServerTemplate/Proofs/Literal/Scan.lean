import ServerTemplate.Output.Piece
import ServerTemplate.Proofs.Outline.MarkerFree

/-!
# How literal code is scanned

The scanner of markers cuts a text behind a region of code and in front of one, so that the heads
and ends of literal loops and conditionals are found wherever they stand. The texts around them are
arbitrary: the lemmas say what the scanner finds at the beginning of a text and that it goes on with
the rest.
-/

namespace ServerTemplate

/-- A name that is made of word characters. -/
structure WordName (name : String) : Prop where
  nonempty : name ≠ ""
  chars : ∀ c ∈ name.toList, Text.isWordChar c = true

instance (name : String) : Decidable (WordName name) :=
  decidable_of_iff (name ≠ "" ∧ name.toList.all Text.isWordChar = true)
    ⟨fun h => ⟨h.1, List.all_eq_true.mp h.2⟩, fun h => ⟨h.nonempty, List.all_eq_true.mpr h.chars⟩⟩

/-! ### Where the scanner cuts -/

section Step

variable {inCode : Bool} {before : Option Char} {c : Char} {rest left : List Char} {found : Marker}

theorem segmentsFrom_found (h : Marker.at? inCode before (c :: rest) = some (found, left)) :
    segmentsFrom inCode before 0 (c :: rest) =
      .marker found :: segmentsFrom (found.codeAfter inCode) (some c) (rest.length - left.length)
        rest := by
  rw [segmentsFrom, h]

theorem segmentsFrom_passed (h : Marker.at? inCode before (c :: rest) = none) :
    segmentsFrom inCode before 0 (c :: rest) =
      Segment.cons c (segmentsFrom inCode (some c) 0 rest) := by
  rw [segmentsFrom, h]

end Step

/-- In markup the character in front of a text makes no difference. -/
theorem segmentsFrom_markup (before before' : Option Char) (taken : Nat) (cs : List Char) :
    segmentsFrom false before taken cs = segmentsFrom false before' taken cs := by
  cases cs with
  | nil => cases taken <;> rfl
  | cons c rest => cases taken <;> rfl

theorem getLast?_cons_or (c : Char) (cs : List Char) (before : Option Char) :
    (c :: cs).getLast?.or before = cs.getLast?.or (some c) := by
  cases cs <;> simp [List.getLast?_cons]

/-- What belongs to a marker is passed over, and only its last character is looked at again. -/
theorem segmentsFrom_taken (inCode : Bool) (before : Option Char) (word rest : List Char) :
    segmentsFrom inCode before ((word ++ rest).length - rest.length) (word ++ rest) =
      segmentsFrom inCode (word.getLast?.or before) 0 rest := by
  rw [List.length_append, Nat.add_sub_cancel]
  induction word generalizing before with
  | nil => rfl
  | cons c word ih =>
    rw [getLast?_cons_or]
    exact ih (some c)

/-- A text without markers stays without one in front of a region of code. -/
theorem MarkerFree.region?_append {c : Char} {cs : List Char} (free : MarkerFree (c :: cs))
    (rest : List Char) : Marker.region? (c :: cs ++ ("<?php".toList ++ rest)) = none := by
  -- a word of two characters that begins in the text ends in it or with a `<`
  have absent (d : Char) (word : List Char) (hd : d ≠ '<') (hfree : ¬ [c, d] <:+: c :: cs) :
      Marker.after? (c :: d :: word) (c :: cs ++ ("<?php".toList ++ rest)) = none := by
    refine Option.eq_none_iff_forall_ne_some.mpr fun left hleft => ?_
    have same := (List.cons.inj (Marker.after?_eq_some.mp hleft)).2
    cases cs with
    | nil => exact hd (List.cons.inj same).1.symm
    | cons d' cs =>
      have hd' : d' = d := (List.cons.inj same).1
      exact hfree ⟨[], cs, by rw [hd']; rfl⟩
  rw [Marker.region?]
  have opens : Marker.after? "<?php".toList (c :: cs ++ ("<?php".toList ++ rest)) = none := by
    by_cases hopen : c = '<'
    · subst hopen
      exact absent '?' ['p', 'h', 'p'] (by decide) free.1
    · refine Option.eq_none_iff_forall_ne_some.mpr fun left hleft => hopen ?_
      exact (List.cons.inj (Marker.after?_eq_some.mp hleft)).1
  have closes : Marker.after? "?>".toList (c :: cs ++ ("<?php".toList ++ rest)) = none := by
    by_cases hclose : c = '?'
    · subst hclose
      exact absent '>' [] (by decide) free.2
    · refine Option.eq_none_iff_forall_ne_some.mpr fun left hleft => hclose ?_
      exact (List.cons.inj (Marker.after?_eq_some.mp hleft)).1
  rw [opens, closes]
  rfl

/-- In front of a region of code the scanner cuts a text without markers. -/
theorem MarkerFree.segments_append {cs : List Char} (free : MarkerFree cs) (rest : List Char) :
    segments false (cs ++ ("<?php".toList ++ rest)) =
      segments false cs ++ segments false ("<?php".toList ++ rest) := by
  rw [segments, segments, free.segmentsFrom_eq]
  suffices ∀ before, segmentsFrom false before 0 (cs ++ ("<?php".toList ++ rest)) =
      (if cs = [] then [] else [.text cs]) ++ segments false ("<?php".toList ++ rest) from this none
  induction cs with
  | nil => exact fun before => segmentsFrom_markup before none _ _
  | cons c cs ih =>
    intro before
    have none : Marker.at? false before (c :: cs ++ ("<?php".toList ++ rest)) = none :=
      free.region?_append rest
    rw [List.cons_append] at none ⊢
    rw [segmentsFrom, none, ih free.tail]
    cases cs <;> rfl

/-! ### Regions of code -/

/-- Behind the opening of a region the scanner is in code. -/
theorem segments_openCode (rest : List Char) : segments false ("<?php".toList ++ rest) =
    .marker .openCode :: segmentsFrom true (some 'p') 0 rest :=
  congrArg (List.cons _) (segmentsFrom_taken true (some '<') "?php".toList rest)

/-- Behind the end of a region the scanner is in markup again. -/
theorem segmentsFrom_closeCode (before : Option Char) (rest : List Char) :
    segmentsFrom true before 0 ("?>".toList ++ rest) =
      .marker .closeCode :: segments false rest := by
  have closed : segmentsFrom true before 0 ("?>".toList ++ rest) =
      .marker .closeCode ::
        segmentsFrom false (some '?') ((">".toList ++ rest).length - rest.length)
          (">".toList ++ rest) := rfl
  rw [closed, segmentsFrom_taken, segments, segmentsFrom_markup]

/-- A region with one marker in it, behind a blank and in front of some text. -/
theorem segments_markerRegion (c : Char) (word tail : List Char) (marker : Marker)
    (code : marker.codeAfter true = true)
    (found : ∀ rest, Marker.at? true (some ' ') (c :: word ++ (tail ++ ("?>".toList ++ rest))) =
      some (marker, tail ++ ("?>".toList ++ rest)))
    (quiet : ∀ before rest, segmentsFrom true before 0 (tail ++ ("?>".toList ++ rest)) =
      .text tail :: .marker .closeCode :: segments false rest) (rest : List Char) :
    segments false ("<?php ".toList ++ (c :: word ++ (tail ++ ("?>".toList ++ rest)))) =
      [.marker .openCode, .text [' '], .marker marker, .text tail, .marker .closeCode]
        ++ segments false rest := by
  have opened := segments_openCode (' ' :: (c :: word ++ (tail ++ ("?>".toList ++ rest))))
  have marked : segmentsFrom true (some ' ') 0 (c :: word ++ (tail ++ ("?>".toList ++ rest))) =
      .marker marker :: .text tail :: .marker .closeCode :: segments false rest := by
    have found := found rest
    rw [List.cons_append] at found ⊢
    rw [segmentsFrom, found]
    dsimp only
    rw [code, segmentsFrom_taken, quiet]
  have blank : segmentsFrom true (some 'p') 0
      (' ' :: (c :: word ++ (tail ++ ("?>".toList ++ rest)))) =
      Segment.cons ' '
        (segmentsFrom true (some ' ') 0 (c :: word ++ (tail ++ ("?>".toList ++ rest)))) := rfl
  rw [blank, marked] at opened
  exact opened

/-- The end of a statement has no marker in it. -/
theorem segmentsFrom_statementEnd (before : Option Char) (rest : List Char) :
    segmentsFrom true before 0 ("; ".toList ++ ("?>".toList ++ rest)) =
      .text "; ".toList :: .marker .closeCode :: segments false rest := by
  have scanned : segmentsFrom true before 0 ("; ".toList ++ ("?>".toList ++ rest)) =
      Segment.cons ';'
        (Segment.cons ' ' (segmentsFrom true (some ' ') 0 ("?>".toList ++ rest))) := by
    cases h : Marker.noWord before <;> simp [segmentsFrom, Marker.at?, Marker.inCode?, h] <;> rfl
  rw [scanned, segmentsFrom_closeCode]
  rfl

/-- Nor has the end of the head of a block. -/
theorem segmentsFrom_headEnd (before : Option Char) (rest : List Char) :
    segmentsFrom true before 0 (" ) : ".toList ++ ("?>".toList ++ rest)) =
      .text " ) : ".toList :: .marker .closeCode :: segments false rest := by
  have scanned : segmentsFrom true before 0 (" ) : ".toList ++ ("?>".toList ++ rest)) =
      Segment.cons ' ' (Segment.cons ')' (Segment.cons ' ' (Segment.cons ':' (Segment.cons ' '
        (segmentsFrom true (some ' ') 0 ("?>".toList ++ rest)))))) := by
    cases h : Marker.noWord before <;> simp [segmentsFrom, Marker.at?, Marker.inCode?, h] <;> rfl
  rw [scanned, segmentsFrom_closeCode]
  rfl

theorem segments_otherwise (rest : List Char) :
    segments false ("<?php else : ?>".toList ++ rest) =
      [.marker .openCode, .text " else : ".toList, .marker .closeCode] ++ segments false rest := by
  have scanned : segmentsFrom true (some 'p') 0 (" else : ?>".toList ++ rest) =
      Segment.text " else : ".toList :: segmentsFrom true (some ' ') 0 ("?>".toList ++ rest) := rfl
  rw [segmentsFrom_closeCode] at scanned
  exact (segments_openCode _).trans (congrArg (List.cons _) scanned)

theorem segments_ifEnd (rest : List Char) :
    segments false ("<?php endif; ?>".toList ++ rest) =
      [.marker .openCode, .text [' '], .marker .endConditional, .text "; ".toList,
        .marker .closeCode] ++ segments false rest :=
  segments_markerRegion 'e' "ndif".toList _ _ rfl (fun _ => rfl) segmentsFrom_statementEnd rest

theorem segments_loopEnd (rest : List Char) :
    segments false ("<?php endforeach; ?>".toList ++ rest) =
      [.marker .openCode, .text [' '], .marker .endLoop, .text "; ".toList,
        .marker .closeCode] ++ segments false rest :=
  segments_markerRegion 'e' "ndforeach".toList _ _ rfl (fun _ => rfl) segmentsFrom_statementEnd rest

/-! ### Names in code -/

/-- A variable is read whole. -/
theorem Marker.dollarName?_of_wordName {name : String} (word : WordName name) {c : Char}
    (hc : Text.isWordChar c = false) (rest : List Char) :
    dollarName? ('$' :: (name.toList ++ c :: rest)) = some (name, c :: rest) := by
  have taken : (name.toList ++ c :: rest).takeWhile Text.isWordChar = name.toList := by
    rw [List.takeWhile_append_of_pos word.chars, List.takeWhile_cons_of_neg (by simp [hc]),
      List.append_nil]
  have left : (name.toList ++ c :: rest).dropWhile Text.isWordChar = c :: rest := by
    rw [List.dropWhile_append_of_pos word.chars, List.dropWhile_cons_of_neg (by simp [hc])]
  have nonempty : name.toList.isEmpty = false := by
    rw [List.isEmpty_eq_false_iff]
    exact fun h => word.nonempty (String.toList_eq_nil_iff.mp h)
  rw [dollarName?, taken, left, nonempty, String.ofList_toList]
  rfl

/-- The head of a loop over an array is found behind a blank. -/
theorem Marker.at?_loopHead {array item : String} (harray : WordName array) (hitem : WordName item)
    (rest : List Char) :
    at? true (some ' ') ('f' :: ("oreach ( $".toList ++ (array.toList ++ (" as $".toList ++
      (item.toList ++ ' ' :: rest))))) = some (.loop array item, ' ' :: rest) := by
  have first := dollarName?_of_wordName harray (by decide : Text.isWordChar ' ' = false)
    ("as $".toList ++ (item.toList ++ ' ' :: rest))
  have second := dollarName?_of_wordName hitem (by decide : Text.isWordChar ' ' = false) rest
  have head : loopHead? ('f' :: ("oreach ( $".toList ++ (array.toList ++ (" as $".toList ++
      (item.toList ++ ' ' :: rest))))) = (do
        let found ← dollarName? ('$' :: (array.toList ++ ' ' :: ("as $".toList ++
          (item.toList ++ ' ' :: rest))))
        let rest ← afterSomeBlanks? found.2
        let rest ← after? ['a', 's'] rest
        let rest ← afterSomeBlanks? rest
        let found' ← dollarName? rest
        return (loop found.1 found'.1, found'.2)) := rfl
  rw [first] at head
  change _ = (do
    let found ← dollarName? ('$' :: (item.toList ++ ' ' :: rest))
    return (loop array found.1, found.2)) at head
  rw [second] at head
  generalize "oreach ( $".toList ++ _ = cs at head ⊢
  have found : at? true (some ' ') ('f' :: cs) = ((loopHead? ('f' :: cs)).or
      (word? "endif" endConditional ('f' :: cs))).or (conditionalHead? ('f' :: cs)) := rfl
  rw [found, head]
  rfl

/-- The head of a loop with the region around it. -/
theorem segments_loopStart {array item : String} (harray : WordName array) (hitem : WordName item)
    (rest : List Char) :
    segments false ((Piece.loopStart array item).written.toList ++ rest) =
      [.marker .openCode, .text [' '], .marker (.loop array item), .text " ) : ".toList,
        .marker .closeCode] ++ segments false rest := by
  have split : (Piece.loopStart array item).written.toList ++ rest = "<?php ".toList ++
      ('f' :: ("oreach ( $".toList ++ (array.toList ++ (" as $".toList ++ item.toList))) ++
        (" ) : ".toList ++ ("?>".toList ++ rest))) := by
    have head : "<?php foreach ( $".toList = "<?php ".toList ++ 'f' :: "oreach ( $".toList := rfl
    have tail : " ) : ?>".toList = " ) : ".toList ++ "?>".toList := rfl
    change ("<?php foreach ( $" ++ array ++ " as $" ++ item ++ " ) : ?>").toList ++ rest = _
    rw [String.toList_append, String.toList_append, String.toList_append, String.toList_append,
      head, tail]
    simp only [List.append_assoc, List.cons_append]
  rw [split]
  refine segments_markerRegion 'f' _ " ) : ".toList (.loop array item) rfl (fun rest => ?_)
    segmentsFrom_headEnd rest
  have found := Marker.at?_loopHead harray hitem (") : ".toList ++ ("?>".toList ++ rest))
  simp only [List.cons_append, List.append_assoc] at found ⊢
  exact found

end ServerTemplate
