import ServerTemplate.Proofs.Literal.Echo
import ServerTemplate.Proofs.Marker.Reach
import ServerTemplate.Proofs.Region.Pieces

/-!
# Marks in code

The marks of a text are the markers that the scanner finds in it, without the strings that it passes
over. `Scans b s ms b'` says that a text `s`, which stands in code or in markup as `b` says, has the
marks `ms` and leads to `b'`, whatever stands in front of it and behind it: no mark goes on in the
text or is begun in it. Behind the name of a variable something must stand that ends the name, since
the name may begin like the head of a block. Fixed code is `hushed`, which can be decided: nothing
in it begins a mark, whatever stands behind it.
-/

namespace ServerTemplate

/-! ### Marks -/

namespace Segment

/-- The markers among some segments, without strings. -/
def marks : List Segment → List Marker
  | [] => []
  | .text _ :: rest => marks rest
  | .marker .quoted :: rest => marks rest
  | .marker found :: rest => found :: marks rest

/-- A text more or less makes no difference. -/
theorem marks_cons (c : Char) (xs : List Segment) : marks (Segment.cons c xs) = marks xs := by
  rcases xs with _ | ⟨_ | _, _⟩ <;> rfl

/-- What is heeded has the same marks. -/
theorem marks_heeded (inCode : Bool) (xs : List Segment) : marks (heeded inCode xs) = marks xs := by
  induction xs generalizing inCode with
  | nil => rfl
  | cons x xs ih =>
    cases x with
    | text content =>
      rw [heeded]
      split
      · exact ih inCode
      · exact ih inCode
    | marker found =>
      cases found with
      | quoted => exact ih inCode
      | _ => exact congrArg (List.cons _) (ih _)

end Segment

/-- The marks of a text behind the character `before`. -/
def marksFrom (inCode : Bool) (before : Option Char) (cs : List Char) : List Marker :=
  Segment.marks (segmentsFrom inCode before 0 cs)

/-- The marks of a text that begins in markup. -/
def marks (cs : List Char) : List Marker := marksFrom false none cs

section Marks

variable {inCode : Bool} {before : Option Char} {c : Char} {word cs tail : List Char}
  {found : Marker}

theorem marksFrom_markup (before : Option Char) (cs : List Char) :
    marksFrom false before cs = marks cs :=
  congrArg Segment.marks (segmentsFrom_markup before none 0 cs)

/-- Where no marker begins, a character is passed. -/
theorem marksFrom_passed (h : Marker.at? inCode before (c :: cs) = none) :
    marksFrom inCode before (c :: cs) = marksFrom inCode (some c) cs := by
  rw [marksFrom, segmentsFrom_passed h, Segment.marks_cons]
  rfl

/-- The segments behind a marker. -/
theorem segmentsFrom_behind
    (h : Marker.at? inCode before (c :: word ++ tail) = some (found, tail)) :
    segmentsFrom inCode before 0 (c :: word ++ tail) = .marker found ::
      segmentsFrom (found.codeAfter inCode) (word.getLast?.or (some c)) 0 tail := by
  rw [List.cons_append] at h ⊢
  rw [segmentsFrom_found h, segmentsFrom_taken]

theorem marksFrom_found (h : Marker.at? inCode before (c :: word ++ tail) = some (found, tail))
    (mark : found ≠ .quoted) : marksFrom inCode before (c :: word ++ tail) =
      found :: marksFrom (found.codeAfter inCode) (word.getLast?.or (some c)) tail := by
  rw [marksFrom, segmentsFrom_behind h]
  cases found with
  | quoted => exact (mark rfl).elim
  | _ => rfl

theorem marksFrom_quoted (h : Marker.at? inCode before (c :: word ++ tail) = some (.quoted, tail)) :
    marksFrom inCode before (c :: word ++ tail) =
      marksFrom inCode (word.getLast?.or (some c)) tail := by
  rw [marksFrom, segmentsFrom_behind h]
  rfl

end Marks

/-! ### Texts and their marks -/

/-- In code or markup a text has some marks and leads to code or markup, whatever stands in front of
it and behind it. Unless it is `closed`, what stands behind it ends a name. -/
def Scans (b : Bool) (s : String) (ms : List Marker) (b' closed : Bool) : Prop :=
  ∀ before tail, closed = true ∨ Marker.EndsName tail →
    ∃ last, marksFrom b before (s.toList ++ tail) = ms ++ marksFrom b' last tail

/-- A text that ends a name in front of it: neither a word nor a bracket. -/
def endsName (cs : List Char) : Bool :=
  Marker.noWord cs.head? && (Marker.skipBlanks cs).head?.any (· != '(')

theorem Marker.EndsName.of_endsName {cs : List Char} (h : endsName cs = true) (tail : List Char) :
    Marker.EndsName (cs ++ tail) := by
  obtain ⟨word, bracket⟩ := Bool.and_eq_true_iff.mp h
  cases cs with
  | nil => cases bracket
  | cons c cs =>
    refine ⟨word, ?_⟩
    cases hskip : Marker.skipBlanks (c :: cs) with
    | nil => rw [hskip] at bracket; cases bracket
    | cons d ds =>
      have whole : Marker.skipBlanks (c :: cs ++ tail) = d :: ds ++ tail := by
        unfold Marker.skipBlanks at hskip ⊢
        rw [List.dropWhile_append, hskip]
        rfl
      rw [hskip] at bracket
      rw [whole]
      exact if_neg fun same => absurd (beq_iff_eq.mp same).symm (bne_iff_ne.mp bracket)

namespace Scans

variable {b b' b'' closed closed' : Bool} {s s' : String} {ms ms' : List Marker}

theorem append (h : Scans b s ms b' closed) (h' : Scans b' s' ms' b'' closed')
    (ends : closed = true ∨ endsName s'.toList = true) :
    Scans b (s ++ s') (ms ++ ms') b'' closed' := by
  intro before tail htail
  rw [String.toList_append, List.append_assoc]
  obtain ⟨last, first⟩ := h before (s'.toList ++ tail) (ends.imp_right fun h => .of_endsName h tail)
  obtain ⟨last', second⟩ := h' last tail htail
  exact ⟨last', by rw [first, second, List.append_assoc]⟩

/-- What may stand in front of anything may stand in front of the end of a name. -/
theorem weaken (h : Scans b s ms b' true) (closed : Bool) : Scans b s ms b' closed :=
  fun before tail _ => h before tail (.inl rfl)

/-- Behind a text that leads from markup to markup the marks go on. -/
theorem marks_append (h : Scans false s ms false true) (rest : List Char) :
    marks (s.toList ++ rest) = ms ++ marks rest := by
  obtain ⟨last, scanned⟩ := h none rest (.inl rfl)
  rw [marksFrom_markup, marksFrom_markup] at scanned
  exact scanned

end Scans

/-! ### Code without marks -/

/-- The marks of regions and the words of blocks are no beginning of a text and the text is no
beginning of theirs. -/
def apart (word cs : List Char) : Bool := !word.isPrefixOf cs && !cs.isPrefixOf word

theorem after?_of_apart {word cs : List Char} (h : apart word cs = true) (tail : List Char) :
    Marker.after? word (cs ++ tail) = none := by
  induction word generalizing cs with
  | nil => cases cs <;> cases h
  | cons w word ih =>
    cases cs with
    | nil => simp [apart] at h
    | cons c cs =>
      rw [List.cons_append, Marker.after?]
      split
      · rename_i same
        refine ih ?_
        rw [← h, apart, apart, List.isPrefixOf, List.isPrefixOf, same, BEq.comm.trans same]
        simp
      · rfl

/-- Whether nothing that begins in a text can be a mark or a string, whatever stands behind it. A
word begins where `fresh`. -/
def hushedFrom : Bool → List Char → Bool
  | _, [] => true
  | fresh, c :: cs =>
    !isQuote c && ["<?php", "?>"].all (fun mark => apart mark.toList (c :: cs)) &&
      (!fresh || ["endforeach", "foreach", "endif", "if"].all fun word =>
        apart word.toList (c :: cs)) &&
      hushedFrom (!Text.isWordChar c) cs

/-- Whether a text holds no mark and no string, whatever stands in front of it and behind it. -/
def hushed (s : String) : Bool := hushedFrom true s.toList

theorem Marker.at?_of_hushed {before : Option Char} {fresh : Bool} {c : Char} {cs : List Char}
    (h : hushedFrom fresh (c :: cs) = true) (word : noWord before = true → fresh = true)
    (tail : List Char) : at? true before (c :: cs ++ tail) = none := by
  simp only [hushedFrom, List.all_cons, List.all_nil, Bool.and_true, Bool.and_eq_true,
    Bool.or_eq_true, Bool.not_eq_true'] at h
  obtain ⟨⟨⟨quote, opens, closes⟩, words⟩, -⟩ := h
  have region : region? (c :: cs ++ tail) = none := by
    rw [region?, after?_of_apart opens, after?_of_apart closes]
    rfl
  have none : noWord before = true → (((word? "endforeach" endLoop (c :: cs ++ tail)).or
      (loopHead? (c :: cs ++ tail))).or (word? "endif" endConditional (c :: cs ++ tail))).or
        (conditionalHead? (c :: cs ++ tail)) = none := by
    intro free
    obtain ⟨loopEnd, loopStart, ifEnd, ifStart⟩ := words.resolve_left (by simp [word free])
    have ifStart : after? ['i', 'f'] (c :: cs ++ tail) = none := after?_of_apart ifStart tail
    rw [word?, loopHead?, word?, conditionalHead?, after?_of_apart loopEnd,
      after?_of_apart loopStart, after?_of_apart ifEnd, ifStart]
    rfl
  have noQuote : (c == '\x22' || c == '\x27') = false := quote
  change inCode? before (c :: (cs ++ tail)) = _
  rw [inCode?]
  simp only [noQuote, Bool.false_eq_true, if_false]
  change (region? (c :: cs ++ tail)).or _ = _
  rw [region]
  split
  · rename_i free
    exact none free
  · rfl

/-- A hushed text has no marks. -/
theorem Scans.of_hushed {s : String} (h : hushed s = true) : Scans true s [] true true := by
  suffices ∀ (cs : List Char) (fresh : Bool) (before : Option Char), hushedFrom fresh cs = true →
      (Marker.noWord before = true → fresh = true) → ∀ tail,
        ∃ last, marksFrom true before (cs ++ tail) = marksFrom true last tail from
    fun before tail _ => this s.toList true before h (fun _ => rfl) tail
  intro cs
  induction cs with
  | nil => exact fun _ before _ _ tail => ⟨before, rfl⟩
  | cons c cs ih =>
    intro fresh before h word tail
    have rest : hushedFrom (!Text.isWordChar c) cs = true := (Bool.and_eq_true_iff.mp h).2
    obtain ⟨last, passed⟩ := ih _ (some c) rest (fun noWord => noWord) tail
    refine ⟨last, ?_⟩
    have none := Marker.at?_of_hushed h word tail
    rw [List.cons_append] at none ⊢
    rw [marksFrom_passed none, passed]

example : hushed " elseif ( " = true ∧ hushed " else if ( " = false := by decide +kernel

/-! ### Names and strings -/

theorem endsNoBlock_of_none {before : Option Char} {cs : List Char}
    (h : endsNoBlock none cs = true) : endsNoBlock before cs = true := by
  cases cs with
  | nil => rfl
  | cons c cs =>
    rw [endsNoBlock, Bool.and_eq_true] at h ⊢
    refine ⟨?_, h.2⟩
    cases hword : Marker.noWord before with
    | false => rfl
    | true => exact h.1

/-- A name that is not the word of a block. -/
theorem Scans.name {name : String} (h : EchoName name) : Scans true name [] true false := by
  intro before tail ends
  have words : endsNoBlock none name.toList = true := by
    have words := h.words
    cases hname : name.toList with
    | nil => rfl
    | cons c cs => rwa [hname] at words
  obtain ⟨last, scanned⟩ := segmentsFrom_name h.chars (endsNoBlock_of_none words)
    (ends.resolve_left Bool.false_ne_true)
  refine ⟨last, ?_⟩
  have passed (front : List Char) (xs : List Segment) :
      Segment.marks (front.foldr Segment.cons xs) = Segment.marks xs := by
    induction front with
    | nil => rfl
    | cons c front ih => rw [List.foldr_cons, Segment.marks_cons, ih]
  rw [marksFrom, scanned, passed]
  rfl

theorem Scans.variable {name : String} (h : EchoName name) :
    Scans true ("$" ++ name) [] true false :=
  (Scans.of_hushed (by decide : hushed "$" = true)).append (.name h) (.inl rfl)

/-- The quote behind a text whose quotes are escaped closes it. -/
theorem quotedLength?_escapeQuotes (cs tail : List Char) :
    Marker.quotedLength? '\x27' (Literal.escapeQuotes cs ++ ['\x27'] ++ tail) =
      some (Literal.escapeQuotes cs ++ ['\x27']).length := by
  induction cs with
  | nil => rfl
  | cons c cs ih =>
    rw [Literal.escapeQuotes]
    split
    · rename_i special
      have noBreak : ¬ (c == '\n') = true := fun hc => by
        rw [beq_iff_eq.mp hc] at special
        cases special
      simp only [List.cons_append, Marker.quotedLength?, if_neg noBreak, ih]
      rfl
    · rename_i ordinary
      rw [Bool.or_eq_true, not_or] at ordinary
      obtain ⟨noEscape, noQuote⟩ := ordinary
      have noEscape : c ≠ '\\' := fun h => noEscape (beq_iff_eq.mpr h)
      simp only [List.cons_append, Marker.quotedLength?_cons noEscape, if_neg noQuote, ih]
      rfl

/-- A text in single quotes is a string. -/
theorem Scans.ofText (s : String) : Scans true (Literal.ofText s) [] true true := by
  intro before tail _
  have split : (Literal.ofText s).toList ++ tail =
      '\x27' :: (Literal.escapeQuotes s.toList ++ ['\x27']) ++ tail := by
    rw [Literal.ofText, String.toList_ofList]
    rfl
  have closed := quotedLength?_escapeQuotes s.toList tail
  generalize Literal.escapeQuotes s.toList ++ ['\x27'] = string at split closed
  have found : Marker.at? true before ('\x27' :: string ++ tail) = some (.quoted, tail) := by
    have quoted : Marker.at? true before ('\x27' :: string ++ tail) =
        (Marker.quotedLength? '\x27' (string ++ tail)).map
          fun length => (.quoted, (string ++ tail).drop length) := rfl
    rw [quoted, closed, Option.map_some, List.drop_left]
  rw [split, marksFrom_quoted found]
  exact ⟨_, rfl⟩

end ServerTemplate
