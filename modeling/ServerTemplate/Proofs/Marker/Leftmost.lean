import ServerTemplate.Proofs.Literal.Scan
import ServerTemplate.Proofs.Region.Scan

/-!
# Markers as leftmost matches

What a marker looks like, said without a scanner: `Marker.Matches` has one case for each pattern.
`Marker.Leftmost` is the search for matches in a text from left to right, each of them the leftmost
behind the one before, where a match tells whether code follows. The scanner finds just these
(`leftmost_iff`): a text begins with a match where the scanner finds a marker
(`exists_matches`, `Matches.at?_eq`), so a marker that it finds first is the leftmost.
-/

namespace ServerTemplate

namespace Marker

/-! ### Patterns -/

/-- What may stand between the quotes of a string in code: characters that are neither the quote nor
a backslash, and backslashes each of which hides a character that is no line feed. -/
inductive IsQuotedBody (mark : Char) : List Char → Prop
  | nil : IsQuotedBody mark []
  | plain {c : Char} {cs : List Char} : c ≠ mark → c ≠ '\\' → IsQuotedBody mark cs →
      IsQuotedBody mark (c :: cs)
  | hidden {d : Char} {cs : List Char} : d ≠ '\n' → IsQuotedBody mark cs →
      IsQuotedBody mark ('\\' :: d :: cs)

/-- Blanks, perhaps none. -/
def AreBlank (cs : List Char) : Prop := ∀ c ∈ cs, Text.isBlank c = true

/-- Word characters, as many as there are in front of some others. -/
structure IsNameBefore (name rest : List Char) : Prop where
  nonempty : name ≠ []
  word : ∀ c ∈ name, Text.isWordChar c = true
  ends : noWord rest.head? = true

/-- The head of a loop is spelled in some way in front of some characters. -/
inductive IsLoopHead : Marker → List Char → List Char → Prop
  | mk {b b' space space' array item rest : List Char} : AreBlank b → AreBlank b' →
      AreBlank space → AreBlank space' → space ≠ [] → space' ≠ [] →
      IsNameBefore array (space ++ 'a' :: 's' :: (space' ++ '$' :: (item ++ rest))) →
      IsNameBefore item rest →
      IsLoopHead (loop (.ofList array) (.ofList item))
        ("foreach".toList ++ (b ++ '(' :: (b' ++ '$' :: (array ++
          (space ++ 'a' :: 's' :: (space' ++ '$' :: item)))))) rest

/-- A marker is spelled in some way between the character `before` and the characters `rest`, in
code or in markup. -/
inductive Matches (inCode : Bool) (before : Option Char) :
    Marker → List Char → List Char → Prop
  | openCode {rest : List Char} : Matches inCode before openCode "<?php".toList rest
  | closeCode {rest : List Char} : Matches inCode before closeCode "?>".toList rest
  | quoted {mark : Char} {body rest : List Char} : inCode = true → mark = '\x27' ∨ mark = '\x22' →
      IsQuotedBody mark body → Matches inCode before quoted (mark :: (body ++ [mark])) rest
  | endLoop {rest : List Char} : inCode = true → noWord before = true →
      noWord rest.head? = true → Matches inCode before endLoop "endforeach".toList rest
  | loop {found : Marker} {matched rest : List Char} : inCode = true → noWord before = true →
      IsLoopHead found matched rest → Matches inCode before found matched rest
  | endConditional {rest : List Char} : inCode = true → noWord before = true →
      noWord rest.head? = true → Matches inCode before endConditional "endif".toList rest
  | conditional {b rest : List Char} : inCode = true → noWord before = true → AreBlank b →
      Matches inCode before conditional ("if".toList ++ (b ++ ['('])) rest

/-! ### What the scanner finds at the beginning of a text -/

variable {inCode : Bool} {before : Option Char} {c mark : Char} {cs rest : List Char}
  {found : Marker}

/-- What is left when the characters of a class are dropped begins with none of them. -/
theorem any_head?_dropWhile (p : Char → Bool) : (cs.dropWhile p).head?.any p = false := by
  have other := List.head?_dropWhile_not p cs
  cases first : (cs.dropWhile p).head? with
  | none => rfl
  | some c =>
    rw [first] at other
    simpa using other

theorem dropWhile_eq_self {p : Char → Bool} (other : rest.head?.any p = false) :
    rest.dropWhile p = rest := by
  cases rest with
  | nil => rfl
  | cons c rest => exact List.dropWhile_cons_of_neg (Bool.eq_false_iff.mp other)

/-- What is left without blanks is what is behind some blanks and begins with none. -/
theorem skipBlanks_eq_iff : skipBlanks cs = rest ↔
    ∃ b, AreBlank b ∧ cs = b ++ rest ∧ rest.head?.any Text.isBlank = false := by
  constructor
  · rintro rfl
    exact ⟨cs.takeWhile Text.isBlank, fun c mem => List.mem_takeWhile_imp mem,
      List.takeWhile_append_dropWhile.symm, any_head?_dropWhile Text.isBlank⟩
  · rintro ⟨b, blank, rfl, other⟩
    rw [skipBlanks, List.dropWhile_append_of_pos blank, dropWhile_eq_self other]

/-- A word behind blanks. -/
theorem after?_skipBlanks {word : List Char} (other : Text.isBlank c = false) :
    after? (c :: word) (skipBlanks cs) = some rest ↔
      ∃ b, AreBlank b ∧ cs = b ++ (c :: word ++ rest) := by
  rw [after?_eq_some, skipBlanks_eq_iff]
  exact exists_congr fun b => and_congr_right fun _ => and_iff_left other

/-- What is left without blanks, of which there must be some. -/
theorem afterSomeBlanks?_eq_some_iff : afterSomeBlanks? cs = some rest ↔
    ∃ b, AreBlank b ∧ b ≠ [] ∧ cs = b ++ rest ∧ rest.head?.any Text.isBlank = false := by
  rw [afterSomeBlanks?]
  constructor
  · intro h
    split at h
    · next begins =>
      obtain ⟨b, blank, rfl, other⟩ := skipBlanks_eq_iff.mp (Option.some.inj h)
      refine ⟨b, blank, ?_, rfl, other⟩
      rintro rfl
      rw [List.nil_append, other] at begins
      cases begins
    · cases h
  · rintro ⟨b, blank, nonempty, rfl, other⟩
    obtain ⟨c, b, rfl⟩ := List.exists_cons_of_ne_nil nonempty
    have begins : ((c :: b) ++ rest).head?.any Text.isBlank = true := blank c (.head _)
    rw [if_pos begins, skipBlanks_eq_iff.mpr ⟨c :: b, blank, rfl, other⟩]

/-- The name of a variable. -/
theorem dollarName?_eq_some_iff {name : String} : dollarName? cs = some (name, rest) ↔
    ∃ letters, name = .ofList letters ∧ IsNameBefore letters rest ∧
      cs = '$' :: (letters ++ rest) := by
  constructor
  · intro h
    unfold dollarName? at h
    split at h
    · next behind =>
      dsimp only at h
      split at h
      · cases h
      · next nonempty =>
        cases h
        refine ⟨_, rfl, ⟨by simpa using nonempty, fun c mem => List.mem_takeWhile_imp mem, ?_⟩, ?_⟩
        · rw [noWord, any_head?_dropWhile]
          rfl
        · rw [List.takeWhile_append_dropWhile]
    · cases h
  · rintro ⟨letters, rfl, ⟨nonempty, word, ends⟩, rfl⟩
    rw [noWord, Bool.not_eq_true'] at ends
    have left : (letters ++ rest).dropWhile Text.isWordChar = rest := by
      rw [List.dropWhile_append_of_pos word, dropWhile_eq_self ends]
    have taken : (letters ++ rest).takeWhile Text.isWordChar = letters := by
      have whole := List.takeWhile_append_dropWhile (p := Text.isWordChar) (l := letters ++ rest)
      rw [left] at whole
      exact List.append_cancel_right whole
    simp [dollarName?, taken, left, nonempty]

/-- A quoted string goes up to the first quote that is not hidden. -/
theorem exists_of_quotedLength? {n : Nat} (h : quotedLength? mark cs = some n) :
    ∃ body, IsQuotedBody mark body ∧ cs = body ++ mark :: cs.drop n := by
  fun_induction quotedLength? mark cs generalizing n with
  | case1 | case2 | case3 => cases h
  | case4 d rest hd ih =>
    obtain ⟨k, hk, rfl⟩ := Option.map_eq_some_iff.mp h
    obtain ⟨body, isBody, split⟩ := ih hk
    exact ⟨'\\' :: d :: body, .hidden (by simpa using hd) isBody,
      congrArg (fun cs => '\\' :: d :: cs) split⟩
  | case5 c rest hlast hescape hc =>
    cases h
    exact ⟨[], .nil, by rw [beq_iff_eq.mp hc]; rfl⟩
  | case6 c rest hlast hescape hc ih =>
    obtain ⟨k, hk, rfl⟩ := Option.map_eq_some_iff.mp h
    obtain ⟨body, isBody, split⟩ := ih hk
    exact ⟨c :: body, .plain (by simpa using hc)
      (ne_of_beq_false (beq_backslash_eq_false hlast hescape)) isBody, congrArg (c :: ·) split⟩

theorem IsQuotedBody.quotedLength? {body : List Char} (h : IsQuotedBody mark body)
    (quote : mark ≠ '\\') :
    Marker.quotedLength? mark (body ++ mark :: rest) = some (body.length + 1) := by
  induction h with
  | nil => rw [List.nil_append, quotedLength?_cons quote, if_pos (beq_self_eq_true mark)]; rfl
  | plain other noEscape _ ih =>
    rw [List.cons_append, quotedLength?_cons noEscape, if_neg (by simpa using other), ih]
    rfl
  | hidden visible _ ih =>
    rw [List.cons_append, List.cons_append, Marker.quotedLength?, if_neg (by simpa using visible),
      ih]
    rfl

/-! ### One marker -/

theorem exists_matches_region (h : region? cs = some (found, rest)) :
    ∃ matched, Matches inCode before found matched rest ∧ cs = matched ++ rest := by
  rw [region?, Option.or_eq_some_iff] at h
  rcases h with h | ⟨-, h⟩
  all_goals
    obtain ⟨_, after, same⟩ := Option.map_eq_some_iff.mp h
    cases same
  · exact ⟨_, .openCode, after?_eq_some.mp after⟩
  · exact ⟨_, .closeCode, after?_eq_some.mp after⟩

/-- A word that is a marker by itself. -/
theorem word?_eq_some_iff {word : String} {marker : Marker} :
    word? word marker cs = some (found, rest) ↔
      cs = word.toList ++ rest ∧ noWord rest.head? = true ∧ found = marker := by
  unfold word?
  simp only [Option.bind_eq_bind, Option.bind_eq_some_iff, after?_eq_some]
  constructor
  · rintro ⟨left, rfl, h⟩
    split at h
    · next ends =>
      cases h
      exact ⟨rfl, ends, rfl⟩
    · cases h
  · rintro ⟨rfl, ends, rfl⟩
    exact ⟨rest, rfl, if_pos ends⟩

theorem conditionalHead?_eq_some_iff : conditionalHead? cs = some (found, rest) ↔
    ∃ b, AreBlank b ∧ cs = "if".toList ++ (b ++ '(' :: rest) ∧ found = conditional := by
  unfold conditionalHead?
  simp only [Option.bind_eq_bind, Option.bind_eq_some_iff, after?_eq_some]
  constructor
  · rintro ⟨r₁, rfl, r₂, h₂, h⟩
    cases h
    obtain ⟨b, blank, rfl⟩ := (after?_skipBlanks (by decide)).mp (after?_eq_some.mpr h₂)
    exact ⟨b, blank, rfl, rfl⟩
  · rintro ⟨b, blank, rfl, rfl⟩
    exact ⟨_, rfl, rest, after?_eq_some.mp ((after?_skipBlanks (by decide)).mpr ⟨b, blank, rfl⟩),
      rfl⟩

theorem loopHead?_eq_some_iff : loopHead? cs = some (found, rest) ↔
    ∃ matched, IsLoopHead found matched rest ∧ cs = matched ++ rest := by
  unfold loopHead?
  simp only [Option.bind_eq_bind, Option.bind_eq_some_iff, Prod.exists]
  constructor
  · rintro ⟨r₁, h₁, r₂, h₂, array, r₃, h₃, r₄, h₄, r₅, h₅, r₆, h₆, item, r₇, h₇, h⟩
    cases h
    obtain ⟨b, blank, rfl⟩ := (after?_skipBlanks (by decide)).mp h₂
    obtain ⟨array, rfl, isArray, h₃⟩ := dollarName?_eq_some_iff.mp h₃
    obtain ⟨b', blank', rfl, -⟩ := skipBlanks_eq_iff.mp h₃
    obtain ⟨space, isSpace, some, rfl, -⟩ := afterSomeBlanks?_eq_some_iff.mp h₄
    obtain rfl := after?_eq_some.mp h₅
    obtain ⟨space', isSpace', some', rfl, -⟩ := afterSomeBlanks?_eq_some_iff.mp h₆
    obtain ⟨item, rfl, isItem, rfl⟩ := dollarName?_eq_some_iff.mp h₇
    refine ⟨_, .mk blank blank' isSpace isSpace' some some' isArray isItem, ?_⟩
    simpa using after?_eq_some.mp h₁
  · rintro ⟨_, @⟨b, b', space, space', array, item, _, blank, blank', isSpace, isSpace', some,
      some', isArray, isItem⟩, rfl⟩
    let left := array ++ (space ++ 'a' :: 's' :: (space' ++ '$' :: (item ++ rest)))
    have text : "foreach".toList ++ (b ++ '(' :: (b' ++ '$' :: (array ++
        (space ++ 'a' :: 's' :: (space' ++ '$' :: item))))) ++ rest =
          "foreach".toList ++ (b ++ '(' :: (b' ++ '$' :: left)) := by
      simp [left]
    rw [text]
    -- behind each part stands the next, and none of them begins with a blank
    exact ⟨_, after?_eq_some.mpr rfl, _, (after?_skipBlanks (by decide)).mpr ⟨b, blank, rfl⟩, _, _,
      dollarName?_eq_some_iff.mpr ⟨array, rfl, isArray,
        skipBlanks_eq_iff.mpr ⟨b', blank', rfl, rfl⟩⟩, _,
      afterSomeBlanks?_eq_some_iff.mpr ⟨space, isSpace, some, rfl, rfl⟩, _,
      after?_eq_some.mpr rfl, _,
      afterSomeBlanks?_eq_some_iff.mpr ⟨space', isSpace', some', rfl, rfl⟩, _, _,
      dollarName?_eq_some_iff.mpr ⟨item, rfl, isItem, rfl⟩, rfl⟩

/-- What the scanner finds at the beginning of a text is a match. -/
theorem exists_matches (h : at? inCode before cs = some (found, rest)) :
    ∃ matched, Matches inCode before found matched rest ∧ cs = matched ++ rest := by
  cases inCode with
  | false => exact exists_matches_region h
  | true =>
    cases cs with
    | nil => cases h
    | cons c cs =>
      have h : inCode? before (c :: cs) = some (found, rest) := h
      unfold inCode? at h
      dsimp only at h
      split at h
      · next quote =>
        obtain ⟨n, length, same⟩ := Option.map_eq_some_iff.mp h
        cases same
        obtain ⟨body, isBody, split⟩ := exists_of_quotedLength? length
        have quote : c = '\x27' ∨ c = '\x22' := by simpa [or_comm] using quote
        exact ⟨_, .quoted rfl quote isBody, by simpa using split⟩
      · rcases Option.or_eq_some_iff.mp h with h | ⟨-, h⟩
        · exact exists_matches_region h
        split at h
        · next apart =>
          rcases Option.or_eq_some_iff.mp h with h | ⟨-, h⟩
          · rcases Option.or_eq_some_iff.mp h with h | ⟨-, h⟩
            · rcases Option.or_eq_some_iff.mp h with h | ⟨-, h⟩
              · obtain ⟨split, ends, rfl⟩ := word?_eq_some_iff.mp h
                exact ⟨_, .endLoop rfl apart ends, split⟩
              · obtain ⟨matched, isHead, split⟩ := loopHead?_eq_some_iff.mp h
                exact ⟨matched, .loop rfl apart isHead, split⟩
            · obtain ⟨split, ends, rfl⟩ := word?_eq_some_iff.mp h
              exact ⟨_, .endConditional rfl apart ends, split⟩
          · obtain ⟨b, blank, split, rfl⟩ := conditionalHead?_eq_some_iff.mp h
            exact ⟨_, .conditional rfl apart blank, by simpa using split⟩
        · cases h

/-- A match in code that begins with neither a quote nor a mark of a region is found if the words in
front of it in the order of the search are not there. -/
theorem inCode?_of_word {c : Char} (apart : noWord before = true)
    (letter : c = 'e' ∨ c = 'f' ∨ c = 'i') :
    inCode? before (c :: cs) = (((word? "endforeach" endLoop (c :: cs)).or (loopHead? (c :: cs))).or
        (word? "endif" endConditional (c :: cs))).or (conditionalHead? (c :: cs)) := by
  have noRegion : region? (c :: cs) = none := by rcases letter with rfl | rfl | rfl <;> rfl
  have noQuote : (c == '\x22' || c == '\x27') = false := by
    rcases letter with rfl | rfl | rfl <;> rfl
  rw [inCode?, noQuote, if_neg Bool.false_ne_true, noRegion, Option.none_or, if_pos apart]

/-- The scanner finds a match at the beginning of a text. -/
theorem Matches.at?_eq {matched : List Char} (h : Matches inCode before found matched rest) :
    at? inCode before (matched ++ rest) = some (found, rest) := by
  cases h with
  | openCode => cases inCode <;> rfl
  | closeCode => cases inCode <;> rfl
  | @quoted mark body _ code quote isBody =>
    subst code
    have noEscape : mark ≠ '\\' := by rcases quote with rfl | rfl <;> decide
    have isQuote : (mark == '\x22' || mark == '\x27') = true := by
      rcases quote with rfl | rfl <;> rfl
    rw [List.cons_append, List.append_assoc]
    change inCode? before (mark :: (body ++ mark :: rest)) = _
    rw [inCode?, if_pos isQuote, isBody.quotedLength? noEscape]
    simp
  | endLoop code apart ends =>
    subst code
    have word : word? "endforeach" .endLoop ("endforeach".toList ++ rest) =
        some (.endLoop, rest) := word?_eq_some_iff.mpr ⟨rfl, ends, rfl⟩
    refine (inCode?_of_word apart (.inl rfl)).trans ?_
    exact congrArg (fun o => ((Option.or o _).or _).or _) word
  | loop code apart isHead =>
    subst code
    have head := loopHead?_eq_some_iff.mpr ⟨matched, isHead, rfl⟩
    obtain ⟨tail, split⟩ : ∃ tail, matched = 'f' :: tail := by
      cases isHead
      exact ⟨_, rfl⟩
    rw [split] at head ⊢
    refine (inCode?_of_word apart (.inr (.inl rfl))).trans ?_
    exact congrArg (fun o => ((Option.or _ o).or _).or _) head
  | endConditional code apart ends =>
    subst code
    have word : word? "endif" .endConditional ("endif".toList ++ rest) =
        some (.endConditional, rest) := word?_eq_some_iff.mpr ⟨rfl, ends, rfl⟩
    refine (inCode?_of_word apart (.inl rfl)).trans ?_
    exact congrArg (fun o => ((Option.or _ _).or o).or _) word
  | @conditional b _ code apart blank =>
    subst code
    have head :
        conditionalHead? ("if".toList ++ (b ++ ['(']) ++ rest) = some (.conditional, rest) :=
      conditionalHead?_eq_some_iff.mpr ⟨b, blank, by simp, rfl⟩
    refine (inCode?_of_word apart (.inr (.inr rfl))).trans ?_
    exact congrArg (fun o => ((Option.or _ _).or _).or o) head

/-! ### The search for matches -/

/-- Whether a match begins where a text does. -/
def Begins (inCode : Bool) (before : Option Char) (cs : List Char) : Prop :=
  ∃ found matched rest, Matches inCode before found matched rest ∧ cs = matched ++ rest

/-- Some markers are found one behind the other in a text behind the character `before`. Each is the
leftmost match behind the one before, and tells whether code follows; behind the last there is no
match. -/
inductive Leftmost : Bool → Option Char → List Char → List Marker → Prop
  | none {inCode : Bool} {before : Option Char} {cs : List Char} :
      (∀ front back, cs = front ++ back → ¬Begins inCode (front.getLast?.or before) back) →
      Leftmost inCode before cs []
  | found {inCode : Bool} {before : Option Char} {front matched rest : List Char} {marker : Marker}
      {more : List Marker} :
      (∀ earlier c later, front = earlier ++ c :: later →
        ¬Begins inCode (earlier.getLast?.or before) (c :: later ++ (matched ++ rest))) →
      Matches inCode (front.getLast?.or before) marker matched rest →
      Leftmost (marker.codeAfter inCode) (matched.getLast?.or (front.getLast?.or before)) rest
        more →
      Leftmost inCode before (front ++ (matched ++ rest)) (marker :: more)

theorem Matches.ne_nil {matched : List Char} (h : Matches inCode before found matched rest) :
    matched ≠ [] := by
  cases h with
  | loop _ _ isHead =>
    cases isHead
    exact List.cons_ne_nil _ _
  | _ => exact List.cons_ne_nil _ _

theorem at?_eq_none_iff : at? inCode before cs = none ↔ ¬Begins inCode before cs := by
  rw [Option.eq_none_iff_forall_ne_some]
  constructor
  · rintro none ⟨found, matched, rest, isMatch, rfl⟩
    exact none _ isMatch.at?_eq
  · rintro none ⟨found, rest⟩ h
    obtain ⟨matched, isMatch, split⟩ := exists_matches h
    exact none ⟨found, matched, rest, isMatch, split⟩

end Marker

/-- The markers among some segments. -/
def Segment.markers : List Segment → List Marker
  | [] => []
  | .text _ :: rest => markers rest
  | .marker found :: rest => found :: markers rest

theorem Segment.markers_cons (c : Char) (xs : List Segment) :
    markers (Segment.cons c xs) = markers xs := by
  rcases xs with _ | ⟨_ | _, _⟩ <;> rfl

namespace Marker

variable {inCode : Bool} {before : Option Char} {c : Char} {cs rest : List Char} {found : Marker}
  {ms : List Marker}

/-- The markers that the scanner finds in a text behind the character `before`. -/
def scanned (inCode : Bool) (before : Option Char) (cs : List Char) : List Marker :=
  Segment.markers (segmentsFrom inCode before 0 cs)

theorem scanned_of_not_begins (none : ¬Begins inCode before (c :: cs)) :
    scanned inCode before (c :: cs) = scanned inCode (some c) cs := by
  rw [scanned, segmentsFrom_passed (at?_eq_none_iff.mpr none), Segment.markers_cons, scanned]

theorem Matches.scanned_eq {matched : List Char} (h : Matches inCode before found matched rest) :
    scanned inCode before (matched ++ rest) =
      found :: scanned (found.codeAfter inCode) (matched.getLast?.or before) rest := by
  obtain ⟨c, tail, rfl⟩ := List.exists_cons_of_ne_nil h.ne_nil
  have begins : at? inCode before (c :: (tail ++ rest)) = some (found, rest) := h.at?_eq
  rw [scanned, List.cons_append, segmentsFrom_found begins, segmentsFrom_taken, getLast?_cons_or]
  rfl

/-- A character with which no match begins is passed over. -/
theorem Leftmost.pass (h : Leftmost inCode (some c) cs ms)
    (none : ¬Begins inCode before (c :: cs)) :
    Leftmost inCode before (c :: cs) ms := by
  cases h with
  | none nowhere =>
    refine .none fun front back split => ?_
    cases front with
    | nil =>
      obtain rfl : c :: cs = back := split
      exact none
    | cons d front =>
      obtain ⟨rfl, rfl⟩ := List.cons.inj split
      rw [getLast?_cons_or]
      exact nowhere front back rfl
  | @found _ _ front matched rest marker more first isMatch behind =>
    rw [← getLast?_cons_or c front before] at isMatch behind
    refine @Leftmost.found _ _ (c :: front) _ _ _ _ (fun earlier d later split => ?_) isMatch behind
    cases earlier with
    | nil =>
      obtain ⟨rfl, rfl⟩ := List.cons.inj split
      exact none
    | cons e earlier =>
      obtain ⟨rfl, rfl⟩ := List.cons.inj split
      rw [getLast?_cons_or]
      exact first earlier d later rfl

/-- The scanner searches for the leftmost matches. -/
theorem leftmost_scanned (inCode : Bool) (before : Option Char) (cs : List Char) :
    Leftmost inCode before cs (scanned inCode before cs) := by
  induction h : cs.length using Nat.strongRecOn generalizing inCode before cs with | ind n ih => ?_
  subst h
  cases cs with
  | nil =>
    refine .none fun front back split => ?_
    obtain ⟨rfl, rfl⟩ := List.append_eq_nil_iff.mp split.symm
    rintro ⟨found, matched, rest, isMatch, split⟩
    exact isMatch.ne_nil (List.append_eq_nil_iff.mp split.symm).1
  | cons c cs =>
    by_cases begins : Begins inCode before (c :: cs)
    · obtain ⟨found, matched, rest, isMatch, split⟩ := begins
      have shorter : rest.length < (c :: cs).length := by
        rw [split, List.length_append]
        exact Nat.lt_add_of_pos_left (List.length_pos_iff.mpr isMatch.ne_nil)
      rw [split, isMatch.scanned_eq]
      refine @Leftmost.found _ _ [] _ _ _ _ (fun earlier d later split => ?_) isMatch
        (ih _ shorter _ _ _ rfl)
      cases (List.append_eq_nil_iff.mp split.symm).2
    · rw [scanned_of_not_begins begins]
      exact (ih _ (Nat.lt_succ_self _) _ _ _ rfl).pass begins

theorem Leftmost.eq_scanned (h : Leftmost inCode before cs ms) :
    ms = scanned inCode before cs := by
  induction h with
  | @none inCode before cs nowhere =>
    induction cs generalizing before with
    | nil => rfl
    | cons c cs ih =>
      have none : ¬Begins inCode before (c :: cs) := nowhere [] (c :: cs) rfl
      rw [scanned_of_not_begins none]
      refine ih fun front back split => ?_
      rw [← getLast?_cons_or c front before]
      exact nowhere (c :: front) back (congrArg (c :: ·) split)
  | @found inCode before front matched rest marker more first isMatch behind ih =>
    rw [ih]
    clear ih behind
    induction front generalizing before with
    | nil => exact isMatch.scanned_eq.symm
    | cons c front ih =>
      have none : ¬Begins inCode before (c :: (front ++ (matched ++ rest))) :=
        first [] c front rfl
      rw [getLast?_cons_or] at isMatch ⊢
      rw [List.cons_append, scanned_of_not_begins none]
      refine ih (fun earlier d later split => ?_) isMatch
      rw [← getLast?_cons_or c earlier before]
      exact first (c :: earlier) d later (congrArg (c :: ·) split)

/-- The markers that the scanner finds are the leftmost matches, and no others are. -/
theorem leftmost_iff : Leftmost inCode before cs ms ↔ ms = scanned inCode before cs :=
  ⟨Leftmost.eq_scanned, fun same => same ▸ leftmost_scanned inCode before cs⟩

end Marker

end ServerTemplate
