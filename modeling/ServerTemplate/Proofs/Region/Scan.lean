import Mathlib.Data.List.TakeWhile
import ServerTemplate.Proofs.Marker.Words
import ServerTemplate.Proofs.Region.Read

/-!
# The scanner reads a text as a server does

The scanner of a text looks for markers and not for strings: it passes over a string that is closed
in the same text, and takes a quote that is not closed for a plain character. Where every string is
closed, and none has a backslash before a line feed, it finds the tags that a server finds, and no
others (`goes_segmentsFrom`). Its other markers are words made of plain characters.
-/

namespace ServerTemplate

/-! ### Words -/

/-- A text goes on with another behind some plain characters. -/
def PlainlyBefore (cs rest : List Char) : Prop :=
  ∃ front, cs = front ++ rest ∧ ∀ c ∈ front, isPlain c = true

namespace PlainlyBefore

variable {cs ds rest : List Char}

theorem refl (cs : List Char) : PlainlyBefore cs cs := ⟨[], rfl, nofun⟩

theorem trans (h : PlainlyBefore cs ds) (h' : PlainlyBefore ds rest) : PlainlyBefore cs rest := by
  obtain ⟨front, rfl, plain⟩ := h
  obtain ⟨front', rfl, plain'⟩ := h'
  refine ⟨front ++ front', (List.append_assoc ..).symm, fun c hc => ?_⟩
  exact (List.mem_append.mp hc).elim (plain c) (plain' c)

theorem length_le (h : PlainlyBefore cs rest) : rest.length ≤ cs.length := by
  obtain ⟨front, rfl, -⟩ := h
  rw [List.length_append]
  exact Nat.le_add_left ..

theorem after? {word : List Char} (plain : word.all isPlain = true)
    (h : Marker.after? word cs = some rest) : PlainlyBefore cs rest :=
  ⟨word, Marker.after?_eq_some.mp h, List.all_eq_true.mp plain⟩

/-- A class of characters without tags and quotes is plain. -/
theorem dropWhile {p : Char → Bool} (h : ∀ c, p c = true → isPlain c = true) (cs : List Char) :
    PlainlyBefore cs (cs.dropWhile p) :=
  ⟨cs.takeWhile p, List.takeWhile_append_dropWhile.symm,
    fun c hc => h c (List.mem_takeWhile_imp hc)⟩

end PlainlyBefore

/-- A text goes on with another behind a plain word. -/
structure WordBefore (cs rest : List Char) : Prop where
  plain : PlainlyBefore cs rest
  shorter : rest.length < cs.length

/-- A word is found, and then more plain characters. -/
theorem WordBefore.after? {cs ds rest : List Char} {w : Char} {word : List Char}
    (plain : (w :: word).all isPlain = true) (h : Marker.after? (w :: word) cs = some ds)
    (behind : PlainlyBefore ds rest) : WordBefore cs rest where
  plain := (PlainlyBefore.after? plain h).trans behind
  shorter := by
    have length : cs.length = (w :: word).length + ds.length := by
      rw [Marker.after?_eq_some.mp h, List.length_append]
    have := behind.length_le
    rw [List.length_cons] at length
    omega

/-- The word and the text behind it. -/
theorem WordBefore.exists_append {c : Char} {cs rest : List Char} (h : WordBefore (c :: cs) rest) :
    ∃ front, cs = front ++ rest ∧ ∀ d ∈ c :: front, isPlain d = true := by
  obtain ⟨⟨front, hfront, plain⟩, shorter⟩ := h
  cases front with
  | nil =>
    rw [hfront, List.nil_append] at shorter
    exact (Nat.lt_irrefl _ shorter).elim
  | cons d front =>
    obtain ⟨rfl, rfl⟩ := List.cons_eq_cons.mp hfront
    exact ⟨front, rfl, plain⟩

/-- What holds of no tag and of no quote holds of plain characters only. -/
theorem isPlain_of {p : Char → Bool} (h : p '<' = false ∧ p '?' = false ∧ p '\x22' = false ∧
    p '\x27' = false) {c : Char} (hc : p c = true) : isPlain c = true := by
  have ne {d : Char} (hd : p d = false) : (c == d) = false := by
    refine beq_false_of_ne fun heq => ?_
    rw [heq, hd] at hc
    cases hc
  rw [isPlain, isQuote, ne h.1, ne h.2.1, ne h.2.2.1, ne h.2.2.2]
  rfl

theorem isPlain_of_isWordChar {c : Char} (h : Text.isWordChar c = true) : isPlain c = true :=
  isPlain_of (by decide) h

theorem isPlain_of_isBlank {c : Char} (h : Text.isBlank c = true) : isPlain c = true :=
  isPlain_of (by decide) h

namespace Marker

variable {cs rest : List Char}

theorem plainlyBefore_skipBlanks (cs : List Char) : PlainlyBefore cs (skipBlanks cs) :=
  .dropWhile (fun _ => isPlain_of_isBlank) cs

theorem plainlyBefore_afterSomeBlanks? (h : afterSomeBlanks? cs = some rest) :
    PlainlyBefore cs rest := by
  unfold afterSomeBlanks? at h
  split at h
  · cases h
    exact plainlyBefore_skipBlanks cs
  · cases h

/-- A name is plain, and so are the characters in front of what follows it. -/
theorem plain_of_dollarName? {name : String} (h : dollarName? cs = some (name, rest)) :
    Plain name ∧ PlainlyBefore cs rest := by
  unfold dollarName? at h
  split at h
  · rename_i behind
    dsimp only at h
    split at h
    · cases h
    · cases h
      have word (c : Char) (hc : c ∈ behind.takeWhile Text.isWordChar) : isPlain c = true :=
        isPlain_of_isWordChar (List.mem_takeWhile_imp hc)
      refine ⟨fun c hc => word c (by rwa [String.toList_ofList] at hc),
        '$' :: behind.takeWhile Text.isWordChar, ?_, ?_⟩
      · rw [List.cons_append, List.takeWhile_append_dropWhile]
      · intro c hc
        rcases List.mem_cons.mp hc with rfl | hc
        · rfl
        · exact word c hc
  · cases h

/-- What stands at the head of a loop is plain. -/
theorem plain_of_loopHead? {marker : Marker} (h : loopHead? cs = some (marker, rest)) :
    (∃ array item, marker = loop array item ∧ Plain item) ∧ WordBefore cs rest := by
  unfold loopHead? at h
  obtain ⟨r₁, h₁, h⟩ := Option.bind_eq_some_iff.mp h
  obtain ⟨r₂, h₂, h⟩ := Option.bind_eq_some_iff.mp h
  obtain ⟨⟨array, r₃⟩, h₃, h⟩ := Option.bind_eq_some_iff.mp h
  obtain ⟨r₄, h₄, h⟩ := Option.bind_eq_some_iff.mp h
  obtain ⟨r₅, h₅, h⟩ := Option.bind_eq_some_iff.mp h
  obtain ⟨r₆, h₆, h⟩ := Option.bind_eq_some_iff.mp h
  obtain ⟨⟨item, r₇⟩, h₇, h⟩ := Option.bind_eq_some_iff.mp h
  cases h
  obtain ⟨-, front₃⟩ := plain_of_dollarName? h₃
  obtain ⟨plain, front₇⟩ := plain_of_dollarName? h₇
  have head : PlainlyBefore r₁ r₃ :=
    (plainlyBefore_skipBlanks r₁).trans <|
      (PlainlyBefore.after? (by decide) h₂).trans <| (plainlyBefore_skipBlanks r₂).trans front₃
  have word : PlainlyBefore r₃ r₆ :=
    (plainlyBefore_afterSomeBlanks? h₄).trans <|
      (PlainlyBefore.after? (by decide) h₅).trans (plainlyBefore_afterSomeBlanks? h₆)
  exact ⟨⟨array, item, rfl, plain⟩, .after? (by decide) h₁ (head.trans (word.trans front₇))⟩

theorem plain_of_conditionalHead? {marker : Marker}
    (h : conditionalHead? cs = some (marker, rest)) :
    marker = conditional ∧ WordBefore cs rest := by
  unfold conditionalHead? at h
  obtain ⟨r₁, h₁, h⟩ := Option.bind_eq_some_iff.mp h
  obtain ⟨r₂, h₂, h⟩ := Option.bind_eq_some_iff.mp h
  cases h
  have behind : PlainlyBefore r₁ rest :=
    (plainlyBefore_skipBlanks r₁).trans (PlainlyBefore.after? (by decide) h₂)
  exact ⟨rfl, .after? (by decide) h₁ behind⟩

theorem plain_of_word? {word : String} {marker marker' : Marker} {w : Char} {letters : List Char}
    (hword : word.toList = w :: letters) (plain : (w :: letters).all isPlain = true)
    (h : word? word marker' cs = some (marker, rest)) : marker = marker' ∧ WordBefore cs rest := by
  unfold word? at h
  obtain ⟨r, hr, h⟩ := Option.bind_eq_some_iff.mp h
  split at h
  · cases h
    rw [hword] at hr
    exact ⟨rfl, .after? plain hr (.refl rest)⟩
  · cases h

/-- Whether a marker opens or closes a frame. -/
def IsWord (marker : Marker) : Prop :=
  marker = endLoop ∨ marker = conditional ∨ marker = endConditional ∨
    ∃ array item, marker = loop array item ∧ Plain item

/-- What the scanner finds in markup. -/
theorem region?_cases {marker : Marker} (h : region? cs = some (marker, rest)) :
    (marker = openCode ∧ cs = "<?php".toList ++ rest) ∨
      (marker = closeCode ∧ cs = "?>".toList ++ rest) := by
  unfold region? at h
  rcases Option.or_eq_some_iff.mp h with h | ⟨_, h⟩
  · obtain ⟨rest', hrest, heq⟩ := Option.map_eq_some_iff.mp h
    cases heq
    exact .inl ⟨rfl, after?_eq_some.mp hrest⟩
  · obtain ⟨rest', hrest, heq⟩ := Option.map_eq_some_iff.mp h
    cases heq
    exact .inr ⟨rfl, after?_eq_some.mp hrest⟩

/-- Where the scanner finds no region in markup, no tag begins. -/
theorem at?_eq_none_of_region? (h : region? cs = none) : Tag.at? cs = none := by
  unfold region? at h
  obtain ⟨opening, closing⟩ := Option.or_eq_none_iff.mp h
  have no {word : List Char} (hword : after? word cs = none) : word.isPrefixOf cs = false := by
    rw [Bool.eq_false_iff, ne_eq, List.isPrefixOf_iff_prefix]
    rintro ⟨rest, rfl⟩
    rw [after?_eq_some.mpr rfl] at hword
    cases hword
  have opening := no (Option.map_eq_none_iff.mp opening)
  have closing := no (Option.map_eq_none_iff.mp closing)
  change (if "<?php".toList.isPrefixOf cs = true then _
    else if "?>".toList.isPrefixOf cs = true then _ else _) = none
  rw [opening, closing]
  rfl

/-- What the scanner finds in code: a string, the marker of a region, or a word. -/
theorem inCode?_cases {marker : Marker} {before : Option Char} {c : Char}
    (h : inCode? before (c :: cs) = some (marker, rest)) :
    (isQuote c = true ∧ marker = quoted ∧ ∃ n, quotedLength? c cs = some n ∧ rest = cs.drop n) ∨
      region? (c :: cs) = some (marker, rest) ∨ (marker.IsWord ∧ WordBefore (c :: cs) rest) := by
  unfold inCode? at h
  dsimp only at h
  split at h
  · rename_i hquote
    obtain ⟨n, hn, heq⟩ := Option.map_eq_some_iff.mp h
    cases heq
    exact .inl ⟨hquote, rfl, n, hn, rfl⟩
  -- the words are tried one after the other, and only where no word goes on
  · refine .inr ((Option.or_eq_some_iff.mp h).imp id fun ⟨_, h⟩ => ?_)
    split at h
    · rcases Option.or_eq_some_iff.mp h with h | ⟨_, h⟩
      · rcases Option.or_eq_some_iff.mp h with h | ⟨_, h⟩
        · rcases Option.or_eq_some_iff.mp h with h | ⟨_, h⟩
          · obtain ⟨rfl, word⟩ := plain_of_word? rfl (by decide) h
            exact ⟨.inl rfl, word⟩
          · obtain ⟨loop, word⟩ := plain_of_loopHead? h
            exact ⟨.inr (.inr (.inr loop)), word⟩
        · obtain ⟨rfl, word⟩ := plain_of_word? rfl (by decide) h
          exact ⟨.inr (.inr (.inl rfl)), word⟩
      · obtain ⟨rfl, word⟩ := plain_of_conditionalHead? h
        exact ⟨.inr (.inl rfl), word⟩
    · cases h

/-- Where the scanner finds nothing in code, there is no region, or a string that is not closed. -/
theorem inCode?_eq_none {before : Option Char} {c : Char} (h : inCode? before (c :: cs) = none) :
    (isQuote c = true ∧ quotedLength? c cs = none) ∨
      (isQuote c = false ∧ region? (c :: cs) = none) := by
  unfold inCode? at h
  dsimp only at h
  split at h
  · rename_i hquote
    exact .inl ⟨hquote, Option.map_eq_none_iff.mp h⟩
  · rename_i hquote
    exact .inr ⟨Bool.eq_false_iff.mpr hquote, (Option.or_eq_none_iff.mp h).1⟩

/-- The tag that a marker is. -/
def tag? : Marker → Option Tag
  | openCode => some .opening
  | closeCode => some .closing
  | _ => none

/-- Whether a marker stands where it may: words in code only, and those that name an item name a
plain one. -/
def Fits (inCode : Bool) : Marker → Prop
  | loop _ item => inCode = true ∧ Plain item
  | endLoop | conditional | endConditional => inCode = true
  | openCode | closeCode | quoted => True

theorem IsWord.fits {marker : Marker} (h : marker.IsWord) : marker.Fits true := by
  rcases h with rfl | rfl | rfl | ⟨_, _, rfl, plain⟩
  · exact rfl
  · exact rfl
  · exact rfl
  · exact ⟨rfl, plain⟩

/-- The scanner finds markers where they may stand. -/
theorem fits_of_at? {inCode : Bool} {before : Option Char} {c : Char} {marker : Marker}
    (h : at? inCode before (c :: cs) = some (marker, rest)) : marker.Fits inCode := by
  have region (h : region? (c :: cs) = some (marker, rest)) : marker.Fits inCode := by
    rcases region?_cases h with ⟨rfl, _⟩ | ⟨rfl, _⟩ <;> trivial
  cases inCode with
  | false => exact region h
  | true =>
    rcases inCode?_cases h with ⟨_, rfl, _⟩ | h | ⟨isWord, _⟩
    · trivial
    · exact region h
    · exact isWord.fits

theorem IsWord.tag? {marker : Marker} (h : marker.IsWord) : marker.tag? = none := by
  rcases h with rfl | rfl | rfl | ⟨_, _, rfl, _⟩ <;> rfl

theorem IsWord.codeAfter {marker : Marker} (h : marker.IsWord) (inCode : Bool) :
    marker.codeAfter inCode = inCode := by
  rcases h with rfl | rfl | rfl | ⟨_, _, rfl, _⟩ <;> rfl

end Marker

/-! ### Strings -/

namespace Goes

variable {mark c : Char} {rest : List Char}

/-- In a string, a backslash hides the character behind it. -/
theorem escape (mark : Char) {d : Char} (h : (d == '\n') = false) :
    Goes (.quoted mark) ('\\' :: d :: rest) [] (.quoted mark) rest := by
  refine .cons ?_
  change (d == '\n') = false
  exact h

theorem inString (h : (c == '\\') = false) :
    Goes (.quoted mark) (c :: rest) [] (if c == mark then .code else .quoted mark) rest := by
  have stays : (Mode.quoted mark).advance c rest =
      (if c == mark then Mode.code else Mode.quoted mark, 0) := by
    rw [Mode.advance, h]
    cases c == mark <;> rfl
  have step : Goes (.quoted mark) (c :: rest) _ _ _ :=
    .cons (by rw [h, Bool.and_false, Bool.false_and])
  rw [stays] at step
  exact step

end Goes

/-- What is no escape is no backslash. -/
theorem beq_backslash_eq_false {c : Char} {rest : List Char} (hlast : c = '\\' → rest = [] → False)
    (hescape : ∀ (d : Char) (left : List Char), c = '\\' → rest = d :: left → False) :
    (c == '\\') = false := by
  refine beq_false_of_ne fun hc => ?_
  cases rest with
  | nil => exact hlast hc rfl
  | cons d left => exact hescape d left hc rfl

theorem Marker.quotedLength?_cons {c mark : Char} (noEscape : c ≠ '\\') (cs : List Char) :
    quotedLength? mark (c :: cs) =
      if c == mark then some 1 else (quotedLength? mark cs).map (· + 1) := by
  rw [quotedLength?]
  · exact fun h _ => noEscape h
  · exact fun _ _ h _ => noEscape h

theorem eq_or_eq_of_isQuote {c : Char} (h : isQuote c = true) : c = '\x22' ∨ c = '\x27' := by
  unfold isQuote at h
  exact (Bool.or_eq_true _ _ ▸ h).imp beq_iff_eq.mp beq_iff_eq.mp

/-- In code, a quote opens a string. -/
theorem Goes.quote {c : Char} (h : isQuote c = true) (rest : List Char) :
    Goes .code (c :: rest) [] (.quoted c) rest := by
  rcases eq_or_eq_of_isQuote h with rfl | rfl <;> exact .cons rfl

/-- A string that the scanner passes over is read as a string. -/
theorem goes_of_quotedLength? {mark : Char} {cs : List Char} {n : Nat}
    (h : Marker.quotedLength? mark cs = some n) (hmark : (mark == '\\') = false) :
    Goes (.quoted mark) cs [] .code (cs.drop n) := by
  fun_induction Marker.quotedLength? mark cs generalizing n with
  | case1 | case2 | case3 => cases h
  | case4 d rest hd ih =>
    obtain ⟨k, hk, rfl⟩ := Option.map_eq_some_iff.mp h
    exact (Goes.escape mark (Bool.eq_false_iff.mpr hd)).trans (ih hk)
  | case5 c rest hlast hescape hc =>
    cases h
    have step : Goes (.quoted mark) (c :: rest) _ _ rest := .inString (beq_iff_eq.mp hc ▸ hmark)
    rw [if_pos hc] at step
    exact step
  | case6 c rest hlast hescape hc ih =>
    obtain ⟨k, hk, rfl⟩ := Option.map_eq_some_iff.mp h
    have step : Goes (.quoted mark) (c :: rest) _ _ rest :=
      .inString (beq_backslash_eq_false hlast hescape)
    rw [if_neg hc] at step
    exact step.trans (ih hk)

/-- A quote that the scanner finds no end for opens a string that is not closed. -/
theorem read_of_quotedLength?_eq_none {mark : Char} {cs : List Char}
    (h : Marker.quotedLength? mark cs = none)
    (escapes : (Mode.quoted mark).escapesLineFeed cs = false) :
    (Mode.quoted mark).read cs = .quoted mark := by
  fun_induction Marker.quotedLength? mark cs with
  | case1 | case2 => rfl
  | case3 d rest hd =>
    rw [Mode.escapesLineFeed_cons, beq_iff_eq.mp hd] at escapes
    cases escapes
  | case4 d rest hd ih =>
    have step : Goes (.quoted mark) ('\\' :: d :: rest) [] (.quoted mark) rest :=
      .escape mark (Bool.eq_false_iff.mpr hd)
    rw [step.read]
    exact ih (Option.map_eq_none_iff.mp h) (step.escapes ▸ escapes)
  | case5 c rest hlast hescape hc => cases h
  | case6 c rest hlast hescape hc ih =>
    have step : Goes (.quoted mark) (c :: rest) _ _ rest :=
      .inString (beq_backslash_eq_false hlast hescape)
    rw [if_neg hc] at step
    rw [step.read]
    exact ih (Option.map_eq_none_iff.mp h) (step.escapes ▸ escapes)

/-! ### Segments -/

/-- The tags among the markers of a text. -/
def Segment.tags : List Segment → List Tag
  | [] => []
  | .text _ :: rest => tags rest
  | .marker found :: rest => found.tag?.toList ++ tags rest

/-- Whether code follows the segments of a text. -/
def Segment.codeAfter (inCode : Bool) : List Segment → Bool
  | [] => inCode
  | .text _ :: rest => codeAfter inCode rest
  | .marker found :: rest => codeAfter (found.codeAfter inCode) rest

/-- Whether the markers of a text stand where they may. -/
def Segment.Fit (inCode : Bool) : List Segment → Prop
  | [] => True
  | .text _ :: rest => Fit inCode rest
  | .marker found :: rest => found.Fits inCode ∧ Fit (found.codeAfter inCode) rest

/-- At a marker a server finds what the scanner does. -/
theorem Marker.goes_of_at? {inCode : Bool} {before : Option Char} {c : Char} {cs left : List Char}
    {marker : Marker} (h : Marker.at? inCode before (c :: cs) = some (marker, left)) :
    left <:+ cs ∧
      Goes (.ofCode inCode) (c :: cs) marker.tag?.toList (.ofCode (marker.codeAfter inCode))
        left := by
  have region (h : region? (c :: cs) = some (marker, left)) :
      left <:+ cs ∧ Goes (.ofCode inCode) (c :: cs) marker.tag?.toList
        (.ofCode (marker.codeAfter inCode)) left := by
    rcases region?_cases h with ⟨rfl, hcs⟩ | ⟨rfl, hcs⟩
    · have rest : cs = "?php".toList ++ left := (List.cons.inj hcs).2
      exact ⟨⟨_, rest.symm⟩, hcs ▸ .opening inCode left⟩
    · have rest : cs = ">".toList ++ left := (List.cons.inj hcs).2
      exact ⟨⟨_, rest.symm⟩, hcs ▸ .closing inCode left⟩
  cases inCode with
  | false => exact region h
  | true =>
    rcases inCode?_cases h with ⟨hquote, rfl, n, hn, rfl⟩ | h | ⟨isWord, word⟩
    · have noEscape : (c == '\\') = false := by
        rcases eq_or_eq_of_isQuote hquote with rfl | rfl <;> rfl
      refine ⟨List.drop_suffix n cs, ?_⟩
      exact (Goes.quote hquote cs).trans (goes_of_quotedLength? hn noEscape)
    · exact region h
    · obtain ⟨front, rfl, plain⟩ := word.exists_append
      refine ⟨List.suffix_append front left, ?_⟩
      rw [isWord.tag?, isWord.codeAfter]
      exact .plain plain left

/-- Where the scanner finds no marker, a server finds no tag and no string that is closed. -/
theorem Marker.goes_of_at?_eq_none {inCode : Bool} {before : Option Char} {c : Char}
    {cs : List Char} (h : Marker.at? inCode before (c :: cs) = none)
    (outside : ((Mode.ofCode inCode).read (c :: cs)).isQuoted = false)
    (escapes : (Mode.ofCode inCode).escapesLineFeed (c :: cs) = false) :
    Goes (.ofCode inCode) (c :: cs) [] (.ofCode inCode) cs := by
  cases inCode with
  | false =>
    -- in markup nothing but a region is looked for
    have noTag := at?_eq_none_of_region? h
    have stays : Mode.markup.advance c cs = (.markup, 0) := by
      rw [Mode.advance, noTag]
      rfl
    exact .other rfl noTag stays
  | true =>
    rcases inCode?_eq_none h with ⟨hquote, hlength⟩ | ⟨hquote, hregion⟩
    · have step := Goes.quote hquote cs
      -- a string that is not closed would be open at the end
      have unclosed := read_of_quotedLength?_eq_none hlength (step.escapes ▸ escapes)
      have outside : (Mode.code.read (c :: cs)).isQuoted = false := outside
      rw [step.read, unclosed] at outside
      cases outside
    · have noTag := at?_eq_none_of_region? hregion
      have stays : Mode.code.advance c cs = (.code, 0) := by
        rw [Mode.advance, noTag, hquote]
        rfl
      exact .other rfl noTag stays

@[simp] theorem Segment.tags_cons (c : Char) (parts : List Segment) :
    tags (Segment.cons c parts) = tags parts := by
  unfold Segment.cons
  split <;> rfl

@[simp] theorem Segment.codeAfter_cons (inCode : Bool) (c : Char) (parts : List Segment) :
    codeAfter inCode (Segment.cons c parts) = codeAfter inCode parts := by
  unfold Segment.cons
  split <;> rfl

@[simp] theorem Segment.fit_cons (inCode : Bool) (c : Char) (parts : List Segment) :
    Fit inCode (Segment.cons c parts) ↔ Fit inCode parts := by
  unfold Segment.cons
  split <;> rfl

/-- The markers of a text stand where they may. -/
theorem fit_segmentsFrom (inCode : Bool) (before : Option Char) (taken : Nat) (cs : List Char) :
    Segment.Fit inCode (segmentsFrom inCode before taken cs) := by
  induction cs generalizing inCode before taken with
  | nil =>
    rw [segmentsFrom]
    trivial
  | cons c cs ih =>
    cases taken with
    | succ taken =>
      rw [segmentsFrom]
      exact ih inCode (some c) taken
    | zero =>
      rw [segmentsFrom]
      split
      · rename_i hat
        exact ⟨Marker.fits_of_at? hat, ih _ (some c) _⟩
      · exact (Segment.fit_cons ..).mpr (ih inCode (some c) 0)

/-- The scanner finds the tags that a server finds, and leaves off in the same region, if every
string of the text is closed and none has a backslash before a line feed. -/
theorem goes_segmentsFrom {inCode : Bool} (before : Option Char) (taken : Nat) {cs : List Char}
    (outside : ((Mode.ofCode inCode).read (cs.drop taken)).isQuoted = false)
    (escapes : (Mode.ofCode inCode).escapesLineFeed (cs.drop taken) = false) :
    Goes (.ofCode inCode) (cs.drop taken) (Segment.tags (segmentsFrom inCode before taken cs))
      (.ofCode (Segment.codeAfter inCode (segmentsFrom inCode before taken cs))) [] := by
  induction cs generalizing inCode before taken with
  | nil =>
    rw [segmentsFrom, List.drop_nil]
    exact .refl _ _
  | cons c cs ih =>
    cases taken with
    | succ taken =>
      rw [segmentsFrom]
      exact ih (some c) taken outside escapes
    | zero =>
      rw [segmentsFrom]
      split
      -- a marker: the rest begins behind what the server reads with it
      · rename_i marker left hat
        obtain ⟨suffix, step⟩ := Marker.goes_of_at? hat
        have hleft : cs.drop (cs.length - left.length) = left :=
          (List.suffix_iff_eq_drop.mp suffix).symm
        rw [List.drop_zero, step.read, ← hleft] at outside
        rw [List.drop_zero, step.escapes, ← hleft] at escapes
        have rest := ih (some c) _ outside escapes
        rw [hleft] at rest
        exact step.trans rest
      · rename_i hat
        have step := Marker.goes_of_at?_eq_none hat outside escapes
        rw [List.drop_zero, step.read] at outside
        rw [List.drop_zero, step.escapes] at escapes
        have rest := ih (some c) 0 outside escapes
        rw [Segment.tags_cons, Segment.codeAfter_cons]
        exact step.trans rest

end ServerTemplate
