import ServerTemplate.Proofs.Script.StringLiteral

/-!
# Reading the escapes of strings

The escapes that are read are not always those of the grammar. An octal escape takes up to three
digits whatever the first is, and an escape that ends in a carriage return or a question mark takes
a separator behind it as well. Still every escape that is read is one element or two
(`readsEscape`): what it takes too much is a plain character.
-/

namespace ServerTemplate.Script

variable {quote : Char} {e : StringElement} {es rest front back : List StringElement}
  {behind : List Char}

/-! ### Elements in a row -/

theorem textOf_cons (e : StringElement) (es : List StringElement) :
    textOf (e :: es) = e.text ++ textOf es := rfl

theorem textOf_append (es es' : List StringElement) :
    textOf (es ++ es') = textOf es ++ textOf es' :=
  List.flatMap_append

theorem areLegal_of_append (legal : areLegal quote (front ++ back) = true) :
    areLegal quote back = true := by
  induction front with
  | nil => exact legal
  | cons e front ih =>
    exact ih (areLegal_cons.mp legal).2.2

/-- The character at which elements begin is the first of their text. -/
theorem exists_textOf (quote : Char) (es : List StringElement) (behind : List Char) :
    ∃ tail, textOf es ++ quote :: behind = firstOf quote es :: tail := by
  cases es with
  | nil => exact ⟨behind, rfl⟩
  | cons e rest => cases e <;> exact ⟨_, rfl⟩

/-- Only a plain character is neither a quote nor a backslash. -/
theorem exists_plain {c : Char} (first : firstOf quote es = c) (noQuote : c ≠ quote)
    (noEscape : c ≠ '\\') : ∃ rest, es = .plain c :: rest := by
  cases es with
  | nil => exact absurd first.symm noQuote
  | cons e rest =>
    cases e with
    | plain d =>
      cases first
      exact ⟨rest, rfl⟩
    | _ => exact absurd first.symm noEscape

/-- Behind a hidden carriage return, only a separator is lost. -/
theorem takenFrom_true (apart : isSeparator (firstOf quote rest) = false) :
    takenFrom true rest = takenFrom false rest := by
  cases rest with
  | nil => rfl
  | cons e rest =>
    have other : e.isPlainSeparator = false := by
      cases e with
      | plain c => exact apart
      | _ => rfl
    rw [takenFrom, takenFrom, other]
    rfl

/-! ### Escapes -/

/-- Elements begin with others, for which code points are taken. -/
structure Begins (es front back : List StringElement) (points : List Nat) : Prop where
  split : es = front ++ back
  taken : takenFrom false es = points ++ takenFrom false back

theorem Begins.own (h : takenFrom (e == .continuation ['\r']) rest = takenFrom false rest) :
    Begins (e :: rest) [e] rest e.points := by
  refine ⟨rfl, ?_⟩
  rw [takenFrom, h]
  rfl

/-- An escape with the plain character behind it. -/
theorem Begins.longer {c : Char} (h : (e == .continuation ['\r']) = false) :
    Begins (e :: .plain c :: rest) [e, .plain c] rest (e.points ++ [c.toNat]) := by
  refine ⟨rfl, ?_⟩
  rw [takenFrom, h, takenFrom, List.append_assoc]
  rfl

/-- A hidden carriage return with the separator behind it. -/
theorem Begins.lost {c : Char} (separator : isSeparator c = true) :
    Begins (.continuation ['\r'] :: .plain c :: rest) [.continuation ['\r'], .plain c] rest [] := by
  refine ⟨rfl, ?_⟩
  have same : (StringElement.plain c).isPlainSeparator = true := separator
  have hidden : (StringElement.continuation ['\r'] == .continuation ['\r']) = true := by decide
  rw [takenFrom, hidden, takenFrom, same]
  rfl

/-- An escape at the beginning of elements is read, and taken for something. -/
def ReadsEscape (quote : Char) (es : List StringElement) (behind : List Char) : Prop :=
  ∃ front back points, Begins es front back points ∧
    escapeLength? (textOf es ++ quote :: behind) = some (textOf front).length ∧
    escaped ((textOf front).drop 1) = .ok points

theorem letterEscape?_getD {c : Char} (h : c ≠ '0') :
    (letterEscape? c).getD c = controlChar c := by
  unfold letterEscape? controlChar
  split <;> simp_all

theorem escaped_singleton {c : Char} (hu : c ≠ 'u') (hx : c ≠ 'x') (hr : c ≠ '\r')
    (hn : c ≠ '\n') : escaped [c] = .ok [((letterEscape? c).getD c).toNat] := by
  unfold escaped
  split <;> simp_all

theorem isSeparator_of_isLineBreak {c : Char} (h : isLineBreak c = true) (hn : c ≠ '\n') :
    isSeparator c = true := by
  unfold isLineBreak at h
  unfold isSeparator
  simpa [hn] using h

theorem isOctalDigit_ne {c d : Char} (h : isOctalDigit c = true) (hd : isOctalDigit d = false) :
    c ≠ d := by
  rintro rfl
  rw [h] at hd
  cases hd

theorem codePoint_of_le {digits : List Char} (h : hexValue digits ≤ 0x10FFFF) :
    codePoint digits = .ok [hexValue digits] := by
  unfold codePoint
  rw [if_pos h]

/-- Two or three octal digits stand for themselves. -/
theorem escaped_octal {a b : Char} {rest : List Char} (octal : isOctalDigit a = true) :
    escaped (a :: b :: rest) = .ok ((a :: b :: rest).map Char.toNat) := by
  have hu := isOctalDigit_ne octal (show isOctalDigit 'u' = false by decide)
  have hx := isOctalDigit_ne octal (show isOctalDigit 'x' = false by decide)
  have hr := isOctalDigit_ne octal (show isOctalDigit '\r' = false by decide)
  have hn := isOctalDigit_ne octal (show isOctalDigit '\n' = false by decide)
  unfold escaped
  split <;> simp_all

theorem points_octal (a b : Char) (rest : List Char) :
    (StringElement.octal (a :: b :: rest)).points = (a :: b :: rest).map Char.toNat :=
  if_neg (by simp)

/-- A single octal digit stands for itself, unless it is zero. -/
theorem escaped_octal_singleton {a : Char} (octal : isOctalDigit a = true) :
    escaped [a] = .ok (StringElement.octal [a]).points := by
  have other {d : Char} (hd : isOctalDigit d = false) : a ≠ d := isOctalDigit_ne octal hd
  rw [escaped_singleton (other (by decide)) (other (by decide)) (other (by decide))
    (other (by decide))]
  by_cases zero : a = '0'
  · subst zero
    rfl
  · have itself : controlChar a = a := by
      unfold controlChar
      split <;> first | rfl | exact absurd octal (by decide)
    rw [letterEscape?_getD zero, itself, StringElement.points, if_neg]
    · rfl
    · simpa using zero

/-- The length of an octal escape does not depend on its first digit. -/
theorem escapeLength?_octal {a : Char} (octal : isOctalDigit a = true) (cs : List Char) :
    escapeLength? ('\\' :: a :: cs) = some (2 + ((cs.take 2).takeWhile isOctalDigit).length) := by
  have hx := isOctalDigit_ne octal (show isOctalDigit 'x' = false by decide)
  have hu := isOctalDigit_ne octal (show isOctalDigit 'u' = false by decide)
  simp [escapeLength?, hx, hu, octal]

/-! ### One element -/

/-- An escape that is read by itself, behind which no separator is lost. -/
theorem ReadsEscape.alone (length : escapeLength? (e.text ++ (textOf rest ++ quote :: behind)) =
      some e.text.length)
    (value : escaped (e.text.drop 1) = .ok e.points)
    (apart : e = .continuation ['\r'] → isSeparator (firstOf quote rest) = false) :
    ReadsEscape quote (e :: rest) behind := by
  refine ⟨[e], rest, e.points, .own ?_, ?_, ?_⟩
  · by_cases hidden : e = .continuation ['\r']
    · rw [beq_iff_eq.mpr hidden]
      exact takenFrom_true (apart hidden)
    · rw [beq_eq_false_iff_ne.mpr hidden]
  · rw [textOf_cons, List.append_assoc, length, textOf_cons]
    simp [textOf]
  · simpa [textOf] using value

/-- An escape that is read by itself and hides no end of a line. -/
theorem ReadsEscape.own (length : escapeLength? (e.text ++ (textOf rest ++ quote :: behind)) =
      some e.text.length)
    (value : escaped (e.text.drop 1) = .ok e.points)
    (visible : (e == .continuation ['\r']) = false) : ReadsEscape quote (e :: rest) behind := by
  refine .alone length value fun hidden => ?_
  rw [hidden] at visible
  exact absurd visible (by decide)

theorem readsEscape_byte {a b : Char} (own : (StringElement.byte a b).isLegal quote = true) :
    ReadsEscape quote (.byte a b :: rest) behind := by
  have hexadecimal : (isHexDigit a && isHexDigit b) = true := own
  refine .own ?_ ?_ rfl
  · simp [StringElement.text, escapeLength?, hexadecimal]
  · have bound : hexValue [a, b] < 0x100 := hexValue_lt [a, b]
    exact codePoint_of_le (by omega)

theorem readsEscape_unit {a b c d : Char}
    (own : (StringElement.unit a b c d).isLegal quote = true) :
    ReadsEscape quote (.unit a b c d :: rest) behind := by
  have hexadecimal : [a, b, c, d].all isHexDigit = true := own
  have noBrace : a ≠ '\x7b' := by
    rintro rfl
    cases hexadecimal
  refine .own ?_ ?_ rfl
  · change codePointEscapeLength? ('\\' :: 'u' :: a :: b :: c :: d :: _) = _
    unfold codePointEscapeLength?
    split
    · rename_i eq
      simp only [List.cons.injEq] at eq
      exact absurd eq.2.2.1 noBrace
    · rename_i eq
      simp only [List.cons.injEq, true_and] at eq
      obtain ⟨rfl, rfl, rfl, rfl, -⟩ := eq
      exact if_pos hexadecimal
    · rename_i other
      exact (other _ _ _ _ _ rfl).elim
  · have bound := hexValue_lt_of_length_le (Nat.le_refl [a, b, c, d].length)
    change escaped ('u' :: a :: b :: c :: [d]) = _
    rw [escaped]
    · exact codePoint_of_le (by omega)
    · intro digits eq
      exact noBrace (List.cons.inj eq).1

theorem readsEscape_codePoint {digits : List Char}
    (own : (StringElement.codePoint digits).isLegal quote = true) :
    ReadsEscape quote (.codePoint digits :: rest) behind := by
  simp only [StringElement.isLegal, Bool.and_eq_true, Bool.not_eq_true', List.all_eq_true,
    decide_eq_true_eq] at own
  obtain ⟨⟨nonempty, hexadecimal⟩, bound⟩ := own
  refine .own ?_ ?_ rfl
  · change codePointEscapeLength? ('\\' :: 'u' :: '\x7b' :: (digits ++ ['\x7d'] ++ _)) = _
    rw [codePointEscapeLength?, List.append_assoc]
    have taken (cs : List Char) : (digits ++ '\x7d' :: cs).takeWhile isHexDigit = digits := by
      rw [List.takeWhile_append_of_pos hexadecimal]
      exact List.append_nil digits
    simp [taken, nonempty, StringElement.text]
  · change codePoint (digits ++ ['\x7d']).dropLast = _
    rw [List.dropLast_concat]
    exact codePoint_of_le bound

/-! ### One element or two -/

section Two

variable (quoted : quote = '\x27' ∨ quote = '\x22')

include quoted

/-- A separator or an octal digit behind an element is a plain character. -/
theorem exists_plain_of {p : Char → Bool} (h : p (firstOf quote rest) = true)
    (single : p '\x27' = false) (double : p '\x22' = false) (backslash : p '\\' = false) :
    ∃ c tail, rest = .plain c :: tail ∧ p c = true := by
  have other {d : Char} (hd : p d = false) : firstOf quote rest ≠ d := by
    intro same
    rw [same, hd] at h
    cases h
  have noQuote : firstOf quote rest ≠ quote := by
    rcases quoted with rfl | rfl
    · exact other single
    · exact other double
  obtain ⟨tail, eq⟩ := exists_plain rfl noQuote (other backslash)
  exact ⟨_, tail, eq, h⟩

/-- A line break in front of which an element stands is a plain separator. -/
theorem exists_separator (others : areLegal quote rest = true)
    (h : isLineBreak (firstOf quote rest) = true) :
    ∃ c tail, rest = .plain c :: tail ∧ isSeparator c = true := by
  obtain ⟨c, tail, rfl, break_⟩ := exists_plain_of quoted h (by decide) (by decide) (by decide)
  have plain := (areLegal_cons.mp others).1
  simp only [StringElement.isLegal, Bool.and_eq_true, bne_iff_ne] at plain
  exact ⟨c, tail, rfl, isSeparator_of_isLineBreak break_ plain.1.2⟩

theorem readsEscape_character {c : Char}
    (own : (StringElement.character c).isLegal quote = true) (others : areLegal quote rest = true) :
    ReadsEscape quote (.character c :: rest) behind := by
  simp only [StringElement.isLegal, Bool.and_eq_true, Bool.not_eq_true', bne_iff_ne] at own
  obtain ⟨⟨⟨⟨octal, hx⟩, hu⟩, noBreak⟩, hr⟩ := own
  obtain ⟨tail, htail⟩ := exists_textOf quote rest behind
  have length : escapeLength? ('\\' :: c :: firstOf quote rest :: tail) =
      if c == '?' && isLineBreak (firstOf quote rest) then some 3 else some 2 := by
    simp [escapeLength?, hx, hu, octal, hr]
  by_cases longer : (c == '?' && isLineBreak (firstOf quote rest)) = true
  · -- a line break behind a question mark belongs to the escape, which stands for both
    obtain ⟨question, break_⟩ := Bool.and_eq_true_iff.mp longer
    obtain ⟨d, after, rfl, -⟩ := exists_separator quoted others break_
    obtain rfl := beq_iff_eq.mp question
    refine ⟨_, after, _, .longer (by decide), ?_, rfl⟩
    rw [textOf_cons, List.append_assoc, htail]
    exact length.trans (if_pos longer)
  · have h0 : c ≠ '0' := by
      rintro rfl
      cases octal
    have hn : c ≠ '\n' := by
      rintro rfl
      cases noBreak
    refine .own ?_ ?_ rfl
    · rw [htail]
      exact length.trans (if_neg longer)
    · change escaped [c] = _
      rw [escaped_singleton hu hx hr hn, letterEscape?_getD h0]
      rfl

theorem readsEscape_octal {digits : List Char}
    (own : (StringElement.octal digits).isLegal quote = true)
    (ends : (StringElement.octal digits).endsBefore (firstOf quote rest) = true) :
    ReadsEscape quote (.octal digits :: rest) behind := by
  obtain ⟨octal, few⟩ := Bool.and_eq_true_iff.mp own
  rw [List.all_eq_true] at octal
  rw [StringElement.endsBefore, Bool.not_eq_true', Bool.and_eq_false_iff] at ends
  obtain ⟨tail, htail⟩ := exists_textOf quote rest behind
  rcases digits with _ | ⟨a, _ | ⟨b, _ | ⟨c, _ | ⟨d, more⟩⟩⟩⟩
  · cases few
  · -- a single digit in front of no other
    have first := octal a (List.mem_cons_self ..)
    have noDigit : isOctalDigit (firstOf quote rest) = false := by simpa [goesOn] using ends
    refine .own ?_ (escaped_octal_singleton first) rfl
    rw [htail]
    refine (escapeLength?_octal first _).trans ?_
    simp [noDigit, StringElement.text]
  · have first := octal a (List.mem_cons_self ..)
    have second := octal b (List.mem_cons_of_mem _ (List.mem_cons_self ..))
    cases next : isOctalDigit (firstOf quote rest) with
    | false =>
      refine .own ?_ ?_ rfl
      · rw [htail]
        refine (escapeLength?_octal first _).trans ?_
        simp [second, next, StringElement.text]
      · rw [points_octal]
        exact escaped_octal first
    | true =>
      -- a third digit is taken as well
      obtain ⟨d, after, rfl, third⟩ := exists_plain_of quoted next (by decide) (by decide)
        (by decide)
      refine ⟨_, after, _, .longer (by simp), ?_, ?_⟩
      · rw [textOf_cons, List.append_assoc, htail]
        refine (escapeLength?_octal first _).trans ?_
        simp [second, next, textOf, StringElement.text]
      · rw [points_octal]
        exact escaped_octal first
  · have first := octal a (List.mem_cons_self ..)
    have second := octal b (List.mem_cons_of_mem _ (List.mem_cons_self ..))
    have third : isOctalDigit c = true := octal c (by simp)
    refine .own ?_ ?_ rfl
    · refine (escapeLength?_octal first _).trans ?_
      simp [second, third, StringElement.text]
    · rw [points_octal]
      exact escaped_octal first
  · cases few

/-- The end of a line that is hidden by a carriage return. -/
theorem readsEscape_return (others : areLegal quote rest = true) :
    ReadsEscape quote (.continuation ['\r'] :: rest) behind := by
  obtain ⟨tail, htail⟩ := exists_textOf quote rest behind
  have length : escapeLength? ('\\' :: '\r' :: firstOf quote rest :: tail) =
      if isLineBreak (firstOf quote rest) then some 3 else some 2 := rfl
  cases next : isLineBreak (firstOf quote rest) with
  | true =>
    -- the separator belongs to the escape and is lost with it
    obtain ⟨d, after, rfl, separator⟩ := exists_separator quoted others next
    refine ⟨_, after, _, .lost separator, ?_, rfl⟩
    rw [textOf_cons, List.append_assoc, htail]
    exact length.trans (if_pos next)
  | false =>
    refine .alone ?_ rfl fun _ => ?_
    · rw [htail]
      refine length.trans (if_neg ?_)
      rw [next]
      exact Bool.false_ne_true
    · rw [isLineBreak, Bool.or_assoc, Bool.or_eq_false_iff] at next
      exact next.2

/-- An element that is no plain character is read as an escape. -/
theorem readsEscape (legal : areLegal quote (e :: rest) = true)
    (backslash : firstOf quote (e :: rest) = '\\') : ReadsEscape quote (e :: rest) behind := by
  obtain ⟨own, ends, others⟩ := areLegal_cons.mp legal
  cases e with
  | plain c =>
    obtain rfl : c = '\\' := backslash
    simp [StringElement.isLegal] at own
  | character c => exact readsEscape_character quoted own others
  | octal digits => exact readsEscape_octal quoted own ends
  | byte a b => exact readsEscape_byte own
  | unit a b c d => exact readsEscape_unit own
  | codePoint digits => exact readsEscape_codePoint own
  | continuation ending =>
    have listed : ending ∈ lineEndings := List.contains_iff_mem.mp own
    simp only [lineEndings, List.mem_cons, List.not_mem_nil, or_false] at listed
    rcases listed with rfl | rfl | rfl | rfl | rfl
    · exact .own rfl rfl rfl
    · exact readsEscape_return quoted others
    · exact .own rfl rfl rfl
    · exact .own rfl rfl rfl
    · exact .own rfl rfl rfl

end Two

end ServerTemplate.Script
