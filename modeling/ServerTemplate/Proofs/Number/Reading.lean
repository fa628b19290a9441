import Mathlib.Data.List.TakeWhile
import ServerTemplate.Number.Read

/-!
# Reading plain numbers

A number spelled in ASCII with nothing around it is read by its parts: what `Binary64.ofText?` drops
or replaces in other texts is not in it, and no word has digits (`Binary64.ofText?_ofList`).
-/

namespace ServerTemplate

/-! ### The characters of numbers -/

/-- The decimal digits. -/
def digitChars : List Char := "0123456789".toList

/-- The characters of numbers in any notation. -/
def numberChars : List Char :=
  digitChars ++ "abcdefghijklmnopqrstuvwxyzABCDEFGHIJKLMNOPQRSTUVWXYZ.+-_".toList

theorem mem_digitChars_of_isDigit {c : Char} (h : c.isDigit = true) : c ∈ digitChars := by
  have digits : ∀ n ∈ List.range' 48 10, Char.ofNat n ∈ digitChars := by decide
  rw [Char.isDigit, Bool.and_eq_true, decide_eq_true_eq, decide_eq_true_eq] at h
  rw [← Char.ofNat_toNat c]
  refine digits _ (List.mem_range'_1.mpr ⟨UInt32.le_iff_toNat_le.mp h.1, ?_⟩)
  exact Nat.lt_succ_of_le (UInt32.le_iff_toNat_le.mp h.2)

theorem mem_numberChars_of_isDigit {c : Char} (h : c.isDigit = true) : c ∈ numberChars :=
  List.mem_append_left _ (mem_digitChars_of_isDigit h)

/-- A digit is no other character. -/
theorem ne_of_isDigit {c d : Char} (h : c.isDigit = true) (hd : d.isDigit = false) : c ≠ d := by
  rintro rfl
  rw [h] at hd
  cases hd

/-- A digit has no other case. -/
theorem toLower_of_isDigit {c : Char} (h : c.isDigit = true) : c.toLower = c := by
  have digits : digitChars.all (fun c => c.toLower == c) = true := by decide
  exact beq_iff_eq.mp (List.all_eq_true.mp digits c (mem_digitChars_of_isDigit h))

/-! ### What is not in a plain number -/

section Plain

variable {cs left : List Char} {c before : Char}

theorem trimBoth_eq_self {p : Char → Bool} (h : ∀ c ∈ cs, p c = false) :
    Text.trimBoth p cs = cs := by
  have kept {ds : List Char} (hds : ∀ c ∈ ds, p c = false) : ds.dropWhile p = ds := by
    cases ds with
    | nil => rfl
    | cons c ds => rw [List.dropWhile_cons_of_neg (by simp [hds c (.head _)])]
  rw [Text.trimBoth, kept h, kept fun c hc => h c (List.mem_reverse.mp hc), List.reverse_reverse]

/-- No character of a number is blank. -/
theorem trimBoth_numberChars (h : ∀ c ∈ cs, c ∈ numberChars) :
    Text.trimBoth Text.isNumberBlank cs = cs := by
  have blanks : numberChars.all (!Text.isNumberBlank ·) = true := by decide
  refine trimBoth_eq_self fun c hc => ?_
  simpa using List.all_eq_true.mp blanks c (h c hc)

/-- No character of a number is a digit of another script. -/
theorem asciiDigits_numberChars (h : ∀ c ∈ cs, c ∈ numberChars) : asciiDigits cs = cs := by
  have same : numberChars.all (fun c => asciiDigits [c] == [c]) = true := by decide
  refine (List.map_congr_left fun c hc => ?_).trans (List.map_id cs)
  exact (List.cons.inj (beq_iff_eq.mp (List.all_eq_true.mp same c (h c hc)))).1

theorem dropGrouping?_cons (other : c ≠ '_') (first : before ≠ '_') :
    dropGrouping? before (c :: cs) = (dropGrouping? c cs).map (c :: ·) := by
  simp [dropGrouping?, other, first]

theorem dropGrouping?_eq_some (first : before ≠ '_') (h : '_' ∉ cs) :
    dropGrouping? before cs = some cs := by
  induction cs generalizing before with
  | nil => simp [dropGrouping?, first]
  | cons c cs ih =>
    obtain ⟨hc, hcs⟩ := not_or.mp (mt List.mem_cons.mpr h)
    rw [dropGrouping?_cons (Ne.symm hc) first, ih (Ne.symm hc) hcs]
    rfl

/-- Only underscores are dropped. -/
theorem mem_of_dropGrouping? (h : dropGrouping? before cs = some left) (hc : c ∈ cs)
    (other : c ≠ '_') : c ∈ left := by
  induction cs generalizing before left with
  | nil => cases hc
  | cons d cs ih =>
    rw [dropGrouping?] at h
    split at h
    · next underscore =>
      have tail := (List.mem_cons.mp hc).resolve_left fun same => other <| by
        rw [same]
        exact beq_iff_eq.mp underscore
      split at h
      · exact ih h tail
      · cases h
    · split at h
      · cases h
      · obtain ⟨left, hleft, rfl⟩ := Option.map_eq_some_iff.mp h
        cases hc with
        | head => exact .head _
        | tail _ hc => exact .tail _ (ih hleft hc)

/-- Only a sign is split off. -/
theorem mem_of_splitSign (hc : c ∈ cs) (minus : c ≠ '-') (plus : c ≠ '+') :
    c ∈ (splitSign cs).2 := by
  unfold splitSign
  split
  · exact (List.mem_cons.mp hc).resolve_left minus
  · exact (List.mem_cons.mp hc).resolve_left plus
  · exact hc

/-- Digits have no sign in front. -/
theorem splitSign_cons_digit (digit : c.isDigit = true ∨ c = '.') :
    splitSign (c :: cs) = (false, c :: cs) := by
  have other (d : Char) (hd : d.isDigit = false) (hd' : d ≠ '.') : c ≠ d := by
    obtain digit | rfl := digit
    · exact ne_of_isDigit digit hd
    · exact Ne.symm hd'
  rw [splitSign]
  · exact fun rest eq => other '-' rfl (by decide) (List.cons.inj eq).1
  · exact fun rest eq => other '+' rfl (by decide) (List.cons.inj eq).1

theorem splitSign_digits (h : ∀ c ∈ cs, c.isDigit = true) : splitSign cs = (false, cs) := by
  cases cs with
  | nil => rfl
  | cons c cs => exact splitSign_cons_digit (.inl (h c (.head _)))

end Plain

namespace Binary64

variable {cs : List Char} {c : Char}

/-- A plain number is read as its sign and the decimal behind it. -/
theorem ofText?_ofList (h : ∀ c ∈ cs, c ∈ numberChars) (hc : c ∈ cs) (digit : c.isDigit = true) :
    ofText? (.ofList cs) =
      (dropGrouping? ' ' cs).bind fun cs => ofUnsigned? (splitSign cs).1 (splitSign cs).2 := by
  rw [ofText?, String.toList_ofList, trimBoth_numberChars h, asciiDigits_numberChars h]
  cases hleft : dropGrouping? ' ' cs with
  | none => rfl
  | some left =>
    have kept := mem_of_dropGrouping? hleft hc (ne_of_isDigit digit (by decide))
    have behind := mem_of_splitSign kept (ne_of_isDigit digit (by decide))
      (ne_of_isDigit digit (by decide))
    -- the words have no digits
    have word {w : String} (letters : w.toList.all (!Char.isDigit ·) = true) :
        String.ofList ((splitSign left).2.map Char.toLower) ≠ w := by
      rintro rfl
      rw [String.toList_ofList] at letters
      have mem := List.mem_map_of_mem (f := Char.toLower) behind
      have letter := List.all_eq_true.mp letters _ mem
      rw [toLower_of_isDigit digit, digit] at letter
      cases letter
    dsimp only
    rw [if_neg (not_or.mpr ⟨word (by decide), word (by decide)⟩), if_neg (word (by decide))]
    rfl

theorem ofUnsigned?_digits (nonempty : cs ≠ []) (h : ∀ c ∈ cs, c.isDigit = true)
    (negative : Bool) :
    ofUnsigned? negative cs = some (ofDecimal negative (decimalValue cs) 0) := by
  have whole : cs.takeWhile Char.isDigit = cs := List.takeWhile_eq_self_iff.mpr h
  have rest : cs.dropWhile Char.isDigit = [] := List.dropWhile_eq_nil_iff.mpr h
  simp [ofUnsigned?, whole, rest, nonempty]

end Binary64

end ServerTemplate
