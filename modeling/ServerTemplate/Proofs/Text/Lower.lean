import ServerTemplate.Text.Case

/-!
# Lower case of ASCII words

Full lower case and lower case of the ASCII letters alone agree on which texts are a given ASCII
word, as long as the word has no `k` in it (`lower_eq_iff_asciiLower_eq`): the Kelvin sign is the
only other character whose lower case is an ASCII letter by itself.
-/

namespace ServerTemplate.Text

/-- Beyond ASCII, a run of capitals begins beyond ASCII as well or is the Kelvin sign, and all of it
are characters. -/
theorem capitalRuns_images : ∀ run ∈ capitalRuns,
    (0x80 ≤ run.image ∨ run.image = 'k'.toNat ∧ run.first = run.last) ∧
      (run.image + (run.last - run.first) < 0xD800 ∨
        0xDFFF < run.image ∧ run.image + (run.last - run.first) < 0x110000) := by
  decide +kernel

/-- The lower case of a character beyond ASCII is beyond ASCII, or a `k`. -/
theorem lowerChar_of_not_ascii {c : Char} (h : 0x80 ≤ c.toNat) :
    0x80 ≤ (lowerChar c).toNat ∨ lowerChar c = 'k' := by
  unfold lowerChar
  rw [if_neg (Nat.not_lt.mpr h)]
  split
  · rename_i run hrun
    obtain ⟨image, valid⟩ := capitalRuns_images run (List.mem_of_find?_eq_some hrun)
    have inRun := List.find?_some hrun
    simp only [Bool.and_eq_true, decide_eq_true_eq] at inRun
    obtain ⟨⟨hfirst, hlast⟩, -⟩ := inRun
    rcases image with image | ⟨image, single⟩
    · left
      have isChar : (run.image + (c.toNat - run.first)).isValidChar := by
        rcases valid with valid | valid
        · exact .inl (by omega)
        · exact .inr (by omega)
      rw [Char.ofNat, dif_pos isChar]
      change 0x80 ≤ run.image + (c.toNat - run.first)
      omega
    · right
      rw [show c.toNat - run.first = 0 by omega, image]
      rfl
  · exact .inl h

/-- Only ASCII letters are mapped where ASCII letters alone are. -/
theorem toLower_of_not_ascii {c : Char} (h : 0x80 ≤ c.toNat) : c.toLower = c := by
  have outside : ¬ (c.val ≥ 'A'.val ∧ c.val ≤ 'Z'.val) := by
    rintro ⟨-, hle⟩
    have : c.toNat ≤ 'Z'.toNat := UInt32.le_iff_toNat_le.mp hle
    have : 'Z'.toNat = 0x5A := rfl
    omega
  exact dif_neg outside

/-- The lower case of one character that is not lengthened and hangs on no neighbour. -/
theorem lowerAfter_cons {c : Char} (hdot : c ≠ '\u0130') (hsigma : c ≠ 'Σ')
    (before rest : List Char) :
    lowerAfter before (c :: rest) = lowerChar c :: lowerAfter (c :: before) rest := by
  rw [lowerAfter, if_neg (by simpa using hdot), if_neg (by simpa using hsigma)]
  rfl

/-- A capital I with a dot and a capital sigma have no ASCII lower case. -/
theorem exists_not_ascii_of_lowerAfter {c : Char} (h : c = '\u0130' ∨ c = 'Σ')
    (before rest : List Char) : ∃ d ∈ lowerAfter before (c :: rest), 0x80 ≤ d.toNat := by
  rcases h with rfl | rfl
  · exact ⟨'\u0307', by simp [lowerAfter], by decide⟩
  · rw [lowerAfter, if_neg (by decide), if_pos (by decide)]
    cases meetsCased before && !meetsCased rest
    · exact ⟨'σ', by simp, by decide⟩
    · exact ⟨'ς', by simp, by decide⟩

/-- The two lower cases agree on which characters make up a word without `k`. -/
theorem lowerAfter_eq_iff (before : List Char) {word : List Char}
    (hword : ∀ c ∈ word, c.toNat < 0x80 ∧ c ≠ 'k') (cs : List Char) :
    lowerAfter before cs = word ↔ cs.map Char.toLower = word := by
  induction cs generalizing before word with
  | nil => rfl
  | cons c rest ih =>
    by_cases ascii : c.toNat < 0x80
    · have hdot : c ≠ '\u0130' := by rintro rfl; exact absurd ascii (by decide)
      have hsigma : c ≠ 'Σ' := by rintro rfl; exact absurd ascii (by decide)
      have same : lowerChar c = c.toLower := by rw [lowerChar, if_pos ascii]
      rw [lowerAfter_cons hdot hsigma, List.map_cons, same]
      cases word with
      | nil => simp
      | cons w word =>
        rw [List.cons.injEq, List.cons.injEq,
          ih (c :: before) fun d hd => hword d (List.mem_cons_of_mem _ hd)]
    · -- a character beyond ASCII is not in the word, nor is its lower case
      rw [Nat.not_lt] at ascii
      refine iff_of_false (fun h => ?_) fun h => ?_
      · by_cases special : c = '\u0130' ∨ c = 'Σ'
        · obtain ⟨d, hd, hnot⟩ := exists_not_ascii_of_lowerAfter special before rest
          have := (hword d (h ▸ hd)).1
          omega
        · obtain ⟨hdot, hsigma⟩ := not_or.mp special
          rw [lowerAfter_cons hdot hsigma] at h
          have hc := hword (lowerChar c) (h ▸ List.mem_cons_self ..)
          rcases lowerChar_of_not_ascii ascii with hnot | hk
          · omega
          · exact hc.2 hk
      · rw [List.map_cons, toLower_of_not_ascii ascii] at h
        have := (hword c (h ▸ List.mem_cons_self ..)).1
        omega

/-- Full lower case and lower case of the ASCII letters agree on ASCII words without `k`. -/
theorem lower_eq_iff_asciiLower_eq {word : String}
    (hword : ∀ c ∈ word.toList, c.toNat < 0x80 ∧ c ≠ 'k') (s : String) :
    lower s = word ↔ asciiLower s = word := by
  have ofList_eq (cs : List Char) : String.ofList cs = word ↔ cs = word.toList := by
    constructor
    · rintro rfl
      exact (String.toList_ofList).symm
    · rintro rfl
      exact String.ofList_toList
  rw [lower, asciiLower, ofList_eq, ofList_eq]
  exact lowerAfter_eq_iff [] hword s.toList

/-- An ASCII word without `k` and without capitals is its own lower case. -/
theorem lower_eq_self {word : String} (hword : ∀ c ∈ word.toList, c.toNat < 0x80 ∧ c ≠ 'k')
    (small : asciiLower word = word) : lower word = word :=
  (lower_eq_iff_asciiLower_eq hword word).mpr small

end ServerTemplate.Text
