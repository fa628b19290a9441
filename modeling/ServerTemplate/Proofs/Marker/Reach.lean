import ServerTemplate.Proofs.Literal.Scan
import ServerTemplate.Proofs.Marker.Seam

/-!
# Markers that reach past the end of a text

In a text that ends in markup every marker that is a word ends in front of the mark that closes its
region, so what follows the text does not change it. Only the marks of a region can be cut at the
end of the text, and only a quote that is not closed in it can reach past its end (`quoteReaches`).
Where neither is the case the scanner finds in two texts what it finds in each
(`heeded_segmentsFrom_append`).
-/

namespace ServerTemplate

/-- What is plain has no question mark in it. -/
theorem PlainlyBefore.mem_mark {cs rest : List Char} (h : PlainlyBefore cs rest) (mark : '?' ∈ cs) :
    '?' ∈ rest := by
  obtain ⟨front, rfl, plain⟩ := h
  rcases List.mem_append.mp mark with inside | behind
  · cases plain '?' inside
  · exact behind

namespace Marker

variable {cs rest : List Char} {c : Char}

/-- Two steps of a match of which the first finds the same, but for what is behind it. -/
theorem bind_map_of {α β γ δ : Type} {x : Option α} {f : α → Option β} {f' : γ → Option δ}
    {i : α → γ} {g : β → δ} (h : ∀ a, x = some a → f' (i a) = (f a).map g) :
    (x.map i).bind f' = (x.bind f).map g := by
  cases x with
  | none => rfl
  | some a => exact h a rfl

/-! ### Words in front of a question mark -/

section Mark

variable (mark : '?' ∈ cs) (ys : List Char)

include mark

theorem after?_append {word : List Char} (plain : word.all isPlain = true) :
    after? word (cs ++ ys) = (after? word cs).map (· ++ ys) := by
  cases found : after? word cs with
  | some rest =>
    rw [after?_eq_some.mp found, List.append_assoc]
    exact after?_eq_some.mpr rfl
  | none =>
    refine Option.eq_none_iff_forall_ne_some.mpr fun left hleft => ?_
    have begins : word <+: cs ++ ys := ⟨left, (after?_eq_some.mp hleft).symm⟩
    rcases prefix_append_cases begins with ⟨rest, inside⟩ | ⟨q, -, hword, -⟩
    · rw [after?_eq_some.mpr inside.symm] at found
      cases found
    · -- the word would go on past the question mark
      cases List.all_eq_true.mp plain '?' (hword ▸ List.mem_append_left q mark)

/-- A class of characters without the question mark ends in front of it. -/
theorem span_append {p : Char → Bool} (noMark : p '?' = false) :
    (cs ++ ys).takeWhile p = cs.takeWhile p ∧ (cs ++ ys).dropWhile p = cs.dropWhile p ++ ys := by
  induction cs with
  | nil => cases mark
  | cons c cs ih =>
    cases hc : p c with
    | false => simp [hc]
    | true =>
      have later : '?' ∈ cs := by
        refine (List.mem_cons.mp mark).resolve_left fun same => ?_
        rw [← same, noMark] at hc
        cases hc
      simpa [hc] using ih later

theorem skipBlanks_append : skipBlanks (cs ++ ys) = skipBlanks cs ++ ys :=
  (span_append mark ys (by decide)).2

theorem afterSomeBlanks?_append :
    afterSomeBlanks? (cs ++ ys) = (afterSomeBlanks? cs).map (· ++ ys) := by
  have head : (cs ++ ys).head? = cs.head? := by
    cases cs with
    | nil => cases mark
    | cons c cs => rfl
  rw [afterSomeBlanks?, afterSomeBlanks?, head, skipBlanks_append mark ys]
  split <;> rfl

theorem dollarName?_append :
    dollarName? (cs ++ ys) = (dollarName? cs).map fun r => (r.1, r.2 ++ ys) := by
  cases cs with
  | nil => cases mark
  | cons c cs =>
    by_cases dollar : c = '$'
    · subst dollar
      have later : '?' ∈ cs := (List.mem_cons.mp mark).resolve_left (by decide)
      obtain ⟨name, behind⟩ := span_append later ys (p := Text.isWordChar) (by decide)
      rw [List.cons_append, dollarName?, dollarName?, name, behind]
      split <;> rfl
    · have none (cs : List Char) : dollarName? (c :: cs) = none := by
        unfold dollarName?
        split
        · rename_i same
          exact (dollar (List.cons.inj same).1).elim
        · rfl
      rw [List.cons_append, none, none]
      rfl

theorem loopHead?_append :
    loopHead? (cs ++ ys) = (loopHead? cs).map fun r => (r.1, r.2 ++ ys) := by
  unfold loopHead?
  rw [after?_append mark ys (by decide)]
  refine bind_map_of fun r₁ h₁ => ?_
  have mark₁ := (PlainlyBefore.after? (by decide) h₁).mem_mark mark
  rw [skipBlanks_append mark₁, after?_append ((plainlyBefore_skipBlanks r₁).mem_mark mark₁) ys
    (by decide)]
  refine bind_map_of fun r₂ h₂ => ?_
  have mark₂ := (PlainlyBefore.after? (by decide) h₂).mem_mark
    ((plainlyBefore_skipBlanks r₁).mem_mark mark₁)
  rw [skipBlanks_append mark₂, dollarName?_append ((plainlyBefore_skipBlanks r₂).mem_mark mark₂)]
  refine bind_map_of fun ⟨array, r₃⟩ h₃ => ?_
  have mark₃ := (plain_of_dollarName? h₃).2.mem_mark ((plainlyBefore_skipBlanks r₂).mem_mark mark₂)
  dsimp only
  rw [afterSomeBlanks?_append mark₃]
  refine bind_map_of fun r₄ h₄ => ?_
  have mark₄ := (plainlyBefore_afterSomeBlanks? h₄).mem_mark mark₃
  rw [after?_append mark₄ ys (by decide)]
  refine bind_map_of fun r₅ h₅ => ?_
  have mark₅ := (PlainlyBefore.after? (by decide) h₅).mem_mark mark₄
  rw [afterSomeBlanks?_append mark₅]
  refine bind_map_of fun r₆ h₆ => ?_
  have mark₆ := (plainlyBefore_afterSomeBlanks? h₆).mem_mark mark₅
  rw [dollarName?_append mark₆]
  exact bind_map_of fun _ _ => rfl

theorem conditionalHead?_append :
    conditionalHead? (cs ++ ys) = (conditionalHead? cs).map fun r => (r.1, r.2 ++ ys) := by
  unfold conditionalHead?
  rw [after?_append mark ys (by decide)]
  refine bind_map_of fun r₁ h₁ => ?_
  have mark₁ := (PlainlyBefore.after? (by decide) h₁).mem_mark mark
  rw [skipBlanks_append mark₁, after?_append ((plainlyBefore_skipBlanks r₁).mem_mark mark₁) ys
    (by decide)]
  exact bind_map_of fun _ _ => rfl

theorem word?_append {word : String} (plain : word.toList.all isPlain = true) (marker : Marker) :
    word? word marker (cs ++ ys) = (word? word marker cs).map fun r => (r.1, r.2 ++ ys) := by
  unfold word?
  rw [after?_append mark ys plain]
  refine bind_map_of fun rest h => ?_
  have head : (rest ++ ys).head? = rest.head? := by
    cases rest with
    | nil => cases (PlainlyBefore.after? plain h).mem_mark mark
    | cons c rest => rfl
  rw [head]
  split <;> rfl

end Mark

/-! ### Marks of regions, and quotes -/

theorem region?_append {ys : List Char} (whole : ¬ TagCut (c :: cs) ys) :
    region? (c :: cs ++ ys) = (region? (c :: cs)).map fun r => (r.1, r.2 ++ ys) := by
  have tag (tag : Tag) : after? tag.chars (c :: cs ++ ys) =
      (after? tag.chars (c :: cs)).map (· ++ ys) := by
    cases found : after? tag.chars (c :: cs) with
    | some rest =>
      rw [after?_eq_some.mp found, List.append_assoc]
      exact after?_eq_some.mpr rfl
    | none =>
      refine Option.eq_none_iff_forall_ne_some.mpr fun left hleft => ?_
      have begins : tag.chars <+: c :: cs ++ ys := ⟨left, (after?_eq_some.mp hleft).symm⟩
      rw [← List.isPrefixOf_iff_prefix, tag.isPrefixOf_append (List.cons_ne_nil c cs) whole,
        List.isPrefixOf_iff_prefix] at begins
      obtain ⟨rest, inside⟩ := begins
      rw [after?_eq_some.mpr inside.symm] at found
      cases found
  have opening : after? "<?php".toList (c :: cs ++ ys) =
      (after? "<?php".toList (c :: cs)).map (· ++ ys) := tag .opening
  have closing : after? "?>".toList (c :: cs ++ ys) =
      (after? "?>".toList (c :: cs)).map (· ++ ys) := tag .closing
  unfold region?
  rw [opening, closing, Option.map_or, Option.map_map, Option.map_map, Option.map_map,
    Option.map_map]
  rfl

/-- A quote that is closed in a text is closed at the same place where another text follows. -/
theorem quotedLength?_append {mark : Char} {n : Nat} (h : quotedLength? mark cs = some n)
    (ys : List Char) : quotedLength? mark (cs ++ ys) = some n ∧ n ≤ cs.length := by
  fun_induction quotedLength? mark cs generalizing n with
  | case1 | case2 | case3 => cases h
  | case4 d rest hd ih =>
    obtain ⟨k, hk, rfl⟩ := Option.map_eq_some_iff.mp h
    obtain ⟨found, inside⟩ := ih hk
    rw [List.cons_append, List.cons_append, quotedLength?, if_neg hd, found]
    exact ⟨rfl, Nat.add_le_add_right inside 2⟩
  | case5 c rest hlast hescape hc =>
    have noEscape := ne_of_beq_false (beq_backslash_eq_false hlast hescape)
    cases h
    rw [List.cons_append, quotedLength?_cons noEscape, if_pos hc]
    exact ⟨rfl, Nat.succ_le_succ (Nat.zero_le _)⟩
  | case6 c rest hlast hescape hc ih =>
    have noEscape := ne_of_beq_false (beq_backslash_eq_false hlast hescape)
    obtain ⟨k, hk, rfl⟩ := Option.map_eq_some_iff.mp h
    obtain ⟨found, inside⟩ := ih hk
    rw [List.cons_append, quotedLength?_cons noEscape, if_neg hc, found]
    exact ⟨rfl, Nat.succ_le_succ inside⟩

/-- In code the scanner finds in a text what it finds with another text behind it, if a question
mark is still to come, no mark of a region is cut, and no quote that begins here is closed only
behind. -/
theorem inCode?_append {before : Option Char} {ys : List Char} (whole : ¬ TagCut (c :: cs) ys)
    (mark : '?' ∈ c :: cs)
    (closed : inCode? before (c :: cs) = none → isQuote c = true →
      quotedLength? c (cs ++ ys) = none) :
    inCode? before (c :: cs ++ ys) =
      (inCode? before (c :: cs)).map fun r => (r.1, r.2 ++ ys) := by
  cases quote : isQuote c with
  | true =>
    have found (rest : List Char) : inCode? before (c :: rest) =
        (quotedLength? c rest).map fun length => (quoted, rest.drop length) := if_pos quote
    rw [List.cons_append, found, found]
    cases hlength : quotedLength? c cs with
    | none => rw [closed (by rw [found, hlength]; rfl) quote]; rfl
    | some n =>
      obtain ⟨same, inside⟩ := quotedLength?_append hlength ys
      rw [same, Option.map_some, Option.map_some, Option.map_some,
        List.drop_append_of_le_length inside]
  | false =>
    have found (rest : List Char) : inCode? before (c :: rest) =
        (region? (c :: rest)).or (if noWord before then
          (((word? "endforeach" endLoop (c :: rest)).or (loopHead? (c :: rest))).or
            (word? "endif" endConditional (c :: rest))).or (conditionalHead? (c :: rest))
        else none) := if_neg (Bool.eq_false_iff.mp quote)
    rw [List.cons_append, found, found, ← List.cons_append, region?_append whole,
      word?_append mark ys (by decide), loopHead?_append mark, word?_append mark ys (by decide),
      conditionalHead?_append mark]
    rw [Option.map_or]
    cases noWord before with
    | false => rfl
    | true => simp only [if_true, Option.map_or]

end Marker

/-! ### Two texts -/

/-- Whether in a text a quote stands in code that is closed in another text behind it, but not in
its own. -/
def quoteReachesFrom : Bool → Option Char → Nat → List Char → List Char → Bool
  | _, _, _, [], _ => false
  | inCode, _, taken + 1, c :: rest, ys => quoteReachesFrom inCode (some c) taken rest ys
  | inCode, before, 0, c :: rest, ys =>
    match Marker.at? inCode before (c :: rest) with
    | some (found, left) =>
      quoteReachesFrom (found.codeAfter inCode) (some c) (rest.length - left.length) rest ys
    | none =>
      (inCode && isQuote c && (Marker.quotedLength? c (rest ++ ys)).isSome) ||
        quoteReachesFrom inCode (some c) 0 rest ys

/-- Whether in a text, which begins in code or in markup, a quote stands in code that is closed in
another text behind it, but not in its own. -/
def quoteReaches (inCode : Bool) (xs ys : List Char) : Bool := quoteReachesFrom inCode none 0 xs ys

/-- Where code is left, the mark that closes a region is still to come. -/
theorem mem_mark_of_codeAfter {before : Option Char} {taken : Nat} {cs : List Char}
    (left : Segment.codeAfter true (segmentsFrom true before taken cs) = false) : '?' ∈ cs := by
  induction cs generalizing before taken with
  | nil =>
    rw [segmentsFrom] at left
    cases left
  | cons c cs ih =>
    cases taken with
    | succ taken => exact List.mem_cons_of_mem c (ih left)
    | zero =>
      rw [segmentsFrom] at left
      split at left
      · rename_i found rest hat
        rcases Marker.inCode?_cases hat with ⟨-, rfl, -⟩ | region | ⟨isWord, -⟩
        · exact List.mem_cons_of_mem c (ih left)
        · rcases Marker.region?_cases region with ⟨-, hcs⟩ | ⟨-, hcs⟩
          · rw [hcs]
            exact List.mem_append_left rest (by decide)
          · rw [hcs]
            exact List.mem_append_left rest (by decide)
        · rw [Segment.codeAfter, isWord.codeAfter] at left
          exact List.mem_cons_of_mem c (ih left)
      · rw [Segment.codeAfter_cons] at left
        exact List.mem_cons_of_mem c (ih left)

/-- What the scanner finds in front of the end of a text it finds with another text behind it. -/
theorem Marker.at?_append {inCode : Bool} {before : Option Char} {c : Char} {rest ys : List Char}
    (whole : ¬ TagCut (c :: rest) ys)
    (left : Segment.codeAfter inCode (segmentsFrom inCode before 0 (c :: rest)) = false)
    (settled : quoteReachesFrom inCode before 0 (c :: rest) ys = false) :
    at? inCode before (c :: rest ++ ys) =
      (at? inCode before (c :: rest)).map fun r => (r.1, r.2 ++ ys) := by
  cases inCode with
  | false => exact region?_append whole
  | true =>
    refine inCode?_append whole (mem_mark_of_codeAfter left) fun nothing quote => ?_
    have nothing : at? true before (c :: rest) = none := nothing
    rw [quoteReachesFrom, nothing] at settled
    dsimp only at settled
    rw [quote, Bool.or_eq_false_iff] at settled
    exact Option.isNone_iff_eq_none.mp (Option.isSome_eq_false_iff.mp settled.1)

section Segments

variable {inCode : Bool} {before : Option Char} {c : Char} {rest left : List Char} {found : Marker}

/-- In markup the scanner finds no strings. -/
theorem segmentsFrom_ne_quoted {taken : Nat} {cs : List Char} {parts : List Segment} :
    segmentsFrom false before taken cs ≠ .marker .quoted :: parts := by
  induction cs generalizing before taken with
  | nil => cases taken <;> nofun
  | cons c cs ih =>
    cases taken with
    | succ taken => exact ih
    | zero =>
      cases hat : Marker.at? false before (c :: cs) with
      | some r =>
        rw [segmentsFrom_found hat]
        rcases Marker.region?_cases hat with ⟨opens, -⟩ | ⟨closes, -⟩
        · rw [opens]
          nofun
        · rw [closes]
          nofun
      | none =>
        rw [segmentsFrom_passed hat]
        unfold Segment.cons
        split <;> nofun

namespace Segment

theorem heeded_cons_code (c : Char) (parts : List Segment) :
    heeded true (Segment.cons c parts) = heeded true parts := by
  unfold Segment.cons
  split <;> rfl

/-- A character in markup is heeded. -/
theorem heeded_cons_markup (c : Char) {taken : Nat} {cs : List Char} :
    heeded false (Segment.cons c (segmentsFrom false before taken cs)) =
      Segment.cons c (heeded false (segmentsFrom false before taken cs)) := by
  cases hparts : segmentsFrom false before taken cs with
  | nil => rfl
  | cons part parts =>
    cases part with
    | text content => rfl
    | marker found =>
      cases found with
      | quoted => exact (segmentsFrom_ne_quoted hparts).elim
      | _ => rfl

theorem join_marker (found : Marker) (xs ys : List Segment) :
    join (.marker found :: xs) ys = .marker found :: join xs ys := by
  rw [join]
  nofun

theorem join_cons_cons (x x' : Segment) (xs ys : List Segment) :
    join (x :: x' :: xs) ys = x :: join (x' :: xs) ys := by
  rw [join]
  nofun

theorem join_cons (c : Char) (xs ys : List Segment) :
    join (Segment.cons c xs) ys = Segment.cons c (join xs ys) := by
  cases xs with
  | nil => rcases ys with _ | ⟨_ | _, ys⟩ <;> rfl
  | cons x xs =>
    cases x with
    | marker found =>
      rw [join_marker]
      change join (.text [c] :: .marker found :: xs) ys = _
      rw [join, join_marker]
      · rfl
      · nofun
    | text content =>
      change join (.text (c :: content) :: xs) ys = _
      rcases xs with _ | ⟨x, xs⟩
      · rcases ys with _ | ⟨_ | _, ys⟩ <;> rfl
      · rw [join_cons_cons, join_cons_cons]
        rfl

end Segment

/-- What is heeded of two texts, if neither a mark of a region nor a string reaches from the first,
which ends in markup, into the second. -/
theorem heeded_segmentsFrom_append {taken : Nat} {xs ys : List Char} (inside : taken ≤ xs.length)
    (whole : ¬ TagCut xs ys)
    (left : Segment.codeAfter inCode (segmentsFrom inCode before taken xs) = false)
    (settled : quoteReachesFrom inCode before taken xs ys = false) :
    Segment.heeded inCode (segmentsFrom inCode before taken (xs ++ ys)) =
      Segment.join (Segment.heeded inCode (segmentsFrom inCode before taken xs))
        (heeded false ys) := by
  induction xs generalizing inCode before taken with
  | nil =>
    obtain rfl := Nat.le_zero.mp inside
    obtain rfl : inCode = false := left
    exact congrArg (Segment.heeded false) (segmentsFrom_markup before none 0 ys)
  | cons c xs ih =>
    have whole_rest : ¬ TagCut xs ys := fun h => whole (h.cons c)
    cases taken with
    | succ taken => exact ih (Nat.le_of_succ_le_succ inside) whole_rest left settled
    | zero =>
      have both := Marker.at?_append whole left settled
      cases hat : Marker.at? inCode before (c :: xs) with
      | some r =>
        obtain ⟨found, rest⟩ := r
        rw [hat, List.cons_append] at both
        have suffix := (Marker.goes_of_at? hat).1
        have length : (xs ++ ys).length - (rest ++ ys).length = xs.length - rest.length := by
          rw [List.length_append, List.length_append]
          omega
        rw [segmentsFrom_found hat] at left
        rw [quoteReachesFrom, hat] at settled
        have behind := ih (Nat.sub_le _ _) whole_rest left settled
        rw [List.cons_append, segmentsFrom_found both, segmentsFrom_found hat, length]
        cases found with
        | quoted => exact behind
        | _ => exact (congrArg (List.cons _) behind).trans (Segment.join_marker _ _ _).symm
      | none =>
        rw [hat, List.cons_append] at both
        rw [segmentsFrom_passed hat, Segment.codeAfter_cons] at left
        rw [quoteReachesFrom, hat, Bool.or_eq_false_iff] at settled
        have behind := ih (Nat.zero_le _) whole_rest left settled.2
        rw [List.cons_append, segmentsFrom_passed both, segmentsFrom_passed hat]
        cases inCode with
        | true => rw [Segment.heeded_cons_code, Segment.heeded_cons_code, behind]
        | false =>
          rw [Segment.heeded_cons_markup, Segment.heeded_cons_markup, behind, Segment.join_cons]

/-! ### The texts at the ends -/

/-- In markup, what stands in front of the first marker is the beginning of the text. -/
theorem prefix_of_heeded {cs content : List Char} {parts : List Segment}
    (h : Segment.heeded false (segmentsFrom false before 0 cs) = .text content :: parts) :
    content <+: cs := by
  induction cs generalizing before content parts with
  | nil => cases h
  | cons c cs ih =>
    cases hat : Marker.at? false before (c :: cs) with
    | some r =>
      rw [segmentsFrom_found hat] at h
      rcases Marker.region?_cases hat with ⟨opens, -⟩ | ⟨closes, -⟩
      · rw [opens] at h
        cases h
      · rw [closes] at h
        cases h
    | none =>
      rw [segmentsFrom_passed hat, Segment.heeded_cons_markup] at h
      unfold Segment.cons at h
      split at h
      · rename_i inner rest hinner
        cases h
        exact List.cons_prefix_cons.mpr ⟨rfl, ih hinner⟩
      · cases h
        exact List.cons_prefix_cons.mpr ⟨rfl, List.nil_prefix⟩

/-- In markup something is heeded of every text. -/
theorem eq_nil_of_heeded {cs : List Char}
    (h : Segment.heeded false (segmentsFrom false before 0 cs) = []) : cs = [] := by
  cases cs with
  | nil => rfl
  | cons c cs =>
    cases hat : Marker.at? false before (c :: cs) with
    | some r =>
      rw [segmentsFrom_found hat] at h
      rcases Marker.region?_cases hat with ⟨opens, -⟩ | ⟨closes, -⟩
      · rw [opens] at h
        cases h
      · rw [closes] at h
        cases h
    | none =>
      rw [segmentsFrom_passed hat, Segment.heeded_cons_markup] at h
      unfold Segment.cons at h
      split at h <;> cases h

/-- The last of some segments with one more character in front is a text. -/
theorem Segment.cons_eq_append {parts front : List Segment} {content : List Char}
    (h : Segment.cons c parts = front ++ [.text content]) :
    (front = [] ∧ ((parts = [] ∧ content = [c]) ∨
      ∃ inner, parts = [] ++ [.text inner] ∧ content = c :: inner)) ∨
    (front ≠ [] ∧ ∃ front', parts = front' ++ [.text content]) := by
  rcases parts with _ | ⟨_ | _, parts⟩
  · obtain ⟨hfront, hcontent⟩ := List.append_eq_singleton_iff.mp h.symm |>.resolve_right nofun
    cases hcontent
    exact .inl ⟨hfront, .inl ⟨rfl, rfl⟩⟩
  · rename_i inner
    cases front with
    | nil =>
      cases h
      exact .inl ⟨rfl, .inr ⟨inner, rfl, rfl⟩⟩
    | cons part front =>
      obtain ⟨-, rfl⟩ := List.cons_eq_cons.mp h
      exact .inr ⟨List.cons_ne_nil _ _, .text inner :: front, rfl⟩
  · cases front with
    | nil => cases h
    | cons part front =>
      obtain ⟨-, same⟩ := List.cons_eq_cons.mp h
      exact .inr ⟨List.cons_ne_nil _ _, front, same⟩

/-- What stands behind the last marker that is heeded is the end of the text, and all of it if there
is no such marker and the text begins in markup. -/
theorem suffix_of_heeded {taken : Nat} {cs content : List Char} {front : List Segment}
    (h : Segment.heeded inCode (segmentsFrom inCode before taken cs) = front ++ [.text content]) :
    content <:+ cs ∧ (inCode = false → taken = 0 → front = [] → content = cs) := by
  induction cs generalizing inCode before taken front content with
  | nil =>
    rw [segmentsFrom] at h
    exact (List.append_ne_nil_of_right_ne_nil front (List.cons_ne_nil _ _) h.symm).elim
  | cons c cs ih =>
    have longer := List.suffix_cons c cs
    cases taken with
    | succ taken => exact ⟨(ih h).1.trans longer, fun _ none => (Nat.succ_ne_zero _ none).elim⟩
    | zero =>
      cases hat : Marker.at? inCode before (c :: cs) with
      | some r =>
        rw [segmentsFrom_found hat] at h
        -- the marker is heeded in front of the text, or is a string in code
        have behind {inCode' : Bool} {taken : Nat} {found : Marker}
            (h : .marker found :: Segment.heeded inCode' (segmentsFrom inCode' (some c) taken cs) =
              front ++ [.text content]) :
            content <:+ c :: cs ∧ (inCode = false → 0 = 0 → front = [] → content = c :: cs) := by
          cases front with
          | nil => cases h
          | cons part front =>
            refine ⟨(ih (List.cons.inj h).2).1.trans longer, fun _ _ none => ?_⟩
            exact (List.cons_ne_nil _ _ none).elim
        obtain ⟨found, left⟩ := r
        cases found with
        | quoted =>
          refine ⟨(ih h).1.trans longer, ?_⟩
          rintro rfl - rfl
          rcases Marker.region?_cases hat with ⟨opens, -⟩ | ⟨closes, -⟩
          · cases opens
          · cases closes
        | _ => exact behind h
      | none =>
        rw [segmentsFrom_passed hat] at h
        cases inCode with
        | true =>
          rw [Segment.heeded_cons_code] at h
          exact ⟨(ih h).1.trans longer, fun markup => absurd markup.symm Bool.false_ne_true⟩
        | false =>
          rw [Segment.heeded_cons_markup] at h
          rcases Segment.cons_eq_append h with ⟨hfront, ⟨hparts, rfl⟩ | ⟨inner, hparts, rfl⟩⟩ |
              ⟨nonempty, front', hparts⟩
          · obtain rfl := eq_nil_of_heeded hparts
            exact ⟨List.suffix_rfl, fun _ _ _ => rfl⟩
          · obtain rfl := (ih hparts).2 rfl rfl rfl
            exact ⟨List.suffix_rfl, fun _ _ _ => rfl⟩
          · exact ⟨(ih hparts).1.trans longer, fun _ _ hfront => (nonempty hfront).elim⟩

end Segments

/-- Where the cursor looks past the end of some segments, the last of them is a text, and the first
behind them too. -/
theorem Segment.exists_of_looksPast {k : Cursor} {xs ys : List Segment}
    (past : looksPast k xs ys = true) : ∃ (k' : Cursor) (front : List Segment)
      (content content' : List Char) (rest : List Segment), xs = front ++ [.text content] ∧
        ys = .text content' :: rest ∧ walk k xs = k'.feed content ∧
        k'.looksPast content content' = true := by
  fun_induction looksPast k xs ys with
  | case1 k content content' rest => exact ⟨k, [], content, content', rest, rfl, rfl, rfl, past⟩
  | case2 => cases past
  | case3 k text xs ys _ ih =>
    obtain ⟨k', front, inner, content', rest, rfl, hys, place, looks⟩ := ih past
    exact ⟨k', .text text :: front, inner, content', rest, rfl, hys, place, looks⟩
  | case4 k found xs ys ih =>
    obtain ⟨k', front, inner, content', rest, rfl, hys, place, looks⟩ := ih past
    exact ⟨k', .marker found :: front, inner, content', rest, rfl, hys, place, looks⟩

/-- A cursor that ends outside comments and tags looks past the end of a text only where the
beginning of a comment or of a tag is cut. -/
theorem cut_of_looksPast_heeded {inCode : Bool} {k : Cursor} {xs ys : List Char}
    (text : (Segment.walk k (heeded inCode xs)).state = .text)
    (past : Segment.looksPast k (heeded inCode xs) (heeded false ys) = true) :
    WordCut "<!--".toList xs ys ∨ OpenerCut xs ys := by
  obtain ⟨k', front, content, content', rest, hxs, hys, place, looks⟩ :=
    Segment.exists_of_looksPast past
  have back := (suffix_of_heeded hxs).1
  have front := prefix_of_heeded hys
  rw [place] at text
  exact (Cursor.cut_of_looksPast text looks).imp (·.of_parts back front) (·.of_parts back front)

/-- Between a text that ends in markup and another there is no seam if no mark of a region is cut,
no quote reaches from the first into the second, and the cursor does not look past the first. -/
theorem Seam.of_markup {inCode : Bool} {k : Cursor} {xs ys : List Char}
    (left : codeAfter inCode xs = false) (whole : ¬ TagCut xs ys)
    (settled : quoteReaches inCode xs ys = false)
    (walked : Segment.looksPast k (heeded inCode xs) (heeded false ys) = false) :
    Seam inCode k xs ys where
  scanned := by
    rw [left]
    exact heeded_segmentsFrom_append (Nat.zero_le _) whole left settled
  walked := by
    rw [left]
    exact walked

end ServerTemplate
