import Mathlib.Data.List.Infix
import ServerTemplate.Template.Marker

/-!
# Reading a fragment

How a server reads a fragment: it is markup up to an opening tag, and then code up to a closing tag;
in code a quote opens a string, which hides everything up to the quote that matches it and is not
escaped. `Mode.read` is the mode behind a text, and `Mode.tags` are the tags in it outside strings,
those that fit their mode and those that do not.

A text may be read piece by piece if no piece ends in a string and no tag is cut
(`Mode.survey_append`). `ReadsTo b cs b'` says that a text, read in code or in markup, ends in code
or in markup, and that its tags alternate.
-/

namespace ServerTemplate

/-- A mark that opens or closes a region of code. -/
inductive Tag where
  | opening
  | closing
  deriving DecidableEq, Repr

/-- How a tag is written. -/
def Tag.chars : Tag → List Char
  | opening => "<?php".toList
  | closing => "?>".toList

/-- The tag that a text begins with. -/
def Tag.at? (cs : List Char) : Option Tag :=
  if opening.chars.isPrefixOf cs then some opening
  else if closing.chars.isPrefixOf cs then some closing
  else none

/-- The region behind some tags, which must be opened and closed by turns. -/
def Tag.follow : Bool → List Tag → Option Bool
  | inCode, [] => some inCode
  | inCode, opening :: rest => if inCode then none else follow true rest
  | inCode, closing :: rest => if inCode then follow false rest else none

/-- How a fragment is read at some point. -/
inductive Mode where
  | markup
  | code
  /-- In a string that a quote has opened. -/
  | quoted (mark : Char)
  deriving DecidableEq, Repr

/-- Whether a character opens a string in code. -/
def isQuote (c : Char) : Bool := c == '\x22' || c == '\x27'

/-- Whether a character begins neither a tag nor a string. -/
def isPlain (c : Char) : Bool := !(c == '<' || c == '?' || isQuote c)

/-- Whether no tag and no string begins in a text. -/
def Plain (s : String) : Prop := ∀ c ∈ s.toList, isPlain c = true

instance (s : String) : Decidable (Plain s) :=
  decidable_of_iff (s.toList.all isPlain = true) List.all_eq_true

namespace Mode

/-- The mode outside strings. -/
def ofCode (inCode : Bool) : Mode := if inCode then code else markup

/-- Whether a string is being read. -/
def isQuoted : Mode → Bool
  | quoted _ => true
  | _ => false

/-- The mode behind `c`, and how many of the characters `rest` that follow it are read with it. -/
def advance (m : Mode) (c : Char) (rest : List Char) : Mode × Nat :=
  match m with
  | markup => if Tag.at? (c :: rest) = some .opening then (code, 4) else (markup, 0)
  | code =>
    if Tag.at? (c :: rest) = some .closing then (markup, 1)
    else if isQuote c then (quoted c, 0)
    else (code, 0)
  | quoted mark =>
    if c == '\\' then (quoted mark, 1) else if c == mark then (code, 0) else (quoted mark, 0)

/-- The tags of a text outside strings, of which the first `taken` characters are read already, and
the mode behind it. -/
def surveyFrom : Nat → Mode → List Char → List Tag × Mode
  | _, m, [] => ([], m)
  | taken + 1, m, _ :: rest => surveyFrom taken m rest
  | 0, m, c :: rest =>
    let behind := surveyFrom (m.advance c rest).2 (m.advance c rest).1 rest
    ((if m.isQuoted then none else Tag.at? (c :: rest)).toList ++ behind.1, behind.2)

/-- The tags of a text outside strings, and the mode behind it. -/
def survey (m : Mode) (cs : List Char) : List Tag × Mode := surveyFrom 0 m cs

/-- The mode behind a text. -/
def read (m : Mode) (cs : List Char) : Mode := (m.survey cs).2

/-- The tags of a text outside strings. -/
def tags (m : Mode) (cs : List Char) : List Tag := (m.survey cs).1

/-- Whether somewhere in the strings of a text, of which the first `taken` characters are read
already, a backslash stands before a line feed. -/
def escapesLineFeedFrom : Nat → Mode → List Char → Bool
  | _, _, [] => false
  | taken + 1, m, _ :: rest => escapesLineFeedFrom taken m rest
  | 0, m, c :: rest =>
    (m.isQuoted && c == '\\' && rest.head? == some '\n')
      || escapesLineFeedFrom (m.advance c rest).2 (m.advance c rest).1 rest

/-- Whether somewhere in the strings of a text a backslash stands before a line feed. -/
def escapesLineFeed (m : Mode) (cs : List Char) : Bool := escapesLineFeedFrom 0 m cs

example : markup.read "<?php echo 'a ?> b".toList = quoted '\x27' := by decide +kernel

end Mode

/-! ### Texts one after the other -/

/-- Whether a tag begins in one text and ends in the next. -/
def TagCut (xs ys : List Char) : Prop :=
  ∃ (tag : Tag) (p q : List Char), p ≠ [] ∧ q ≠ [] ∧ tag.chars = p ++ q ∧ p <:+ xs ∧ q <+: ys

instance (xs ys : List Char) : Decidable (TagCut xs ys) :=
  decidable_of_iff
    (∃ tag ∈ [Tag.opening, .closing], ∃ p ∈ tag.chars.inits, p ≠ [] ∧ tag.chars.drop p.length ≠ [] ∧
      p <:+ xs ∧ tag.chars.drop p.length <+: ys) <| by
    constructor
    · rintro ⟨tag, -, p, hp, nonempty, rest, front, back⟩
      obtain ⟨q, hq⟩ := (List.mem_inits ..).mp hp
      rw [← hq, List.drop_left] at rest back
      exact ⟨tag, p, q, nonempty, rest, hq.symm, front, back⟩
    · rintro ⟨tag, p, q, nonempty, rest, htag, front, back⟩
      refine ⟨tag, by cases tag <;> decide, p, (List.mem_inits ..).mpr ⟨q, htag.symm⟩, nonempty, ?_⟩
      rw [htag, List.drop_left]
      exact ⟨rest, front, back⟩

theorem TagCut.cons {xs ys : List Char} (c : Char) (h : TagCut xs ys) : TagCut (c :: xs) ys := by
  obtain ⟨tag, p, q, hp, hq, htag, front, back⟩ := h
  exact ⟨tag, p, q, hp, hq, htag, front.trans (List.suffix_cons c xs), back⟩

/-- A tag at the beginning of two texts is in the first, or it is cut. -/
theorem Tag.isPrefixOf_append (tag : Tag) {xs ys : List Char} (nonempty : xs ≠ [])
    (whole : ¬ TagCut xs ys) : tag.chars.isPrefixOf (xs ++ ys) = tag.chars.isPrefixOf xs := by
  rw [Bool.eq_iff_iff, List.isPrefixOf_iff_prefix, List.isPrefixOf_iff_prefix]
  refine ⟨fun h => ?_, fun h => h.trans (List.prefix_append xs ys)⟩
  rcases List.prefix_or_prefix_of_prefix h (List.prefix_append xs ys) with inside | ⟨q, hq⟩
  · exact inside
  · -- the first text is a part of the tag, and the second goes on with the rest
    have rest : q <+: ys := (List.prefix_append_right_inj xs).mp (hq ▸ h)
    by_cases hempty : q = []
    · rw [← hq, hempty, List.append_nil]
    · exact (whole ⟨tag, xs, q, nonempty, hempty, hq.symm, List.suffix_rfl, rest⟩).elim

theorem Tag.at?_append {xs ys : List Char} (nonempty : xs ≠ []) (whole : ¬ TagCut xs ys) :
    Tag.at? (xs ++ ys) = Tag.at? xs := by
  rw [Tag.at?, opening.isPrefixOf_append nonempty whole, closing.isPrefixOf_append nonempty whole]
  rfl

/-- A text that begins with a tag is as long as the tag. -/
theorem Tag.length_le_of_at? {tag : Tag} {cs : List Char} (h : Tag.at? cs = some tag) :
    tag.chars.length ≤ cs.length := by
  unfold Tag.at? at h
  split at h
  · rename_i hopening
    cases h
    exact (List.isPrefixOf_iff_prefix.mp hopening).length_le
  · split at h
    · rename_i hclosing
      cases h
      exact (List.isPrefixOf_iff_prefix.mp hclosing).length_le
    · cases h

namespace Mode

theorem advance_append {m : Mode} {c : Char} {xs ys : List Char} (whole : ¬ TagCut (c :: xs) ys) :
    m.advance c (xs ++ ys) = m.advance c xs := by
  have same : Tag.at? (c :: (xs ++ ys)) = Tag.at? (c :: xs) :=
    Tag.at?_append (List.cons_ne_nil c xs) whole
  cases m with
  | markup | code => rw [advance, same]; rfl
  | quoted mark => rfl

/-- A character is read together with characters of its own text, unless the text ends in a
string. -/
theorem advance_le_length {m : Mode} {c : Char} {xs : List Char}
    (outside : (surveyFrom (m.advance c xs).2 (m.advance c xs).1 xs).2.isQuoted = false) :
    (m.advance c xs).2 ≤ xs.length := by
  cases m with
  | markup =>
    rw [advance]
    split
    · rename_i htag
      have length : 5 ≤ xs.length + 1 := Tag.length_le_of_at? htag
      exact Nat.le_of_succ_le_succ length
    · exact Nat.zero_le _
  | code =>
    rw [advance]
    split
    · rename_i htag
      have length : 2 ≤ xs.length + 1 := Tag.length_le_of_at? htag
      exact Nat.le_of_succ_le_succ length
    · split <;> exact Nat.zero_le _
  | quoted mark =>
    rw [advance] at outside ⊢
    split
    · rename_i hescape
      cases xs with
      | nil => rw [if_pos hescape] at outside; cases outside
      | cons d xs => exact Nat.succ_le_succ (Nat.zero_le _)
    · split <;> exact Nat.zero_le _

theorem surveyFrom_append {taken : Nat} {m : Mode} {xs ys : List Char} (whole : ¬ TagCut xs ys)
    (length : taken ≤ xs.length) (outside : (surveyFrom taken m xs).2.isQuoted = false) :
    surveyFrom taken m (xs ++ ys) =
      ((surveyFrom taken m xs).1 ++ (survey (surveyFrom taken m xs).2 ys).1,
        (survey (surveyFrom taken m xs).2 ys).2) := by
  induction xs generalizing taken m with
  | nil =>
    rw [List.length_nil, Nat.le_zero] at length
    subst length
    rfl
  | cons c xs ih =>
    have whole_rest : ¬ TagCut xs ys := fun h => whole (h.cons c)
    cases taken with
    | succ taken => exact ih whole_rest (Nat.le_of_succ_le_succ length) outside
    -- whether a tag begins here can be seen in the first text, as none is cut at its end
    | zero =>
      have same : Tag.at? (c :: (xs ++ ys)) = Tag.at? (c :: xs) :=
        Tag.at?_append (List.cons_ne_nil c xs) whole
      have outside : (surveyFrom (m.advance c xs).2 (m.advance c xs).1 xs).2.isQuoted = false :=
        outside
      have rest := ih whole_rest (advance_le_length outside) outside
      rw [List.cons_append, surveyFrom, surveyFrom, advance_append whole, same, rest]
      simp only [List.append_assoc]

/-- A text that does not end in a string is read by itself, if no tag is cut at its end. -/
theorem survey_append {m : Mode} {xs ys : List Char} (whole : ¬ TagCut xs ys)
    (outside : (m.read xs).isQuoted = false) :
    m.survey (xs ++ ys) = (m.tags xs ++ (m.read xs).tags ys, (m.read xs).read ys) :=
  surveyFrom_append whole (Nat.zero_le _) outside

/-- What is read already is left out. -/
theorem surveyFrom_eq_survey_drop (taken : Nat) (m : Mode) (cs : List Char) :
    surveyFrom taken m cs = m.survey (cs.drop taken) := by
  induction cs generalizing taken with
  | nil => cases taken <;> rfl
  | cons c cs ih =>
    cases taken with
    | zero => rfl
    | succ taken => exact ih taken

theorem escapesLineFeedFrom_eq_drop (taken : Nat) (m : Mode) (cs : List Char) :
    escapesLineFeedFrom taken m cs = m.escapesLineFeed (cs.drop taken) := by
  induction cs generalizing taken with
  | nil => cases taken <;> rfl
  | cons c cs ih =>
    cases taken with
    | zero => rfl
    | succ taken => exact ih taken

/-- One character is read, and those that are read with it. -/
theorem survey_cons (m : Mode) (c : Char) (rest : List Char) :
    m.survey (c :: rest) =
      ((if m.isQuoted then none else Tag.at? (c :: rest)).toList ++
        ((m.advance c rest).1.survey (rest.drop (m.advance c rest).2)).1,
      ((m.advance c rest).1.survey (rest.drop (m.advance c rest).2)).2) := by
  rw [survey, surveyFrom, surveyFrom_eq_survey_drop]

theorem escapesLineFeed_cons (m : Mode) (c : Char) (rest : List Char) :
    m.escapesLineFeed (c :: rest) = ((m.isQuoted && c == '\\' && rest.head? == some '\n')
      || (m.advance c rest).1.escapesLineFeed (rest.drop (m.advance c rest).2)) := by
  rw [escapesLineFeed, escapesLineFeedFrom, escapesLineFeedFrom_eq_drop]

@[simp] theorem isQuoted_ofCode (inCode : Bool) : (ofCode inCode).isQuoted = false := by
  cases inCode <;> rfl

theorem ofCode_eq_markup {inCode : Bool} : ofCode inCode = markup ↔ inCode = false := by
  cases inCode <;> simp [ofCode]

end Mode

/-! ### Plain texts -/

/-- A plain character begins no tag. -/
theorem Tag.at?_of_isPlain {c : Char} (h : isPlain c = true) (rest : List Char) :
    Tag.at? (c :: rest) = none := by
  unfold isPlain at h
  have opening : ('<' == c) = false := by
    refine beq_false_of_ne fun heq => ?_
    rw [← heq] at h
    cases h
  have closing : ('?' == c) = false := by
    refine beq_false_of_ne fun heq => ?_
    rw [← heq] at h
    cases h
  change (if ('<' == c && _) then _ else if ('?' == c && _) then _ else _) = none
  rw [opening, closing]
  rfl

/-- In code a plain character is passed over. -/
theorem Mode.advance_of_isPlain {c : Char} (h : isPlain c = true) (rest : List Char) :
    code.advance c rest = (code, 0) := by
  have noQuote : isQuote c = false := by
    unfold isPlain at h
    simp only [Bool.not_eq_true', Bool.or_eq_false_iff] at h
    exact h.2
  rw [advance, Tag.at?_of_isPlain h, noQuote]
  rfl

/-! ### The way through a text -/

/-- The reading of a text meets some tags, and no line feed behind a backslash, and then goes on
with what is left of the text. -/
structure Goes (m : Mode) (cs : List Char) (ts : List Tag) (m' : Mode) (left : List Char) :
    Prop where
  survey : m.survey cs = (ts ++ m'.tags left, m'.read left)
  escapes : m.escapesLineFeed cs = m'.escapesLineFeed left

namespace Goes

variable {m m' m'' : Mode} {cs ds left : List Char} {ts us : List Tag}

theorem refl (m : Mode) (cs : List Char) : Goes m cs [] m cs := ⟨rfl, rfl⟩

theorem trans (h : Goes m cs ts m' ds) (h' : Goes m' ds us m'' left) :
    Goes m cs (ts ++ us) m'' left where
  survey := by
    rw [h.survey, Mode.tags, Mode.read, h'.survey, List.append_assoc]
  escapes := h.escapes.trans h'.escapes

theorem read (h : Goes m cs ts m' left) : m.read cs = m'.read left := by
  rw [Mode.read, h.survey]

/-- One character is read, and those that are read with it. -/
theorem cons {c : Char} {rest : List Char}
    (escapes : (m.isQuoted && c == '\\' && rest.head? == some '\n') = false) :
    Goes m (c :: rest) (if m.isQuoted then none else Tag.at? (c :: rest)).toList
      (m.advance c rest).1 (rest.drop (m.advance c rest).2) where
  survey := Mode.survey_cons m c rest
  escapes := by rw [Mode.escapesLineFeed_cons, escapes, Bool.false_or]

/-- One character that begins no tag is read. -/
theorem other {c : Char} {rest : List Char} (outside : m.isQuoted = false)
    (noTag : Tag.at? (c :: rest) = none) (stays : m.advance c rest = (m, 0)) :
    Goes m (c :: rest) [] m rest := by
  have step : Goes m (c :: rest) _ _ _ := cons (by rw [outside]; rfl)
  rw [stays, outside, noTag] at step
  exact step

/-- In code, a plain text is passed over. -/
theorem plain {front : List Char} (h : ∀ c ∈ front, isPlain c = true) (left : List Char) :
    Goes .code (front ++ left) [] .code left := by
  induction front with
  | nil => exact refl _ _
  | cons c front ih =>
    have hc := h c (List.mem_cons_self ..)
    have step : Goes .code (c :: (front ++ left)) [] .code (front ++ left) :=
      other rfl (Tag.at?_of_isPlain hc _) (Mode.advance_of_isPlain hc _)
    exact step.trans (ih fun d hd => h d (List.mem_cons_of_mem _ hd))

/-- An opening tag is met in markup, where it counts, or in code. -/
theorem opening (inCode : Bool) (left : List Char) :
    Goes (.ofCode inCode) ("<?php".toList ++ left) [.opening] .code left := by
  cases inCode with
  | false => exact cons rfl
  | true =>
    have step : Goes .code ("<?php".toList ++ left) [.opening] .code ("?php".toList ++ left) :=
      cons rfl
    have mark : Goes .code ("?php".toList ++ left) [] .code ("php".toList ++ left) :=
      other rfl rfl rfl
    exact (step.trans mark).trans (plain (List.all_eq_true.mp (by decide)) left)

/-- A closing tag is met in code, where it counts, or in markup. -/
theorem closing (inCode : Bool) (left : List Char) :
    Goes (.ofCode inCode) ("?>".toList ++ left) [.closing] .markup left := by
  cases inCode with
  | true => exact cons rfl
  | false =>
    have step : Goes .markup ("?>".toList ++ left) [.closing] .markup ('>' :: left) := cons rfl
    exact step.trans (other rfl rfl rfl)

end Goes

/-! ### Regions -/

theorem Tag.follow_append {inCode : Bool} (ts us : List Tag) :
    Tag.follow inCode (ts ++ us) = (Tag.follow inCode ts).bind fun b => Tag.follow b us := by
  induction ts generalizing inCode with
  | nil => rfl
  | cons tag ts ih => cases tag <;> cases inCode <;> first | exact ih | rfl

/-- A text, read in code or in markup, ends in code or in markup, and its tags alternate. -/
structure ReadsTo (inCode : Bool) (cs : List Char) (inCode' : Bool) : Prop where
  read : (Mode.ofCode inCode).read cs = Mode.ofCode inCode'
  tags : Tag.follow inCode ((Mode.ofCode inCode).tags cs) = some inCode'

namespace ReadsTo

variable {b b' b'' : Bool} {xs ys : List Char}

theorem nil (b : Bool) : ReadsTo b [] b := ⟨rfl, rfl⟩

/-- Texts are read one after the other, if no tag is cut. -/
theorem append (h : ReadsTo b xs b') (h' : ReadsTo b' ys b'') (whole : ¬ TagCut xs ys) :
    ReadsTo b (xs ++ ys) b'' := by
  have outside : ((Mode.ofCode b).read xs).isQuoted = false := by rw [h.read]; simp
  have both := Mode.survey_append whole outside
  rw [h.read] at both
  refine ⟨(congrArg Prod.snd both).trans h'.read, ?_⟩
  rw [Mode.tags, both, Tag.follow_append, h.tags]
  exact h'.tags

end ReadsTo

end ServerTemplate
