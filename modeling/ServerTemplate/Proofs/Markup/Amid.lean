import Mathlib.Data.List.Infix
import ServerTemplate.Markup.Cursor

/-!
# Places inside a text

`Cursor.feed` says where a cursor stands behind a text. Where it stands inside a text depends on
what follows, since a cursor looks ahead: `Cursor.amid` is the cursor behind a first part of a text,
the second part of which is to be read.

`Reads` describes a walk character by character. Every character of a marked text is given with the
attribute whose value is open behind it, and the cursor takes no character along. A walk says where
the cursor stands behind the text (`Reads.feed`) and that it names the right attribute everywhere in
it (`Reads.shows`).
-/

namespace ServerTemplate

namespace Cursor

/-! ### In front of a text -/

/-- The cursor behind `xs`, of which the first `taken` characters are passed already, where `ys`
follows in the same text. -/
def amidFrom : Nat → Cursor → List Char → List Char → Cursor
  | _, k, [], _ => k
  | taken + 1, k, _ :: rest, ys => amidFrom taken k rest ys
  | 0, k, c :: rest, ys =>
    amidFrom (k.advance c (rest ++ ys)).2 (k.advance c (rest ++ ys)).1 rest ys

/-- The cursor behind `xs` where `ys` follows in the same text. -/
def amid (k : Cursor) (xs ys : List Char) : Cursor := amidFrom 0 k xs ys

@[simp] theorem feedFrom_nil (taken : Nat) (k : Cursor) : feedFrom taken k [] = k := by
  cases taken <;> rfl

@[simp] theorem amidFrom_nil (taken : Nat) (k : Cursor) (ys : List Char) :
    amidFrom taken k [] ys = k := by
  cases taken <;> rfl

@[simp] theorem amid_nil (k : Cursor) (ys : List Char) : k.amid [] ys = k := rfl

end Cursor

/-! ### Marked texts -/

/-- A text in which every character is marked with the attribute whose value is open behind it. -/
abbrev MarkedText := List (Char × Option String)

namespace MarkedText

/-- The text without its marks. -/
def text (m : MarkedText) : List Char := m.map Prod.fst

/-- A text with one mark everywhere. -/
def mark (label : Option String) (cs : List Char) : MarkedText := cs.map (·, label)

/-- The mark at the end. -/
def last (m : MarkedText) : Option String := m.getLast?.bind Prod.snd

@[simp] theorem text_cons (c : Char) (label : Option String) (m : MarkedText) :
    text ((c, label) :: m) = c :: text m := rfl

@[simp] theorem text_append (m m' : MarkedText) : text (m ++ m') = text m ++ text m' :=
  List.map_append ..

@[simp] theorem text_mark (label : Option String) (cs : List Char) : text (mark label cs) = cs := by
  rw [text, mark, List.map_map]
  exact List.map_id cs

@[simp] theorem mark_nil (label : Option String) : mark label [] = [] := rfl

@[simp] theorem mark_cons (label : Option String) (c : Char) (cs : List Char) :
    mark label (c :: cs) = (c, label) :: mark label cs := rfl

@[simp] theorem mark_append (label : Option String) (xs ys : List Char) :
    mark label (xs ++ ys) = mark label xs ++ mark label ys :=
  List.map_append ..

@[simp] theorem last_concat (m : MarkedText) (c : Char) (label : Option String) :
    last (m ++ [(c, label)]) = label := by
  simp [last]

end MarkedText

open MarkedText

/-- Where `ys` follows, the cursor walks from `k` over a marked text to `k'`, character by
character, and names behind each the attribute with which it is marked. -/
inductive Reads (ys : List Char) : Cursor → MarkedText → Cursor → Prop
  | nil (k : Cursor) : Reads ys k [] k
  | cons {k k₁ k' : Cursor} {c : Char} {label : Option String} {rest : MarkedText}
      (step : k.advance c (text rest ++ ys) = (k₁, 0)) (shown : k₁.attributeName? = label)
      (reads : Reads ys k₁ rest k') : Reads ys k ((c, label) :: rest) k'

namespace Reads

variable {ys : List Char} {k k' k'' : Cursor} {m m' : MarkedText}

theorem append (first : Reads (text m' ++ ys) k m k') (second : Reads ys k' m' k'') :
    Reads ys k (m ++ m') k'' := by
  induction first with
  | nil => exact second
  | cons step shown _ ih =>
    rw [← List.append_assoc, ← text_append] at step
    exact .cons step shown (ih second)

/-- One character that takes no other along. -/
theorem single {c : Char} {label : Option String} (step : k.advance c ys = (k', 0))
    (shown : k'.attributeName? = label) : Reads ys k [(c, label)] k' :=
  .cons step shown (.nil k')

/-- A text whose characters all leave the cursor where it is. -/
theorem stays {cs : List Char} (step : ∀ c ∈ cs, ∀ rest, k.advance c rest = (k, 0)) :
    Reads ys k (mark k.attributeName? cs) k := by
  induction cs with
  | nil => exact .nil k
  | cons c cs ih =>
    exact .cons (step c List.mem_cons_self _) rfl
      (ih fun d hd => step d (List.mem_cons_of_mem c hd))

/-- Inside a text that follows, the cursor stands where a walk from the last cursor leads. -/
theorem amid_append {xs zs : List Char} (h : Reads (xs ++ zs) k m k') :
    k.amid (text m ++ xs) zs = k'.amid xs zs := by
  generalize hys : xs ++ zs = ys at h
  induction h with
  | nil => rfl
  | cons step _ _ ih =>
    rw [text_cons, List.cons_append, Cursor.amid, Cursor.amidFrom, List.append_assoc, hys, step]
    exact ih

/-- Behind a text the walk ends at its last cursor. -/
theorem amid (h : Reads ys k m k') : k.amid (text m) ys = k' := by
  have h : Reads ([] ++ ys) k m k' := h
  have here := h.amid_append
  rwa [List.append_nil, Cursor.amid_nil] at here

/-- What follows a text is walked from the last cursor on. -/
theorem feed (h : Reads ys k m k') : k.feed (text m ++ ys) = k'.feed ys := by
  induction h with
  | nil => rfl
  | cons step _ _ ih =>
    rw [text_cons, List.cons_append, Cursor.feed_cons, step]
    exact ih

/-- The two parts of a walk. -/
theorem of_append (h : Reads ys k (m ++ m') k'') :
    ∃ k', Reads (text m' ++ ys) k m k' ∧ Reads ys k' m' k'' := by
  induction m generalizing k with
  | nil => exact ⟨k, .nil k, h⟩
  | cons head m ih =>
    cases h with
    | cons step shown reads =>
      obtain ⟨k', first, second⟩ := ih reads
      have step : k.advance _ (text (m ++ m') ++ ys) = _ := step
      rw [text_append, List.append_assoc] at step
      exact ⟨k', .cons step shown first, second⟩

/-- Behind a text the attribute is named with which its last character is marked. -/
theorem attributeName? (h : Reads ys k m k') (start : k.attributeName? = none) :
    k'.attributeName? = m.last := by
  rcases List.eq_nil_or_concat m with rfl | ⟨front, ⟨c, label⟩, rfl⟩
  · cases h
    exact start
  · rw [List.concat_eq_append] at h ⊢
    obtain ⟨k₁, -, last⟩ := h.of_append
    cases last with
    | cons _ shown reads =>
      cases reads
      rw [shown, last_concat]

/-- In a text the attribute is named everywhere with which the last character is marked. -/
theorem shows (h : Reads ys k m k'') (start : k.attributeName? = none) {front rest : MarkedText}
    (hm : m = front ++ rest) :
    (k.amid (text front) (text rest ++ ys)).attributeName? = front.last := by
  subst hm
  obtain ⟨k', first, -⟩ := h.of_append
  rw [first.amid, first.attributeName? start]

end Reads

end ServerTemplate
