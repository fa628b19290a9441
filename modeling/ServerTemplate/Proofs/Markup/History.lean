import ServerTemplate.Markup.Cursor

/-!
# Cursors with any history

`Cursor.Operation` lists what can be done with a cursor: texts and values move it, and it is put
back to where it was when a snapshot was taken. A cursor keeps the last name, quote and tag also
where its state does not use them, so what they hold where it does is a fact about the history.

The way of a cursor (`Cursor.Way`) is what it has passed, character by character, less what was
undone when it was put back. `Cursor.OpenedBy` says of a way what opened the value in which it ends.
The main statement is `Cursor.fields_after`.
-/

namespace ServerTemplate.Cursor

/-! ### Operations -/

/-- What can be done with a cursor. -/
inductive Operation where
  | feed (cs : List Char)
  | interpolated
  | snapshot
  /-- Puts the cursor back to a snapshot; `n` more were taken since that one. -/
  | restore (n : Nat)

/-- Something that texts and values move, with the snapshots of it, the last one first. -/
structure Kept (α : Type) where
  now : α
  snapshots : List α := []

namespace Kept

variable {α β : Type} {feed : α → List Char → α} {write : α → α} {kept : Kept α}

/-- Performs an operation, where `feed` moves over a text and `write` over a value. To put back a
snapshot that was not taken changes nothing. -/
def after (feed : α → List Char → α) (write : α → α) (kept : Kept α) : Operation → Kept α
  | .feed cs => { kept with now := feed kept.now cs }
  | .interpolated => { kept with now := write kept.now }
  | .snapshot => { kept with snapshots := kept.now :: kept.snapshots }
  | .restore n => { kept with now := kept.snapshots[n]?.getD kept.now }

/-- Performs operations in a row. -/
def afterAll (feed : α → List Char → α) (write : α → α) (kept : Kept α) (os : List Operation) :
    Kept α :=
  os.foldl (after feed write) kept

/-- What is kept, seen through a function. -/
def map (f : α → β) (kept : Kept α) : Kept β := ⟨f kept.now, kept.snapshots.map f⟩

/-- Whether a property holds now and held at each snapshot. -/
structure All (p : α → Prop) (kept : Kept α) : Prop where
  now : p kept.now
  snapshots : ∀ a ∈ kept.snapshots, p a

theorem map_after {f : α → β} {feed' : β → List Char → β} {write' : β → β}
    (feeds : ∀ a cs, f (feed a cs) = feed' (f a) cs) (writes : ∀ a, f (write a) = write' (f a))
    (o : Operation) : (kept.after feed write o).map f = (kept.map f).after feed' write' o := by
  cases o with
  | feed cs => simp only [after, map, feeds]
  | interpolated => simp only [after, map, writes]
  | snapshot => rfl
  | restore n => simp only [after, map, List.getElem?_map, Option.getD_map]

theorem map_afterAll {f : α → β} {feed' : β → List Char → β} {write' : β → β}
    (feeds : ∀ a cs, f (feed a cs) = feed' (f a) cs) (writes : ∀ a, f (write a) = write' (f a))
    (os : List Operation) :
    (kept.afterAll feed write os).map f = (kept.map f).afterAll feed' write' os := by
  induction os generalizing kept with
  | nil => rfl
  | cons o os ih =>
    have first : (kept.after feed write o).map f = (kept.map f).after feed' write' o :=
      map_after feeds writes o
    exact ih.trans (congrArg (afterAll feed' write' · os) first)

/-- What texts and values keep is kept by every operation. -/
theorem All.after {p : α → Prop} (all : kept.All p) (feeds : ∀ a cs, p a → p (feed a cs))
    (writes : ∀ a, p a → p (write a)) (o : Operation) : (kept.after feed write o).All p := by
  cases o with
  | feed cs => exact ⟨feeds _ cs all.now, all.snapshots⟩
  | interpolated => exact ⟨writes _ all.now, all.snapshots⟩
  | snapshot => exact ⟨all.now, List.forall_mem_cons.mpr ⟨all.now, all.snapshots⟩⟩
  | restore n =>
    refine ⟨?_, all.snapshots⟩
    cases taken : kept.snapshots[n]? with
    | none =>
      rw [Kept.after, taken]
      exact all.now
    | some a =>
      rw [Kept.after, taken]
      exact all.snapshots a (List.mem_of_getElem? taken)

theorem All.afterAll {p : α → Prop} (all : kept.All p) (feeds : ∀ a cs, p a → p (feed a cs))
    (writes : ∀ a, p a → p (write a)) (os : List Operation) :
    (kept.afterAll feed write os).All p := by
  induction os generalizing kept with
  | nil => exact all
  | cons o os ih => exact ih (all.after feeds writes o)

end Kept

/-- A new cursor behind operations in a row. -/
def cursorAfter (os : List Operation) : Cursor := (Kept.afterAll feed interpolated ⟨{}, []⟩ os).now

/-! ### The way of a cursor -/

/-- What a cursor passes: a character of a text, or a value written at its place. -/
inductive Passage where
  | character (c : Char)
  | value

/-- The quote that opens a value where a passage does: a value that anything else opens has none. -/
def Passage.quote? : Passage → Option Char
  | character c => if c = '\x22' ∨ c = '\x27' then some c else none
  | value => none

/-- Something passed, with the cursor behind it. -/
structure Step where
  passage : Passage
  behind : Cursor

/-- What a new cursor has passed, the last step first. -/
abbrev Way := List Step

namespace Way

/-- The cursor at the end of a way. -/
def cursor (way : Way) : Cursor := (way.head?.map Step.behind).getD {}

/-- The way behind a text of which the first `taken` characters are taken along already. -/
def walkFrom : Nat → Way → List Char → Way
  | _, way, [] => way
  | taken + 1, way, c :: rest => walkFrom taken (⟨.character c, way.cursor⟩ :: way) rest
  | 0, way, c :: rest =>
    walkFrom (way.cursor.advance c rest).2
      (⟨.character c, (way.cursor.advance c rest).1⟩ :: way) rest

/-- The way behind a text. -/
def walk (way : Way) (cs : List Char) : Way := walkFrom 0 way cs

/-- The way behind a value. -/
def write (way : Way) : Way := ⟨.value, way.cursor.interpolated⟩ :: way

theorem cursor_walkFrom (taken : Nat) (way : Way) (cs : List Char) :
    (walkFrom taken way cs).cursor = feedFrom taken way.cursor cs := by
  induction cs generalizing taken way with
  | nil => cases taken <;> rfl
  | cons c rest ih => cases taken <;> exact ih _ _

/-- A way ends where the cursor is that moves over the same texts. -/
theorem cursor_walk (way : Way) (cs : List Char) : (way.walk cs).cursor = way.cursor.feed cs :=
  cursor_walkFrom 0 way cs

end Way

/-- The way of a new cursor behind operations in a row. What was passed since a snapshot does not
belong to it once the cursor is put back. -/
def wayAfter (os : List Operation) : Way := (Kept.afterAll Way.walk Way.write ⟨[], []⟩ os).now

/-- The way ends where the cursor is. -/
theorem cursor_wayAfter (os : List Operation) : (wayAfter os).cursor = cursorAfter os :=
  congrArg Kept.now (Kept.map_afterAll Way.cursor_walk (fun _ => rfl) os)

/-- Whether a passage opened the value in which a way ends: the cursor waited for a value in front
of it, was in one behind it, and has been in one ever since. -/
inductive OpenedBy : Way → Passage → Prop
  | opens {way : Way} {passage : Passage} {k : Cursor} (waits : way.cursor.state = .beforeValue)
      (inside : k.state = .value) : OpenedBy (⟨passage, k⟩ :: way) passage
  | stays {way : Way} {passage : Passage} {step : Step} (opened : OpenedBy way passage)
      (inside : step.behind.state = .value) : OpenedBy (step :: way) passage

namespace OpenedBy

variable {way : Way} {passage passage' : Passage}

theorem inside (opened : OpenedBy way passage) : way.cursor.state = .value := by
  cases opened with
  | opens _ inside => exact inside
  | stays _ inside => exact inside

/-- One passage opened the value. -/
theorem unique (opened : OpenedBy way passage) (opened' : OpenedBy way passage') :
    passage = passage' := by
  induction opened with
  | opens waits _ =>
    cases opened' with
    | opens => rfl
    | stays opened' _ => cases waits.symm.trans opened'.inside
  | stays opened _ ih =>
    cases opened' with
    | opens waits _ => cases waits.symm.trans opened.inside
    | stays opened' _ => exact ih opened'

end OpenedBy

/-! ### What the fields hold -/

/-- What can be the name of an attribute: something without white space, slashes and ends of tags,
and with no equals sign but at its beginning. -/
structure IsAttributeName (name : String) : Prop where
  nonempty : name ≠ ""
  plain : ∀ c ∈ name.toList, Text.isBlank c = false ∧ c ≠ '/' ∧ c ≠ '>'
  unequal : '=' ∉ name.toList.tail

namespace IsAttributeName

variable {name : String} {c : Char}

theorem single (plain : Text.isBlank c = false ∧ c ≠ '/' ∧ c ≠ '>') :
    IsAttributeName c.toString where
  nonempty := by simp [Char.toString]
  plain := by simpa [Char.toString] using plain
  unequal := by simp [Char.toString]

theorem push (named : IsAttributeName name) (plain : Text.isBlank c = false ∧ c ≠ '/' ∧ c ≠ '>')
    (unequal : c ≠ '=') : IsAttributeName (name.push c) where
  nonempty := String.push_ne_empty
  plain := by
    rw [String.toList_push]
    exact List.forall_mem_append.mpr ⟨named.plain, List.forall_mem_singleton.mpr plain⟩
  unequal := by
    have some : name.toList ≠ [] := fun empty => named.nonempty (String.toList_eq_nil_iff.mp empty)
    rw [String.toList_push, List.tail_append_of_ne_nil some, List.mem_append, List.mem_singleton]
    exact not_or.mpr ⟨named.unequal, unequal.symm⟩

end IsAttributeName

/-- The states in which an attribute is named. -/
def attributeStates : List MarkupState :=
  [.attributeName, .afterAttributeName, .beforeValue, .value]

/-- Whether the fields that the state of a cursor uses hold what they are for, the quote left aside:
the name of an attribute, and the name of an element with raw text. -/
structure Sound (k : Cursor) : Prop where
  attr : k.state ∈ attributeStates → IsAttributeName k.attr
  tag : k.state = .rawText → k.tag ∈ rawTextElements

namespace Sound

variable {k : Cursor}

/-- In a state without an attribute and without raw text neither is used. -/
theorem of_unused {state : MarkupState} {attr tag : String} {quote : Option Char}
    (bare : state ∉ attributeStates) (notRaw : state ≠ .rawText) :
    Sound ⟨state, attr, quote, tag⟩ :=
  ⟨fun named => (bare named).elim, fun raw => (notRaw raw).elim⟩

theorem of_named {state : MarkupState} {attr tag : String} {quote : Option Char}
    (named : IsAttributeName attr) (notRaw : state ≠ .rawText) :
    Sound ⟨state, attr, quote, tag⟩ :=
  ⟨fun _ => named, fun raw => (notRaw raw).elim⟩

theorem closeTag (k : Cursor) : k.closeTag.Sound := by
  unfold Cursor.closeTag
  split
  · rename_i raw
    have bare : MarkupState.rawText ∉ attributeStates := by decide
    exact ⟨fun named => (bare named).elim, fun _ => List.contains_iff_mem.mp raw⟩
  · exact of_unused (by decide) (by decide)

/-- A character that is read as the first one of a name. -/
theorem of_begun {tag : String} {quote : Option Char} {c : Char} (ends : ¬ (c == '>') = true)
    (between : ¬ (Text.isBlank c || c == '/') = true) :
    Sound ⟨.attributeName, c.toString, quote, tag⟩ := by
  rw [Bool.or_eq_true, not_or, Bool.not_eq_true, beq_iff_eq] at between
  rw [beq_iff_eq] at ends
  exact of_named (.single ⟨between.1, between.2, ends⟩) (by decide)

/-- A character keeps the fields sound. -/
theorem advance (sound : k.Sound) (c : Char) (rest : List Char) : (k.advance c rest).1.Sound := by
  obtain ⟨state, attr, quote, tag⟩ := k
  have names (inside : state ∈ attributeStates) : IsAttributeName attr := sound.attr inside
  cases state with
  | text | comment | rawText =>
    simp only [Cursor.advance]
    repeat' split
    all_goals first
      | exact sound
      | exact of_unused (by decide) (by decide)
  | tagName =>
    simp only [Cursor.advance]
    split
    · exact closeTag _
    · split <;> exact of_unused (by decide) (by decide)
  | inTag =>
    simp only [Cursor.advance]
    split
    · exact closeTag _
    split
    · exact sound
    · exact of_begun ‹_› ‹_›
  | afterAttributeName =>
    simp only [Cursor.advance]
    split
    · exact closeTag _
    split
    · exact of_named (names (by decide)) (by decide)
    split
    · exact sound
    · exact of_begun ‹_› ‹_›
  | attributeName =>
    simp only [Cursor.advance]
    split
    · exact of_named (names (by decide)) (by decide)
    split
    · exact closeTag _
    split
    · exact of_unused (by decide) (by decide)
    split
    · exact of_named (names (by decide)) (by decide)
    · rename_i equals ends slash blank
      rw [beq_iff_eq] at equals ends slash
      rw [Bool.not_eq_true] at blank
      exact of_named ((names (by decide)).push ⟨blank, slash, ends⟩ equals) (by decide)
  | beforeValue =>
    simp only [Cursor.advance]
    split
    · exact of_named (names (by decide)) (by decide)
    split
    · exact closeTag _
    split
    · exact sound
    · exact of_named (names (by decide)) (by decide)
  | value =>
    simp only [Cursor.advance]
    cases quote with
    | some mark =>
      dsimp only
      split
      · exact of_unused (by decide) (by decide)
      · exact sound
    | none =>
      dsimp only
      split
      · exact closeTag _
      split
      · exact of_unused (by decide) (by decide)
      · exact sound

theorem feedFrom (sound : k.Sound) (taken : Nat) (cs : List Char) :
    (Cursor.feedFrom taken k cs).Sound := by
  induction cs generalizing taken k with
  | nil => cases taken <;> exact sound
  | cons c rest ih =>
    cases taken with
    | zero => exact ih (sound.advance c rest) _
    | succ taken => exact ih sound taken

theorem feed (sound : k.Sound) (cs : List Char) : (k.feed cs).Sound := sound.feedFrom 0 cs

theorem interpolated (sound : k.Sound) : k.interpolated.Sound := by
  unfold Cursor.interpolated
  split
  · rename_i waits
    have named : k.state ∈ attributeStates := waits ▸ by decide
    exact of_named (sound.attr named) (by decide)
  · exact sound

end Sound

/-- Behind the end of a tag no value is open. -/
theorem closeTag_ne_value (k : Cursor) : k.closeTag.state ≠ .value := by
  unfold closeTag
  split <;> exact MarkupState.noConfusion

/-- A cursor that is in a value behind a character was in it before and has kept the quote, or it
waited for a value, and the character has set the quote. -/
theorem value_of_advance {k : Cursor} {c : Char} {rest : List Char}
    (inside : (k.advance c rest).1.state = .value) :
    (k.state = .value ∧ (k.advance c rest).1.quote = k.quote) ∨
      (k.state = .beforeValue ∧
        (k.advance c rest).1.quote = (Passage.character c).quote?) := by
  obtain ⟨state, attr, quote, tag⟩ := k
  cases state with
  | value =>
    left
    simp only [advance] at inside ⊢
    cases quote with
    | some mark =>
      dsimp only at inside ⊢
      split at inside
      · cases inside
      · rw [if_neg ‹_›]
        exact ⟨trivial, rfl⟩
    | none =>
      dsimp only at inside ⊢
      split at inside
      · exact (closeTag_ne_value _ inside).elim
      split at inside
      · cases inside
      · rw [if_neg ‹_›, if_neg ‹_›]
        exact ⟨trivial, rfl⟩
  | beforeValue =>
    right
    refine ⟨rfl, ?_⟩
    simp only [advance, Bool.or_eq_true, beq_iff_eq] at inside ⊢
    rw [Passage.quote?]
    split at inside
    · rw [if_pos ‹_›, if_pos ‹_›]
    split at inside
    · exact (closeTag_ne_value _ inside).elim
    split at inside
    · cases inside
    · rw [if_neg ‹_›, if_neg ‹_›, if_neg ‹_›, if_neg ‹_›]
  | text | comment | rawText | tagName | inTag | afterAttributeName | attributeName =>
    -- from the other states no character leads into a value
    exfalso
    simp only [advance] at inside
    repeat' split at inside
    all_goals first
      | cases inside
      | exact closeTag_ne_value _ inside

/-- A value that is written where one is waited for opens it without a quote. -/
theorem value_of_interpolated {k : Cursor} (inside : k.interpolated.state = .value) :
    (k.state = .value ∧ k.interpolated.quote = k.quote) ∨
      (k.state = .beforeValue ∧ k.interpolated.quote = Passage.value.quote?) := by
  unfold interpolated at inside ⊢
  split at inside
  · rename_i waits
    rw [waits]
    exact .inr ⟨rfl, rfl⟩
  · rw [inside]
    exact .inl ⟨rfl, rfl⟩

/-! ### What a history leaves in the fields -/

/-- Whether the cursor at the end of a way has sound fields, and in a value the quote that opened
it. -/
structure Way.Sound (way : Way) : Prop where
  fields : way.cursor.Sound
  quote : way.cursor.state = .value →
    ∃ passage, OpenedBy way passage ∧ way.cursor.quote = passage.quote?

namespace Way.Sound

variable {way : Way}

theorem new : Way.Sound [] where
  fields := Cursor.Sound.of_unused (by decide) (by decide)
  quote := MarkupState.noConfusion

/-- One more step keeps a way sound if it stays in a value with the quote or opens one. -/
theorem step (sound : way.Sound) {passage : Passage} {k : Cursor} (fields : k.Sound)
    (comes : k.state = .value →
      (way.cursor.state = .value ∧ k.quote = way.cursor.quote) ∨
        (way.cursor.state = .beforeValue ∧ k.quote = passage.quote?)) :
    Way.Sound (⟨passage, k⟩ :: way) where
  fields := fields
  quote inside := by
    rcases comes inside with ⟨before, same⟩ | ⟨waits, quote⟩
    · obtain ⟨opener, opened, quote⟩ := sound.quote before
      exact ⟨opener, .stays opened inside, same.trans quote⟩
    · exact ⟨passage, .opens waits inside, quote⟩

theorem walkFrom (sound : way.Sound) (taken : Nat) (cs : List Char) :
    (Way.walkFrom taken way cs).Sound := by
  induction cs generalizing taken way with
  | nil => cases taken <;> exact sound
  | cons c rest ih =>
    cases taken with
    | zero => exact ih (sound.step (sound.fields.advance c rest) value_of_advance) _
    | succ taken => exact ih (sound.step sound.fields fun inside => .inl ⟨inside, rfl⟩) taken

theorem walk (sound : way.Sound) (cs : List Char) : (way.walk cs).Sound := sound.walkFrom 0 cs

theorem write (sound : way.Sound) : way.write.Sound :=
  sound.step sound.fields.interpolated value_of_interpolated

end Way.Sound

/-- The way behind any operations is sound. -/
theorem sound_wayAfter (os : List Operation) : (wayAfter os).Sound :=
  (Kept.All.afterAll ⟨.new, List.forall_mem_nil _⟩ (fun _ cs sound => sound.walk cs)
    (fun _ sound => sound.write) os).now

theorem sound_cursorAfter (os : List Operation) : (cursorAfter os).Sound :=
  cursor_wayAfter os ▸ (sound_wayAfter os).fields

/-- Behind any operations on a new cursor, the name of an attribute is one where the state uses it,
and in raw text the tag is `script` or `style`. A value was opened by one passage, and the quote in
it is the one that this passage is, if it is one. An attribute is named exactly in a value or
directly in front of one, and this is inside a tag. -/
theorem fields_after (os : List Operation) :
    let k := cursorAfter os
    (k.state ∈ attributeStates → IsAttributeName k.attr) ∧
      (k.state = .rawText → k.tag = "script" ∨ k.tag = "style") ∧
      (wayAfter os).cursor = k ∧
      (k.state = .value → ∃ opener, (∀ passage, OpenedBy (wayAfter os) passage ↔ passage = opener) ∧
        k.quote = opener.quote?) ∧
      (k.attributeName?.isSome = true ↔ k.inAttribute = true) ∧
      (k.inAttribute = true → k.inTag = true) := by
  intro k
  have ends : (wayAfter os).cursor = k := cursor_wayAfter os
  obtain ⟨fields, quoted⟩ := sound_wayAfter os
  rw [ends] at fields quoted
  refine ⟨fields.attr, fun raw => ?_, ends, fun inside => ?_, ?_, inTag_of_inAttribute⟩
  · simpa [rawTextElements] using fields.tag raw
  · obtain ⟨opener, opened, quote⟩ := quoted inside
    exact ⟨opener, fun passage => ⟨fun h => h.unique opened, fun h => h ▸ opened⟩, quote⟩
  · unfold attributeName?
    split <;> simp [*]

/-- A cursor that is put back into a quoted value, from a value without quotes behind it. -/
def restoredHistory : List Operation :=
  [.feed "<a title='x".toList, .snapshot, .feed "' href=".toList, .interpolated, .restore 0,
    .feed "\x22y".toList]

theorem fields_after_restored :
    let k := cursorAfter restoredHistory
    k.state = .value ∧ k.attr = "title" ∧ IsAttributeName k.attr ∧
      OpenedBy (wayAfter restoredHistory) (.character '\x27') := by
  intro k
  obtain ⟨named, -, -, quoted, -⟩ := fields_after restoredHistory
  have place : k = ⟨.value, "title", some '\x27', "a"⟩ := by decide +kernel
  have inside : k.state = .value := congrArg Cursor.state place
  obtain ⟨opener, opened, quote⟩ := quoted inside
  refine ⟨inside, congrArg Cursor.attr place, named (inside ▸ by decide), (opened _).mpr ?_⟩
  have mark : opener.quote? = some '\x27' := quote.symm.trans (congrArg Cursor.quote place)
  cases opener with
  | value => cases mark
  | character c =>
    rw [Passage.quote?] at mark
    split at mark
    · rw [Option.some.inj mark]
    · cases mark

end ServerTemplate.Cursor
