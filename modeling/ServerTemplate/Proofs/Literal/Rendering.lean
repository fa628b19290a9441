import ServerTemplate.Proofs.Literal.Part
import ServerTemplate.Proofs.Markup.Alike
import ServerTemplate.Proofs.Outline.Writes

/-!
# What a part writes

A rendering says what is written from a cursor on and where the cursor stands then. Of a part of a
conversion, `Emit.Puts t t' x r` says that from the scopes `t` on it writes what the rendering `r`
gives and ends in the scopes `t'`, or fails where `r` gives nothing. Renderings say nothing of
pieces and labels, so two templates that are converted in different ways may have the same one.

`Emit.Replays t t' segments f` is the same for the replay of a text. A part of a template is put
together by `Part.Puts.text`, `.hole` and `.prepend`, of which the last cuts a text in two.
-/

namespace ServerTemplate

/-- What is written from a cursor on, and the cursor behind it, unless there is nothing. -/
abbrev Rendering := Cursor → Option (String × Cursor)

namespace Rendering

/-- A text that moves the cursor in some way. -/
def moved (content : String) (f : Cursor → Option Cursor) : Rendering :=
  fun k => (f k).map fun k' => (content, k')

/-- Text of the template. -/
def text (content : String) : Rendering := moved content fun k => some (k.feed content.toList)

/-- Code, which does not move the cursor. -/
def code (content : String) : Rendering := moved content some

/-- One rendering behind the other. -/
def andThen (r r' : Rendering) : Rendering := fun k =>
  (r k).bind fun a => (r' a.2).map fun b => (a.1 ++ b.1, b.2)

theorem andThen_apply (r r' : Rendering) (k : Cursor) :
    r.andThen r' k = (r k).bind fun a => (r' a.2).map fun b => (a.1 ++ b.1, b.2) := rfl

theorem exists_of_andThen {r r' : Rendering} {k : Cursor} {x : String × Cursor}
    (h : r.andThen r' k = some x) :
    ∃ a b, r k = some a ∧ r' a.2 = some b ∧ x = (a.1 ++ b.1, b.2) := by
  obtain ⟨a, ha, h⟩ := Option.bind_eq_some_iff.mp h
  obtain ⟨b, hb, rfl⟩ := Option.map_eq_some_iff.mp h
  exact ⟨a, b, ha, hb, rfl⟩

/-- The text of two renderings does not depend on the cursor behind the second. -/
theorem andThen_text (r r' : Rendering) (k : Cursor) : (r.andThen r' k).map Prod.fst =
    (r k).bind fun a => ((r' a.2).map Prod.fst).map fun text => a.1 ++ text := by
  rw [andThen_apply]
  cases r k with
  | none => rfl
  | some a =>
    dsimp only [Option.bind_some]
    rw [Option.map_map, Option.map_map]
    rfl

theorem andThen_assoc (r₁ r₂ r₃ : Rendering) :
    (r₁.andThen r₂).andThen r₃ = r₁.andThen (r₂.andThen r₃) := by
  funext k
  unfold andThen
  cases r₁ k with
  | none => rfl
  | some a =>
    dsimp only [Option.bind_some]
    cases r₂ a.2 with
    | none => rfl
    | some b =>
      dsimp only [Option.bind_some, Option.map_some]
      cases r₃ b.2 with
      | none => rfl
      | some c => simp only [Option.map_some, String.append_assoc]

/-- Behind a text or code the rest begins where the cursor has been moved. -/
theorem moved_andThen (content : String) (f : Cursor → Option Cursor) (r : Rendering) (k : Cursor) :
    (moved content f).andThen r k =
      (f k).bind fun k' => (r k').map fun a => (content ++ a.1, a.2) := by
  unfold andThen moved
  cases f k <;> rfl

theorem text_andThen (content : String) (r : Rendering) (k : Cursor) :
    (text content).andThen r k =
      (r (k.feed content.toList)).map fun a => (content ++ a.1, a.2) := rfl

theorem code_andThen (content : String) (r : Rendering) (k : Cursor) :
    (code content).andThen r k = (r k).map fun a => (content ++ a.1, a.2) := rfl

/-- Two renderings from some cursors are both nothing, or the same text with cursors at the same
place behind it. -/
def Agree : Option (String × Cursor) → Option (String × Cursor) → Prop :=
  Option.Rel fun a b => a.1 = b.1 ∧ a.2.Alike b.2

end Rendering

/-- The output so far. -/
def Progress.written (s : Progress) : String := Piece.writtenAll s.pieces.reverse

theorem Progress.written_writing (s : Progress) (piece : Piece) :
    (s.writing piece).written = s.written ++ piece.written := by
  rw [written, writing_pieces, List.reverse_cons, Piece.writtenAll_append,
    Piece.writtenAll_singleton]
  rfl

theorem Progress.written_texting (s : Progress) (content : String) :
    (s.texting content).written = s.written ++ content := by
  unfold texting
  split
  · rename_i hempty
    rw [hempty, String.append_empty]
  · exact s.written_writing _

theorem Wrote.written {s s' : Progress} {ps : List Piece} (h : Wrote s ps s') :
    s'.written = s.written ++ Piece.writtenAll ps := by
  rw [Progress.written, h.pieces, List.reverse_append, List.reverse_reverse,
    Piece.writtenAll_append]
  rfl

/-- How a translation is written, and the cursor behind it. -/
def Outline.written? (r : Except Diagnostic (Outline × Cursor)) : Option (String × Cursor) :=
  r.toOption.map fun o => (o.1.written, o.2)

namespace Emit

/-- Between the scopes `t` and `t'` a part of a conversion writes what a rendering gives, or fails
where that gives nothing. -/
def Puts (t t' : Tracker) (x : Emit Unit) (r : Rendering) : Prop :=
  ∀ s : Progress, s.tracker = t → After x s
    (fun _ s' => s'.tracker = t' ∧ ∃ a, r s.cursor = some (a, s'.cursor) ∧
      s'.written = s.written ++ a)
    fun _ _ => r s.cursor = none

/-- Between the scopes `t` and `t'` the segments of a text move the cursor as `f` does, or are not
replayed where `f` gives nothing. -/
def Replays (t t' : Tracker) (segments : List Segment) (f : Cursor → Option Cursor) : Prop :=
  ∀ s : Progress, s.tracker = t → After (replayAll segments) s
    (fun _ s' => s'.tracker = t' ∧ f s.cursor = some s'.cursor ∧ s'.pieces = s.pieces)
    fun _ _ => f s.cursor = none

variable {t t₁ t' : Tracker} {x y : Emit Unit} {r r' : Rendering} {f g : Cursor → Option Cursor}
  {xs ys : List Segment}

theorem Puts.bind (h : Puts t t₁ x r) (h' : Puts t₁ t' y r') :
    Puts t t' (do x; y) (r.andThen r') := by
  intro s hs
  rw [after_bind]
  refine (h s hs).mono (fun _ s₁ ⟨hs₁, a, hr, ha⟩ => ?_) fun _ _ hr => by
    rw [Rendering.andThen, hr]
    rfl
  have both : r.andThen r' s.cursor = (r' s₁.cursor).map fun b => (a ++ b.1, b.2) := by
    rw [Rendering.andThen, hr]
    rfl
  refine (h' s₁ hs₁).mono (fun _ s₂ ⟨hs₂, b, hr', hb⟩ => ⟨hs₂, a ++ b, ?_, ?_⟩) fun _ _ hr' => ?_
  · rw [both, hr']
    rfl
  · rw [hb, ha, String.append_assoc]
  · rw [both, hr']
    rfl

/-- What renders an outline puts what the outline is written as. -/
theorem Puts.of_renders {r : Cursor → Except Diagnostic (Outline × Cursor)}
    (h : ∀ s : Progress, s.tracker = t → Renders s x (r s.cursor)) :
    Puts t t x fun k => Outline.written? (r k) := by
  intro s hs
  refine (h s hs).mono (fun _ s' ⟨o, hr, w⟩ => ⟨w.tracker.trans hs, o.written, ?_, ?_⟩)
    fun _ _ hr => congrArg Outline.written? hr
  · exact congrArg Outline.written? hr
  · rw [w.written, o.writtenAll_pieces]

/-- What writes code puts it and leaves the cursor where it is. -/
theorem Puts.of_writesCode {r : Except Diagnostic (List Piece)}
    (h : ∀ s : Progress, s.tracker = t → WritesCode s x r) :
    Puts t t x fun k => r.toOption.map fun ps => (Piece.writtenAll ps, k) := by
  intro s hs
  refine (h s hs).mono (fun _ s' ⟨ps, hr, w, hk⟩ => ⟨w.tracker.trans hs, Piece.writtenAll ps, ?_,
    w.written⟩) fun _ _ hr => by rw [hr]; rfl
  rw [hr, hk]
  rfl

/-! ### Replayed texts -/

theorem replayAll_append (xs ys : List Segment) :
    replayAll (xs ++ ys) = (do replayAll xs; replayAll ys) := by
  induction xs with
  | nil => rfl
  | cons segment xs ih =>
    cases segment with
    | text content =>
      simp only [List.cons_append, replayAll, ih, bind_assoc]
      refine bind_congr fun code => ?_
      split
      · rw [bind_assoc]
      · rfl
    | marker marker => simp only [List.cons_append, replayAll, ih, bind_assoc]

/-- Segments behind others are replayed from where those have been. -/
theorem Replays.append (h : Replays t t₁ xs f) (h' : Replays t₁ t' ys g) :
    Replays t t' (xs ++ ys) fun k => (f k).bind g := by
  intro s hs
  rw [replayAll_append, after_bind]
  refine (h s hs).mono (fun _ s₁ ⟨hs₁, hf, hpieces⟩ => ?_) fun _ _ hf => congrArg (·.bind g) hf
  have both : (f s.cursor).bind g = g s₁.cursor := congrArg (·.bind g) hf
  refine (h' s₁ hs₁).mono (fun _ s₂ ⟨hs₂, hg, hpieces'⟩ => ?_) fun _ _ hg => both.trans hg
  exact ⟨hs₂, both.trans hg, hpieces'.trans hpieces⟩

theorem Replays.nil (t : Tracker) : Replays t t [] some := fun _ hs => ⟨hs, rfl, rfl⟩

/-- A text in markup moves the cursor. -/
theorem Replays.text (markup : t.inCode = false) (content : List Char) :
    Replays t t [.text content] fun k => some (k.feed content) := by
  intro s hs
  unfold After
  rw [replayAll_text (hs ▸ markup)]
  exact ⟨hs, rfl, rfl⟩

/-- A text in code does not. -/
theorem Replays.code (code : t.inCode = true) (content : List Char) :
    Replays t t [.text content] some := by
  intro s hs
  have skipped : replayAll [.text content] s = .ok () s := by
    change (if !s.tracker.inCode then (do moveCursor (·.feed content); replayAll [])
      else replayAll [] : Emit Unit) s = _
    rw [hs, code]
    rfl
  unfold After
  rw [skipped]
  exact ⟨hs, rfl, rfl⟩

/-- A marker changes the scopes and nothing else. -/
theorem Replays.marker {marker : Marker}
    (h : ∀ s : Progress, s.tracker = t → ∃ s', replay marker s = .ok () s' ∧ s'.tracker = t' ∧
      s'.cursor = s.cursor ∧ s'.pieces = s.pieces) : Replays t t' [.marker marker] some := by
  intro s hs
  obtain ⟨s', run, htracker, hcursor, hpieces⟩ := h s hs
  have run : replayAll [.marker marker] s = .ok () s' := by
    change (do replay marker; replayAll [] : Emit Unit) s = _
    simp only [bind, EStateM.bind, run]
    rfl
  unfold After
  rw [run]
  exact ⟨htracker, congrArg some hcursor.symm, hpieces⟩

theorem Replays.openCode (markup : t.inCode = false) :
    Replays t t.enterCode [.marker .openCode] some :=
  .marker fun s hs => by
    subst hs
    refine ⟨s.tracking s.tracker.enterCode, ?_, rfl, rfl, rfl⟩
    change (if s.tracker.inCode then throw _ else enterCode : Emit Unit) s = _
    rw [markup]
    rfl

theorem Replays.closeCode (code : t.inCode = true) (left : t.leaveCode = .ok t') :
    Replays t t' [.marker .closeCode] some :=
  .marker fun s hs => by
    subst hs
    refine ⟨s.tracking t', ?_, rfl, rfl, rfl⟩
    change (if s.tracker.inCode then leaveCode else throw _ : Emit Unit) s = _
    rw [code]
    change (do setTracker (← ofExcept s.tracker.leaveCode) : Emit Unit) s = _
    rw [left]
    rfl

theorem Replays.conditional (t : Tracker) :
    Replays t (t.enter .conditional) [.marker .conditional] some :=
  .marker fun s hs => ⟨s.tracking (s.tracker.enter .conditional), rfl, hs ▸ rfl, rfl, rfl⟩

/-- The end of a block leaves its frame. -/
theorem replay_exit {s : Progress} {kind : FrameKind} {frame : Frame}
    (left : s.tracker.exit (some kind) = .ok (frame, t')) :
    exitScope kind s = .ok () (s.tracking t') := by
  change (do let left ← ofExcept (s.tracker.exit (some kind)); setTracker left.2 : Emit Unit) s = _
  rw [left]
  rfl

theorem Replays.endConditional {frame : Frame}
    (left : t.exit (some .conditional) = .ok (frame, t')) :
    Replays t t' [.marker .endConditional] some :=
  .marker fun s hs => ⟨s.tracking t', replay_exit (hs ▸ left), rfl, rfl, rfl⟩

theorem Replays.endLoop {frame : Frame} (left : t.exit (some .loop) = .ok (frame, t')) :
    Replays t t' [.marker .endLoop] some :=
  .marker fun s hs => ⟨s.tracking t', replay_exit (hs ▸ left), rfl, rfl, rfl⟩

/-- The head of a loop binds its item, unless the array is not visible. -/
theorem Replays.loop (t : Tracker) (array item : String) :
    Replays t ((t.enter .loop (some item) (some array)).bind item .loopItem)
      [.marker (.loop array item)] fun k => if t.isVisible array then some k else none := by
  cases visible : t.isVisible array with
  | true =>
    refine .marker fun s hs => ⟨(s.tracking (t.enter .loop (some item) (some array))).tracking
      ((t.enter .loop (some item) (some array)).bind item .loopItem), ?_, rfl, rfl, rfl⟩
    subst hs
    change (do
      ofExcept (s.tracker.requireVisible array "template-foreach")
      enterScope .loop item array : Emit Unit) s = _
    rw [Tracker.requireVisible, visible]
    rfl
  | false =>
    intro s hs
    subst hs
    have run : ∃ d, replay (.loop array item) s = .error d s := by
      change ∃ d, (do
        ofExcept (s.tracker.requireVisible array "template-foreach")
        enterScope .loop item array : Emit Unit) s = .error d s
      rw [Tracker.requireVisible, visible]
      exact ⟨_, rfl⟩
    obtain ⟨d, run⟩ := run
    change After (do replay (.loop array item); replayAll []) s _ _
    rw [after_bind, After, run]
    rfl

end Emit

end ServerTemplate
