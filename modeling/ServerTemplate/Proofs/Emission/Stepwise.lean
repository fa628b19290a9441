import ServerTemplate.Proofs.Emission.Step
import ServerTemplate.Proofs.Scope.Moves

/-!
# Conversions run in steps

`Emit.InSteps job P s x post` says that the part `x` of a conversion, begun in the state `s`, runs
in steps, and that `post` holds if it succeeds. Parts compose (`InSteps.bind`).
-/

namespace ServerTemplate

open Relation (ReflTransGen)

variable {job : Job} {P : Expr → Prop}

theorem Halts.of_steps {s s' s'' : Progress} {d : Diagnostic} (h : Steps job P s s')
    (halts : Halts job P s' d s'') : Halts job P s d s'' := by
  obtain ⟨s₁, h₁, stop⟩ := halts
  exact ⟨s₁, h.trans h₁, stop⟩

/-- A failure that leaves the state as it is. -/
theorem Halts.here (s : Progress) (d : Diagnostic) : Halts job P s d s :=
  ⟨s, .refl, .other fun _ hm => .inl hm⟩

namespace Emit

/-- A part of a conversion runs in steps, and `post` holds if it succeeds. -/
def InSteps (job : Job) (P : Expr → Prop) {α : Type} (s : Progress) (x : Emit α)
    (post : α → Progress → Prop) : Prop :=
  After x s (fun a s' => Runs job P s s' ∧ post a s') (Halts job P s)

section Rules

variable {α β : Type} {s : Progress}

theorem InSteps.mono {x : Emit α} {post post' : α → Progress → Prop}
    (h : InSteps job P s x post) (hpost : ∀ a s', post a s' → post' a s') :
    InSteps job P s x post' :=
  After.mono h (fun a s' h => ⟨h.1, hpost a s' h.2⟩) fun _ _ h => h

/-- Parts one after the other run in steps if each does from where the one before ends. -/
theorem InSteps.bind {x : Emit α} {f : α → Emit β} {mid : α → Progress → Prop}
    {post : β → Progress → Prop} (hx : InSteps job P s x mid)
    (hf : ∀ a s', mid a s' → InSteps job P s' (f a) post) : InSteps job P s (x >>= f) post := by
  refine after_bind.mpr (After.mono hx (fun a s' h => ?_) fun _ _ h => h)
  exact After.mono (hf a s' h.2) (fun _ _ h' => ⟨h.1.trans h'.1, h'.2⟩)
    fun _ _ h' => h'.of_steps h.1.steps

/-- Parts of which only the steps matter. -/
theorem InSteps.then {x : Emit α} {f : α → Emit β} {mid : α → Progress → Prop}
    (hx : InSteps job P s x mid) (hf : ∀ a s', InSteps job P s' (f a) fun _ _ => True) :
    InSteps job P s (x >>= f) fun _ _ => True :=
  hx.bind fun a s' _ => hf a s'

theorem InSteps.pure {a : α} {post : α → Progress → Prop} (h : post a s) :
    InSteps job P s (Pure.pure a) post :=
  ⟨.refl s, h⟩

/-- A failure runs in no steps at all. -/
theorem InSteps.throw {d : Diagnostic} {post : α → Progress → Prop} :
    InSteps job P s (throw d) post :=
  Halts.here s d

/-- A check changes nothing. -/
theorem InSteps.ofExcept {r : Except Diagnostic α} {post : α → Progress → Prop}
    (h : ∀ a, r = .ok a → post a s) : InSteps job P s (ofExcept r) post :=
  after_ofExcept (fun a ha => ⟨.refl s, h a ha⟩) fun d _ => Halts.here s d

/-- A look at the scopes changes nothing. -/
theorem InSteps.tracker {f : Tracker → Emit β} {post : β → Progress → Prop}
    (h : InSteps job P s (f s.tracker) post) : InSteps job P s (Emit.tracker >>= f) post :=
  after_bind.mpr (after_tracker.mpr h)

theorem InSteps.cursor {f : Cursor → Emit β} {post : β → Progress → Prop}
    (h : InSteps job P s (f s.cursor) post) : InSteps job P s (Emit.cursor >>= f) post :=
  after_bind.mpr (after_cursor.mpr h)

theorem InSteps.inCode {f : Bool → Emit β} {post : β → Progress → Prop}
    (h : InSteps job P s (f s.tracker.inCode) post) : InSteps job P s (Emit.inCode >>= f) post :=
  after_bind.mpr (after_inCode.mpr h)

/-- A piece is written where the step that writes it may be taken. -/
theorem InSteps.write {piece : Piece} {post : Unit → Progress → Prop}
    (step : Step job P s (s.writing piece)) (h : post () (s.writing piece)) :
    InSteps job P s (Emit.write piece) post :=
  ⟨.step step, h⟩

theorem InSteps.refuse {e : Expr} {label : String} {construct : Unsupported}
    {post : Unit → Progress → Prop} : InSteps job P s (Emit.refuse job e label construct) post :=
  InSteps.tracker InSteps.throw

end Rules

/-! ### Literal text -/

/-- The state after a replay: nothing is written, the scopes change, and only these changes come
into the journal. -/
structure Replayed (s s' : Progress) : Prop where
  pieces : s'.pieces = s.pieces
  scopes : Tracker.Moves s.tracker s'.tracker
  older : s.journal <:+ s'.journal
  journal : ∀ m ∈ s'.journal, m ∈ s.journal ∨ m.event = .scopes

theorem Replayed.refl (s : Progress) : Replayed s s :=
  ⟨rfl, .refl, List.suffix_rfl, fun _ hm => .inl hm⟩

theorem Replayed.trans {s s' s'' : Progress} (h : Replayed s s') (h' : Replayed s' s'') :
    Replayed s s'' where
  pieces := h'.pieces.trans h.pieces
  scopes := h.scopes.trans h'.scopes
  older := h.older.trans h'.older
  journal m hm := (h'.journal m hm).elim (h.journal m) .inr

theorem Replayed.tracking {s : Progress} {t : Tracker} (h : Tracker.Move s.tracker t) :
    Replayed s (s.tracking t) where
  pieces := rfl
  scopes := .single h
  older := List.suffix_cons _ _
  journal m hm := by
    rcases List.mem_cons.mp hm with rfl | hm
    · exact .inr rfl
    · exact .inl hm

theorem Replayed.moving (s : Progress) (k : Cursor) : Replayed s (s.moving k) :=
  ⟨rfl, .refl, List.suffix_rfl, fun _ hm => .inl hm⟩

/-- A loop is entered and its item bound at once. -/
theorem Replayed.enterLoop (s : Progress) (item array : String) :
    Replayed s ((s.tracking (s.tracker.enter .loop (some item) (some array))).tracking
      ((s.tracker.enter .loop (some item) (some array)).bind item .loopItem)) where
  pieces := rfl
  scopes := .single (.enterLoop s.tracker item array)
  older := (List.suffix_cons _ _).trans (List.suffix_cons _ _)
  journal m hm := by
    rcases List.mem_cons.mp hm with rfl | hm
    · exact .inr rfl
    rcases List.mem_cons.mp hm with rfl | hm
    · exact .inr rfl
    · exact .inl hm

/-- A marker changes the scopes alone, whether it fits them or not. -/
theorem after_replay (marker : Marker) (s : Progress) :
    After (replay marker) s (fun _ s' => Replayed s s') fun _ s' => Replayed s s' := by
  unfold replay
  rw [after_bind, after_tracker]
  have scope : ∀ kind, After (exitScope kind) s (fun _ s' => Replayed s s')
      fun _ s' => Replayed s s' := fun kind =>
    after_exitScope (fun _ t left => .tracking (.exit left)) fun _ _ => .refl s
  cases marker with
  | quoted => exact after_pure.mpr (.refl s)
  | openCode =>
    dsimp only
    split
    · exact after_throw.mpr (.refl s)
    · exact after_enterCode.mpr (.tracking (.enterCode _))
  | closeCode =>
    dsimp only
    split
    · exact after_leaveCode (fun t left => .tracking (.leaveCode left)) fun _ _ => .refl s
    · exact after_throw.mpr (.refl s)
  | loop array item =>
    refine after_bind.mpr (after_ofExcept (fun _ _ => ?_) fun _ _ => .refl s)
    exact after_enterScope_some.mpr (.enterLoop s item array)
  | endLoop => exact scope .loop
  | conditional => exact after_enterScope_none.mpr (.tracking (.enter _ (by decide)))
  | endConditional => exact scope .conditional

theorem after_replayAll (parts : List Segment) (s : Progress) :
    After (replayAll parts) s (fun _ s' => Replayed s s') fun _ s' => Replayed s s' := by
  induction parts generalizing s with
  | nil => exact after_pure.mpr (.refl s)
  | cons part rest ih =>
    -- whatever the part does, the rest begins in a state replayed from this one
    have step : ∀ s', Replayed s s' →
        After (replayAll rest) s' (fun _ s'' => Replayed s s'') fun _ s'' => Replayed s s'' :=
      fun s' h => After.mono (ih s') (fun _ _ h' => h.trans h') fun _ _ h' => h.trans h'
    cases part with
    | text content =>
      unfold replayAll
      rw [after_bind, after_inCode]
      split
      · rw [after_bind, after_moveCursor]
        exact step _ (.moving s _)
      · exact step _ (.refl s)
    | marker marker =>
      unfold replayAll
      rw [after_bind]
      exact After.mono (after_replay marker s) (fun _ s' h => step s' h) fun _ _ h => h

/-- A literal text is one piece, if it is not empty, and then replayed. -/
theorem after_text (content : String) (s : Progress) :
    After (text content) s (fun _ s' => Replayed (s.texting content) s')
      fun _ s' => Replayed (s.texting content) s' := by
  unfold text Progress.texting
  split
  · exact after_pure.mpr (.refl s)
  · exact after_replayAll _ _

theorem chunk_replayed {content : String} {s s' : Progress} (h : chunk content s = .ok () s') :
    Replayed ((s.noting (.chunk content)).texting content) s' :=
  (after_text content (s.noting (.chunk content))).of_ok h

theorem constantText_replayed {content : String} {s s' : Progress}
    (h : constantText content s = .ok () s') :
    Replayed ((s.noting (.constantText content)).texting content) s' :=
  (after_text content (s.noting (.constantText content))).of_ok h

/-- Of a literal text only its own event and the changes of the scopes are in the journal. -/
theorem Replayed.quiet {s s' : Progress} {event : Event} {content : String}
    (h : Replayed ((s.noting event).texting content) s')
    (hevent : ∀ e label bare, event ≠ .expression e label bare) :
    ∀ m ∈ s'.journal, m ∈ s.journal ∨ ∀ e label, ¬ m.Reads e label := by
  have quiet (m : Moment) (hm : m.event = event ∨ m.event = .scopes) (e : Expr) (label : String) :
      ¬ m.Reads e label := by
    rintro ⟨⟨bare, he⟩, -, -⟩
    rcases hm with hm | hm
    · exact hevent e label bare (hm ▸ he)
    · rw [hm] at he
      cases he
  intro m hm
  rcases h.journal m hm with hm | hm
  · rw [Progress.texting_journal] at hm
    rcases List.mem_cons.mp hm with rfl | hm
    · exact .inr (quiet _ (.inl rfl))
    · exact .inl hm
  · exact .inr (quiet m (.inr hm))

/-- A literal text is a step, or breaks the conversion off before any read begins. -/
theorem inSteps_text {s : Progress} {event : Event} {content : String}
    (hevent : ∀ e label bare, event ≠ .expression e label bare)
    (step : ∀ s', (do note event; text content : Emit Unit) s = .ok () s' → Step job P s s') :
    InSteps job P s (do note event; text content) fun _ _ => True := by
  have h : After (do note event; text content) s (fun _ _ => True) fun d s' =>
      Halts job P s d s' := by
    rw [after_bind, after_note]
    refine After.mono (after_text content _) (fun _ _ _ => trivial) fun d s' h => ?_
    exact ⟨s, .refl, .other (h.quiet hevent)⟩
  unfold InSteps After at *
  cases hs : (do note event; text content : Emit Unit) s with
  | ok a s' => exact ⟨.step (step s' hs), trivial⟩
  | error d s' => rw [hs] at h; exact h

theorem inSteps_chunk {s : Progress} {content : String} :
    InSteps job P s (chunk content) fun _ _ => True :=
  inSteps_text nofun fun _ h => .chunk h

theorem inSteps_constantText {s : Progress} {content : String} :
    InSteps job P s (constantText content) fun _ _ => True :=
  inSteps_text nofun fun _ h => .constantText h

theorem inSteps_chunks {s : Progress} (texts : List String) :
    InSteps job P s (chunks texts) fun _ _ => True := by
  induction texts generalizing s with
  | nil => exact InSteps.pure trivial
  | cons content rest ih => exact inSteps_chunk.then fun _ _ => ih

end Emit

end ServerTemplate
