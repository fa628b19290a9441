import ServerTemplate.Proofs.Emission.Effects
import ServerTemplate.Proofs.Outline.Conversion

/-!
# Loops over visible names

Server code has one scope for all names: a loop assigns its item, and what had the same name before
is lost. `Job.Unshadowed` says that the open frames bind different names, and that loops bind no
parameters. A loop that is written as an expression is refused where its item is visible. A loop in
literal text is opened all the same, so the names stay apart exactly as long as the items of such
loops are not visible (`unshadowed_iff_opensFresh`).

`Grows` follows the journal: the moments that a part adds to it are unshadowed if and only if the
loops in its literal texts are fresh.
-/

namespace ServerTemplate

open Emit

variable {job : Job} {P : Expr → Prop} {t t' : Tracker} {s s' s'' : Progress} {frame : Frame}
  {item array : String}

/-- No name is bound by two open frames, and no name that a loop binds is a parameter. -/
structure Job.Unshadowed (job : Job) (t : Tracker) : Prop where
  apart : t.frames.Pairwise fun inner outer =>
    ∀ name, inner.binds name = true → outer.binds name = false
  noParameter : ∀ frame ∈ t.frames, frame.kind = .loop → ∀ name, frame.binds name = true →
    name ∉ job.declaration.parameterNames

/-- Some frame is open, only loops bind names, and the parameters are those of the component. -/
structure Job.Tracks (job : Job) (t : Tracker) : Prop where
  sound : t.Sound
  parameters : t.parameters = job.declaration.parameterNames

/-! ### Changes of the scopes -/

namespace Job.Tracks

theorem start (job : Job) : job.Tracks job.start.tracker := ⟨Tracker.sound_start _ _, rfl⟩

theorem move (h : job.Tracks t) (move : Tracker.Move t t') : job.Tracks t' where
  sound := h.sound.move move
  parameters := by
    rw [← h.parameters]
    cases move with
    | enterCode | enter => rfl
    | leaveCode left =>
      unfold Tracker.leaveCode at left
      split at left <;> cases left
      rfl
    | enterLoop item array =>
      obtain ⟨frame, outer, hframes⟩ := List.exists_cons_of_ne_nil h.sound.nonempty
      rw [Tracker.bind, Tracker.enter, hframes]
    | exit left =>
      unfold Tracker.exit at left
      split at left
      · split at left
        · cases left
        · split at left <;> cases left
          rfl
      · cases left

theorem moves (h : job.Tracks t) (moves : Tracker.Moves t t') : job.Tracks t' := by
  induction moves with
  | refl => exact h
  | tail _ move ih => exact ih.move move

/-- A name is not visible if no open frame binds it and it is no parameter. -/
theorem isVisible_eq_false_iff (h : job.Tracks t) {name : String} :
    t.isVisible name = false ↔
      (∀ frame ∈ t.frames, frame.binds name = false) ∧ name ∉ job.declaration.parameterNames := by
  rw [Tracker.isVisible, Bool.or_eq_false_iff, Tracker.bindingFrame?, Tracker.isParameter,
    h.parameters, Option.isSome_eq_false_iff, Option.isNone_iff_eq_none]
  simp

end Job.Tracks

namespace Job.Unshadowed

theorem start (job : Job) : job.Unshadowed job.start.tracker where
  apart := List.pairwise_singleton _ _
  noParameter frame h loop := by
    rw [List.mem_singleton.mp h] at loop
    cases loop

theorem of_frames (h : job.Unshadowed t) (same : t'.frames = t.frames) : job.Unshadowed t' :=
  ⟨same ▸ h.apart, same ▸ h.noParameter⟩

/-- A frame more must bind names that no other frame binds, and if it is a loop, no parameters. -/
theorem cons_iff (hframes : t'.frames = frame :: t.frames) :
    job.Unshadowed t' ↔
      (∀ name, frame.binds name = true → (∀ outer ∈ t.frames, outer.binds name = false) ∧
        (frame.kind = .loop → name ∉ job.declaration.parameterNames)) ∧ job.Unshadowed t := by
  constructor
  · rintro ⟨apart, noParameter⟩
    rw [hframes] at apart noParameter
    obtain ⟨first, rest⟩ := List.pairwise_cons.mp apart
    refine ⟨fun name binds => ⟨fun outer h => first outer h name binds, fun loop => ?_⟩, rest, ?_⟩
    · exact noParameter frame (List.mem_cons_self ..) loop name binds
    · exact fun other h => noParameter other (List.mem_cons_of_mem _ h)
  · rintro ⟨first, apart, noParameter⟩
    refine ⟨?_, ?_⟩ <;> rw [hframes]
    · exact List.pairwise_cons.mpr ⟨fun outer h name binds => (first name binds).1 outer h, apart⟩
    · intro other h loop name binds
      rcases List.mem_cons.mp h with rfl | h
      · exact (first name binds).2 loop
      · exact noParameter other h loop name binds

/-- A frame that binds nothing yet shadows nothing. -/
theorem enter (h : job.Unshadowed t) (kind : FrameKind) (item? array? : Option String) :
    job.Unshadowed (t.enter kind item? array?) := by
  refine (cons_iff (t := t) rfl).mpr ⟨fun name binds => ?_, h⟩
  cases binds

theorem leaveCode (h : job.Unshadowed t) (left : t.leaveCode = .ok t') : job.Unshadowed t' :=
  h.of_frames (Tracker.frames_leaveCode left)

theorem exit (h : job.Unshadowed t) {kind : FrameKind}
    (left : t.exit (some kind) = .ok (frame, t')) : job.Unshadowed t' :=
  ((cons_iff (Tracker.frames_exit left).1).mp h).2

/-- The frame of a loop shadows nothing if its item is not visible. -/
theorem enterLoop_iff (tracks : job.Tracks t) (item array : String) :
    job.Unshadowed ((t.enter .loop (some item) (some array)).bind item .loopItem) ↔
      t.isVisible item = false ∧ job.Unshadowed t := by
  rw [cons_iff (Tracker.frames_enterLoop tracks.sound.nonempty item array),
    tracks.isVisible_eq_false_iff]
  refine and_congr_left fun _ => ⟨fun h => ?_, ?_⟩
  · have self := h item (by simp [Frame.binds])
    exact ⟨self.1, self.2 rfl⟩
  · rintro ⟨frames, noParameter⟩ name binds
    have hname : item = name := by simpa [Frame.binds] using binds
    subst hname
    exact ⟨frames, fun _ => noParameter⟩

end Job.Unshadowed

/-! ### Literal text -/

namespace Tracker

/-- The scopes behind a marker of a literal text. -/
def behind (t : Tracker) : Marker → Except Diagnostic Tracker
  | .quoted => .ok t
  | .openCode => if t.inCode then .error (t.imbalance .regionInsideRegion) else .ok t.enterCode
  | .closeCode => if t.inCode then t.leaveCode else .error (t.imbalance .markerWithoutRegion)
  | .loop array item =>
    (t.requireVisible array "template-foreach").map fun _ =>
      (t.enter .loop (some item) (some array)).bind item .loopItem
  | .endLoop => (t.exit (some .loop)).map Prod.snd
  | .conditional => .ok (t.enter .conditional)
  | .endConditional => (t.exit (some .conditional)).map Prod.snd

/-- Whether a marker opens no loop over a visible name. -/
def fresh (t : Tracker) : Marker → Bool
  | .loop _ item => !t.isVisible item
  | _ => true

/-- Whether no loop in a literal text is over a name that is visible where the loop begins. -/
def opensFresh (t : Tracker) : List Segment → Bool
  | [] => true
  | .text _ :: rest => t.opensFresh rest
  | .marker marker :: rest =>
    t.fresh marker &&
      match t.behind marker with
      | .ok t' => t'.opensFresh rest
      | .error _ => true

end Tracker

/-- Whether no loop in the literal text that begins at this moment, if one does, is over a name that
is visible where the loop begins. -/
def Moment.opensFresh (m : Moment) : Bool :=
  match m.event with
  | .chunk content | .constantText content =>
    m.tracker.opensFresh (segments m.tracker.inCode content.toList)
  | _ => true

/-- What a part of a conversion adds to the journal. From unshadowed scopes on, the moments that are
added are unshadowed if and only if the loops are `fresh`, and so are the scopes at its end. -/
structure Grows (job : Job) (fresh : Prop) (s : Progress) (new : List Moment) (s' : Progress) :
    Prop where
  moves : Tracker.Moves s.tracker s'.tracker
  journal : s'.journal = new ++ s.journal
  unshadowed : job.Tracks s.tracker → job.Unshadowed s.tracker →
    ((∀ m ∈ new, job.Unshadowed m.tracker) ↔ fresh) ∧ (fresh → job.Unshadowed s'.tracker)

namespace Grows

variable {fresh fresh' : Prop} {new new' : List Moment}

/-- What leaves the scopes and the journal as they are. -/
theorem of_same (tracker : s'.tracker = s.tracker) (journal : s'.journal = s.journal) :
    Grows job True s [] s' :=
  ⟨tracker ▸ .refl, journal, fun _ h =>
    ⟨iff_true_intro (List.forall_mem_nil _), fun _ => tracker ▸ h⟩⟩

theorem congr (h : Grows job fresh s new s') (same : fresh ↔ fresh') :
    Grows job fresh' s new s' := propext same ▸ h

theorem trans (h : Grows job fresh s new s') (h' : Grows job fresh' s' new' s'') :
    Grows job (fresh ∧ fresh') s (new' ++ new) s'' where
  moves := h.moves.trans h'.moves
  journal := by rw [h'.journal, h.journal, List.append_assoc]
  unshadowed tracks before := by
    obtain ⟨first, mid⟩ := h.unshadowed tracks before
    have rest (hfresh : fresh) := h'.unshadowed (tracks.moves h.moves) (mid hfresh)
    rw [List.forall_mem_append, and_comm (b := ∀ m ∈ new, _), first]
    exact ⟨and_congr_right fun hfresh => (rest hfresh).1, fun both => (rest both.1).2 both.2⟩

end Grows

/-- Only the scopes change, and the journal takes it down. -/
def Rescopes (job : Job) (fresh : Prop) (s s' : Progress) : Prop :=
  ∃ new, (∀ m ∈ new, m.event = .scopes) ∧ Grows job fresh s new s'

namespace Rescopes

variable {fresh fresh' : Prop}

theorem of_same (tracker : s'.tracker = s.tracker) (journal : s'.journal = s.journal) :
    Rescopes job True s s' :=
  ⟨[], List.forall_mem_nil _, .of_same tracker journal⟩

theorem congr (h : Rescopes job fresh s s') (same : fresh ↔ fresh') : Rescopes job fresh' s s' :=
  propext same ▸ h

theorem always (h : Rescopes job True s s') : Rescopes job (true = true) s s' :=
  h.congr (iff_of_true trivial rfl)

theorem trans (h : Rescopes job fresh s s') (h' : Rescopes job fresh' s' s'') :
    Rescopes job (fresh ∧ fresh') s s'' := by
  obtain ⟨new, scopes, grows⟩ := h
  obtain ⟨new', scopes', grows'⟩ := h'
  exact ⟨new' ++ new, List.forall_mem_append.mpr ⟨scopes', scopes⟩, grows.trans grows'⟩

/-- A change that binds no name. -/
theorem tracking (move : Tracker.Move s.tracker t)
    (h : job.Unshadowed s.tracker → job.Unshadowed t) : Rescopes job True s (s.tracking t) := by
  refine ⟨[⟨.scopes, t, s.cursor, s.pieces⟩], by simp, .single move, rfl, fun _ before => ?_⟩
  simp [h before]

/-- A frame is left. -/
theorem exit {kind : FrameKind} (left : s.tracker.exit (some kind) = .ok (frame, t)) :
    Rescopes job True s (s.tracking t) :=
  tracking (.exit left) fun h => h.exit left

/-- A loop is opened, and its item bound. -/
theorem enterLoop (s : Progress) (item array : String) :
    Rescopes job (s.tracker.isVisible item = false) s
      ((s.tracking (s.tracker.enter .loop (some item) (some array))).tracking
        ((s.tracker.enter .loop (some item) (some array)).bind item .loopItem)) := by
  refine ⟨[⟨.scopes, _, s.cursor, s.pieces⟩, ⟨.scopes, _, s.cursor, s.pieces⟩], by simp,
    .single (.enterLoop s.tracker item array), rfl, fun tracks before => ?_⟩
  have opened := before.enter .loop (some item) (some array)
  have bound := Job.Unshadowed.enterLoop_iff tracks item array
  simp [opened, bound, before]

end Rescopes

/-- A replayed marker leads to the scopes behind it, and keeps the scopes unshadowed if and only if
it opens no loop over a visible name. -/
theorem after_replay_rescopes (job : Job) (marker : Marker) (s : Progress) :
    After (replay marker) s
      (fun _ s' => s.tracker.behind marker = .ok s'.tracker ∧
        Rescopes job (s.tracker.fresh marker = true) s s')
      fun _ _ => True := by
  have leave (kind : FrameKind) : After (exitScope kind) s
      (fun _ s' => (s.tracker.exit (some kind)).map Prod.snd = .ok s'.tracker ∧
        Rescopes job (true = true) s s') fun _ _ => True :=
    after_exitScope (fun _ _ left => ⟨by rw [left]; rfl, (Rescopes.exit left).always⟩)
      fun _ _ => trivial
  unfold replay
  rw [after_bind, after_tracker]
  cases marker with
  | quoted => exact after_pure.mpr ⟨rfl, (Rescopes.of_same rfl rfl).always⟩
  | openCode =>
    dsimp only
    split
    · trivial
    · rename_i markup
      refine after_enterCode.mpr ⟨by rw [Tracker.behind, if_neg markup]; rfl, ?_⟩
      exact (Rescopes.tracking (.enterCode _) fun h => h.of_frames rfl).always
  | closeCode =>
    dsimp only
    split
    · rename_i code
      refine after_leaveCode (fun t left => ⟨?_, ?_⟩) fun _ _ => trivial
      · rw [Tracker.behind, if_pos code, left]
        rfl
      · exact (Rescopes.tracking (.leaveCode left) fun h => h.leaveCode left).always
    · trivial
  | loop array item =>
    refine after_bind.mpr (after_ofExcept (fun _ seen => ?_) fun _ _ => trivial)
    refine after_enterScope_some.mpr ⟨by rw [Tracker.behind, seen]; rfl, ?_⟩
    exact (Rescopes.enterLoop s item array).congr (by simp [Tracker.fresh])
  | endLoop => exact leave .loop
  | conditional =>
    refine after_enterScope_none.mpr ⟨rfl, ?_⟩
    exact (Rescopes.tracking (.enter _ (by decide)) fun h => h.enter ..).always
  | endConditional => exact leave .conditional

/-- The loops of a replayed text keep the scopes unshadowed if and only if they are fresh. -/
theorem after_replayAll_rescopes (job : Job) (parts : List Segment) (s : Progress) :
    After (replayAll parts) s
      (fun _ s' => Rescopes job (s.tracker.opensFresh parts = true) s s') fun _ _ => True := by
  induction parts generalizing s with
  | nil => exact after_pure.mpr (Rescopes.of_same rfl rfl).always
  | cons part rest ih =>
    unfold replayAll
    cases part with
    | text content =>
      rw [after_bind, after_inCode]
      split
      · rw [after_bind, after_moveCursor]
        have moved : Rescopes job True s (s.moving (s.cursor.feed content)) := .of_same rfl rfl
        refine (ih _).mono (fun _ s' others => (moved.trans others).congr ?_) fun _ _ h => h
        rw [true_and]
        rfl
      · exact ih s
    | marker marker =>
      rw [after_bind]
      have opened := after_replay_rescopes job marker s
      refine opened.mono ?_ fun _ _ h => h
      rintro _ s₁ ⟨behind, first⟩
      refine (ih s₁).mono (fun _ s' others => (first.trans others).congr ?_) fun _ _ h => h
      rw [Tracker.opensFresh, behind, Bool.and_eq_true]

/-- What a literal text adds to the journal. -/
theorem text_rescopes {content : String} (h : text content s = .ok () s') :
    Rescopes job (s.tracker.opensFresh (segments s.tracker.inCode content.toList) = true) s s' := by
  have run : After (text content) s
      (fun _ s' => Rescopes job
        (s.tracker.opensFresh (segments s.tracker.inCode content.toList) = true) s s')
      fun _ _ => True := by
    unfold text
    split
    · rename_i empty
      subst empty
      exact after_pure.mpr (Rescopes.of_same rfl rfl).always
    · have written : Rescopes job True s (s.writing (.text content)) := .of_same rfl rfl
      rw [after_bind, after_write, after_bind, after_inCode]
      refine (after_replayAll_rescopes job _ _).mono (fun _ s' others => ?_) fun _ _ h => h
      exact (written.trans others).congr (iff_of_eq (true_and _))
  exact run.of_ok h

/-! ### Steps -/

/-- What is added to the journal is unshadowed if and only if the loops in its literal texts are
fresh. -/
def Extends (job : Job) (s s' : Progress) : Prop :=
  ∃ new, Grows job (∀ m ∈ new, m.opensFresh = true) s new s'

namespace Extends

/-- What leaves the scopes and the journal as they are. -/
theorem of_same (tracker : s'.tracker = s.tracker) (journal : s'.journal = s.journal) :
    Extends job s s' :=
  ⟨[], (Grows.of_same tracker journal).congr (iff_of_true trivial (List.forall_mem_nil _))⟩

theorem trans (h : Extends job s s') (h' : Extends job s' s'') : Extends job s s'' := by
  obtain ⟨new, grows⟩ := h
  obtain ⟨new', grows'⟩ := h'
  refine ⟨new' ++ new, (grows.trans grows').congr ?_⟩
  rw [List.forall_mem_append, and_comm]

/-- Where only the scopes change, no literal text begins. -/
theorem of_rescopes (h : Rescopes job True s s') : Extends job s s' := by
  obtain ⟨new, scopes, grows⟩ := h
  refine ⟨new, grows.congr (iff_of_true trivial fun m hm => ?_)⟩
  rw [Moment.opensFresh, scopes m hm]

/-- A moment at which no literal text begins. -/
theorem noting {event : Event}
    (quiet : (⟨event, s.tracker, s.cursor, s.pieces⟩ : Moment).opensFresh = true) :
    Extends job s (s.noting event) := by
  refine ⟨[⟨event, s.tracker, s.cursor, s.pieces⟩], .refl, rfl, fun _ before => ?_⟩
  simp [quiet, before]

/-- A literal text begins and is replayed. -/
theorem text {event : Event} {content : String}
    (texts : ∀ k written, (⟨event, s.tracker, k, written⟩ : Moment).opensFresh =
      s.tracker.opensFresh (segments s.tracker.inCode content.toList))
    (h : Emit.text content (s.noting event) = .ok () s') : Extends job s s' := by
  have added : Rescopes job _ (s.noting event) s' := text_rescopes h
  obtain ⟨new, scopes, grows⟩ := added
  refine ⟨new ++ [⟨event, s.tracker, s.cursor, s.pieces⟩], grows.moves, ?_, fun tracks before => ?_⟩
  · rw [grows.journal, List.append_assoc]
    rfl
  · have quiet : ∀ m ∈ new, m.opensFresh = true := fun m hm => by
      rw [Moment.opensFresh, scopes m hm]
    have fresh : (∀ m ∈ new ++ [⟨event, s.tracker, s.cursor, s.pieces⟩], m.opensFresh = true) ↔
        s.tracker.opensFresh (segments s.tracker.inCode content.toList) = true := by
      rw [List.forall_mem_append, List.forall_mem_singleton, texts, and_iff_right quiet]
    obtain ⟨first, last⟩ := grows.unshadowed tracks before
    rw [fresh, List.forall_mem_append, List.forall_mem_singleton, and_iff_left before]
    exact ⟨first, last⟩

end Extends

/-- Only literal texts open loops over visible names. -/
theorem Step.extends (h : Step job P s s') : Extends job s s' := by
  cases h with
  | begins | hole => exact .noting rfl
  | @chunk _ content replayed =>
    exact @Extends.text _ _ _ (.chunk content) content (fun _ _ => rfl) replayed
  | constantText replayed => exact .text (fun _ _ => rfl) replayed
  | echo => exact (Extends.noting rfl).trans (.of_same rfl rfl)
  | openCondition =>
    have written : Extends job s (s.writing .ifStart) := .of_same rfl rfl
    exact written.trans (.of_rescopes (.tracking (.enterCode _) fun h => h.of_frames rfl))
  | closeCondition left =>
    have tested : Rescopes job True s _ := .tracking (.leaveCode left) fun h => h.leaveCode left
    exact (Extends.of_rescopes tested).trans (.of_same rfl rfl)
  | enter => exact .of_rescopes (.tracking (.enter _ (by decide)) fun h => h.enter ..)
  | leave _ left => exact .of_rescopes (.exit left)
  | _ => exact .of_same rfl rfl

/-- The item of a loop that is opened as a block is not visible. -/
theorem Opens.extends (h : Opens job P s s') : Extends job s s' := by
  cases h with
  | conditional => exact .of_rescopes (.tracking (.enter _ (by decide)) fun h => h.enter ..)
  | loop _ _ _ item_fresh =>
    exact .of_rescopes ((Rescopes.enterLoop s _ _).congr (iff_true_intro item_fresh))

theorem Act.extends (h : Act job P s s') : Extends job s s' := by
  cases h with
  | step step => exact step.extends
  | opens opened => exact opened.extends
  | closes closed =>
    obtain ⟨left, -⟩ := closed
    exact (Extends.of_rescopes (.exit left)).trans (.of_same rfl rfl)
  | enterTemplate => exact .of_rescopes (.tracking (.enter _ (by decide)) fun h => h.enter ..)
  | leaveTemplate left => exact .of_rescopes (.exit left)

theorem Steps.extends (h : Steps job P s s') : Extends job s s' := by
  induction h with
  | refl => exact .of_same rfl rfl
  | tail _ act ih => exact ih.trans act.extends

/-- **No name is shadowed** in a conversion that succeeds, that is, at every moment the open frames
bind different names and loops bind no parameters, if and only if every loop that a literal text
opens is over an item that is not visible where the loop begins. Loops that are written as
expressions shadow nothing, whatever is around them. -/
theorem unshadowed_iff_opensFresh (job : Job) (template : Template) (pieces : List Piece)
    (h : job.pieces template = .ok pieces) :
    job.Unshadowed job.start.tracker ∧
      ((∀ m ∈ (job.final template).journal, job.Unshadowed m.tracker) ↔
        ∀ m ∈ (job.final template).journal, m.opensFresh = true) := by
  have start := Job.Unshadowed.start job
  have known : Expr.AllIn (fun _ => True) template.holes := .of_forall (fun _ => trivial) _
  obtain ⟨new, grows⟩ := (Job.done_of_pieces known h).1.steps.extends
  have journal : (job.final template).journal = new := by
    rw [grows.journal]
    exact List.append_nil new
  rw [journal]
  exact ⟨start, (grows.unshadowed (.start job) start).1⟩

/-- The template `<?php foreach ( $items as $item ) : ?><b>${item.url}</b><?php endforeach; ?>`. -/
def literalLoopTemplate : Template where
  chunks := ["<?php foreach ( $items as $item ) : ?><b>", "</b><?php endforeach; ?>"]
  holes := [.member ⟨1, 0⟩ (.name ⟨1, 0⟩ "item") "url" false]

/-- A loop in literal text over a new name shadows nothing. -/
theorem unshadowed_literalLoop :
    ∃ pieces, listJob.pieces literalLoopTemplate = .ok pieces ∧
      ∀ m ∈ (listJob.final literalLoopTemplate).journal, listJob.Unshadowed m.tracker := by
  have ok : ∃ pieces, listJob.pieces literalLoopTemplate = .ok pieces :=
    exists_ok_of_isSome (by decide +kernel)
  have fresh : ∀ m ∈ (listJob.final literalLoopTemplate).journal, m.opensFresh = true := by
    decide +kernel
  obtain ⟨pieces, h⟩ := ok
  obtain ⟨-, unshadowed⟩ := unshadowed_iff_opensFresh listJob literalLoopTemplate pieces h
  exact ⟨pieces, h, unshadowed.mpr fresh⟩

/-- The template `<?php foreach ( $items as $title ) : ?>x<?php endforeach; ?>`, whose loop is over
items that are called like a parameter. -/
def shadowTemplate : Template where
  chunks := ["<?php foreach ( $items as $title ) : ?>x<?php endforeach; ?>"]
  holes := []

/-- A loop in literal text may shadow a parameter, and the conversion succeeds. -/
theorem not_unshadowed_literalLoop :
    (listJob.pieces shadowTemplate).toOption.isSome = true ∧
    ∃ m ∈ (listJob.final shadowTemplate).journal, ¬ listJob.Unshadowed m.tracker := by
  have parameter : "title" ∈ listJob.declaration.parameterNames := by decide +kernel
  have bound : ∃ m ∈ (listJob.final shadowTemplate).journal, ∃ frame ∈ m.tracker.frames,
      frame.kind = .loop ∧ frame.binds "title" = true := by
    decide +kernel
  obtain ⟨m, hm, frame, hframe, loop, binds⟩ := bound
  refine ⟨by decide +kernel, m, hm, fun unshadowed => ?_⟩
  exact unshadowed.noParameter frame hframe loop "title" binds parameter

end ServerTemplate
