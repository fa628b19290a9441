import ServerTemplate.Proofs.Literal.Rendering
import ServerTemplate.Proofs.Outline.Agreement
import ServerTemplate.Proofs.Outline.Uniform

/-!
# What parts of templates write

`Part.Puts` says of a part of a template what `Emit.Puts` says of a part of a conversion, under all
labels. A part without markers puts the rendering that the reference translation gives
(`Job.puts_rendering`), and the rendering of a whole template is its conversion
(`Part.Puts.convert`).
-/

namespace ServerTemplate

open Emit

variable {job : Job} {loops : Loops} {t t₁ t₂ t' : Tracker} {r r' : Rendering}
  {f : Cursor → Option Cursor}

/-- The segments of a text of the template, begun in scopes. -/
def Tracker.segments (t : Tracker) (content : String) : List Segment :=
  ServerTemplate.segments t.inCode content.toList

namespace Emit

/-- A text is written and replayed. -/
theorem text_eq (content : String) (s : Progress) :
    text content s = replayAll (s.tracker.segments content) (s.texting content) := by
  unfold text Progress.texting
  split
  · rename_i hempty
    subst hempty
    rfl
  · rfl

theorem Puts.chunk {content : String} (h : Replays t t' (t.segments content) f) :
    Puts t t' (chunk content) (.moved content f) := by
  intro s hs
  have replayed := h ((s.noting (.chunk content)).texting content) (by simp [hs])
  have cursor : ((s.noting (.chunk content)).texting content).cursor = s.cursor := by
    unfold Progress.texting
    split <;> rfl
  rw [cursor] at replayed
  unfold Emit.chunk
  rw [after_bind, after_note, After, text_eq, Progress.noting_tracker, hs]
  refine After.mono replayed (fun _ s' h => ?_) fun _ _ hf => ?_
  · obtain ⟨htracker, hf, hpieces⟩ := h
    refine ⟨htracker, content, ?_, ?_⟩
    · rw [Rendering.moved, hf]
      rfl
    · rw [Progress.written, hpieces]
      exact (s.noting (.chunk content)).written_texting content
  · rw [Rendering.moved, hf]
    rfl

end Emit

/-! ### Parts -/

/-- Between the scopes `t` and `t'` a part of a template writes what a rendering gives, or fails
where that gives nothing, and its first text may be cut off. -/
def Part.Puts (job : Job) (t t' : Tracker) (p : Part) (r : Rendering) : Prop :=
  ∃ t₁ f rest, Replays t t₁ (t.segments p.first) f ∧
    (∀ front index, Emit.Puts t₁ t' (p.lowerRest job front index) rest) ∧
    r = (Rendering.moved p.first f).andThen rest

namespace Part.Puts

variable {p q : Part}

theorem lower (h : p.Puts job t t' r) (front : String) (index : Nat) :
    Emit.Puts t t' (p.lower job front index) r := by
  obtain ⟨_, _, _, first, rest, rfl⟩ := h
  exact (Emit.Puts.chunk first).bind (rest front index)

theorem text {content : String} (h : Replays t t' (t.segments content) f) :
    (Part.text content).Puts job t t' (.moved content f) := by
  refine ⟨t', f, fun k => some ("", k), h, fun _ _ s hs => ?_, ?_⟩
  · exact ⟨hs, "", rfl, (String.append_empty).symm⟩
  · funext k
    rw [Rendering.moved_andThen, Rendering.moved]
    cases f k with
    | none => rfl
    | some k' => exact congrArg (fun a => some (a, k')) String.append_empty.symm

theorem hole {content : String} {e : Expr} (h : Replays t t₁ (t.segments content) f)
    (hhole : ∀ label, Emit.Puts t₁ t₂ (Emit.hole e label (ServerTemplate.lower job .value label e))
      r)
    (hrest : p.Puts job t₂ t' r') :
    (Part.hole content e p).Puts job t t' ((Rendering.moved content f).andThen (r.andThen r')) :=
  ⟨t₁, f, r.andThen r', h, fun front index => (hhole _).bind (hrest.lower front (index + 1)), rfl⟩

/-- A text in front of a part, where the scanner cuts between the two. -/
theorem prepend {content : String} (h : Replays t t₁ (t.segments content) f)
    (hp : p.Puts job t₁ t' r)
    (cut : t.segments (content ++ p.first) = t.segments content ++ t₁.segments p.first) :
    (Part.text content ++ p).Puts job t t' ((Rendering.moved content f).andThen r) := by
  obtain ⟨t₂, g, rest, first, hrest, rfl⟩ := hp
  refine ⟨t₂, fun k => (f k).bind g, rest, ?_, fun front index => ?_, ?_⟩
  · rw [Part.text_append, Part.first_prepend, cut]
    exact h.append first
  · rw [Part.text_append, Part.lowerRest_prepend]
    exact hrest front index
  · rw [Part.text_append, Part.first_prepend, ← Rendering.andThen_assoc]
    congr 1
    funext k
    rw [Rendering.moved_andThen]
    change _ = ((f k).bind g).map fun k' => (content ++ p.first, k')
    cases f k with
    | none => rfl
    | some k₁ => exact Option.map_map _ _ (g k₁)

end Part.Puts

/-! ### Parts without markers -/

/-- What an expression in a hole is written as, and the cursor behind it. -/
def Job.holeRendering (job : Job) (loops : Loops) (e : Expr) : Rendering :=
  fun k => (Outline.written? (job.outlineOf loops false "" k e)).map fun r =>
    (r.1, r.2.interpolated)

/-- What a part of a template is written as by the reference translation. -/
def Job.rendering (job : Job) (loops : Loops) : Part → Rendering
  | .text content => .text content
  | .hole content e rest =>
    (Rendering.text content).andThen
      ((job.holeRendering loops e).andThen (job.rendering loops rest))

/-- How a translation is written does not depend on labels. -/
theorem Job.written?_outlineOf (job : Job) (loops : Loops) (rendered : Bool) (label label' : String)
    (k : Cursor) (e : Expr) : Outline.written? (job.outlineOf loops rendered label k e) =
      Outline.written? (job.outlineOf loops rendered label' k e) := by
  have same := (job.matching_outlineOf Cursor.lasting_eq).1 loops rendered label k e label' k rfl
  have same := same.mono fun _ _ h => Prod.ext h.1 h.2
  exact congrArg (Option.map _) same.toOption_eq

/-- A text, a value in a hole and the rest are written one behind the other. -/
theorem Outline.written?_seq (content : String) (x : Except Diagnostic (Outline × Cursor))
    (rest : Cursor → Except Diagnostic (Outline × Cursor)) :
    written? (do
        let (inner, k₁) ← x
        let (outline, k₂) ← rest k₁.interpolated
        return (.seq (.text content) (.seq (.hole inner) outline), k₂)) =
      (written? x).bind fun a => (written? (rest a.2.interpolated)).map fun b =>
        (content ++ (a.1 ++ b.1), b.2) := by
  cases x with
  | error d => rfl
  | ok a =>
    dsimp only [bind, Except.bind, written?, Except.toOption, Option.map_some, Option.bind_some]
    cases rest a.2.interpolated <;> rfl

/-- The rendering of a part is what its reference translation is written as. -/
theorem Job.written?_partsOf (job : Job) (loops : Loops) (front : String) (index : Nat) (k : Cursor)
    (p : Part) : Outline.written? (job.partsOf loops front index k p.holes p.texts) =
      job.rendering loops p k := by
  induction p generalizing index k with
  | text content =>
    rw [Part.holes, Part.texts, partsOf]
    exact congrArg (fun written => some (written, k.feed content.toList)) String.append_empty
  | hole content e rest ih =>
    have seq := Outline.written?_seq content
      (job.outlineOf loops false (holeLabel front index) (k.feed content.toList) e)
      fun k₁ => job.partsOf loops front (index + 1) k₁ rest.holes rest.texts
    rw [Part.holes, Part.texts, partsOf, rendering, Rendering.text_andThen, Rendering.andThen,
      holeRendering, job.written?_outlineOf loops false "" (holeLabel front index)]
    refine seq.trans ?_
    cases Outline.written? (job.outlineOf loops false (holeLabel front index)
        (k.feed content.toList) e) with
    | none => rfl
    | some a =>
      dsimp only [Option.bind_some, Option.map_some]
      rw [ih, Option.map_map]
      rfl

/-- A part is written the same from cursors at the same place. -/
theorem Job.agree_rendering (loops : Loops) {k k' : Cursor} (alike : k.Alike k') (p : Part) :
    Rendering.Agree (job.rendering loops p k) (job.rendering loops p k') := by
  have same := (job.matching_outlineOf Cursor.lasting_alike).2 loops "" 0 k p.holes p.texts "" 0 k'
    alike
  rw [← job.written?_partsOf loops "" 0 k, ← job.written?_partsOf loops "" 0 k']
  generalize job.partsOf loops "" 0 k p.holes p.texts = x at same ⊢
  generalize job.partsOf loops "" 0 k' p.holes p.texts = y at same ⊢
  cases same with
  | ok related => exact .some ⟨congrArg Outline.written related.1, related.2⟩
  | error d d' => exact .none

namespace Part

variable {tag content : String} {e : Expr} {rest : Part}

theorem markerFree_text (free : (text content).template.MarkerFree tag) :
    MarkerFree content.toList := by
  have free : Piece.TextsMarkerFree (Expr.skeletonOfParts tag [] [content]) := free
  rw [Expr.skeletonOfParts, List.flatMap_cons, List.flatMap_nil, List.append_nil] at free
  exact free.of_ofText fun _ h => h

theorem markerFree_hole (free : (hole content e rest).template.MarkerFree tag) :
    MarkerFree content.toList ∧ Piece.TextsMarkerFree (e.skeleton tag false) ∧
      rest.template.MarkerFree tag := by
  have free : Piece.TextsMarkerFree (Expr.skeletonOfParts tag (e :: rest.holes)
    (content :: rest.texts)) := free
  rw [Expr.skeletonOfParts] at free
  refine ⟨free.of_ofText fun c hc => ?_, fun c hc => free c ?_, fun c hc => free c ?_⟩
  · exact List.mem_append_left _ (List.mem_append_left _ hc)
  · exact List.mem_append_left _ (List.mem_append_right _ hc)
  · exact List.mem_append_right _ hc

end Part

/-- A text without markers moves the cursor in markup. -/
theorem Emit.Replays.markerFree {content : String} (markup : t.inCode = false)
    (free : MarkerFree content.toList) :
    Replays t t (t.segments content) fun k => some (k.feed content.toList) := by
  rw [Tracker.segments, markup, segments, free.segmentsFrom_eq]
  split
  · rename_i hempty
    rw [hempty]
    exact .nil t
  · exact .text markup _

/-- An expression in a hole puts what the reference translation gives. -/
theorem Job.puts_hole {e : Expr} (h : job.Represents loops t) (markup : t.inCode = false)
    (free : Piece.TextsMarkerFree (e.skeleton job.tag false)) (label : String) :
    Emit.Puts t t (Emit.hole e label (lower job .value label e)) (job.holeRendering loops e) := by
  have put := Emit.Puts.of_renders (t := t) (x := Emit.hole e label (lower job .value label e))
    (r := fun k => do
      let (o, k') ← job.outlineOf loops false label k e
      return (.hole o, k'.interpolated)) fun s hs => by
    subst hs
    refine AgreesOnParts.renders_hole markup ?_
    exact (agrees job).1 loops false label s.cursor e free .value _ (by decide) rfl ⟨h, markup, rfl⟩
  convert put using 2 with k
  rw [holeRendering, job.written?_outlineOf loops false "" label]
  cases job.outlineOf loops false label k e <;> rfl

/-- A part without markers puts its rendering and leaves the scopes as they are. -/
theorem Job.puts_rendering {p : Part} (h : job.Represents loops t) (markup : t.inCode = false)
    (free : p.template.MarkerFree job.tag) : p.Puts job t t (job.rendering loops p) := by
  induction p with
  | text content => exact .text (.markerFree markup (Part.markerFree_text free))
  | hole content e rest ih =>
    obtain ⟨free_text, free_hole, free_rest⟩ := Part.markerFree_hole free
    exact .hole (.markerFree markup free_text) (job.puts_hole h markup free_hole) (ih free_rest)

/-- A part without markers in front of another, where the scanner cuts between them. -/
theorem Part.Puts.behind {p q : Part} (h : job.Represents loops t) (markup : t.inCode = false)
    (free : p.template.MarkerFree job.tag) (hq : q.Puts job t t' r)
    (cut : ∀ content : String, MarkerFree content.toList →
      t.segments (content ++ q.first) = t.segments content ++ t.segments q.first) :
    (p ++ q).Puts job t t' ((job.rendering loops p).andThen r) := by
  induction p with
  | text content =>
    have free := Part.markerFree_text free
    exact .prepend (.markerFree markup free) hq (cut content free)
  | hole content e rest ih =>
    obtain ⟨free_text, free_hole, free_rest⟩ := Part.markerFree_hole free
    rw [Part.hole_append, Job.rendering, Rendering.andThen_assoc, Rendering.andThen_assoc]
    exact .hole (.markerFree markup free_text) (job.puts_hole h markup free_hole) (ih free_rest)

/-! ### Whole templates -/

/-- The scopes of a conversion inside the frame of the template. -/
def Job.inner (job : Job) : Tracker := job.start.tracker.enter .template

theorem Job.represents_inner (job : Job) : job.Represents [] job.inner :=
  (Job.Represents.start job).enter (by decide)

/-- The output of a template is its rendering from the start of the markup on. -/
theorem Part.Puts.convert {p : Part} (h : p.Puts job job.inner job.inner r) :
    (job.convert p.template).toOption = (r {}).map Prod.fst := by
  have run : After (lowerTemplate job p.template) job.start
      (fun _ s => ∃ a k, r {} = some (a, k) ∧ s.written = a) fun _ _ => r {} = none := by
    unfold lowerTemplate
    rw [after_bind, after_enterScope_none, after_bind]
    change After (lowerParts job "" 0 p.holes p.texts) _ _ _
    rw [p.lowerParts_eq]
    refine (h.lower "" 0 (job.start.tracking job.inner) rfl).mono
      (fun _ s ⟨hs, a, hr, ha⟩ => ?_) fun _ _ hr => hr
    obtain ⟨frame, left⟩ := Tracker.exit_enter (Job.Represents.start job).sound.nonempty .template
    -- the frame of the template is left and nothing else is open
    rw [after_bind]
    refine after_exitScope (fun _ t ht => ?_) fun d hd => ?_
    · rw [hs] at ht
      obtain ⟨-, rfl⟩ := Prod.mk.inj (Except.ok.inj (left.symm.trans ht))
      exact ⟨a, s.cursor, hr, ha⟩
    · rw [hs] at hd
      cases left.symm.trans hd
  unfold Job.convert Job.pieces
  unfold After at run
  split <;> rename_i result <;> rw [result] at run
  · obtain ⟨a, k, hr, ha⟩ := run
    rw [hr, ← ha]
    rfl
  · rw [run]
    rfl

/-- Behind a part with which a template begins, its rendering is written and the cursor stands where
that ends. -/
theorem Part.Puts.written_behind {p : Part} (h : p.Puts job job.inner t' r) :
    (job.behind p).map (fun s => (s.written, s.cursor)) = r {} := by
  have run : After (do Emit.enterScope .template; p.lower job "" 0) job.start
      (fun _ s => r {} = some (s.written, s.cursor)) fun _ _ => r {} = none := by
    rw [after_bind, after_enterScope_none]
    refine (h.lower "" 0 (job.start.tracking job.inner) rfl).mono (fun _ s ⟨_, a, hr, ha⟩ => ?_)
      fun _ _ hr => hr
    have same : s.written = a := ha
    exact same ▸ hr
  unfold Job.behind
  unfold After at run
  split <;> rename_i result <;> rw [result] at run
  · exact run.symm
  · exact run.symm

theorem Part.Puts.cursor_behind {p : Part} (h : p.Puts job job.inner t' r) :
    (job.behind p).map Progress.cursor = (r {}).map Prod.snd := by
  rw [← h.written_behind, Option.map_map]
  rfl

end ServerTemplate
