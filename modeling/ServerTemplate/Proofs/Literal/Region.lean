import ServerTemplate.Proofs.Literal.Puts
import ServerTemplate.Proofs.Literal.Scan

/-!
# Literal regions of code

A region of code in the text of a template is written as it stands, and its markers are replayed.
The scanner cuts in front of it and behind it (`Part.Puts.region`, `Part.Puts.beforeRegion`), so
what a region does to the scopes can be said by itself.
-/

namespace ServerTemplate

open Emit

variable {job : Job} {loops : Loops} {t t₁ t' : Tracker} {r : Rendering}
  {f : Cursor → Option Cursor} {p q : Part} {content : String} {xs : List Segment}

/-- A region in front of a part. The region begins and ends in markup. -/
theorem Part.Puts.region
    (scan : ∀ rest, segments false (content.toList ++ rest) = xs ++ segments false rest)
    (markup : t.inCode = false) (markup₁ : t₁.inCode = false) (h : Replays t t₁ xs f)
    (hq : q.Puts job t₁ t' r) :
    (Part.text content ++ q).Puts job t t' ((Rendering.moved content f).andThen r) := by
  have alone : t.segments content = xs := by
    have scan := scan []
    rw [List.append_nil] at scan
    rw [Tracker.segments, markup, scan]
    exact List.append_nil xs
  refine .prepend (alone ▸ h) hq ?_
  rw [alone, Tracker.segments, Tracker.segments, markup, markup₁, String.toList_append, scan]

/-- A part without markers in front of a part that begins with a region. -/
theorem Part.Puts.beforeRegion {rest : List Char} (h : job.Represents loops t)
    (markup : t.inCode = false) (free : p.template.MarkerFree job.tag) (hq : q.Puts job t t' r)
    (opens : q.first.toList = "<?php".toList ++ rest) :
    (p ++ q).Puts job t t' ((job.rendering loops p).andThen r) := by
  refine .behind h markup free hq fun content free => ?_
  rw [Tracker.segments, Tracker.segments, Tracker.segments, markup, String.toList_append, opens]
  exact free.segments_append rest

/-- A part without markers in front of a part that begins with a hole. -/
theorem Part.Puts.beforeHole (h : job.Represents loops t) (markup : t.inCode = false)
    (free : p.template.MarkerFree job.tag) (hq : q.Puts job t t' r) (opens : q.first = "") :
    (p ++ q).Puts job t t' ((job.rendering loops p).andThen r) := by
  refine .behind h markup free hq fun content free => ?_
  have none : t.segments "" = [] := by cases hcode : t.inCode <;> rfl
  rw [opens, none, String.append_empty, List.append_nil]

/-- Regions are not asked for when a name is looked up. -/
theorem Job.Represents.withRegions (h : job.Represents loops t) (regions : List Region) :
    job.Represents loops { t with regions } :=
  ⟨h.component, h.parameters, ⟨h.sound.nonempty, h.sound.frames⟩, h.loops⟩

/-- A part without markers in front of a hole that writes something in markup. -/
theorem Part.Puts.aroundHole {e : Expr} {r' : Rendering} (h : job.Represents loops t)
    (markup : t.inCode = false) (free : p.template.MarkerFree job.tag)
    (free_hole : Piece.TextsMarkerFree (e.skeleton job.tag false)) (hq : q.Puts job t t' r') :
    (p ++ Part.hole "" e q).Puts job t t'
      ((job.rendering loops p).andThen ((job.holeRendering loops e).andThen r')) := by
  have nothing : t.segments "" = [] := by cases hcode : t.inCode <;> rfl
  have hole : (Part.hole "" e q).Puts job t t'
      ((Rendering.moved "" some).andThen ((job.holeRendering loops e).andThen r')) :=
    .hole (nothing ▸ Replays.nil t) (job.puts_hole h markup free_hole) hq
  have none : (Rendering.moved "" some).andThen ((job.holeRendering loops e).andThen r') =
      (job.holeRendering loops e).andThen r' := by
    funext k
    rw [Rendering.moved_andThen, Option.bind_some]
    simp only [String.empty_append]
    exact Option.map_id_apply
  rw [none] at hole
  exact .beforeHole h markup free hole rfl

/-! ### Regions without markers -/

/-- A region in which nothing but text stands leaves the scopes as they are. -/
theorem Emit.Replays.codeRegion (markup : t.inCode = false) (code : List Char) :
    Replays t t [.marker .openCode, .text code, .marker .closeCode] some := by
  have body : Replays t.enterCode t.enterCode [.text code] some := .code rfl code
  have all := ((Replays.openCode markup).append body).append (.closeCode rfl rfl)
  exact all

/-- A region with one marker between two texts does what the marker does. -/
theorem Emit.Replays.markerRegion {marker : Marker} {before after : List Char}
    (markup : t.inCode = false) (h : Replays t.enterCode t₁ [.marker marker] f)
    (code : t₁.inCode = true) (left : t₁.leaveCode = .ok t') :
    Replays t t' [.marker .openCode, .text before, .marker marker, .text after,
      .marker .closeCode] f := by
  have opened : Replays t t.enterCode [.marker .openCode, .text before] some :=
    (Replays.openCode markup).append (.code rfl before)
  have closed : Replays t₁ t' [.text after, .marker .closeCode] some :=
    (Replays.code code after).append (.closeCode code left)
  have all := (opened.append h).append closed
  have same : (fun k => ((some k).bind f).bind some) = f := by
    funext k
    rw [Option.bind_some, Option.bind_fun_some]
  exact same ▸ all

/-! ### Loops -/

/-- The scopes in the body of a literal loop. The frame has been opened in code, and the code has
been left. -/
def Tracker.inLoop (t : Tracker) (array item : String) : Tracker :=
  { t with frames := ⟨.loop, [(item, .loopItem)], some (t.frames.length - 1), some item, some array,
      t.regions.length + 1⟩ :: t.frames }

section Loop

variable {array item : String}

theorem Tracker.enterLoop_enterCode (nonempty : t.frames ≠ []) :
    (t.enterCode.enter .loop (some item) (some array)).bind item .loopItem =
      (t.inLoop array item).enterCode := by
  obtain ⟨frame, outer, hframes⟩ := List.exists_cons_of_ne_nil nonempty
  simp [Tracker.enterCode, Tracker.enter, Tracker.bind, Tracker.inLoop, hframes, Frame.bind,
    Frame.binds]

theorem Job.Represents.inLoop (h : job.Represents loops t) :
    job.Represents ((item, array) :: loops) (t.inLoop array item) := by
  have inner := h.enterCode.enterLoop item array
  rw [Tracker.enterLoop_enterCode h.sound.nonempty] at inner
  exact inner.withRegions t.regions

theorem Tracker.exit_inLoop (nonempty : t.frames ≠ []) (array item : String) :
    ∃ frame, (t.inLoop array item).enterCode.exit (some .loop) = .ok (frame, t.enterCode) := by
  have left := exit_of_frames (t := t.enterCode) (t.inLoop array item).enterCode nonempty rfl rfl
    rfl
  exact ⟨_, left⟩

/-- The head of a literal loop opens the loop, if the array is visible. -/
theorem Part.Puts.loopStart (harray : WordName array) (hitem : WordName item)
    (nonempty : t.frames ≠ []) (markup : t.inCode = false)
    (hq : q.Puts job (t.inLoop array item) t' r) :
    (Part.text (Piece.loopStart array item).written ++ q).Puts job t t'
      ((Rendering.moved (Piece.loopStart array item).written
        fun k => if t.isVisible array then some k else none).andThen r) := by
  have markup₁ : (t.inLoop array item).inCode = false := markup
  refine .region (segments_loopStart harray hitem) markup markup₁ ?_ hq
  have opened := Replays.loop t.enterCode array item
  rw [Tracker.enterLoop_enterCode nonempty] at opened
  exact .markerRegion markup opened rfl rfl

/-- The end of a literal loop leads back to the scopes around the loop. -/
theorem Part.Puts.loopEnd (nonempty : t.frames ≠ []) (markup : t.inCode = false)
    (hq : q.Puts job t t' r) :
    (Part.text Piece.loopEnd.written ++ q).Puts job (t.inLoop array item) t'
      ((Rendering.code Piece.loopEnd.written).andThen r) := by
  obtain ⟨frame, left⟩ := Tracker.exit_inLoop nonempty array item
  exact .region segments_loopEnd markup markup (.markerRegion markup (.endLoop left) rfl rfl) hq

end Loop

end ServerTemplate
