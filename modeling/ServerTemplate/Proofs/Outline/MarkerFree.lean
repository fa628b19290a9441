import Mathlib.Data.List.Infix
import ServerTemplate.Proofs.Emission.After
import ServerTemplate.Proofs.Marker.Words
import ServerTemplate.Proofs.Outline.Outline

/-!
# Texts without markers

A text in which neither `<?` nor `?>` stands has no markers in markup: it is one segment, and to
replay it is to move the cursor. `Template.MarkerFree` says this of all texts that a template can
write as markup: its own, those of the templates in it that are rendered, and its constants.
-/

namespace ServerTemplate

/-- Whether a text opens or closes no region of code, wherever it is cut. -/
def MarkerFree (cs : List Char) : Prop := ¬ ['<', '?'] <:+: cs ∧ ¬ ['?', '>'] <:+: cs

instance (cs : List Char) : Decidable (MarkerFree cs) := by
  unfold MarkerFree
  infer_instance

/-- Whether no text that a template writes as markup has a marker. -/
def Template.MarkerFree (template : Template) (tag : String) : Prop :=
  ∀ content, .text content ∈ template.skeleton tag → ServerTemplate.MarkerFree content.toList

/-- Whether a piece is no text with a marker. -/
def Piece.isMarkerFree : Piece → Bool
  | text content => decide (MarkerFree content.toList)
  | _ => true

instance (template : Template) (tag : String) : Decidable (template.MarkerFree tag) :=
  decidable_of_iff ((template.skeleton tag).all Piece.isMarkerFree = true) <| by
    rw [List.all_eq_true]
    refine ⟨fun h content hc => of_decide_eq_true (h _ hc), fun h piece hp => ?_⟩
    cases piece with
    | text content => exact decide_eq_true (h content hp)
    | _ => rfl

namespace MarkerFree

theorem tail {c : Char} {cs : List Char} (h : MarkerFree (c :: cs)) : MarkerFree cs :=
  ⟨fun h' => h.1 (h'.trans (List.suffix_cons c cs).isInfix),
    fun h' => h.2 (h'.trans (List.suffix_cons c cs).isInfix)⟩

/-- No region is opened or closed at the beginning. -/
theorem region?_eq_none {cs : List Char} (h : MarkerFree cs) : Marker.region? cs = none := by
  have opens : Marker.after? "<?php".toList cs = none := by
    refine Option.eq_none_iff_forall_ne_some.mpr fun rest hrest => h.1 ?_
    rw [Marker.after?_eq_some.mp hrest]
    exact ⟨[], ['p', 'h', 'p'] ++ rest, rfl⟩
  have closes : Marker.after? "?>".toList cs = none := by
    refine Option.eq_none_iff_forall_ne_some.mpr fun rest hrest => h.2 ?_
    rw [Marker.after?_eq_some.mp hrest]
    exact ⟨[], rest, rfl⟩
  rw [Marker.region?, opens, closes]
  rfl

/-- The text is one segment. -/
theorem segmentsFrom_eq {cs : List Char} (h : MarkerFree cs) (before : Option Char) :
    segmentsFrom false before 0 cs = if cs = [] then [] else [.text cs] := by
  induction cs generalizing before with
  | nil => rfl
  | cons c rest ih =>
    have none : Marker.at? false before (c :: rest) = none := h.region?_eq_none
    rw [segmentsFrom, none, ih h.tail]
    cases rest <;> rfl

end MarkerFree

namespace Emit

/-- In markup the texts between markers move the cursor. -/
theorem replayAll_text {cs : List Char} {rest : List Segment} {s : Progress}
    (markup : s.tracker.inCode = false) :
    replayAll (.text cs :: rest) s = replayAll rest (s.moving (s.cursor.feed cs)) := by
  change (if !s.tracker.inCode then (do moveCursor (·.feed cs); replayAll rest)
    else replayAll rest : Emit Unit) s = _
  rw [markup]
  rfl

/-- In markup, a text without markers moves the cursor and nothing else. -/
theorem text_of_markerFree {content : String} (h : MarkerFree content.toList) {s : Progress}
    (markup : s.tracker.inCode = false) :
    text content s = .ok () ((s.texting content).moving (s.cursor.feed content.toList)) := by
  unfold text Progress.texting
  split
  · rename_i hempty
    subst hempty
    rfl
  · rename_i hne
    have hcs : content.toList ≠ [] := fun hnil => hne (String.toList_eq_nil_iff.mp hnil)
    change replayAll (segments s.tracker.inCode content.toList) (s.writing (.text content)) = _
    rw [markup, segments, h.segmentsFrom_eq, if_neg hcs]
    exact replayAll_text markup

end Emit

end ServerTemplate
