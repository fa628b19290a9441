import ServerTemplate.Proofs.Literal.Conditional
import ServerTemplate.Proofs.Marker.Seam

/-!
# Constants as text

A string constant in a hole is written as if it stood in the text of the template, and its markers
count. It is read by itself, though: no marker and no string goes on from one text into the next,
and the cursor does not look past the end of a text. Where the texts have no seams between them, a
template with a constant has the output of the template with the constant's text in its place
(`convert_constantText`).
-/

namespace ServerTemplate

open Emit

variable {job : Job} {s : Progress} {content label spelling : String} {place : Text.Place}

/-- Whether a value at a place, with some segments behind it, leaves the cursor where it would be
without the value. Only where an attribute waits for its value does it matter; there the segments
must begin with a value without quotes. -/
def Cursor.Settled (k : Cursor) (xs : List Segment) : Prop :=
  k.state = .beforeValue → ∃ (c : Char) (content : List Char) (rest : List Segment),
    xs = .text (c :: content) :: rest ∧ Text.isBlank c = false ∧ isQuote c = false

/-- Behind the first character of a value without quotes, it makes no difference that a value stands
in front of it. -/
theorem Cursor.Settled.walk_interpolated {k : Cursor} {xs : List Segment} (h : k.Settled xs) :
    (Segment.walk k.interpolated xs).Alike (Segment.walk k xs) := by
  by_cases waits : k.state = .beforeValue
  · obtain ⟨c, content, rest, rfl, blank, quote⟩ := h waits
    obtain ⟨state, attr, mark, tag⟩ := k
    cases waits
    refine Segment.walk_alike ?_ rest
    -- both cursors have read the first character of the value, or the end of the tag
    have first : ((Cursor.mk .beforeValue attr mark tag).interpolated.advance c content).1.Alike
        ((Cursor.mk .beforeValue attr mark tag).advance c content).1 ∧
        ((Cursor.mk .beforeValue attr mark tag).interpolated.advance c content).2 = 0 ∧
        ((Cursor.mk .beforeValue attr mark tag).advance c content).2 = 0 := by
      have quote : (c == '\x22' || c == '\x27') = false := quote
      simp only [Cursor.interpolated, Cursor.advance, quote, blank]
      cases c == '>' with
      | true => exact ⟨Cursor.live_closeTag rfl, rfl, rfl⟩
      | false => exact ⟨.refl _, rfl, rfl⟩
    rw [Cursor.feed_cons, Cursor.feed_cons, first.2.1, first.2.2]
    exact first.1.feed content
  · have stays : k.interpolated = k := by
      unfold Cursor.interpolated
      split
      · exact (waits ‹_›).elim
      · rfl
    rw [stays]
    exact .refl _

/-- A constant in a hole in markup is written like a text, and counts as a value. -/
theorem comesTo_constantHole (job : Job) (content : String) (flat : s.tracker.Flat)
    (markup : s.tracker.inCode = false) :
    ComesTo s
      (hole (.constant place (.text content) spelling) label
        (lower job .value label (.constant place (.text content) spelling)))
      ((s.tracker.over? s.cursor content).map fun r => (r.1, r.2.interpolated)) content := by
  have lowered : lower job .value label (.constant place (.text content) spelling) = (do
      Emit.constant job (.constant place (.text content) spelling) (.text content) spelling label
        (← begin .value (.constant place (.text content) spelling) label)) := by
    rw [lower]
    all_goals
      intro _ h
      cases h
  unfold ComesTo hole
  rw [after_bind, after_inCode, after_bind, after_note, after_bind, lowered, after_bind,
    after_begin, Progress.noting_tracker, markup]
  -- the text is written behind two steps for the journal, which change nothing else
  have text := comesTo_constantText
    (s := (s.noting (.hole (.constant place (.text content) spelling) label)).noting
      (.expression (.constant place (.text content) spelling) label s.tracker.inCode)) content flat
  rw [markup] at text
  have text : After _ _ _ _ := text
  refine text.mono (fun _ s' done => ?_) fun _ _ failed => ?_
  · obtain ⟨crossed, written⟩ := done
    refine after_moveCursor.mpr ⟨?_, written⟩
    exact congrArg (Option.map fun r : Tracker × Cursor => (r.1, r.2.interpolated)) crossed
  · exact congrArg (Option.map fun r : Tracker × Cursor => (r.1, r.2.interpolated)) failed

/-! ### A constant between two texts -/

section Between

variable {b c : String}

/-- Two texts with a constant between them, of which the first ends in markup. -/
theorem comesTo_around (job : Job) (a b c label spelling : String) (place : Text.Place)
    (flat : s.tracker.Flat)
    (markup : codeAfter s.tracker.inCode a.toList = false) :
    ComesTo s (do
        chunk a
        hole (.constant place (.text b) spelling) label
          (lower job .value label (.constant place (.text b) spelling))
        chunk c)
      ((s.tracker.over? s.cursor a).bind fun r =>
        ((r.1.over? r.2 b).map fun r' => (r'.1, r'.2.interpolated)).bind fun r' =>
          r'.1.over? r'.2 c) (a ++ (b ++ c)) := by
  refine (comesTo_chunk a flat).bind fun s₁ h₁ => ?_
  obtain ⟨flat₁, region₁⟩ := flat.over? h₁
  refine (comesTo_constantHole job b flat₁ (region₁.trans markup)).bind fun s₂ h₂ => ?_
  obtain ⟨⟨_, _⟩, hr, same⟩ := Option.map_eq_some_iff.mp h₂
  obtain ⟨flat₂, -⟩ := flat₁.over? hr
  exact comesTo_chunk c ((Prod.mk.inj same).1 ▸ flat₂)

/-- Three texts without seams between them do together what they do one after the other. -/
theorem Tracker.over?_append_append {t : Tracker} {k : Cursor} {a : String} (flat : t.Flat)
    (front : Seam t.inCode k a.toList (b ++ c).toList)
    (back : Seam (codeAfter t.inCode a.toList) (Segment.walk k (heeded t.inCode a.toList)) b.toList
      c.toList) :
    t.over? k (a ++ (b ++ c)) = (t.over? k a).bind fun r => (r.1.over? r.2 b).bind fun r' =>
      r'.1.over? r'.2 c := by
  rw [over?_append flat front]
  refine Option.bind_congr fun (t', k') hr => ?_
  obtain ⟨flat', region⟩ := flat.over? hr
  have place := cursor_of_over? hr
  exact over?_append flat' (region ▸ place ▸ back)

/-- Behind the constant, the last text leads to the same place whether the constant counts as a
value or not. -/
theorem Tracker.over?_settled {t : Tracker} {k : Cursor} (flat : t.Flat)
    (settled : (Segment.walk k (heeded t.inCode b.toList)).Settled
      (heeded (codeAfter t.inCode b.toList) c.toList)) :
    Option.Rel (fun r r' => r.1 = r'.1 ∧ r.2.Alike r'.2)
      (((t.over? k b).map fun r => (r.1, r.2.interpolated)).bind fun r => r.1.over? r.2 c)
      ((t.over? k b).bind fun r => r.1.over? r.2 c) := by
  cases hb : t.over? k b with
  | none => exact .none
  | some r =>
    obtain ⟨t', k'⟩ := r
    obtain ⟨-, region⟩ := flat.over? hb
    have place := cursor_of_over? hb
    rw [← region, ← place] at settled
    exact over?_alike settled.walk_interpolated

end Between

/-- A string constant between two texts that are heeded by themselves is written as if it stood in
the text. The first text ends in markup, and the place behind the constant is settled. -/
theorem convert_constantText (job : Job) (a b spelling : String) (place : Text.Place) (q : Part)
    (markup : codeAfter false a.toList = false)
    (front : Seam false {} a.toList (b ++ q.first).toList)
    (back : Seam false (Segment.walk {} (heeded false a.toList)) b.toList q.first.toList)
    (settled :
      (Segment.walk (Segment.walk {} (heeded false a.toList)) (heeded false b.toList)).Settled
        (heeded (codeAfter false b.toList) q.first.toList)) :
    (job.convert (Part.hole a (.constant place (.text b) spelling) q).template).toOption =
      (job.convert (q.prepend (a ++ b)).template).toOption := by
  have flat : job.inner.Flat := rfl
  let s := job.start.tracking job.inner
  have around := comesTo_around (s := s) job a b q.first (holeLabel "" 0) spelling place flat markup
  have whole := comesTo_chunk (s := s) (a ++ (b ++ q.first)) flat
  -- apart and in one text, the same scopes and the same place are reached
  have same : Option.Rel (fun r r' => r.1 = r'.1 ∧ r.2.Alike r'.2)
      ((job.inner.over? {} a).bind fun r =>
        ((r.1.over? r.2 b).map fun r' => (r'.1, r'.2.interpolated)).bind fun r' =>
          r'.1.over? r'.2 q.first)
      (job.inner.over? {} (a ++ (b ++ q.first))) := by
    have region : codeAfter job.inner.inCode a.toList = false := markup
    rw [Tracker.over?_append_append flat front (region ▸ back)]
    cases ha : job.inner.over? {} a with
    | none => exact .none
    | some r =>
      obtain ⟨t', k'⟩ := r
      obtain ⟨flat', region⟩ := flat.over? ha
      have region : t'.inCode = false := region.trans markup
      have place := Tracker.cursor_of_over? ha
      refine Tracker.over?_settled flat' ?_
      rw [region, place]
      exact settled
  have texts : Parallel "" _ _ := around.parallel whole same (String.empty_append ▸ rfl)
  have run : Parallel "" (lowerTemplate job
      (Part.hole a (.constant place (.text b) spelling) q).template job.start)
      (lowerTemplate job (q.prepend (a ++ b)).template job.start) := by
    have rest : Alongside "" (q.lowerRest job "" 1) (q.lowerRest job "" 0) :=
      q.alongside_lowerRest "" "" 1 0
    have all := texts.bind fun _ => rest.bind fun _ => Alongside.conclude
    rw [Part.lowerTemplate_eq, Part.lowerTemplate_eq, Part.lower, Part.lower, Part.first_prepend,
      Part.lowerRest_prepend, String.append_assoc, Part.lowerRest]
    simp only [bind_assoc] at all ⊢
    exact all
  rw [job.output?_lowerTemplate, job.output?_lowerTemplate, run.output?]
  cases output? (lowerTemplate job (Part.hole a (.constant place (.text b) spelling) q).template
    job.start) with
  | none => rfl
  | some content => exact congrArg some String.empty_append.symm

/-- A constant that opens a literal conditional in an attribute value. -/
theorem convert_constantText_title :
    let q := Part.text "<?php endif; ?>\" href=\"" ++ titlePart ++ .text "\">"
    (listJob.convert (Part.hole "<a title=\""
        (.constant ⟨1, 0⟩ (.text "<?php if ( $title ) : ?>x") "") q).template).toOption =
      (listJob.convert
        (q.prepend ("<a title=\"" ++ "<?php if ( $title ) : ?>x")).template).toOption ∧
    (listJob.convert (q.prepend ("<a title=\"" ++ "<?php if ( $title ) : ?>x")).template).toOption =
      some ("<a title=\"<?php if ( $title ) : ?>x<?php endif; ?>\" "
        ++ "href=\"<?php echo esc_url( $title ); ?>\">") := by
  refine ⟨convert_constantText listJob "<a title=\"" "<?php if ( $title ) : ?>x" "" ⟨1, 0⟩ _
    (by decide +kernel) ⟨by decide +kernel, by decide +kernel⟩
    ⟨by decide +kernel, by decide +kernel⟩ fun waits => ?_, by decide +kernel⟩
  exact absurd waits (by decide +kernel)

/-- A string that a constant opens is not closed by the text behind it, so the mark in it that ends
a region counts. In one text the string hides the mark. -/
theorem convert_constantText_differs :
    codeAfter false "".toList = false ∧
    (listJob.convert (Part.hole "" (.constant ⟨1, 0⟩ (.text "<?php echo '?>") "")
      (.text "'; ?>")).template).toOption = none ∧
    (listJob.convert ((Part.text "'; ?>").prepend ("" ++ "<?php echo '?>")).template).toOption =
      some "<?php echo '?>'; ?>" :=
  ⟨rfl, by decide +kernel, by decide +kernel⟩

end ServerTemplate
