import ServerTemplate.Proofs.Outline.Agreement
import ServerTemplate.Proofs.Outline.Balance
import ServerTemplate.Proofs.Outline.Translation

/-!
# Conversions of templates without markers

A conversion of a template without markers gives what the reference translation gives
(`pieces_eq_outline`). Its texts and blocks are then those of the template, since they are those of
the outline.
-/

namespace ServerTemplate

open Emit

variable {job : Job} {loops : Loops} {label : String} {e : Expr} {template : Template}

/-! ### The texts and blocks of an outline -/

/-- A condition has no text and no block. -/
theorem Job.skeleton_operandOf {ps : List Piece} (h : job.operandOf loops label e = .ok ps) :
    ps.filter Piece.isSkeleton = [] := by
  induction label, e using Job.operandOf.induct generalizing ps with
  | case1 | case2 =>
    rw [operandOf] at h
    obtain ⟨a, _, h⟩ := exists_ok_of_bind h
    cases h
    rfl
  | case3 =>
    rw [operandOf] at h
    cases h
    rfl
  | case4 label place inner ih =>
    rw [operandOf] at h
    obtain ⟨qs, hqs, h⟩ := exists_ok_of_bind h
    cases h
    simp [ih hqs, Piece.isSkeleton]
  | case5 label place operator left right hl hr | case6 label place operator left right hl hr =>
    rw [operandOf] at h
    obtain ⟨l, hleft, h⟩ := exists_ok_of_bind h
    obtain ⟨r, hright, h⟩ := exists_ok_of_bind h
    cases h
    simp [hl hleft, hr hright, Piece.isSkeleton]
  | case7 label place test consequent alternate ht hc ha =>
    rw [operandOf] at h
    obtain ⟨t, htest, h⟩ := exists_ok_of_bind h
    obtain ⟨c, hconsequent, h⟩ := exists_ok_of_bind h
    obtain ⟨a, halternate, h⟩ := exists_ok_of_bind h
    cases h
    simp [ht htest, hc hconsequent, ha halternate, Piece.isSkeleton]
  | case9 label place callee arguments =>
    rw [operandOf] at h
    obtain ⟨_, _, h⟩ := exists_ok_of_bind h
    obtain ⟨_, _, h⟩ := exists_ok_of_bind h
    split at h <;> cases h
  | case8 | case10 | case11 | case12 | case13 =>
    rw [operandOf] at h
    cases h

theorem Outline.skeleton_text (content : String) :
    (Outline.text content).pieces.filter Piece.isSkeleton = Piece.ofText content := by
  rw [pieces, Piece.ofText]
  split <;> rfl

theorem Outline.skeleton_ofTexts (k : Cursor) (texts : List String) :
    (Outline.ofTexts k texts).1.pieces.filter Piece.isSkeleton = texts.flatMap Piece.ofText := by
  induction texts generalizing k with
  | nil => rfl
  | cons content texts ih =>
    rw [ofTexts, pieces, List.filter_append, skeleton_text, ih, List.flatMap_cons]

/-- What a name or a property gives is no text. -/
theorem Job.skeleton_accessAt {k : Cursor} {a : Job.Access} {o : Outline}
    (h : job.accessAt k e a = .ok o) : o.pieces.filter Piece.isSkeleton = [] := by
  cases a with
  | value r =>
    obtain ⟨_, _, h⟩ := exists_ok_of_bind h
    cases h
    rfl
  | count operand =>
    cases h
    rfl

theorem Job.skeleton_helperAt {k : Cursor} {name : String} {arguments : List Expr} {o : Outline}
    (h : job.helperAt loops k label e name arguments = .ok o) :
    o.pieces.filter Piece.isSkeleton = [] := by
  unfold helperAt at h
  split at h
  · obtain ⟨_, _, h⟩ := exists_ok_of_bind h
    obtain ⟨_, _, h⟩ := exists_ok_of_bind h
    cases h
    rfl
  · split at h
    · cases h
      rfl
    · split at h
      · cases h
      · obtain ⟨_, _, h⟩ := exists_ok_of_bind h
        cases h
        rfl

/-- Every equation keeps the texts and blocks of the expression. -/
theorem Job.translates_skeleton (job : Job) :
    job.Translates
      (fun _ rendered _ e o _ => o.pieces.filter Piece.isSkeleton = e.skeleton job.tag rendered)
      fun _ _ holes texts o _ =>
        o.pieces.filter Piece.isSkeleton = Expr.skeletonOfParts job.tag holes texts where
  name _ outline := skeleton_accessAt outline
  member _ outline := skeleton_accessAt outline
  text htext := by
    rw [Outline.skeleton_text, Expr.skeleton, htext]
    rfl
  group ih := by rw [ih, Expr.skeleton]
  rendered tag_eq ih := by rw [ih, Expr.skeleton, if_pos ⟨rfl, tag_eq⟩]
  skipped hskipped := by
    rw [Expr.skeleton, if_neg hskipped]
    rfl
  guard operand ih := by
    rw [Outline.pieces, Expr.skeleton, ← ih]
    simp [List.filter_cons, skeleton_operandOf operand, Piece.isSkeleton]
  taken operand empty ih := by
    rw [Outline.pieces, Expr.skeleton, ← ih, if_pos empty]
    simp [List.filter_cons, skeleton_operandOf operand, Piece.isSkeleton]
  conditional operand nonempty ih₁ ih₂ := by
    rw [Outline.pieces, Expr.skeleton, ← ih₁, if_neg (Bool.eq_false_iff.mp nonempty), ← ih₂]
    simp [List.filter_cons, skeleton_operandOf operand, Piece.isSkeleton]
  helper shape outline := by
    rw [skeleton_helperAt outline, Expr.skeleton]
    -- a call that is no loop has neither
    rintro array _ _ _ loop _
    rw [shape] at loop
    cases loop
  loop shape _ ih := by
    rw [Outline.pieces, Expr.skeleton_loop shape, ← ih]
    simp [List.filter_cons, Piece.isSkeleton]
  nil := by
    intro _ k texts
    rw [Expr.skeletonOfParts, Outline.skeleton_ofTexts]
  lacking := by
    intros
    rw [Expr.skeletonOfParts]
    rfl
  cons ih ihs := by
    rw [Expr.skeletonOfParts, ← ih, ← ihs, Outline.pieces, List.filter_append,
      Outline.skeleton_text, Outline.pieces, List.filter_append, Outline.pieces, List.append_assoc]

/-- The texts and blocks of a translated template are those of the template. -/
theorem Job.skeleton_outline {o : Outline} (h : job.outline template = .ok o) :
    o.pieces.filter Piece.isSkeleton = template.skeleton job.tag := by
  obtain ⟨⟨o, k'⟩, hparts, h⟩ := exists_ok_of_bind h
  cases h
  exact job.translates_skeleton.induct.2 _ _ _ _ _ _ _ _ hparts

/-! ### Whole conversions -/

/-- A conversion of a template without markers writes the outline of the reference translation and
leaves the scopes as they were in the beginning, or fails as the reference translation does. -/
theorem after_lowerTemplate (free : template.MarkerFree job.tag) :
    After (lowerTemplate job template) job.start
      (fun _ s => ∃ o, job.outline template = .ok o ∧ s.pieces.reverse = o.pieces ∧
        s.tracker = job.start.tracker)
      fun d _ => job.outline template = .error d := by
  have entered : job.Stands [] {} (job.start.tracking (job.start.tracker.enter .template)) :=
    ⟨(Job.Represents.start job).enter (by decide), rfl, rfl⟩
  have parts := (agrees job).2 [] "" 0 {} template.holes template.chunks free _ entered
  unfold lowerTemplate Job.outline
  rw [after_bind, after_enterScope_none]
  refine parts.then (fun o s h w => ?_) fun d hd => by rw [hd]; rfl
  obtain ⟨frame, left⟩ := Tracker.exit_enter (Job.Represents.start job).sound.nonempty .template
  rw [after_bind]
  refine after_exitScope (fun _ t ht => ?_) fun d hd => ?_
  · rw [w.tracker] at ht
    obtain ⟨-, ht⟩ := Prod.mk.inj (Except.ok.inj (left.symm.trans ht))
    subst ht
    refine ⟨o, by rw [h]; rfl, ?_, rfl⟩
    change s.pieces.reverse = o.pieces
    rw [w.pieces]
    simp [Job.start]
  · rw [w.tracker] at hd
    cases left.symm.trans hd

/-- The pieces of a template without markers are those of its outline. -/
theorem Job.pieces_eq_map_outline (job : Job) (free : template.MarkerFree job.tag) :
    job.pieces template = (job.outline template).map Outline.pieces := by
  have run := after_lowerTemplate free
  unfold Job.pieces
  unfold After at run
  split <;> rename_i result <;> rw [result] at run
  · obtain ⟨o, ho, hpieces, _⟩ := run
    rw [ho, hpieces]
    rfl
  · rw [run]
    rfl

/-- A successful conversion of a template without markers ends in the scopes in which it began. -/
theorem Job.final_tracker (job : Job) (free : template.MarkerFree job.tag) {o : Outline}
    (h : job.outline template = .ok o) : (job.final template).tracker = job.start.tracker := by
  have run := after_lowerTemplate free
  unfold Job.final
  unfold After at run
  split <;> rename_i result <;> rw [result] at run
  · obtain ⟨_, _, _, htracker⟩ := run
    exact htracker
  · rw [h] at run
    cases run

/-- **Agreement with the reference translation.** A conversion of a template without markers gives
the pieces and the text of the reference translation, or the same diagnostic, which is not about
frames or regions. If it succeeds, the texts and blocks in its output are those of the template, and
one frame and one region are left. -/
theorem pieces_eq_outline (job : Job) (template : Template) (free : template.MarkerFree job.tag) :
    job.pieces template = (job.outline template).map Outline.pieces ∧
    job.convert template = (job.outline template).map Outline.written ∧
    (∀ d, job.pieces template = .error d → ¬ d.IsImbalance) ∧
    ∀ pieces, job.pieces template = .ok pieces →
      pieces.filter Piece.isSkeleton = template.skeleton job.tag ∧
      (job.final template).tracker.frames.length = 1 ∧
      (job.final template).tracker.regions = [.markup] := by
  have same := job.pieces_eq_map_outline free
  refine ⟨same, ?_, fun d hd => ?_, fun pieces hpieces => ?_⟩
  · rw [Job.convert, same]
    cases job.outline template with
    | error d => rfl
    | ok o => exact congrArg Except.ok o.writtenAll_pieces
  · refine Job.balanced_outline job template d ?_
    rw [same] at hd
    cases ho : job.outline template with
    | error d' => rw [ho] at hd; cases hd; rfl
    | ok o => rw [ho] at hd; cases hd
  · cases ho : job.outline template with
    | error d => rw [same, ho] at hpieces; cases hpieces
    | ok o =>
      rw [same, ho] at hpieces
      cases hpieces
      rw [job.final_tracker free ho]
      exact ⟨Job.skeleton_outline ho, rfl, rfl⟩

/-- A component with a title and items. -/
def listJob : Job where
  declaration :=
    { name := .str "List"
      parameters := [⟨"title", "string", .null, some .html⟩, ⟨"items", "array", .null, none⟩]
      arrayFields := [("items", [⟨"url", "string", .null, some .html⟩])] }
  source := ""
  tag := "html"
  labels := ⟨"none", "one", "many"⟩
  stars := 5

/-- The template `<ul>${this.items.map(item => html`<a href="${item.url}">`)}</ul>${this.title ?
html`<b>${this.title}` : ""}.`. -/
def listTemplate : Template where
  chunks := ["<ul>", "</ul>", "."]
  holes :=
    [.call ⟨1, 0⟩ (.member ⟨1, 0⟩ (.member ⟨1, 0⟩ (.this ⟨1, 0⟩) "items" false) "map" false)
      [.arrow ⟨1, 0⟩ ["item"] (.tagged ⟨1, 0⟩ "html" ⟨1, 0⟩ ["<a href=\"", "\">"]
        [.member ⟨1, 0⟩ (.name ⟨1, 0⟩ "item") "url" false])],
    .conditional ⟨1, 0⟩ (.member ⟨1, 0⟩ (.this ⟨1, 0⟩) "title" false)
      (.tagged ⟨1, 0⟩ "html" ⟨1, 0⟩ ["<b>", ""] [.member ⟨1, 0⟩ (.this ⟨1, 0⟩) "title" false])
      (.constant ⟨1, 0⟩ (.text "") "")]

/-- The reference translation of a loop and a conditional gives what the conversion gives. -/
theorem pieces_eq_outline_list :
    listTemplate.MarkerFree listJob.tag ∧
    listJob.convert listTemplate = .ok ("<ul><?php foreach ( $items as $item ) : ?>"
      ++ "<a href=\"<?php echo esc_url( $item['url'] ); ?>\"><?php endforeach; ?></ul>"
      ++ "<?php if ( $title ) : ?><b><?php echo esc_html( $title ); ?><?php endif; ?>.") ∧
    ∃ pieces, listJob.pieces listTemplate = .ok pieces ∧
      pieces.filter Piece.isSkeleton = listTemplate.skeleton listJob.tag := by
  have free : listTemplate.MarkerFree listJob.tag := by decide +kernel
  obtain ⟨same, text, -, ok⟩ := pieces_eq_outline listJob listTemplate free
  have written : (listJob.outline listTemplate).toOption.map Outline.written =
      some ("<ul><?php foreach ( $items as $item ) : ?>"
        ++ "<a href=\"<?php echo esc_url( $item['url'] ); ?>\"><?php endforeach; ?></ul>"
        ++ "<?php if ( $title ) : ?><b><?php echo esc_html( $title ); ?><?php endif; ?>.") := by
    decide +kernel
  cases h : listJob.outline listTemplate with
  | error d => rw [h] at written; cases written
  | ok o =>
    rw [h] at same text written
    refine ⟨free, ?_, o.pieces, same, (ok _ same).1⟩
    rw [text]
    exact congrArg Except.ok (Option.some.inj written)

end ServerTemplate
