import ServerTemplate.Proofs.Literal.Region
import ServerTemplate.Proofs.Outline.Conversion

/-!
# Literal and generated loops

A template may write a loop in its text, as in `<?php foreach ( $items as $item ) : ?>`, or have it
generated from `this.items.map(item => ...)`. The two loops open their frames in different ways: one
in a region of code, at a marker, and the other in markup, at a call. The same body is converted in
them to the same output (`convert_literalLoop`), because names, regions and cursor are the same
inside. Behind the loop they differ in one case alone: only a generated loop tells the cursor that a
value has been written, which matters where the body ends directly in front of a value.
-/

namespace ServerTemplate

open Emit

/-- The expression `this.array.map(item => html...)` with a body between the backticks. -/
inductive Expr.LoopOver (tag array item : String) (body : Part) : Expr → Prop
  | mk (call map receiver this arrow tagged template : Text.Place) :
    LoopOver tag array item body
      (.call call (.member map (.member receiver (.this this) array false) "map" false)
        [.arrow arrow [item] (.tagged tagged tag template body.texts body.holes)])

section Loop

variable {job : Job} {loops : Loops} {t t' : Tracker} {r : Rendering} {array item : String}
  {body p q : Part} {e : Expr}

/-- The texts of a generated loop are those of its body. -/
theorem Expr.LoopOver.textsMarkerFree (he : e.LoopOver job.tag array item body)
    (free : body.template.MarkerFree job.tag) :
    Piece.TextsMarkerFree (e.skeleton job.tag false) := by
  obtain ⟨_, _, _, _, _, _, _⟩ := he
  intro content hcontent
  rw [Expr.skeleton_loop rfl, Expr.skeleton, if_pos ⟨rfl, rfl⟩] at hcontent
  have inside : .text content ∈ Expr.skeletonOfParts job.tag body.holes body.texts := by
    simpa using hcontent
  exact free content inside

/-- A generated loop is written around its body, if the array is visible and the item is not. -/
theorem Job.holeRendering_loop (he : e.LoopOver job.tag array item body)
    (fresh : job.sees loops item = false) (k : Cursor) :
    job.holeRendering loops e k =
      (if job.sees loops array then some k else none).bind fun k =>
        (job.rendering ((item, array) :: loops) body k).map fun a =>
          (loopText array item a.1, a.2.interpolated) := by
  obtain ⟨_, _, _, _, _, _, _⟩ := he
  rw [holeRendering]
  rw [outlineOf]
  -- the callee is a plain property, so the head of the loop is all that is checked
  change Option.map _ (Outline.written? (do
    job.loopHeadIn loops "" _ array (some item)
    let inner ← job.outlineOf ((item, array) :: loops) true "map-loop-body" k _
    return (.loop array item inner.1, inner.2))) = _
  rw [outlineOf, if_pos ⟨rfl, rfl⟩, loopHeadIn, requireSeen]
  cases seen : job.sees loops array with
  | false => rfl
  | true =>
    rw [if_pos rfl, if_pos rfl, Option.bind_some,
      ← job.written?_partsOf ((item, array) :: loops) (labelPrefix "map-loop-body") 0]
    simp only [fresh]
    cases job.partsOf ((item, array) :: loops) (labelPrefix "map-loop-body") 0 k body.holes
      body.texts <;> rfl

/-- A literal loop with a part behind it. -/
theorem Part.Puts.literalLoop (harray : WordName array) (hitem : WordName item)
    (h : job.Represents loops t) (markup : t.inCode = false)
    (free : body.template.MarkerFree job.tag) (hq : q.Puts job t t' r) :
    (Part.text (Piece.loopStart array item).written ++
        (body ++ (Part.text Piece.loopEnd.written ++ q))).Puts job t t'
      ((Rendering.moved (Piece.loopStart array item).written
          fun k => if job.sees loops array then some k else none).andThen
        ((job.rendering ((item, array) :: loops) body).andThen
          ((Rendering.code Piece.loopEnd.written).andThen r))) := by
  rw [← h.isVisible]
  have nonempty := h.sound.nonempty
  have ending : (Part.text Piece.loopEnd.written ++ q).Puts job (t.inLoop array item) t' _ :=
    .loopEnd nonempty markup hq
  have opens : (Part.text Piece.loopEnd.written ++ q).first.toList =
      "<?php".toList ++ (" endforeach; ?>".toList ++ q.first.toList) := by
    rw [Part.first_text_append, String.toList_append]
    rfl
  exact .loopStart harray hitem nonempty markup (.beforeRegion h.inLoop markup free ending opens)

/-- A value counts for the cursor only where one is waited for. -/
theorem Cursor.interpolated_of_ne {k : Cursor} (h : k.state ≠ .beforeValue) :
    k.interpolated = k := by
  unfold Cursor.interpolated
  split
  · exact absurd ‹_› h
  · rfl

/-- The two loops are written the same, and what is behind them is, unless a value is waited for
where the body ends. -/
theorem Job.rendering_literalLoop (he : e.LoopOver job.tag array item body)
    (fresh : job.sees loops item = false) {k : Cursor}
    (away : ∀ a k', job.sees loops array = true →
      job.rendering ((item, array) :: loops) body k = some (a, k') → k'.state ≠ .beforeValue) :
    ((Rendering.moved (Piece.loopStart array item).written
          fun k => if job.sees loops array then some k else none).andThen
        ((job.rendering ((item, array) :: loops) body).andThen
          ((Rendering.code Piece.loopEnd.written).andThen r))) k =
      ((job.holeRendering loops e).andThen r) k := by
  rw [Rendering.moved_andThen, Rendering.andThen_apply (job.holeRendering loops e),
    Job.holeRendering_loop he fresh]
  cases seen : job.sees loops array with
  | false => rfl
  | true =>
    rw [if_pos rfl, Option.bind_some, Option.bind_some, Rendering.andThen_apply]
    cases hbody : job.rendering ((item, array) :: loops) body k with
    | none => rfl
    | some a =>
      obtain ⟨a, k'⟩ := a
      dsimp only [Option.bind_some, Option.map_some]
      rw [Rendering.code_andThen, Cursor.interpolated_of_ne (away a k' seen hbody)]
      cases r k' with
      | none => rfl
      | some b =>
        have same : (Piece.loopStart array item).written ++ (a ++ (Piece.loopEnd.written ++ b.1)) =
            loopText array item a ++ b.1 := by
          simp only [← String.append_assoc]
          rfl
        exact congrArg (fun text => some (text, b.2)) same

end Loop

theorem Part.first_loopStart (array item : String) (rest : Part) :
    (Part.text (Piece.loopStart array item).written ++ rest).first.toList =
      "<?php".toList ++ ((" foreach ( $" ++ array ++ " as $" ++ item ++ " ) : ?>").toList ++
        rest.first.toList) := by
  have head : "<?php foreach ( $".toList = "<?php".toList ++ " foreach ( $".toList := rfl
  rw [Part.first_text_append, String.toList_append]
  change ("<?php foreach ( $" ++ array ++ " as $" ++ item ++ " ) : ?>").toList ++ _ = _
  simp only [String.toList_append, head, List.append_assoc]

/-! ### Whole templates -/

/-- **Literal and generated loops agree.** A loop over an array of the component has the same output
whether it is written in the text of the template or generated from a call of `map`, or both fail.
The item has a name made of word characters that is no parameter, and the cursor does not wait for
an attribute value where the body ends. -/
theorem convert_literalLoop (job : Job) (p body q : Part) (array item : String) (e : Expr)
    (free_p : p.template.MarkerFree job.tag) (free_body : body.template.MarkerFree job.tag)
    (free_q : q.template.MarkerFree job.tag) (harray : WordName array) (hitem : WordName item)
    (fresh : item ∉ job.declaration.parameterNames) (he : e.LoopOver job.tag array item body)
    (away : ∀ s ∈ job.behind (p ++
        .text ("<?php foreach ( $" ++ array ++ " as $" ++ item ++ " ) : ?>") ++ body),
      s.cursor.state ≠ .beforeValue) :
    (job.convert (p ++ .text ("<?php foreach ( $" ++ array ++ " as $" ++ item ++ " ) : ?>") ++ body
        ++ .text "<?php endforeach; ?>" ++ q).template).toOption =
      (job.convert (p ++ .hole "" e q).template).toOption := by
  have h := job.represents_inner
  have fresh : job.sees [] item = false := by
    simp [Job.sees, fresh]
  -- the two templates as renderings, and the part of the first that ends with the body
  have rest := Job.puts_rendering h rfl free_q
  have literal := Part.Puts.beforeRegion h rfl free_p
    (.literalLoop harray hitem h rfl free_body rest) (Part.first_loopStart array item _)
  have generated := Part.Puts.aroundHole h rfl free_p (he.textsMarkerFree free_body) rest
  have inside := Part.Puts.beforeRegion h rfl free_p
    (.loopStart harray hitem h.sound.nonempty rfl (Job.puts_rendering h.inLoop rfl free_body))
    (Part.first_loopStart array item _)
  have behind := inside.cursor_behind
  rw [Part.append_assoc, Part.append_assoc, Part.append_assoc]
  rw [Part.append_assoc] at away
  refine literal.convert.trans (Eq.trans ?_ generated.convert.symm)
  rw [Rendering.andThen_apply, Rendering.andThen_apply]
  rw [Rendering.andThen_apply] at behind
  -- both go on from the cursor behind the part in front
  cases front : job.rendering [] p {} with
  | none => rfl
  | some a =>
    rw [front, Option.bind_some, Rendering.moved_andThen] at behind
    rw [Option.bind_some, Option.bind_some, Job.rendering_literalLoop he fresh]
    intro b k' seen hbody
    rw [h.isVisible, seen, if_pos rfl, Option.bind_some, hbody] at behind
    obtain ⟨s, hs, rfl⟩ := Option.map_eq_some_iff.mp behind
    exact away s hs

/-- The body of a loop over links. -/
def linkBody : Part :=
  .hole "<a href=\"" (.member ⟨1, 0⟩ (.name ⟨1, 0⟩ "item") "url" false) (.text "\">")

/-- A list of links has the same output with a literal and with a generated loop. -/
theorem convert_literalLoop_links :
    (listJob.convert (Part.text "<ul>" ++ .hole "" (.call ⟨1, 0⟩
        (.member ⟨1, 0⟩ (.member ⟨1, 0⟩ (.this ⟨1, 0⟩) "items" false) "map" false)
        [.arrow ⟨1, 0⟩ ["item"] (.tagged ⟨1, 0⟩ "html" ⟨1, 0⟩ linkBody.texts linkBody.holes)])
      (.text "</ul>")).template).toOption =
      some ("<ul><?php foreach ( $items as $item ) : ?>"
        ++ "<a href=\"<?php echo esc_url( $item['url'] ); ?>\"><?php endforeach; ?></ul>") := by
  have away : ((listJob.behind (Part.text "<ul>" ++
      .text ("<?php foreach ( $" ++ "items" ++ " as $" ++ "item" ++ " ) : ?>") ++ linkBody)).all
      fun s => decide (s.cursor.state ≠ .beforeValue)) = true := by decide +kernel
  have same := convert_literalLoop listJob (.text "<ul>") linkBody (.text "</ul>") "items" "item" _
    (by decide +kernel) (by decide +kernel) (by decide +kernel) (by decide +kernel)
    (by decide +kernel) (by decide +kernel) (.mk ⟨1, 0⟩ ⟨1, 0⟩ ⟨1, 0⟩ ⟨1, 0⟩ ⟨1, 0⟩ ⟨1, 0⟩ ⟨1, 0⟩)
    fun s hs => by
      rw [Option.mem_def.mp hs] at away
      exact of_decide_eq_true away
  exact same.symm.trans (by decide +kernel)

end ServerTemplate
