import ServerTemplate.Proofs.Literal.Loop

/-!
# Literal and generated conditionals

A template may write a conditional in its text, with the test in a hole between `<?php if ( ` and
` ) : ?>`, or have it generated from a conditional expression. In a literal conditional the second
branch starts where the first one ends, and in a generated one where the conditional does. So the
two have the same output if the first branch leaves the cursor at the place at which it found it
(`convert_literalConditional`), and may escape a value differently if it does not
(`convert_literalConditional_differs`).
-/

namespace ServerTemplate

open Emit

variable {job : Job} {loops : Loops} {t t' : Tracker} {r : Rendering} {s : Progress}
  {label : String} {test e : Expr} {a b q : Part}

/-! ### Holes in code -/

/-- What an operand is written as. -/
def Job.codeRendering (job : Job) (loops : Loops) (e : Expr) : Rendering :=
  fun k => (job.operandOf loops "" e).toOption.map fun ps => (Piece.writtenAll ps, k)

/-- In code a value begins as an operand does. -/
theorem Emit.begin_value_bind (code : s.tracker.inCode = true) (f : Bool → Emit Unit) :
    (begin .value e label >>= f) s = (begin .operand e label >>= f) s := by
  have begun (use : Use) : begin use e label s =
      .ok (use == .operand || s.tracker.inCode)
        (s.noting (.expression e label (use == .operand || s.tracker.inCode))) := rfl
  simp only [bind, EStateM.bind, begun, code, Bool.or_true]

/-- In code a value is converted as an operand is. -/
theorem lower_value_of_code (code : s.tracker.inCode = true) :
    lower job .value label e s = lower job .operand label e s := by
  cases e with
  | group place inner =>
    rw [lower, lower, if_neg (by decide), if_neg (by decide)]
    exact begin_value_bind code _
  | tagged place tag templatePlace texts holes =>
    rw [lower, lower, if_neg (by simp), if_neg (by simp)]
    exact begin_value_bind code _
  | constant place v spelling =>
    rw [lower, lower]
    · exact begin_value_bind code _
    all_goals simp
  | call place callee arguments =>
    rw [lower_call, lower_call]
    exact begin_value_bind code _
  | _ =>
    rw [lower, lower]
    exact begin_value_bind code _

/-- A hole in code puts the operand in it and leaves the cursor where it is. -/
theorem Job.puts_codeHole (h : job.Represents loops t) (code : t.inCode = true) (label : String) :
    Emit.Puts t t (Emit.hole e label (lower job .value label e)) (job.codeRendering loops e) := by
  have writes : ∀ s : Progress, s.tracker = t →
      WritesCode s (Emit.hole e label (lower job .value label e))
        (job.operandOf loops label e) := by
    intro s hs
    subst hs
    have code₀ : (s.noting (.hole e label)).tracker.inCode = true := code
    have inner := writesCode_lower job loops label e (s.noting (.hole e label)) h code₀
    unfold WritesCode After at inner
    rw [← lower_value_of_code code₀] at inner
    unfold Emit.hole WritesCode
    rw [after_bind, after_inCode, after_bind, after_note, after_bind, code]
    exact After.mono inner (fun _ _ ⟨ps, hr, w, hk⟩ => ⟨ps, hr, w.of_noting, hk⟩) fun _ _ hd => hd
  have put := Emit.Puts.of_writesCode writes
  have same : (job.operandOf loops label e).toOption = (job.operandOf loops "" e).toOption :=
    (matching_operandOf "").toOption_eq
  rw [same] at put
  exact put

/-- A region without markers and with one hole is written with the operand in the hole. -/
theorem Part.convert_codeHole {front back : String} {code code' : List Char}
    (opens : segments false front.toList = [.marker .openCode, .text code])
    (closes : segments true back.toList = [.text code', .marker .closeCode]) :
    (job.convert (Part.hole front e (.text back)).template).toOption =
      (job.operandOf [] "" e).toOption.map fun ps => front ++ (Piece.writtenAll ps ++ back) := by
  have markup : job.inner.inCode = false := rfl
  have inCode : job.inner.enterCode.inCode = true := rfl
  have first : Replays job.inner job.inner.enterCode (job.inner.segments front) some := by
    rw [Tracker.segments, markup, opens]
    exact (Replays.openCode markup).append (.code rfl code)
  have last : Replays job.inner.enterCode job.inner (job.inner.enterCode.segments back) some := by
    rw [Tracker.segments, inCode, closes]
    exact (Replays.code inCode code').append (.closeCode inCode rfl)
  have puts : (Part.hole front e (.text back)).Puts job job.inner job.inner _ :=
    .hole first (fun label => job.puts_codeHole job.represents_inner.enterCode rfl label)
      (.text last)
  rw [puts.convert]
  cases written : job.operandOf [] "" e <;>
    simp [Rendering.andThen, Rendering.moved, Job.codeRendering, written, Except.toOption]

/-! ### Conditionals -/

/-- The scopes in the branches of a literal conditional. The frame has been opened in code, and the
code has been left. -/
def Tracker.inBranch (t : Tracker) : Tracker :=
  { t.enterCode.enter .conditional with regions := t.regions }

theorem Job.Represents.inBranch (h : job.Represents loops t) : job.Represents loops t.inBranch :=
  (h.enterCode.enter (by decide)).withRegions t.regions

/-- The head of a literal conditional up to its test. -/
theorem replays_ifStart (markup : t.inCode = false) :
    Replays t t.inBranch.enterCode (t.segments Piece.ifStart.written) some := by
  have scanned : t.segments Piece.ifStart.written =
      [.marker .openCode, .text [' '], .marker .conditional, .text [' ']] := by
    rw [Tracker.segments, markup]
    rfl
  rw [scanned]
  have opened : Replays t t.enterCode [.marker .openCode, .text [' ']] some :=
    (Replays.openCode markup).append (.code rfl [' '])
  have inside : Replays t.enterCode t.inBranch.enterCode [.marker .conditional, .text [' ']] some :=
    (Replays.conditional t.enterCode).append (.code rfl [' '])
  exact opened.append inside

/-- The rest of the head, in front of the first branch. -/
theorem Part.Puts.ifTested (markup : t.inCode = false) (hq : q.Puts job t.inBranch t' r) :
    (Part.text Piece.ifTested.written ++ q).Puts job t.inBranch.enterCode t'
      ((Rendering.code Piece.ifTested.written).andThen r) := by
  have scan (rest : List Char) : segments true (Piece.ifTested.written.toList ++ rest) =
      [.text " ) : ".toList, .marker .closeCode] ++ segments false rest :=
    segmentsFrom_headEnd none rest
  have alone : t.inBranch.enterCode.segments Piece.ifTested.written =
      [.text " ) : ".toList, .marker .closeCode] := scan []
  have closed : Replays t.inBranch.enterCode t.inBranch
      [.text " ) : ".toList, .marker .closeCode] some :=
    (Replays.code rfl _).append (.closeCode rfl rfl)
  have markup : t.inBranch.inCode = false := markup
  refine .prepend (alone ▸ closed) hq ?_
  rw [alone, Tracker.segments, Tracker.segments, markup, String.toList_append]
  exact scan _

/-- The beginning of the second branch leaves the scopes as they are. -/
theorem Part.Puts.otherwise (markup : t.inCode = false) (hq : q.Puts job t t' r) :
    (Part.text Piece.otherwise.written ++ q).Puts job t t'
      ((Rendering.code Piece.otherwise.written).andThen r) :=
  .region segments_otherwise markup markup (.codeRegion markup _) hq

/-- The end of a literal conditional leads back to the scopes around it. -/
theorem Part.Puts.ifEnd (nonempty : t.frames ≠ []) (markup : t.inCode = false)
    (hq : q.Puts job t t' r) :
    (Part.text Piece.ifEnd.written ++ q).Puts job t.inBranch t'
      ((Rendering.code Piece.ifEnd.written).andThen r) := by
  obtain ⟨frame, left⟩ := Tracker.exit_enter (t := t.enterCode) nonempty .conditional
  have markup₁ : t.inBranch.inCode = false := markup
  have ended : Replays t.inBranch.enterCode t.enterCode [.marker .endConditional] some :=
    .endConditional left
  exact .region segments_ifEnd markup₁ markup (.markerRegion markup₁ ended rfl rfl) hq

/-- A part that begins with a literal region begins with the characters that open it. -/
theorem Part.first_region {content : String} {rest : List Char} (q : Part)
    (h : content.toList = "<?php".toList ++ rest) :
    (Part.text content ++ q).first.toList = "<?php".toList ++ (rest ++ q.first.toList) := by
  rw [Part.first_text_append, String.toList_append, h, List.append_assoc]

/-- What the head of a literal conditional is written as. -/
def Job.headRendering (job : Job) (loops : Loops) (test : Expr) : Rendering :=
  (Rendering.code Piece.ifStart.written).andThen
    ((job.codeRendering loops test).andThen (Rendering.code Piece.ifTested.written))

/-- A literal conditional from its head on. -/
theorem Part.Puts.ifHead (test : Expr) (h : job.Represents loops t) (markup : t.inCode = false)
    (hq : q.Puts job t.inBranch t' r) :
    (Part.hole Piece.ifStart.written test (Part.text Piece.ifTested.written ++ q)).Puts job t t'
      ((job.headRendering loops test).andThen r) := by
  rw [Job.headRendering, Rendering.andThen_assoc, Rendering.andThen_assoc]
  exact .hole (replays_ifStart markup) (job.puts_codeHole h.inBranch.enterCode rfl)
    (.ifTested markup hq)

/-- What a literal conditional is written as, with something behind it. -/
def Job.literalConditional (job : Job) (loops : Loops) (test : Expr) (a b : Part) (r : Rendering) :
    Rendering :=
  (job.headRendering loops test).andThen ((job.rendering loops a).andThen
    ((Rendering.code Piece.otherwise.written).andThen ((job.rendering loops b).andThen
      ((Rendering.code Piece.ifEnd.written).andThen r))))

theorem Part.Puts.literalConditional (test : Expr) (h : job.Represents loops t)
    (markup : t.inCode = false) (free_a : a.template.MarkerFree job.tag)
    (free_b : b.template.MarkerFree job.tag) (hq : q.Puts job t t' r) :
    (Part.hole Piece.ifStart.written test (Part.text Piece.ifTested.written ++
        (a ++ (Part.text Piece.otherwise.written ++ (b ++
          (Part.text Piece.ifEnd.written ++ q)))))).Puts job t t'
      (job.literalConditional loops test a b r) := by
  have inner := h.inBranch
  have markup₁ : t.inBranch.inCode = false := markup
  have ending := Part.Puts.ifEnd h.sound.nonempty markup hq
  have second := Part.Puts.beforeRegion inner markup₁ free_b ending (Part.first_region q rfl)
  have between := Part.Puts.otherwise markup₁ second
  have first := Part.Puts.beforeRegion inner markup₁ free_a between (Part.first_region _ rfl)
  exact .ifHead test h markup first

/-- The expression `test ? html... : html...` with two parts between the backticks. -/
inductive Expr.ChoiceOf (tag : String) (test : Expr) (a b : Part) : Expr → Prop
  | mk (conditional tagged template tagged' template' : Text.Place) :
    ChoiceOf tag test a b
      (.conditional conditional test (.tagged tagged tag template a.texts a.holes)
        (.tagged tagged' tag template' b.texts b.holes))

/-- The texts of a generated conditional are those of its branches. -/
theorem Expr.ChoiceOf.textsMarkerFree (he : Expr.ChoiceOf job.tag test a b e)
    (free_a : a.template.MarkerFree job.tag) (free_b : b.template.MarkerFree job.tag) :
    Piece.TextsMarkerFree (e.skeleton job.tag false) := by
  obtain ⟨_, _, _, _, _⟩ := he
  intro content hcontent
  have inside : .text content ∈ Expr.skeletonOfParts job.tag a.holes a.texts ∨
      .text content ∈ Expr.skeletonOfParts job.tag b.holes b.texts := by
    simpa [Expr.skeleton, Expr.isEmptyText, Expr.ungrouped] using hcontent
  exact inside.elim (free_a content) (free_b content)

/-- Both branches of a generated conditional begin where it does. -/
theorem Job.holeRendering_choice (he : Expr.ChoiceOf job.tag test a b e) (k : Cursor) :
    job.holeRendering loops e k =
      (job.codeRendering loops test k).bind fun c => (job.rendering loops a k).bind fun x =>
        (job.rendering loops b k).map fun y => (branchText c.1 x.1 y.1, y.2.interpolated) := by
  obtain ⟨_, _, _, _, _⟩ := he
  rw [holeRendering, outlineOf, outlineOf, outlineOf, if_pos ⟨rfl, rfl⟩, if_pos ⟨rfl, rfl⟩,
    codeRendering, (matching_operandOf ("" ++ "-test")).toOption_eq,
    ← job.written?_partsOf loops (labelPrefix ("" ++ "-consequent")) 0,
    ← job.written?_partsOf loops (labelPrefix ("" ++ "-alternate")) 0]
  cases job.operandOf loops ("" ++ "-test") test with
  | error d => rfl
  | ok ps =>
    cases job.partsOf loops (labelPrefix ("" ++ "-consequent")) 0 k a.holes a.texts with
    | error d => rfl
    | ok x =>
      cases job.partsOf loops (labelPrefix ("" ++ "-alternate")) 0 k b.holes b.texts <;> rfl

theorem branchText_eq (test first second : String) : branchText test first second =
    Piece.ifStart.written ++ test ++ Piece.ifTested.written ++ first ++ Piece.otherwise.written
      ++ second ++ Piece.ifEnd.written := rfl

/-- The head of a conditional leaves the cursor where it is. -/
theorem Job.headRendering_eq (k : Cursor) : job.headRendering loops test k =
    (job.codeRendering loops test k).map fun c =>
      (Piece.ifStart.written ++ (c.1 ++ Piece.ifTested.written), c.2) := by
  rw [headRendering, Rendering.code_andThen, Rendering.andThen_apply]
  cases job.codeRendering loops test k <;> rfl

/-- A literal conditional is written as a generated one where both branches begin at the same place
and no value is waited for behind the second one. -/
theorem Job.literalConditional_eq (he : Expr.ChoiceOf job.tag test a b e) (k : Cursor) (q : Part)
    (alike : ∀ x, ((job.headRendering loops test).andThen (job.rendering loops a)) k = some x →
      k.Alike x.2)
    (away : ∀ y, ((job.headRendering loops test).andThen ((job.rendering loops a).andThen
      ((Rendering.code Piece.otherwise.written).andThen (job.rendering loops b)))) k = some y →
      y.2.state ≠ .beforeValue) :
    (job.literalConditional loops test a b (job.rendering loops q) k).map Prod.fst =
      (((job.holeRendering loops e).andThen (job.rendering loops q)) k).map Prod.fst := by
  unfold literalConditional
  rw [Rendering.andThen_apply] at alike away ⊢
  rw [Rendering.andThen_apply, Job.holeRendering_choice he]
  rw [headRendering_eq] at alike away ⊢
  cases htest : job.codeRendering loops test k with
  | none => rfl
  | some c =>
    obtain ⟨c, k₀⟩ := c
    obtain rfl : k₀ = k := by
      obtain ⟨ps, _, h⟩ := Option.map_eq_some_iff.mp htest
      exact (congrArg Prod.snd h).symm
    rw [htest] at alike away
    dsimp only [Option.map_some, Option.bind_some] at alike away ⊢
    rw [Rendering.andThen_apply] at away ⊢
    cases ha : job.rendering loops a k₀ with
    | none => rfl
    | some x =>
      rw [ha] at alike away
      dsimp only [Option.map_some, Option.bind_some] at alike away ⊢
      have same := job.agree_rendering loops (alike _ rfl) b
      rw [Rendering.code_andThen] at away ⊢
      rw [Rendering.andThen_apply]
      -- the second branch begins in both at the same place
      generalize job.rendering loops b k₀ = y' at same ⊢
      generalize job.rendering loops b x.2 = y at same away ⊢
      cases same with
      | none => rfl
      | some related =>
        rename_i y' y
        dsimp only [Option.map_some, Option.bind_some] at away ⊢
        have ready := away _ rfl
        have unmoved : y'.2.interpolated = y'.2 :=
          Cursor.interpolated_of_ne (related.2.state ▸ ready)
        have same := job.agree_rendering loops related.2 q
        rw [Rendering.code_andThen, unmoved]
        generalize job.rendering loops q y'.2 = z' at same ⊢
        generalize job.rendering loops q y.2 = z at same ⊢
        cases same with
        | none => rfl
        | some rest =>
          refine congrArg some ?_
          dsimp only
          rw [related.1, rest.1, branchText_eq]
          simp only [String.append_assoc]

/-! ### Whole templates -/

/-- **Literal and generated conditionals.** A conditional with two branches has the same output
whether it is written in the text of the template or generated from a conditional expression, or
both fail, if the cursor behind the first branch is at the place at which it is in front of it, and
does not wait for an attribute value behind the second branch. -/
theorem convert_literalConditional (job : Job) (p a b q : Part) (test e : Expr)
    (free_p : p.template.MarkerFree job.tag) (free_a : a.template.MarkerFree job.tag)
    (free_b : b.template.MarkerFree job.tag) (free_q : q.template.MarkerFree job.tag)
    (he : Expr.ChoiceOf job.tag test a b e)
    (alike : ∀ s ∈ job.behind p,
      ∀ s' ∈ job.behind (p ++ .hole "<?php if ( " test (.text " ) : ?>") ++ a),
        s.cursor.Alike s'.cursor)
    (away : ∀ s ∈ job.behind (p ++ .hole "<?php if ( " test (.text " ) : ?>") ++ a
        ++ .text "<?php else : ?>" ++ b), s.cursor.state ≠ .beforeValue) :
    (job.convert (p ++ .hole "<?php if ( " test (.text " ) : ?>") ++ a ++ .text "<?php else : ?>"
        ++ b ++ .text "<?php endif; ?>" ++ q).template).toOption =
      (job.convert (p ++ .hole "" e q).template).toOption := by
  have h := job.represents_inner
  have inner := h.inBranch
  have opens (rest : Part) : (Part.hole Piece.ifStart.written test rest).first.toList =
      "<?php".toList ++ " if ( ".toList := by
    change "<?php if ( ".toList = _
    rfl
  -- the two templates as renderings, and the parts of the first that end with a branch
  have rest := Job.puts_rendering h rfl free_q
  have literal := Part.Puts.beforeRegion h rfl free_p
    (.literalConditional test h rfl free_a free_b rest) (opens _)
  have generated := Part.Puts.aroundHole h rfl free_p (he.textsMarkerFree free_a free_b) rest
  have front := (Job.puts_rendering h rfl free_p).cursor_behind
  have second := Part.Puts.otherwise rfl (Job.puts_rendering inner rfl free_b)
  have first_end := (Part.Puts.beforeRegion h rfl free_p
    (.ifHead test h rfl (Job.puts_rendering inner rfl free_a)) (opens _)).cursor_behind
  have second_end := (Part.Puts.beforeRegion h rfl free_p (.ifHead test h rfl
    (.beforeRegion inner rfl free_a second (Part.first_region b rfl))) (opens _)).cursor_behind
  simp only [Part.append_assoc, Part.hole_append] at alike away ⊢
  refine literal.convert.trans (Eq.trans ?_ generated.convert.symm)
  rw [Rendering.andThen_text, Rendering.andThen_text]
  rw [Rendering.andThen_apply] at first_end second_end
  cases hfront : job.rendering [] p {} with
  | none => rfl
  | some x =>
    rw [hfront, Option.bind_some, Option.map_map] at first_end second_end
    rw [hfront] at front
    obtain ⟨s, hs, hk⟩ := Option.map_eq_some_iff.mp front
    rw [Option.bind_some, Option.bind_some, Job.literalConditional_eq he x.2 q]
    · intro y hy
      rw [hy] at first_end
      obtain ⟨s', hs', hk'⟩ := Option.map_eq_some_iff.mp first_end
      have same := alike s hs s' hs'
      rw [hk, hk'] at same
      exact same
    · intro y hy
      rw [hy] at second_end
      obtain ⟨s', hs', hk'⟩ := Option.map_eq_some_iff.mp second_end
      have ready := away s' hs'
      rw [hk'] at ready
      exact ready

/-- The value of the title of a list. -/
def titlePart : Part :=
  .hole "" (.member ⟨1, 0⟩ (.this ⟨1, 0⟩) "title" false) (.text "")

/-- A title in bold type, or a text, has the same output with a literal and with a generated
conditional. -/
theorem convert_literalConditional_title :
    (listJob.convert (Part.text "<p>" ++ .hole "" (.conditional ⟨1, 0⟩
        (.member ⟨1, 0⟩ (.this ⟨1, 0⟩) "title" false)
        (.tagged ⟨1, 0⟩ "html" ⟨1, 0⟩ (Part.text "<b>" ++ titlePart ++ .text "</b>").texts
          (Part.text "<b>" ++ titlePart ++ .text "</b>").holes)
        (.tagged ⟨1, 0⟩ "html" ⟨1, 0⟩ (Part.text "none").texts (Part.text "none").holes))
      (.text "</p>")).template).toOption =
      some ("<p><?php if ( $title ) : ?><b><?php echo esc_html( $title ); ?></b>"
        ++ "<?php else : ?>none<?php endif; ?></p>") := by
  have alike : ((listJob.behind (.text "<p>")).all fun s =>
      (listJob.behind (Part.text "<p>" ++ .hole "<?php if ( "
        (.member ⟨1, 0⟩ (.this ⟨1, 0⟩) "title" false) (.text " ) : ?>") ++
          (Part.text "<b>" ++ titlePart ++ .text "</b>"))).all fun s' =>
        decide (s.cursor.Alike s'.cursor)) = true := by decide +kernel
  have away : ((listJob.behind (Part.text "<p>" ++ .hole "<?php if ( "
        (.member ⟨1, 0⟩ (.this ⟨1, 0⟩) "title" false) (.text " ) : ?>") ++
          (Part.text "<b>" ++ titlePart ++ .text "</b>") ++ .text "<?php else : ?>" ++
            .text "none")).all fun s => decide (s.cursor.state ≠ .beforeValue)) = true := by
    decide +kernel
  have same := convert_literalConditional listJob (.text "<p>")
    (Part.text "<b>" ++ titlePart ++ .text "</b>") (.text "none") (.text "</p>")
    (.member ⟨1, 0⟩ (.this ⟨1, 0⟩) "title" false) _ (by decide +kernel) (by decide +kernel)
    (by decide +kernel) (by decide +kernel) (.mk ⟨1, 0⟩ ⟨1, 0⟩ ⟨1, 0⟩ ⟨1, 0⟩ ⟨1, 0⟩)
    (fun s hs s' hs' => by
      rw [Option.mem_def.mp hs, Option.all_some, Option.mem_def.mp hs'] at alike
      exact of_decide_eq_true alike)
    fun s hs => by
      rw [Option.mem_def.mp hs] at away
      exact of_decide_eq_true away
  exact same.symm.trans (by decide +kernel)

/-- Where the first branch ends in an attribute value, the second one is converted as part of the
value in a literal conditional, and as text in a generated one. -/
theorem convert_literalConditional_differs :
    (Part.text "<a href=\"").template.MarkerFree listJob.tag ∧
    titlePart.template.MarkerFree listJob.tag ∧ (Part.text "\">").template.MarkerFree listJob.tag ∧
    listJob.convert (Part.text "" ++
        .hole "<?php if ( " (.member ⟨1, 0⟩ (.this ⟨1, 0⟩) "title" false) (.text " ) : ?>") ++
        .text "<a href=\"" ++ .text "<?php else : ?>" ++ titlePart ++ .text "<?php endif; ?>" ++
        .text "\">").template =
      .ok ("<?php if ( $title ) : ?><a href=\"<?php else : ?><?php echo esc_url( $title ); ?>"
        ++ "<?php endif; ?>\">") ∧
    listJob.convert (Part.text "" ++ .hole "" (.conditional ⟨1, 0⟩
        (.member ⟨1, 0⟩ (.this ⟨1, 0⟩) "title" false)
        (.tagged ⟨1, 0⟩ "html" ⟨1, 0⟩ (Part.text "<a href=\"").texts (Part.text "<a href=\"").holes)
        (.tagged ⟨1, 0⟩ "html" ⟨1, 0⟩ titlePart.texts titlePart.holes)) (.text "\">")).template =
      .ok ("<?php if ( $title ) : ?><a href=\"<?php else : ?><?php echo esc_html( $title ); ?>"
        ++ "<?php endif; ?>\">") := by
  refine ⟨by decide +kernel, by decide +kernel, by decide +kernel, ?_, ?_⟩
  · exact eq_ok_of_toOption (by decide +kernel)
  · exact eq_ok_of_toOption (by decide +kernel)

end ServerTemplate
