import ServerTemplate.Proofs.Literal.Conditional
import ServerTemplate.Proofs.Marker.Reach
import ServerTemplate.Proofs.Scope.Over

/-!
# Templates behind one another

A template that is converted leaves nothing open, so a conversion that goes on behind it begins in
the scopes of the template (`Part.exists_of_convert`). If the markup is outside comments and tags
there, what follows is converted as it is alone. Two templates put behind one another therefore have
the output of the first and then that of the second, unless the last text of the first and the first
text of the second make a mark together, or a quote that the first leaves open is closed in the
second (`convert_append`).
-/

namespace ServerTemplate

open Emit

namespace Part

/-- The text with which a part ends. -/
def last : Part → String
  | text content => content
  | hole _ _ rest => rest.last

/-- A part without its last text. -/
def opening : Part → Part
  | text _ => text ""
  | hole content e rest => hole content e rest.opening

theorem opening_append_last (p : Part) : p.opening ++ text p.last = p := by
  induction p with
  | text content => exact congrArg text String.empty_append
  | hole content e rest ih => exact congrArg (hole content e) ih

theorem opening_append (p q : Part) : p ++ q = p.opening ++ q.prepend p.last := by
  induction p with
  | text content =>
    exact (congrArg (fun front => prepend front q) String.empty_append.symm).trans
      (prepend_prepend "" content q).symm
  | hole content e rest ih => exact congrArg (hole content e) ih

end Part

variable {job : Job} {p q : Part}

/-! ### One part after the other -/

/-- Of two states at the same place, nothing in front of the second. -/
theorem Emit.Parallel.output?_eq {r r' : EStateM.Result Diagnostic Progress Unit}
    (h : Parallel "" r r') : Emit.output? r' = Emit.output? r := by
  rw [h.output?]
  cases Emit.output? r with
  | none => rfl
  | some output => exact congrArg some String.empty_append

/-- A part that succeeds goes on from where it ends. -/
theorem Emit.run_bind {α β : Type} {x : Emit α} {f : α → Emit β} {a : α} {s s' : Progress}
    (h : x s = .ok a s') : (x >>= f) s = f a s' := by
  simp only [bind, EStateM.bind, h]

/-- A part behind another without a last text is written after it. -/
theorem Part.alongside_opening (p r : Part) (start start' : String) (index index' : Nat) :
    Alongside "" ((p.opening ++ r).lower job start index)
      (do p.opening.lower job start index; r.lower job start' index') := by
  induction p generalizing index with
  | text content =>
    have first : (Part.text "" ++ r).first = r.first :=
      (Part.first_text_append "" r).trans String.empty_append
    have rest : (Part.text "" ++ r).lowerRest job start index = r.lowerRest job start index :=
      Part.lowerRest_prepend "" r
    rw [Part.opening, Part.lower, first, rest]
    -- the empty text in front of the part is noted and not written
    intro s s' beside
    have noted : s.Beside "" (s'.noting (.chunk "")) :=
      ⟨beside.tracker, beside.cursor, beside.written⟩
    exact ((Alongside.chunk r.first).bind fun _ =>
      r.alongside_lowerRest start start' index index') s _ noted
  | hole content e rest ih =>
    have split : (Part.hole content e rest.opening).lower job start index = (do
        chunk content
        Emit.hole e (holeLabel start index)
          (ServerTemplate.lower job .value (holeLabel start index) e)
        rest.opening.lower job start (index + 1)) := rfl
    have joined : (Part.hole content e (rest.opening ++ r)).lower job start index = (do
        chunk content
        Emit.hole e (holeLabel start index)
          (ServerTemplate.lower job .value (holeLabel start index) e)
        (rest.opening ++ r).lower job start (index + 1)) := rfl
    rw [Part.opening, Part.hole_append, split, joined, bind_assoc]
    refine (Alongside.chunk content).bind fun _ => ?_
    rw [bind_assoc]
    exact (Alongside.hole ((job.alongside_lower "").1 .value _ e _)).bind fun _ => ih (index + 1)

/-- A text in front of a part, without a seam between them, is written before it. -/
theorem Part.parallel_prepend {s : Progress} {content : String} (flat : s.tracker.Flat)
    (seam : Seam s.tracker.inCode s.cursor content.toList q.first.toList) (start start' : String)
    (index index' : Nat) : Parallel "" ((q.prepend content).lower job start index s)
      ((do chunk content; q.lower job start' index') s) := by
  have whole := comesTo_chunk (content ++ q.first) flat
  have apart : ComesTo s (do chunk content; chunk q.first)
      ((s.tracker.over? s.cursor content).bind fun r => r.1.over? r.2 q.first)
      (content ++ q.first) :=
    (comesTo_chunk content flat).bind fun s₁ h₁ => comesTo_chunk q.first (flat.over? h₁).1
  have same : Option.Rel (fun r r' => r.1 = r'.1 ∧ r.2.Alike r'.2)
      (s.tracker.over? s.cursor (content ++ q.first))
      ((s.tracker.over? s.cursor content).bind fun r => r.1.over? r.2 q.first) := by
    rw [Tracker.over?_append flat seam]
    cases (s.tracker.over? s.cursor content).bind fun r => r.1.over? r.2 q.first with
    | none => exact .none
    | some r => exact .some ⟨rfl, .refl _⟩
  have texts : Parallel "" _ _ := whole.parallel apart same (String.empty_append ▸ rfl)
  have rest : Alongside "" (q.lowerRest job start index) (q.lowerRest job start' index') :=
    q.alongside_lowerRest start start' index index'
  have all := texts.bind fun _ => rest
  rw [Part.lower, Part.first_prepend, Part.lowerRest_prepend, Part.lower]
  rw [bind_assoc] at all
  exact all

/-! ### Behind a template -/

theorem Job.behind_eq_some {s : Progress} :
    job.behind p = some s ↔ p.lower job "" 0 (job.start.tracking job.inner) = .ok () s := by
  have same : (do enterScope .template; p.lower job "" 0) job.start =
      p.lower job "" 0 (job.start.tracking job.inner) := rfl
  rw [behind, same]
  cases p.lower job "" 0 (job.start.tracking job.inner) with
  | ok _ s' => exact ⟨fun h => congrArg _ (Option.some.inj h), fun h => by cases h; rfl⟩
  | error d s' => exact ⟨fun h => (by cases h), fun h => (by cases h)⟩

/-- The scopes behind a part are over those of the template. -/
theorem Part.over_behind {s : Progress} (h : job.behind p = some s) :
    ∃ n, job.inner.Over n s.tracker := by
  have known : Expr.AllIn (fun _ => True) p.holes := .of_forall (fun _ => trivial) _
  have steps := (lowersInSteps job fun _ => True).2 "" 0 p.holes p.texts known
    (job.start.tracking job.inner)
  rw [p.lowerParts_eq] at steps
  obtain ⟨n, -, above⟩ := (steps.of_ok (Job.behind_eq_some.mp h)).1.over (rfl : job.inner.Firm)
    (.refl rfl)
  exact ⟨n, above⟩

/-- Where the frame of a template can be left and nothing else is open, the scopes are those in
which it began. -/
theorem Emit.conclude_ok {s s' : Progress} {n : Nat} (above : job.inner.Over n s.tracker)
    (concluded : conclude s = .ok () s') : s.tracker = job.inner ∧ s'.written = s.written := by
  have run : After conclude s (fun _ s' => s.tracker = job.inner ∧ s'.written = s.written)
      fun _ _ => True := by
    unfold conclude
    rw [after_bind]
    refine after_exitScope (fun frame t left => ?_) fun _ _ => trivial
    rw [after_bind, after_tracker]
    refine after_ofExcept (fun _ finished => ⟨?_, rfl⟩) fun _ _ => trivial
    rw [Progress.tracking_tracker, Tracker.finish] at finished
    split at finished
    · cases finished
    split at finished
    · cases finished
    rename_i hlength hregions
    obtain ⟨hframes, -⟩ := Tracker.frames_exit left
    obtain ⟨-, -, same⟩ := Tracker.exit_frame left
    -- two frames are open, and those are the frames of the template and the root
    obtain ⟨inner, houter, -⟩ := above.frames
    have length : s.tracker.frames.length = 2 := by
      rw [hframes, List.length_cons, Decidable.not_not.mp hlength]
    have none : inner = [] := by
      rw [houter, List.length_append] at length
      exact List.length_eq_zero_iff.mp (Nat.add_right_cancel (m := 2) (k := 0) length)
    have frames : s.tracker.frames = job.inner.frames := by rw [houter, none, List.nil_append]
    have regions : s.tracker.regions = job.inner.regions := by
      rw [← same, Decidable.not_not.mp hregions]
      rfl
    exact above.eq_of_frames frames regions
  exact run.of_ok concluded

/-- A template that is converted leads back to the scopes in which it began. -/
theorem Part.exists_of_convert {output : String} (h : job.convert p.template = .ok output) :
    ∃ s, job.behind p = some s ∧ s.tracker = job.inner ∧ s.written = output := by
  have run := job.output?_lowerTemplate p.template
  rw [h, p.lowerTemplate_eq] at run
  have run : some output = output? ((do p.lower job "" 0; conclude)
    (job.start.tracking job.inner)) := run
  simp only [bind, EStateM.bind] at run
  cases hs : p.lower job "" 0 (job.start.tracking job.inner) with
  | error d s => rw [hs] at run; cases run
  | ok _ s =>
    have behind := Job.behind_eq_some.mpr hs
    obtain ⟨n, above⟩ := over_behind behind
    rw [hs] at run
    dsimp only at run
    cases concluded : conclude s with
    | error d s' => rw [concluded] at run; cases run
    | ok _ s' =>
      obtain ⟨tracker, written⟩ := conclude_ok above concluded
      rw [concluded] at run
      exact ⟨s, behind, tracker, written.symm.trans (Option.some.inj run).symm⟩

/-- In a part that is converted, the last text is written behind the rest. -/
theorem Part.exists_before_last {s : Progress} (h : job.behind p = some s) :
    ∃ s₁ s', job.behind p.opening = some s₁ ∧ chunk p.last s₁ = .ok () s' ∧ s.Beside "" s' := by
  have start : (job.start.tracking job.inner).Beside "" (job.start.tracking job.inner) :=
    ⟨rfl, .refl _, String.empty_append.symm⟩
  have opened : Alongside "" ((p.opening ++ .text p.last).lower job "" 0)
      (do p.opening.lower job "" 0; (Part.text p.last).lower job "" 0) :=
    p.alongside_opening (.text p.last) "" "" 0 0
  have apart := opened _ _ start
  rw [p.opening_append_last, Job.behind_eq_some.mp h] at apart
  simp only [bind, EStateM.bind] at apart
  cases run : p.opening.lower job "" 0 (job.start.tracking job.inner) with
  | error d s₁ => rw [run] at apart; cases apart
  | ok _ s₁ =>
    rw [run] at apart
    have apart : Parallel "" (.ok () s) ((do chunk p.last; pure ()) s₁) := apart
    rw [bind_pure_unit] at apart
    cases last : chunk p.last s₁ with
    | error d s' => rw [last] at apart; cases apart
    | ok _ s' =>
      rw [last] at apart
      cases apart with
      | ok beside => exact ⟨s₁, s', Job.behind_eq_some.mpr run, last, beside⟩

/-- Two templates behind one another have the output of the first and then that of the second. The
markup behind the first is outside comments and tags, no mark is made of the end of one and the
beginning of the other, and no quote that the last text of the first leaves open is closed in the
first text of the second. -/
theorem convert_append (job : Job) {p q : Part} {front back : String}
    (first : job.convert p.template = .ok front) (second : job.convert q.template = .ok back)
    (text : ∀ s ∈ job.behind p, s.cursor.state = .text)
    (tags : ¬ TagCut p.last.toList q.first.toList)
    (comment : ¬ WordCut "<!--".toList p.last.toList q.first.toList)
    (opener : ¬ OpenerCut p.last.toList q.first.toList)
    (closed : ∀ s ∈ job.behind p.opening,
      quoteReaches s.tracker.inCode p.last.toList q.first.toList = false) :
    job.convert (p ++ q).template = .ok (front ++ back) := by
  obtain ⟨s, hs, tracker, written⟩ := Part.exists_of_convert first
  obtain ⟨s₁, s', hs₁, last, beside⟩ := Part.exists_before_last hs
  obtain ⟨n, outer⟩ := Part.over_behind hs₁
  have state : s'.cursor.state = .text := beside.cursor.state.symm.trans (text s hs)
  have tracker' : s'.tracker = job.inner := beside.tracker.trans tracker
  have written' : s'.written = front := by rw [beside.written, written, String.empty_append]
  obtain ⟨crossed, -⟩ := (comesTo_chunk p.last outer.flat).of_ok last
  have seam : Seam s₁.tracker.inCode s₁.cursor p.last.toList q.first.toList := by
    have region := (outer.flat.over? crossed).2
    rw [tracker'] at region
    refine .of_markup region.symm tags (closed s₁ hs₁) (Bool.eq_false_iff.mpr fun past => ?_)
    rw [Tracker.cursor_of_over? crossed] at state
    exact (cut_of_looksPast_heeded state past).elim comment opener
  -- the second template alone, and behind the first
  let begun := job.start.tracking job.inner
  have alone : begun.Beside front s' := by
    refine ⟨tracker', ?_, written'.trans String.append_empty.symm⟩
    rw [Cursor.Alike, Cursor.live, Cursor.live, state]
    rfl
  have behind : Parallel front ((do q.lower job "" 0; conclude) begun)
      ((do q.lower job "" 0; conclude) s') :=
    Parallel.bind ((q.alongside_lower "" "" 0 0) begun s' alone) fun _ => .conclude
  have joined : Parallel "" ((do (q.prepend p.last).lower job "" 0; conclude) s₁)
      ((do (do chunk p.last; q.lower job "" 0); conclude) s₁) :=
    (Part.parallel_prepend outer.flat seam "" "" 0 0).bind fun _ => .conclude
  have whole : Parallel "" ((do (p ++ q).lower job "" 0; conclude) begun)
      ((do (do p.opening.lower job "" 0; (q.prepend p.last).lower job "" 0); conclude) begun) := by
    rw [Part.opening_append]
    refine Parallel.bind ?_ fun _ => .conclude
    exact p.alongside_opening _ "" "" 0 0 begun begun ⟨rfl, .refl _, String.empty_append.symm⟩
  have second_ran : output? ((do q.lower job "" 0; conclude) begun) = some back := by
    have run := job.output?_lowerTemplate q.template
    rw [second, q.lowerTemplate_eq] at run
    exact run.symm
  have opened : ((do (do p.opening.lower job "" 0; (q.prepend p.last).lower job "" 0); conclude) :
      Emit Unit) begun = (do (q.prepend p.last).lower job "" 0; conclude : Emit Unit) s₁ := by
    rw [bind_assoc, run_bind (Job.behind_eq_some.mp hs₁)]
  have closed_last : ((do (do chunk p.last; q.lower job "" 0); conclude) : Emit Unit) s₁ =
      (do q.lower job "" 0; conclude : Emit Unit) s' := by
    rw [bind_assoc, run_bind last]
  refine eq_ok_of_toOption ((job.output?_lowerTemplate (p ++ q).template).trans ?_)
  rw [(p ++ q).lowerTemplate_eq]
  change output? ((do (p ++ q).lower job "" 0; conclude) begun) = _
  rw [← whole.output?_eq, opened, ← joined.output?_eq, closed_last, behind.output?, second_ran]
  rfl

/-! ### Two templates -/

/-- A list behind a text with a literal region. -/
theorem convert_append_title :
    listJob.convert (Part.text "<p><?php // 1 ?></p>" ++
      (Part.text "don't <?php echo \"1\"; ?><b>" ++ titlePart ++ .text "</b>")).template =
      .ok ("<p><?php // 1 ?></p>" ++
        "don't <?php echo \"1\"; ?><b><?php echo esc_html( $title ); ?></b>") := by
  have alone : (listJob.convert (Part.text "<p><?php // 1 ?></p>").template).toOption =
      some "<p><?php // 1 ?></p>" := by decide +kernel
  have behind : (listJob.convert (Part.text "don't <?php echo \"1\"; ?><b>" ++ titlePart ++
      .text "</b>").template).toOption =
      some "don't <?php echo \"1\"; ?><b><?php echo esc_html( $title ); ?></b>" := by
    decide +kernel
  have state : ((listJob.behind (.text "<p><?php // 1 ?></p>")).all fun s =>
      decide (s.cursor.state = .text)) = true := by decide +kernel
  have closed : ((listJob.behind (Part.text "<p><?php // 1 ?></p>").opening).all fun s =>
      !quoteReaches s.tracker.inCode "<p><?php // 1 ?></p>".toList
        "don't <?php echo \"1\"; ?><b>".toList) = true := by decide +kernel
  refine convert_append listJob (eq_ok_of_toOption alone) (eq_ok_of_toOption behind)
    (fun s hs => ?_) (by decide +kernel) (by decide +kernel) (by decide +kernel) fun s hs => ?_
  · rw [Option.mem_def.mp hs] at state
    exact of_decide_eq_true state
  · rw [Option.mem_def.mp hs] at closed
    exact Bool.not_eq_true' _ ▸ closed

/-- The apostrophe in a comment is closed by one in the text behind the region, so the region is not
seen to end, although each of the texts is converted alone. -/
theorem convert_append_differs :
    (listJob.convert (Part.text "<?php // it's ?>").template).toOption = some "<?php // it's ?>" ∧
    (listJob.convert (Part.text "don't").template).toOption = some "don't" ∧
    ((listJob.behind (.text "<?php // it's ?>")).all fun s =>
      decide (s.cursor.state = .text)) = true ∧
    ¬ TagCut "<?php // it's ?>".toList "don't".toList ∧
    ¬ WordCut "<!--".toList "<?php // it's ?>".toList "don't".toList ∧
    ¬ OpenerCut "<?php // it's ?>".toList "don't".toList ∧
    (listJob.convert (Part.text "<?php // it's ?>" ++ .text "don't").template).toOption = none := by
  refine ⟨?_, ?_, ?_, ?_, ?_, ?_, ?_⟩ <;> decide +kernel

end ServerTemplate
