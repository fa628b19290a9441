import ServerTemplate.Proofs.Literal.Concatenation
import ServerTemplate.Proofs.Rescan.Scanned

/-!
# Output as a template

What a template without markers is converted to may be converted again, as the only text of a
template without holes. The scanner finds in it the marks that its pieces are meant to have
(`Nested.scanned`), which open and leave the scopes in pairs, unless there is a count of results
among the pieces: for the scanner it begins a conditional that nothing ends. So the output is
converted to itself if and only if no count of results is in it (`convert_output_iff`).
-/

namespace ServerTemplate

open Emit

/-! ### Marks and scopes -/

/-- How many frames more are open behind a marker. -/
def Marker.depth : Marker → Int
  | loop .. | conditional => 1
  | endLoop | endConditional => -1
  | openCode | closeCode | quoted => 0

/-- How many frames more are open behind markers. -/
def depthOf : List Marker → Int
  | [] => 0
  | found :: ms => found.depth + depthOf ms

namespace Tracker

variable {job : Job} {loops : Loops} {t t' : Tracker} {array item : String}

/-- The scopes behind markers, unless one of them does not fit. -/
def behindAll? (t : Tracker) : List Marker → Option Tracker
  | [] => some t
  | found :: rest => (t.behind found).toOption.bind fun t' => t'.behindAll? rest

theorem behindAll?_append (t : Tracker) (ms ms' : List Marker) :
    t.behindAll? (ms ++ ms') = (t.behindAll? ms).bind fun t' => t'.behindAll? ms' := by
  induction ms generalizing t with
  | nil => rfl
  | cons found ms ih =>
    rw [List.cons_append, behindAll?, behindAll?]
    cases (t.behind found).toOption with
    | none => rfl
    | some t' => exact ih t'

/-- Markers one after the other lead where the second lead from where the first lead. -/
theorem behindAll?_trans {t'' : Tracker} {ms ms' : List Marker} (h : t.behindAll? ms = some t')
    (h' : t'.behindAll? ms' = some t'') : t.behindAll? (ms ++ ms') = some t'' := by
  rw [behindAll?_append, h, Option.bind_some, h']

/-- Of segments only the marks change the scopes. -/
theorem follow?_eq (t : Tracker) (xs : List Segment) :
    t.follow? xs = t.behindAll? (Segment.marks xs) := by
  induction xs generalizing t with
  | nil => rfl
  | cons x xs ih =>
    cases x with
    | text content => exact ih t
    | marker found =>
      cases found with
      | quoted => exact ih t
      | _ => exact congrArg (t.behind _).toOption.bind (funext ih)

/-- A marker opens and leaves as many frames as its depth says. -/
theorem length_behind {found : Marker} (nonempty : t.frames ≠ []) (h : t.behind found = .ok t') :
    (t'.frames.length : Int) = t.frames.length + found.depth ∧ t'.frames ≠ [] := by
  have same (hframes : t'.frames = t.frames) :
      (t'.frames.length : Int) = t.frames.length + 0 ∧ t'.frames ≠ [] :=
    ⟨by rw [hframes, Int.add_zero], hframes ▸ nonempty⟩
  have longer {frame : Frame} (hframes : t'.frames = frame :: t.frames) :
      (t'.frames.length : Int) = t.frames.length + 1 ∧ t'.frames ≠ [] := by
    rw [hframes]
    exact ⟨rfl, List.cons_ne_nil _ _⟩
  have shorter {kind : FrameKind} (h : (t.exit (some kind)).map Prod.snd = .ok t') :
      (t'.frames.length : Int) = t.frames.length + -1 ∧ t'.frames ≠ [] := by
    obtain ⟨frame, left⟩ := exists_exit_of_map h
    obtain ⟨hframes, outer⟩ := frames_exit left
    rw [hframes, List.length_cons]
    exact ⟨by omega, outer⟩
  cases found with
  | quoted =>
    cases h
    exact same rfl
  | openCode =>
    rw [behind] at h
    split at h
    · cases h
    · cases h
      exact same rfl
  | closeCode =>
    rw [behind] at h
    split at h
    · exact same (frames_leaveCode h)
    · cases h
  | loop array item =>
    rw [behind] at h
    cases seen : t.requireVisible array "template-foreach" with
    | error d => rw [seen] at h; cases h
    | ok _ =>
      rw [seen] at h
      cases h
      exact longer (frames_enterLoop nonempty item array)
  | conditional =>
    cases h
    exact longer rfl
  | endLoop => exact shorter h
  | endConditional => exact shorter h

theorem length_behindAll? {ms : List Marker} (nonempty : t.frames ≠ [])
    (h : t.behindAll? ms = some t') : (t'.frames.length : Int) = t.frames.length + depthOf ms := by
  induction ms generalizing t with
  | nil =>
    cases h
    exact (Int.add_zero _).symm
  | cons found ms ih =>
    obtain ⟨t₁, behind, h⟩ := Option.bind_eq_some_iff.mp h
    obtain ⟨length, nonempty₁⟩ := length_behind nonempty (eq_ok_of_toOption behind)
    have rest := ih nonempty₁ h
    rw [rest, length, depthOf, Int.add_assoc]

/-! ### Regions -/

theorem behindAll?_region (markup : t.inCode = false) :
    t.behindAll? [.openCode, .closeCode] = some t := by
  rw [behindAll?, behind, markup]
  rfl

/-- The head of a loop opens it, if the array is visible. -/
theorem behindAll?_loopStart (nonempty : t.frames ≠ []) (markup : t.inCode = false)
    (visible : t.isVisible array = true) :
    t.behindAll? [.openCode, .loop array item, .closeCode] = some (t.inLoop array item) := by
  have opened : t.behind .openCode = .ok t.enterCode := by rw [behind, markup]; rfl
  have entered : t.enterCode.behind (.loop array item) = .ok (t.inLoop array item).enterCode := by
    have seen : t.enterCode.requireVisible array "template-foreach" = .ok () := if_pos visible
    rw [behind, seen, ← enterLoop_enterCode nonempty]
    rfl
  rw [behindAll?, opened, Except.toOption, Option.bind_some, behindAll?, entered]
  rfl

theorem behindAll?_loopEnd (nonempty : t.frames ≠ []) (markup : t.inCode = false) :
    (t.inLoop array item).behindAll? [.openCode, .endLoop, .closeCode] = some t := by
  obtain ⟨frame, left⟩ := exit_inLoop nonempty array item
  have opened : (t.inLoop array item).behind .openCode = .ok (t.inLoop array item).enterCode :=
    if_neg (Bool.eq_false_iff.mp markup)
  have ended : (t.inLoop array item).enterCode.behind .endLoop = .ok t.enterCode := by
    rw [behind, left]
    rfl
  rw [behindAll?, opened, Except.toOption, Option.bind_some, behindAll?, ended]
  rfl

theorem behindAll?_ifStart (markup : t.inCode = false) :
    t.behindAll? [.openCode, .conditional, .closeCode] = some t.inBranch := by
  have opened : t.behind .openCode = .ok t.enterCode := by rw [behind, markup]; rfl
  rw [behindAll?, opened]
  rfl

theorem behindAll?_ifEnd (nonempty : t.frames ≠ []) (markup : t.inCode = false) :
    t.inBranch.behindAll? [.openCode, .endConditional, .closeCode] = some t := by
  obtain ⟨frame, left⟩ := exit_enter (t := t.enterCode) nonempty .conditional
  have opened : t.inBranch.behind .openCode = .ok t.inBranch.enterCode :=
    if_neg (Bool.eq_false_iff.mp markup)
  have ended : t.inBranch.enterCode.behind .endConditional = .ok t.enterCode :=
    congrArg (Except.map Prod.snd) left
  rw [behindAll?, opened, Except.toOption, Option.bind_some, behindAll?, ended]
  rfl

end Tracker

/-! ### Nested blocks -/

/-- Whether a piece is a count of results. -/
def Piece.isResultCount : Piece → Bool
  | resultCount .. => true
  | _ => false

theorem depthOf_append (ms ms' : List Marker) : depthOf (ms ++ ms') = depthOf ms + depthOf ms' := by
  induction ms with
  | nil => exact (Int.zero_add _).symm
  | cons found ms ih => rw [List.cons_append, depthOf, depthOf, ih, Int.add_assoc]

/-- How many frames more are open behind pieces. -/
def Piece.depthOf (ps : List Piece) : Int := ServerTemplate.depthOf (ps.flatMap Piece.marks)

/-- Of the frames that pieces open, those stay open that are opened by counts of results. -/
def Level (ps : List Piece) : Prop := Piece.depthOf ps = ps.countP Piece.isResultCount

namespace Level

variable {ps qs : List Piece} {test : List Piece} {first second : Outline}

theorem append (h : Level ps) (h' : Level qs) : Level (ps ++ qs) := by
  rw [Level, Piece.depthOf, List.flatMap_append, depthOf_append, List.countP_append]
  exact (congrArg₂ (· + ·) h h').trans (Int.natCast_add _ _).symm

/-- A block around pieces. -/
theorem block {p q : Piece} (h : Level ps) (opens : ServerTemplate.depthOf p.marks = 1)
    (closes : ServerTemplate.depthOf q.marks = -1) (begins : p.isResultCount = false)
    (ends : q.isResultCount = false) : Level (p :: ps ++ [q]) := by
  have count : (p :: ps ++ [q]).countP Piece.isResultCount = ps.countP Piece.isResultCount := by
    simp [begins, ends]
  rw [Level, count, ← h, Piece.depthOf, Piece.depthOf, List.cons_append, List.flatMap_cons,
    List.flatMap_append, depthOf_append, depthOf_append, List.flatMap_singleton, opens, closes]
  omega

theorem of_bare (bare : Bare test false) : Level test := by
  have none : test.countP Piece.isResultCount = 0 := by
    refine List.countP_eq_zero.mpr fun p hp => ?_
    have marks := List.flatMap_eq_nil_iff.mp bare.marks p hp
    cases p <;> first | exact Bool.false_ne_true | cases marks
  rw [Level, Piece.depthOf, bare.marks, none]
  rfl

end Level

namespace Nested

variable {job : Job} {loops : Loops} {t : Tracker} {ps : List Piece}

/-- Of nested blocks only counts of results are not left. -/
theorem level (h : Nested job loops ps) : Level ps := by
  induction h with
  | nil | text | echo | resultCount | currentYear | stars => rfl
  | append _ _ front behind => exact front.append behind
  | guard bare _ body =>
    have tested : Level [.ifTested] := rfl
    have all := (Level.of_bare bare).append (tested.append body)
    exact all.block (p := .ifStart) (q := .ifEnd) rfl rfl rfl rfl
  | branch bare _ _ first second =>
    have tested : Level [.ifTested] := rfl
    have otherwise : Level [.otherwise] := rfl
    have branches := tested.append (first.append (otherwise.append second))
    have all := ((Level.of_bare bare).append branches).block (p := .ifStart) (q := .ifEnd) rfl rfl
      rfl rfl
    simpa only [List.cons_append, List.nil_append, List.append_assoc] using all
  | loop _ _ _ _ body => exact body.block rfl rfl rfl rfl

/-- Nested blocks without a count of results lead back to the scopes in which they begin. -/
theorem behindAll?_eq (h : Nested job loops ps) (represents : job.Represents loops t)
    (markup : t.inCode = false) (counts : ∀ p ∈ ps, p.isResultCount = false) :
    t.behindAll? (ps.flatMap Piece.marks) = some t := by
  have region {t : Tracker} (markup : t.inCode = false) := Tracker.behindAll?_region markup
  induction h generalizing t with
  | nil | text => rfl
  | echo | currentYear => exact region markup
  | stars =>
    have two := Tracker.behindAll?_trans (region markup) (region markup)
    exact (Tracker.behindAll?_trans (region markup) two :)
  | resultCount => cases counts _ (List.mem_singleton_self _)
  | append _ _ front behind =>
    rw [List.flatMap_append]
    exact Tracker.behindAll?_trans
      (front represents markup fun p hp => counts p (List.mem_append_left _ hp))
      (behind represents markup fun p hp => counts p (List.mem_append_right _ hp))
  | guard bare _ body =>
    have inside := body represents.inBranch markup fun p hp => counts p (by simp [hp])
    have ended := Tracker.behindAll?_ifEnd represents.sound.nonempty markup
    have all := Tracker.behindAll?_trans (Tracker.behindAll?_ifStart markup)
      (Tracker.behindAll?_trans inside ended)
    rw [bare.marks_guard]
    exact all
  | branch bare _ _ first second =>
    have inside := first represents.inBranch markup fun p hp => counts p (by simp [hp])
    have inside' := second represents.inBranch markup fun p hp => counts p (by simp [hp])
    have ended := Tracker.behindAll?_ifEnd represents.sound.nonempty markup
    have all := Tracker.behindAll?_trans (Tracker.behindAll?_ifStart markup)
      (Tracker.behindAll?_trans inside (Tracker.behindAll?_trans (region markup)
        (Tracker.behindAll?_trans inside' ended)))
    rw [bare.marks_branch]
    exact all
  | loop _ _ seen _ body =>
    have inside := body represents.inLoop markup fun p hp => counts p (by simp [hp])
    have nonempty := represents.sound.nonempty
    have visible := (represents.isVisible _).trans seen
    have all := Tracker.behindAll?_trans (Tracker.behindAll?_loopStart nonempty markup visible)
      (Tracker.behindAll?_trans inside (Tracker.behindAll?_loopEnd nonempty markup))
    rw [List.flatMap_append]
    exact all

end Nested

/-! ### A template that is one text -/

/-- A text in markup leads where its marks lead. -/
theorem Tracker.over?_eq_behindAll? {t : Tracker} (markup : t.inCode = false) (k : Cursor)
    (content : String) : t.over? k content = (t.behindAll? (marks content.toList)).map fun t' =>
      (t', Segment.walk k (heeded t.inCode content.toList)) := by
  have same : Segment.marks (heeded t.inCode content.toList) = marks content.toList := by
    rw [markup]
    exact Segment.marks_heeded false _
  rw [over?, follow?_eq, same]

theorem Emit.replays_of_behindAll? {t t' : Tracker} {content : String} (flat : t.Flat)
    (markup : t.inCode = false) (h : t.behindAll? (marks content.toList) = some t') :
    Replays t t' (t.segments content) fun k =>
      some (Segment.walk k (heeded t.inCode content.toList)) := by
  intro s hs
  have replayed : Segment.replay? (t.segments content) s.tracker s.cursor =
      some (t', Segment.walk s.cursor (heeded t.inCode content.toList)) := by
    have crossed : Segment.replay? (t.segments content) t s.cursor = t.over? s.cursor content :=
      flat.replay?_eq s.cursor _
    rw [hs, crossed, Tracker.over?_eq_behindAll? markup, h]
    rfl
  have run := after_replayAll_replay (t.segments content) s
  rw [replayed] at run
  refine run.mono (fun _ s' ⟨same, pieces⟩ => ?_) fun _ _ failed => by cases failed
  obtain ⟨tracker, cursor⟩ := Prod.mk.inj (Option.some.inj same)
  exact ⟨tracker.symm, congrArg some cursor, pieces⟩

/-- A text is converted to itself if its marks lead back to where they begin. -/
theorem Job.convert_text_iff (job : Job) (content : String) :
    job.convert (Part.text content).template = .ok content ↔
      job.inner.behindAll? (marks content.toList) = some job.inner := by
  refine ⟨fun converted => ?_, fun behind => ?_⟩
  · obtain ⟨s, behind, tracker, -⟩ := Part.exists_of_convert converted
    have lowered : (Part.text content).lower job "" 0 = chunk content := bind_pure_unit
    have run := Job.behind_eq_some.mp behind
    rw [lowered] at run
    obtain ⟨crossed, -⟩ := (comesTo_chunk (s := job.start.tracking job.inner) content rfl).of_ok run
    obtain ⟨t, ht, same⟩ := Option.map_eq_some_iff.mp
      ((Tracker.over?_eq_behindAll? rfl _ content).symm.trans crossed)
    rw [tracker] at same
    obtain ⟨rfl, -⟩ := Prod.mk.inj same
    exact ht
  · have replays := replays_of_behindAll? (t := job.inner) rfl rfl behind
    have put : (Part.text content).Puts job job.inner job.inner _ := .text replays
    exact eq_ok_of_toOption put.convert

/-! ### Whole conversions -/

/-- The blocks of a template without markers are nested. -/
theorem Job.nested_of_pieces (job : Job) {template : Template} {pieces : List Piece}
    (free : template.MarkerFree job.tag) (legible : Expr.AllIn Expr.Legible template.holes)
    (h : job.pieces template = .ok pieces) : Nested job [] pieces := by
  rw [job.pieces_eq_map_outline free] at h
  cases outlined : job.outline template with
  | error d => rw [outlined] at h; cases h
  | ok o =>
    rw [outlined] at h
    cases h
    have texts : Piece.TextsMarkerFree o.pieces := by
      intro content hcontent
      refine free content ?_
      rw [← Job.skeleton_outline outlined]
      exact List.mem_filter.mpr ⟨hcontent, rfl⟩
    obtain ⟨⟨_, k⟩, parts, same⟩ := exists_ok_of_bind outlined
    cases same
    exact job.translates_nested.induct.2 _ _ _ _ _ _ _ _ parts nofun legible texts

/-- **Output as a template.** The output of a template without markers, taken for a template without
holes, is converted to itself if and only if no count of results is in it. The names of the template
are no words of blocks, and its texts make no mark together with what is written behind them. -/
theorem convert_output_iff (job : Job) {template : Template} {pieces : List Piece}
    (free : template.MarkerFree job.tag) (legible : Expr.AllIn Expr.Legible template.holes)
    (converted : job.pieces template = .ok pieces) (seamless : Piece.Seamless pieces) :
    job.convert (Part.text (Piece.writtenAll pieces)).template = .ok (Piece.writtenAll pieces) ↔
      ∀ piece ∈ pieces, piece.isResultCount = false := by
  have nested := job.nested_of_pieces free legible converted
  have found : marks (Piece.writtenAll pieces).toList = pieces.flatMap Piece.marks := by
    have scanned := nested.scanned [] (by rwa [List.append_nil])
    rw [List.append_nil] at scanned
    exact scanned.trans (List.append_nil _)
  rw [job.convert_text_iff, found]
  refine ⟨fun behind => ?_, nested.behindAll?_eq job.represents_inner rfl⟩
  -- as many frames are open in the end as there are counts of results
  have length := Tracker.length_behindAll? job.represents_inner.sound.nonempty behind
  have level : Piece.depthOf pieces = _ := nested.level
  have none : pieces.countP Piece.isResultCount = 0 := by
    rw [Piece.depthOf] at level
    omega
  exact fun piece hpiece => Bool.eq_false_iff.mpr (List.countP_eq_zero.mp none piece hpiece)

/-- The output for a list with a loop and a conditional is converted to itself. -/
theorem convert_output_iff_list :
    ∃ pieces, listJob.pieces listTemplate = .ok pieces ∧
      Piece.writtenAll pieces = "<ul><?php foreach ( $items as $item ) : ?>"
        ++ "<a href=\"<?php echo esc_url( $item['url'] ); ?>\"><?php endforeach; ?></ul>"
        ++ "<?php if ( $title ) : ?><b><?php echo esc_html( $title ); ?><?php endif; ?>." ∧
      listJob.convert (Part.text (Piece.writtenAll pieces)).template =
        .ok (Piece.writtenAll pieces) := by
  have free : listTemplate.MarkerFree listJob.tag := by decide +kernel
  have legible : Expr.AllIn Expr.Legible listTemplate.holes := by
    have names : WordName "items" ∧ EchoName "items" ∧ WordName "item" ∧ EchoName "item" ∧
        EchoName "title" := by decide +kernel
    simp [listTemplate, Expr.AllIn, Expr.All, Expr.Legible, names]
  have known : ((listJob.pieces listTemplate).toOption.any fun pieces =>
      decide (Piece.Seamless pieces) && pieces.all (!·.isResultCount) &&
        Piece.writtenAll pieces == "<ul><?php foreach ( $items as $item ) : ?>"
          ++ "<a href=\"<?php echo esc_url( $item['url'] ); ?>\"><?php endforeach; ?></ul>"
          ++ "<?php if ( $title ) : ?><b><?php echo esc_html( $title ); ?><?php endif; ?>.") =
      true := by decide +kernel
  obtain ⟨pieces, converted, known⟩ := (Option.any_eq_true ..).mp known
  have converted := eq_ok_of_toOption converted
  simp only [Bool.and_eq_true, decide_eq_true_eq, List.all_eq_true, Bool.not_eq_true',
    beq_iff_eq] at known
  obtain ⟨⟨seamless, counts⟩, written⟩ := known
  exact ⟨pieces, converted, written,
    (convert_output_iff listJob free legible converted seamless).mpr counts⟩

/-- A component with a number of results and a parameter with the name of a word. -/
def resultsJob : Job :=
  { listJob with
    declaration :=
      { name := .str "Results"
        parameters := [⟨"totalResults", "number", .null, some .html⟩,
          ⟨"endif", "string", .null, some .html⟩]
        arrayFields := [] } }

/-- The count of results begins a conditional for the scanner, which nothing ends, and a variable is
taken for the end of one. So neither output is converted. -/
theorem convert_output_differs :
    (Part.hole "" (.call ⟨1, 0⟩ (.member ⟨1, 0⟩ (.this ⟨1, 0⟩) "formatResultCount" false) [])
      (.text "")).template.MarkerFree resultsJob.tag ∧
    resultsJob.convert (Part.hole "" (.call ⟨1, 0⟩
      (.member ⟨1, 0⟩ (.this ⟨1, 0⟩) "formatResultCount" false) []) (.text "")).template =
      .ok ("<?php if ( 0 === (int) $totalResults ) \x7b echo esc_html( 'none' ); \x7d "
        ++ "elseif ( 1 === (int) $totalResults ) \x7b echo esc_html( 'one' ); \x7d "
        ++ "else \x7b echo esc_html( 'many' ); \x7d ?>") ∧
    (resultsJob.convert (Part.text
      ("<?php if ( 0 === (int) $totalResults ) \x7b echo esc_html( 'none' ); \x7d "
        ++ "elseif ( 1 === (int) $totalResults ) \x7b echo esc_html( 'one' ); \x7d "
        ++ "else \x7b echo esc_html( 'many' ); \x7d ?>")).template).toOption = none ∧
    (Part.hole "" (.member ⟨1, 0⟩ (.this ⟨1, 0⟩) "endif" false)
      (.text "")).template.MarkerFree resultsJob.tag ∧
    resultsJob.convert (Part.hole "" (.member ⟨1, 0⟩ (.this ⟨1, 0⟩) "endif" false)
      (.text "")).template = .ok "<?php echo esc_html( $endif ); ?>" ∧
    (resultsJob.convert (Part.text "<?php echo esc_html( $endif ); ?>").template).toOption =
      none := by
  refine ⟨by decide +kernel, eq_ok_of_toOption (by decide +kernel), by decide +kernel,
    by decide +kernel, eq_ok_of_toOption (by decide +kernel), by decide +kernel⟩

end ServerTemplate
