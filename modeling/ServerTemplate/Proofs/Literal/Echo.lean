import ServerTemplate.Proofs.Literal.Conditional
import ServerTemplate.Proofs.Region.Scan
import ServerTemplate.Script.Lexeme

/-!
# Literal and generated echoes

What is written for `this.name` is a region of code that echoes a variable. Written in the text of a
template the same region is kept as it stands, and what is behind it is converted as behind the
value (`convert_literalEcho`), unless the cursor waits for an attribute value: a literal region does
not tell the cursor that there is a value now (`convert_literalEcho_differs`). The scanner takes the
name of a variable for a marker if it is called like the end of a loop or a conditional.
-/

namespace ServerTemplate

open Emit

/-! ### Names in code -/

/-- A character that may stand in the name of a variable: none that begins a string, that opens or
closes a region or that follows the word of a block. -/
def isVariableChar (c : Char) : Bool := isPlain c && c != '('

/-- The words that end a block. -/
def blockEnds : List String := ["endif", "endforeach"]

/-- No word that begins in a name behind `before` is the end of a block. -/
def endsNoBlock (before : Option Char) : List Char → Bool
  | [] => true
  | c :: cs =>
    !(Marker.noWord before && blockEnds.contains (.ofList ((c :: cs).takeWhile Text.isWordChar)))
      && endsNoBlock (some c) cs

/-- The scanner finds no marker in the name of a variable. -/
structure EchoName (name : String) : Prop where
  chars : ∀ c ∈ name.toList, isVariableChar c = true
  words : endsNoBlock (some '$') name.toList = true

instance (name : String) : Decidable (EchoName name) :=
  decidable_of_iff (name.toList.all isVariableChar = true ∧ _)
    ⟨fun h => ⟨List.all_eq_true.mp h.1, h.2⟩, fun h => ⟨List.all_eq_true.mpr h.chars, h.words⟩⟩

example : EchoName "title" ∧ EchoName "endifs" ∧ ¬ EchoName "endif" := by decide +kernel

namespace Marker

variable {before : Option Char} {name tail : List Char}

/-- A plain character may only begin a word. -/
theorem at?_plain {c : Char} (hc : isPlain c = true) (rest : List Char) :
    at? true before (c :: rest) =
      if noWord before then
        (((word? "endforeach" endLoop (c :: rest)).or (loopHead? (c :: rest))).or
          (word? "endif" endConditional (c :: rest))).or (conditionalHead? (c :: rest))
      else none := by
  simp only [isPlain, isQuote, Bool.not_eq_true', Bool.or_eq_false_iff] at hc
  obtain ⟨⟨hopen, hclose⟩, hquote, hquote'⟩ := hc
  have region : region? (c :: rest) = none := by
    have opens : after? "<?php".toList (c :: rest) = none := by
      change (if '<' == c then _ else none) = none
      rw [BEq.comm, hopen]
      rfl
    have closes : after? "?>".toList (c :: rest) = none := by
      change (if '?' == c then _ else none) = none
      rw [BEq.comm, hclose]
      rfl
    rw [region?, opens, closes]
    rfl
  change inCode? before (c :: rest) = _
  unfold inCode?
  simp only [hquote, hquote', Bool.or_self, Bool.false_eq_true, if_false, region, Option.none_or]

/-- What follows the name of a variable in an echo: no word, and no bracket that opens. -/
structure EndsName (tail : List Char) : Prop where
  noWord : noWord tail.head? = true
  noBracket : after? ['('] (skipBlanks tail) = none

theorem takeWhile_of_noWord {cs : List Char} (h : noWord cs.head? = true) :
    cs.takeWhile Text.isWordChar = [] := by
  cases cs with
  | nil => rfl
  | cons c cs =>
    refine List.takeWhile_cons_of_neg ?_
    simpa [noWord] using h

/-- A word behind which no word goes on is a maximal word of the name. -/
theorem word?_name (ends : EndsName tail) (word : String) (marker : Marker)
    (hword : word.toList.all Text.isWordChar = true)
    (other : String.ofList (name.takeWhile Text.isWordChar) ≠ word) :
    word? word marker (name ++ tail) = none := by
  refine Option.eq_none_iff_forall_ne_some.mpr fun found h => other ?_
  obtain ⟨rest, hrest, h⟩ := Option.bind_eq_some_iff.mp h
  split at h
  · rename_i noWord
    -- the maximal words at the beginning of the two sides are the same
    have both := congrArg (List.takeWhile Text.isWordChar) (after?_eq_some.mp hrest)
    rw [List.takeWhile_append_of_pos (List.all_eq_true.mp hword), takeWhile_of_noWord noWord,
      List.append_nil, List.takeWhile_append, takeWhile_of_noWord ends.noWord] at both
    refine (congrArg String.ofList (Eq.trans ?_ both)).trans String.ofList_toList
    split
    · rename_i whole
      rw [List.append_nil]
      exact (List.takeWhile_prefix _).eq_of_length whole
    · rfl
  · cases h

/-- No bracket follows a word with which a name begins. -/
theorem after?_bracket (hname : '(' ∉ name) (ends : EndsName tail) {word rest : List Char}
    (hword : word.all Text.isWordChar = true) (h : after? word (name ++ tail) = some rest) :
    after? ['('] (skipBlanks rest) = none := by
  refine Option.eq_none_iff_forall_ne_some.mpr fun left hleft => ?_
  have bracket := after?_eq_some.mp hleft
  have same := after?_eq_some.mp h
  rw [← List.takeWhile_append_dropWhile (p := Text.isBlank) (l := rest)] at same
  change rest.dropWhile Text.isBlank = '(' :: left at bracket
  rw [bracket, ← List.append_assoc] at same
  have blank : ∀ c ∈ rest.takeWhile Text.isBlank, Text.isBlank c = true :=
    fun c => List.mem_takeWhile_imp
  generalize rest.takeWhile Text.isBlank = blanks at same blank
  -- the bracket is not in the name, so the blanks in front of it are not all in the name either
  have from_blanks (blanks : List Char) (blank : ∀ c ∈ blanks, Text.isBlank c = true) :
      tail ≠ blanks ++ '(' :: left := fun htail => by
    have none := ends.noBracket
    rw [htail, skipBlanks, List.dropWhile_append_of_pos blank] at none
    cases none
  rcases List.append_eq_append_iff.mp same with ⟨w, hw, htail⟩ | ⟨w, hw, htail⟩
  · rcases List.append_eq_append_iff.mp hw with ⟨w', -, rfl⟩ | ⟨w', rfl, rfl⟩
    · exact from_blanks w (fun c hc => blank c (List.mem_append_right _ hc)) htail
    · cases w' with
      | nil => exact from_blanks blanks blank htail
      | cons c w' =>
        have hc : Text.isWordChar c = true := List.all_eq_true.mp hword c (by simp)
        have noWord := ends.noWord
        rw [htail] at noWord
        simp [Marker.noWord, hc] at noWord
  · cases w with
    | nil => exact from_blanks [] (by simp) (by simpa using htail.symm)
    | cons c w =>
      obtain ⟨rfl, -⟩ := List.cons.inj htail
      exact hname (hw ▸ by simp)

/-- No marker begins in the name of a variable. -/
theorem at?_name {c : Char} (hc : isVariableChar c = true)
    (hname : ∀ d ∈ name, isVariableChar d = true) (words : endsNoBlock before (c :: name) = true)
    (ends : EndsName tail) : at? true before (c :: (name ++ tail)) = none := by
  have plain : isPlain c = true := (Bool.and_eq_true_iff.mp hc).1
  rw [at?_plain plain]
  split
  · rename_i noWord
    have others : String.ofList ((c :: name).takeWhile Text.isWordChar) ∉ blockEnds := by
      have words := (Bool.and_eq_true_iff.mp words).1
      simpa only [noWord, Bool.true_and, Bool.not_eq_true', List.contains_eq_mem,
        decide_eq_false_iff_not] using words
    have bracket : '(' ∉ c :: name := fun h => by
      rcases List.mem_cons.mp h with rfl | h
      · cases hc
      · cases hname _ h
    have loopEnd := word?_name ends "endforeach" endLoop (by decide)
      fun h => others (h ▸ by decide)
    have ifEnd := word?_name ends "endif" endConditional (by decide)
      fun h => others (h ▸ by decide)
    have loopStart : loopHead? (c :: name ++ tail) = none := by
      unfold loopHead?
      cases h : after? "foreach".toList (c :: name ++ tail) with
      | none => rfl
      | some rest =>
        rw [Option.bind_eq_bind, Option.bind_some, after?_bracket bracket ends (by decide) h]
        rfl
    have ifStart : conditionalHead? (c :: name ++ tail) = none := by
      unfold conditionalHead?
      cases h : after? ['i', 'f'] (c :: name ++ tail) with
      | none => rfl
      | some rest =>
        rw [Option.bind_eq_bind, Option.bind_some, after?_bracket bracket ends (by decide) h]
        rfl
    rw [List.cons_append] at loopEnd ifEnd loopStart ifStart
    rw [loopEnd, ifEnd, loopStart, ifStart]
    rfl
  · rfl

end Marker

/-! ### Echoes in code -/

/-- The name of a variable is text. -/
theorem segmentsFrom_name {before : Option Char} {name tail : List Char}
    (hname : ∀ c ∈ name, isVariableChar c = true) (words : endsNoBlock before name = true)
    (ends : Marker.EndsName tail) : ∃ last, segmentsFrom true before 0 (name ++ tail) =
      name.foldr Segment.cons (segmentsFrom true last 0 tail) := by
  induction name generalizing before with
  | nil => exact ⟨before, rfl⟩
  | cons c name ih =>
    have chars : ∀ d ∈ name, isVariableChar d = true := fun d hd =>
      hname d (List.mem_cons_of_mem _ hd)
    obtain ⟨last, rest⟩ := ih chars (Bool.and_eq_true_iff.mp words).2
    refine ⟨last, ?_⟩
    rw [List.cons_append, segmentsFrom, Marker.at?_name (hname c (List.mem_cons_self ..)) chars
      words ends]
    exact congrArg (Segment.cons c) rest

theorem foldr_cons_text (front cs : List Char) (rest : List Segment) :
    front.foldr Segment.cons (.text cs :: rest) = .text (front ++ cs) :: rest := by
  induction front with
  | nil => rfl
  | cons c front ih =>
    rw [List.foldr_cons, ih]
    rfl

/-- Behind the name of a variable a call ends. -/
theorem segmentsFrom_callEnd (before : Option Char) (rest : List Char) :
    segmentsFrom true before 0 (" ); ".toList ++ ("?>".toList ++ rest)) =
      .text " ); ".toList :: .marker .closeCode :: segments false rest := by
  have scanned : segmentsFrom true before 0 (" ); ".toList ++ ("?>".toList ++ rest)) =
      Segment.cons ' ' (Segment.cons ')' (Segment.cons ';' (Segment.cons ' '
        (segmentsFrom true (some ' ') 0 ("?>".toList ++ rest))))) := by
    cases h : Marker.noWord before <;> simp [segmentsFrom, Marker.at?, Marker.inCode?, h] <;> rfl
  rw [scanned, segmentsFrom_closeCode]
  rfl

/-- A region that echoes a variable has no marker in it. -/
theorem segments_variable {name : String} (hname : EchoName name) {front back : List Char}
    (opening : ∀ cs, segmentsFrom true (some 'p') 0 (front ++ cs) =
      front.foldr Segment.cons (segmentsFrom true (some '$') 0 cs))
    (closing : ∀ before rest, segmentsFrom true before 0 (back ++ ("?>".toList ++ rest)) =
      .text back :: .marker .closeCode :: segments false rest)
    (ends : ∀ rest, Marker.EndsName (back ++ rest)) (rest : List Char) :
    segments false ("<?php".toList ++ (front ++ (name.toList ++ (back ++ ("?>".toList ++ rest))))) =
      [.marker .openCode, .text (front ++ (name.toList ++ back)), .marker .closeCode] ++
        segments false rest := by
  obtain ⟨last, scanned⟩ := segmentsFrom_name hname.chars hname.words (ends ("?>".toList ++ rest))
  rw [segments_openCode, opening, scanned, closing, foldr_cons_text, foldr_cons_text]
  rfl

/-- What is written of a parameter is one region without markers, through whatever function. -/
theorem segments_echo {name : String} (hname : EchoName name) (policy : EscapePolicy) :
    ∃ code, ∀ rest,
      segments false ((Piece.echo (.var name) policy.function?).written.toList ++ rest) =
        [.marker .openCode, .text code, .marker .closeCode] ++ segments false rest := by
  have call (function : String) (front : List Char)
      (hfront : "<?php ".toList ++ (("echo " ++ function ++ "( ").toList ++ "$".toList) =
        "<?php".toList ++ front)
      (opening : ∀ cs, segmentsFrom true (some 'p') 0 (front ++ cs) =
        front.foldr Segment.cons (segmentsFrom true (some '$') 0 cs)) (rest : List Char) :
      segments false ((Piece.echo (.var name) (some function)).written.toList ++ rest) =
        [.marker .openCode, .text (front ++ (name.toList ++ " ); ".toList)), .marker .closeCode]
          ++ segments false rest := by
    have back : " );".toList ++ " ?>".toList = " ); ".toList ++ "?>".toList := rfl
    have split : (Piece.echo (.var name) (some function)).written.toList ++ rest =
        "<?php".toList ++ (front ++ (name.toList ++ (" ); ".toList ++ ("?>".toList ++ rest)))) := by
      change ("<?php " ++ ("echo " ++ function ++ "( " ++ ("$" ++ name) ++ " );") ++ " ?>").toList
        ++ rest = _
      rw [← List.append_assoc _ front, ← hfront, ← List.append_assoc _ _ rest, ← back]
      simp only [String.toList_append, List.append_assoc]
    rw [split]
    exact segments_variable hname opening segmentsFrom_callEnd (fun _ => ⟨rfl, rfl⟩) rest
  have bare (rest : List Char) :
      segments false ((Piece.echo (.var name) none).written.toList ++ rest) =
        [.marker .openCode, .text (" echo $".toList ++ (name.toList ++ "; ".toList)),
          .marker .closeCode] ++ segments false rest := by
    have front : "<?php ".toList ++ ("echo ".toList ++ "$".toList) =
        "<?php".toList ++ " echo $".toList := rfl
    have back : ";".toList ++ " ?>".toList = "; ".toList ++ "?>".toList := rfl
    have split : (Piece.echo (.var name) none).written.toList ++ rest = "<?php".toList ++
        (" echo $".toList ++ (name.toList ++ ("; ".toList ++ ("?>".toList ++ rest)))) := by
      change ("<?php " ++ ("echo " ++ ("$" ++ name) ++ ";") ++ " ?>").toList ++ rest = _
      rw [← List.append_assoc _ " echo $".toList, ← front, ← List.append_assoc _ _ rest, ← back]
      simp only [String.toList_append, List.append_assoc]
    rw [split]
    exact segments_variable hname (fun _ => rfl) segmentsFrom_statementEnd (fun _ => ⟨rfl, rfl⟩)
      rest
  cases policy with
  | html => exact ⟨_, call "esc_html" " echo esc_html( $".toList rfl fun _ => rfl⟩
  | url => exact ⟨_, call "esc_url" " echo esc_url( $".toList rfl fun _ => rfl⟩
  | attr => exact ⟨_, call "esc_attr" " echo esc_attr( $".toList rfl fun _ => rfl⟩
  | script => exact ⟨_, call "esc_js" " echo esc_js( $".toList rfl fun _ => rfl⟩
  | raw => exact ⟨_, bare⟩

/-- A read of a parameter in a hole is written through the function of its policy. -/
theorem Job.holeRendering_parameter (job : Job) (loops : Loops) (place this : Text.Place)
    (name : String) {k : Cursor} {a : String × Cursor}
    (h : job.holeRendering loops (.member place (.this this) name false) k = some a) :
    ∃ policy : EscapePolicy,
      a = ((Piece.echo (.var name) policy.function?).written, k.interpolated) := by
  obtain ⟨a, ha, rfl⟩ := Option.map_eq_some_iff.mp h
  obtain ⟨⟨o, k'⟩, ho, rfl⟩ := Option.map_eq_some_iff.mp ha
  have ho := eq_ok_of_toOption ho
  rw [outlineOf] at ho
  obtain ⟨access, haccess, ho⟩ := exists_ok_of_bind ho
  obtain ⟨o', ho', ho⟩ := exists_ok_of_bind ho
  cases ho
  obtain ⟨-, -, haccess⟩ := exists_ok_of_bind haccess
  obtain ⟨r, hr, haccess⟩ := exists_ok_of_bind haccess
  cases haccess
  obtain ⟨-, -, hr⟩ := exists_ok_of_bind hr
  obtain ⟨-, -, hr⟩ := exists_ok_of_bind hr
  cases hr
  obtain ⟨function, hf, ho'⟩ := exists_ok_of_bind ho'
  cases ho'
  obtain ⟨resolution, -, hf⟩ := exists_ok_of_bind hf
  cases hf
  exact ⟨resolution.policy, rfl⟩

theorem Part.first_echo (value : Operand) (function : Option String) (rest : Part) :
    (Part.text (Piece.echo value function).written ++ rest).first.toList =
      "<?php".toList ++ ((" " ++ echoStatement value.text function ++ " ?>").toList ++
        rest.first.toList) := by
  have head : "<?php ".toList = "<?php".toList ++ " ".toList := rfl
  rw [Part.first_text_append, String.toList_append]
  change ("<?php " ++ echoStatement value.text function ++ " ?>").toList ++ _ = _
  simp only [String.toList_append, head, List.append_assoc]

/-! ### Whole templates -/

/-- **Literal and generated echoes.** What is written for a parameter in a hole may as well be
written in the text of the template: the output is the same, or both conversions fail. The cursor
does not wait for an attribute value there, and the name of the parameter is not taken for the end
of a block. -/
theorem convert_literalEcho (job : Job) (p q : Part) (place this : Text.Place) (name echo : String)
    (free_p : p.template.MarkerFree job.tag) (free_q : q.template.MarkerFree job.tag)
    (hname : EchoName name)
    (emitted : ∃ s ∈ job.behind p,
      ∃ s' ∈ job.behind (p ++ .hole "" (.member place (.this this) name false) (.text "")),
        s'.written = s.written ++ echo)
    (ready : ∀ s ∈ job.behind p, s.cursor.state ≠ .beforeValue) :
    (job.convert (p ++ .text echo ++ q).template).toOption =
      (job.convert
        (p ++ .hole "" (.member place (.this this) name false) q).template).toOption := by
  have h := job.represents_inner
  have free_hole : Piece.TextsMarkerFree
      ((Expr.member place (.this this) name false).skeleton job.tag false) := by
    intro content hcontent
    simp [Expr.skeleton] at hcontent
  have rest := Job.puts_rendering h rfl free_q
  have generated := Part.Puts.aroundHole h rfl free_p free_hole rest
  -- what is written in the hole is what its rendering gives behind the part in front
  have nothing : (Part.text "").template.MarkerFree job.tag := fun content hcontent => by
    cases hcontent
  have front := (Job.puts_rendering h rfl free_p).written_behind
  have probe := (Part.Puts.aroundHole h rfl free_p free_hole
    (Job.puts_rendering h rfl nothing)).written_behind
  obtain ⟨s, hs, s', hs', hecho⟩ := emitted
  rw [Option.mem_def.mp hs, Option.map_some] at front
  rw [Option.mem_def.mp hs', Option.map_some] at probe
  obtain ⟨a, b, ha, hb, both⟩ := Rendering.exists_of_andThen probe.symm
  rw [← front] at ha
  cases ha
  obtain ⟨c, d, hc, hd, rfl⟩ := Rendering.exists_of_andThen hb
  cases hd
  obtain ⟨policy, rfl⟩ := job.holeRendering_parameter [] place this name hc
  obtain rfl : echo = (Piece.echo (.var name) policy.function?).written := by
    have same := (String.append_right_inj s.written).mp (hecho.symm.trans (congrArg Prod.fst both))
    exact same.trans String.append_empty
  obtain ⟨code, scan⟩ := segments_echo hname policy
  have literal := Part.Puts.beforeRegion h rfl free_p
    (.region scan rfl rfl (Replays.codeRegion rfl code) rest) (Part.first_echo _ _ q)
  rw [Part.append_assoc]
  refine literal.convert.trans (Eq.trans ?_ generated.convert.symm)
  rw [Rendering.andThen_apply, Rendering.andThen_apply, ← front, Option.bind_some, Option.bind_some,
    Rendering.moved_andThen, Rendering.andThen_apply, hc, Option.bind_some, Option.bind_some,
    Cursor.interpolated_of_ne (ready s hs)]

/-- The title of a list in a link has the same output whether it is read in a hole or echoed in the
text. -/
theorem convert_literalEcho_title :
    (listJob.convert (Part.text "<a href=\"" ++ .text "<?php echo esc_url( $title ); ?>" ++
      (Part.text "\">" ++ titlePart ++ .text "</a>")).template).toOption =
      some ("<a href=\"<?php echo esc_url( $title ); ?>\">"
        ++ "<?php echo esc_html( $title ); ?></a>") := by
  have emitted : (((listJob.behind (.text "<a href=\"")).bind fun s =>
      (listJob.behind (Part.text "<a href=\"" ++ titlePart)).map fun s' =>
        decide (s'.written = s.written ++ "<?php echo esc_url( $title ); ?>")) ==
      some true) = true := by decide +kernel
  have ready : ((listJob.behind (.text "<a href=\"")).all fun s =>
      decide (s.cursor.state ≠ .beforeValue)) = true := by decide +kernel
  have same := convert_literalEcho listJob (.text "<a href=\"")
    (Part.text "\">" ++ titlePart ++ .text "</a>") ⟨1, 0⟩ ⟨1, 0⟩ "title"
    "<?php echo esc_url( $title ); ?>" (by decide +kernel) (by decide +kernel) (by decide +kernel)
    (by
      obtain ⟨s, hs, h⟩ := Option.bind_eq_some_iff.mp (beq_iff_eq.mp emitted)
      obtain ⟨s', hs', h⟩ := Option.map_eq_some_iff.mp h
      exact ⟨s, hs, s', hs', of_decide_eq_true h⟩)
    fun s hs => by
      rw [Option.mem_def.mp hs] at ready
      exact of_decide_eq_true ready
  exact same.trans (by decide +kernel)

/-- Where the cursor waits for a value, a literal echo is not taken for it, and what is behind it
is. So the address in the next attribute is not written as one. -/
theorem convert_literalEcho_differs :
    (Part.text "<a title=").template.MarkerFree listJob.tag ∧
    (Part.text " href=" ++ titlePart ++ .text ">").template.MarkerFree listJob.tag ∧
    (listJob.behind (Part.text "<a title=" ++ titlePart)).map Progress.written =
      some ("<a title=" ++ "<?php echo esc_attr( $title ); ?>") ∧
    listJob.convert (Part.text "<a title=" ++ titlePart ++
        (Part.text " href=" ++ titlePart ++ .text ">")).template =
      .ok ("<a title=<?php echo esc_attr( $title ); ?>"
        ++ " href=<?php echo esc_url( $title ); ?>>") ∧
    listJob.convert (Part.text "<a title=" ++ .text "<?php echo esc_attr( $title ); ?>" ++
        (Part.text " href=" ++ titlePart ++ .text ">")).template =
      .ok ("<a title=<?php echo esc_attr( $title ); ?>"
        ++ " href=<?php echo esc_attr( $title ); ?>>") := by
  refine ⟨by decide +kernel, by decide +kernel, by decide +kernel, ?_, ?_⟩
  · exact eq_ok_of_toOption (by decide +kernel)
  · exact eq_ok_of_toOption (by decide +kernel)

end ServerTemplate
