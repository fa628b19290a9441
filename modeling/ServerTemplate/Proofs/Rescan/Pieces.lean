import ServerTemplate.Proofs.Rescan.Marks

/-!
# The marks of generated pieces

Every generated piece has the marks that its blocks and regions are meant to have, and no others
(`Piece.marks`), if the names in it are not the words of blocks. Only the count of results is a
block for the scanner and none in the output: its braces are no `endif`.
-/

namespace ServerTemplate

/-- The marks that a piece is meant to have. -/
def Piece.marks : Piece → List Marker
  | text _ | operand _ | constant _ | symbol _ => []
  | echo .. | otherwise | currentYear => [.openCode, .closeCode]
  | ifStart => [.openCode, .conditional]
  | ifTested => [.closeCode]
  | ifEnd => [.openCode, .endConditional, .closeCode]
  | loopStart array item => [.openCode, .loop array item, .closeCode]
  | loopEnd => [.openCode, .endLoop, .closeCode]
  | resultCount .. => [.openCode, .conditional, .closeCode]
  | stars .. => [.openCode, .closeCode, .openCode, .closeCode, .openCode, .closeCode]

namespace Segment

theorem marks_append (xs ys : List Segment) : marks (xs ++ ys) = marks xs ++ marks ys := by
  induction xs with
  | nil => rfl
  | cons x xs ih =>
    cases x with
    | text content => exact ih
    | marker found =>
      cases found with
      | quoted => exact ih
      | _ => exact congrArg (List.cons _) ih

end Segment

namespace Scans

/-- A text that the scanner cuts from what follows it. -/
theorem of_segments {s : String} {xs : List Segment}
    (scan : ∀ rest, segments false (s.toList ++ rest) = xs ++ segments false rest) :
    Scans false s (Segment.marks xs) false true := by
  intro before tail _
  refine ⟨none, ?_⟩
  rw [marksFrom_markup, ServerTemplate.marks, marksFrom]
  change Segment.marks (segments false _) = _
  rw [scan, Segment.marks_append]
  rfl

/-- What has no marks in front of a region, and the opening of the region. -/
theorem regionStart {s : String} (free : MarkerFree s.toList) :
    Scans false (s ++ "<?php") [.openCode] true true := by
  intro before tail _
  have none : Segment.marks (segments false s.toList) = [] := by
    rw [segments, free.segmentsFrom_eq]
    split <;> rfl
  refine ⟨some 'p', ?_⟩
  rw [marksFrom_markup, String.toList_append, List.append_assoc]
  change Segment.marks (segments false _) = _
  rw [free.segments_append, Segment.marks_append, none, segments_openCode]
  rfl

theorem regionEnd : Scans true "?>" [.closeCode] false true := by
  intro before tail _
  refine ⟨some '>', ?_⟩
  have found : Marker.at? true before ('?' :: ['>'] ++ tail) = some (.closeCode, tail) := rfl
  exact marksFrom_found found nofun

/-- The beginning of a region, with a text in front of it and code behind the mark. -/
theorem opening {s : String} (text code : String)
    (h : s = text ++ "<?php" ++ code ∧ MarkerFree text.toList ∧ hushed code = true) :
    Scans false s [.openCode] true true :=
  h.1 ▸ (regionStart h.2.1).append (of_hushed h.2.2) (.inl rfl)

/-- The end of a region, with code in front of the mark. -/
theorem closing {s : String} (code : String) (h : s = code ++ "?>" ∧ hushed code = true) :
    Scans true s [.closeCode] false true :=
  h.1 ▸ (of_hushed h.2).append regionEnd (.inl rfl)

/-- Code without marks in a region. -/
theorem region {s : String} {closed : Bool} (h : Scans true s [] true closed) :
    Scans false ("<?php" ++ s ++ "?>") [.openCode, .closeCode] false true :=
  ((regionStart (s := "") (by decide)).append h (.inl rfl)).append regionEnd
    (.inr (by decide))

end Scans

/-! ### Operands and statements -/

/-- Whether no name in an operand is the word of a block. -/
def Operand.Legible : Operand → Prop
  | var name => EchoName name
  | field item _ => EchoName item
  | count operand => operand.Legible

/-- Whether a value is written through no function or through one that is no word of a block. -/
def Hushes (function : Option String) : Prop :=
  ∀ name ∈ function, hushed ("echo " ++ name ++ "( ") = true

/-- Characters with which no mark, no string and no word of a block begins. -/
def isQuiet (c : Char) : Bool := !(['<', '?', '\x22', '\x27', 'e', 'f', 'i'].contains c)

theorem hushedFrom_of_isQuiet {cs : List Char} (h : ∀ c ∈ cs, isQuiet c = true) (fresh : Bool) :
    hushedFrom fresh cs = true := by
  induction cs generalizing fresh with
  | nil => rfl
  | cons c cs ih =>
    have quiet := h c (List.mem_cons_self ..)
    simp only [isQuiet, List.contains_cons, List.contains_nil, Bool.or_false, Bool.not_eq_true',
      Bool.or_eq_false_iff] at quiet
    obtain ⟨hopen, hclose, hquote, hquote', he, hf, hi⟩ := quiet
    have first {w : Char} {word : List Char} (h : (c == w) = false) :
        apart (w :: word) (c :: cs) = true := by
      rw [apart, List.isPrefixOf, List.isPrefixOf, h, BEq.comm.trans h]
      rfl
    have rest := ih (fun d hd => h d (List.mem_cons_of_mem c hd)) (!Text.isWordChar c)
    simp [hushedFrom, isQuote, hquote, hquote', rest, first hopen, first hclose, first he,
      first hf, first hi]

theorem Hushes.of_functionFor {job : Job} {k : Cursor} {field : String} {array : Option String}
    {e : Expr} {function : Option String} (h : job.functionFor k field array e = .ok function) :
    Hushes function := by
  obtain ⟨resolution, -, h⟩ := exists_ok_of_bind h
  cases h
  intro name hname
  cases hpolicy : resolution.policy <;> rw [hpolicy] at hname <;> cases hname <;> decide

namespace Scans

theorem operand {o : Operand} (h : o.Legible) : Scans true o.text [] true false := by
  induction o with
  | var name => exact .variable h
  | field item name =>
    have brackets : hushed "[" = true ∧ hushed "]" = true := by decide
    have opened := (Scans.variable h).append (of_hushed brackets.1) (.inr (by decide))
    exact ((opened.append (ofText name) (.inl rfl)).append (of_hushed brackets.2)
      (.inl rfl)).weaken false
  | count o ih =>
    have brackets : hushed "count( " = true ∧ hushed " )" = true := by decide
    exact (((of_hushed brackets.1).append (ih h) (.inl rfl)).append (of_hushed brackets.2)
      (.inr (by decide))).weaken false

theorem echoStatement {value : String} {closed : Bool} {function : Option String}
    (h : Scans true value [] true closed) (hushes : Hushes function) :
    Scans true (echoStatement value function) [] true true := by
  cases function with
  | none =>
    have marks : hushed "echo " = true ∧ hushed ";" = true := by decide
    exact ((of_hushed marks.1).append h (.inl rfl)).append (of_hushed marks.2)
      (.inr (by decide))
  | some name =>
    have call : hushed ("echo " ++ name ++ "( ") = true := hushes name rfl
    exact ((of_hushed call).append h (.inl rfl)).append
      (of_hushed (by decide : hushed " );" = true)) (.inr (by decide))

theorem echo {value : Operand} {function : Option String} (h : value.Legible)
    (hushes : Hushes function) :
    Scans false (Piece.echo value function).written [.openCode, .closeCode] false true := by
  have blanks : Scans true " " [] true true := of_hushed (by decide)
  have code := (blanks.append (echoStatement (operand h) hushes) (.inl rfl)).append blanks
    (.inl rfl)
  have split : (Piece.echo value function).written =
      "<?php" ++ (" " ++ ServerTemplate.echoStatement value.text function ++ " ") ++ "?>" := by
    have opening : "<?php " = "<?php" ++ " " := by decide
    have closing : " ?>" = " " ++ "?>" := by decide
    have written : (Piece.echo value function).written =
      "<?php " ++ ServerTemplate.echoStatement value.text function ++ " ?>" := rfl
    rw [written, opening, closing, String.append_assoc, String.append_assoc, String.append_assoc,
      String.append_assoc, String.append_assoc]
  rw [split]
  exact code.region

theorem digits (n : Nat) : Scans true n.repr [] true true := by
  refine of_hushed (hushedFrom_of_isQuiet (fun c hc => ?_) true)
  rw [Nat.repr, String.toList_ofList] at hc
  have digit := Nat.isDigit_of_mem_toDigits (by decide) (by decide) hc
  have others : ['<', '?', '\x22', '\x27', 'e', 'f', 'i'].all (!·.isDigit) = true := by decide
  refine Bool.not_eq_true' _ ▸ Bool.eq_false_iff.mpr fun special => ?_
  have other := List.all_eq_true.mp others c (List.contains_iff_mem.mp special)
  rw [digit] at other
  cases other

theorem number (n : Int) : Scans true (toString n) [] true true := by
  cases n with
  | ofNat n => exact digits n
  | negSucc n =>
    have sign : hushed "-" = true := by decide
    exact (of_hushed sign).append (digits _) (.inl rfl)

theorem stars (number : Int) {rating : Operand} (h : rating.Legible) :
    Scans false (Piece.stars number rating).written (Piece.stars number rating).marks false
      true := by
  have loop : Scans false "<?php for ( $i = 1; $i <= " [.openCode] true true :=
    opening "" " for ( $i = 1; $i <= " (by decide)
  have head := (loop.append (Scans.number number) (.inl rfl)).append
    (closing (s := "; $i++ ) : ?>") "; $i++ ) : " (by decide)) (.inl rfl)
  have star : Scans false "<span class=\"star\"><?php echo $i <= " [.openCode] true true :=
    opening "<span class=\"star\">" " echo $i <= " (by decide)
  have back : Scans true (" ? '★' : '☆'; ?></span>" ++ "<?php endfor; ?>")
      [.closeCode, .openCode, .closeCode] false true := by
    have texts : hushed " ? " = true ∧ hushed " : " = true := by decide
    have split : " ? '★' : '☆'; ?></span>" ++ "<?php endfor; ?>" = " ? " ++ Literal.ofText "★" ++
        " : " ++ Literal.ofText "☆" ++ "; ?>" ++ "</span><?php endfor; " ++ "?>" := by
      decide
    rw [split]
    exact (((((of_hushed texts.1).append (ofText "★") (.inl rfl)).append (of_hushed texts.2)
      (.inl rfl)).append (ofText "☆") (.inl rfl)).append
      (closing "; " (by decide)) (.inl rfl)).append
      (opening "</span>" " endfor; " (by decide)) (.inl rfl) |>.append
      regionEnd (.inl rfl)
  have written : (Piece.stars number rating).written = "<?php for ( $i = 1; $i <= " ++
      toString number ++ "; $i++ ) : ?>" ++ "<span class=\"star\"><?php echo $i <= " ++
      rating.text ++ (" ? '★' : '☆'; ?></span>" ++ "<?php endfor; ?>") := by
    rw [← String.append_assoc]
    rfl
  rw [written]
  exact ((head.append star (.inl rfl)).append (operand h) (.inl rfl)).append back
    (.inr (by decide))

theorem currentYear : Scans false Piece.currentYear.written Piece.currentYear.marks false true := by
  have texts : hushed " echo date( " = true ∧ hushed " ); " = true := by decide
  have split : Piece.currentYear.written =
      "<?php" ++ (" echo date( " ++ Literal.ofText "Y" ++ " ); ") ++ "?>" := by decide
  rw [split]
  exact (((of_hushed texts.1).append (ofText "Y") (.inl rfl)).append (of_hushed texts.2)
    (.inl rfl)).region

/-! ### Blocks -/

theorem otherwise : Scans false Piece.otherwise.written Piece.otherwise.marks false true :=
  of_segments segments_otherwise

theorem ifEnd : Scans false Piece.ifEnd.written Piece.ifEnd.marks false true :=
  of_segments segments_ifEnd

theorem loopEnd : Scans false Piece.loopEnd.written Piece.loopEnd.marks false true :=
  of_segments segments_loopEnd

theorem loopStart {array item : String} (harray : WordName array) (hitem : WordName item) :
    Scans false (Piece.loopStart array item).written (Piece.loopStart array item).marks false
      true :=
  of_segments (segments_loopStart harray hitem)

/-- The head of a conditional begins. -/
theorem ifStart : Scans false Piece.ifStart.written Piece.ifStart.marks true true := by
  have word : Scans true " if ( " [.conditional] true true := by
    intro before tail _
    refine ⟨some ' ', ?_⟩
    have blank (before : Option Char) (cs : List Char) :
        Marker.at? true before (' ' :: cs) = none := by
      have quiet : hushedFrom true [' '] = true := by decide
      exact Marker.at?_of_hushed quiet (fun _ => rfl) cs
    have found : Marker.at? true (some ' ') ('i' :: ['f', ' ', '('] ++ ' ' :: tail) =
        some (.conditional, ' ' :: tail) := rfl
    have marked := marksFrom_found found nofun
    change marksFrom true before (' ' :: ('i' :: ['f', ' ', '('] ++ ' ' :: tail)) = _
    rw [marksFrom_passed (blank before _), marked]
    exact congrArg (List.cons _) (marksFrom_passed (blank _ tail))
  have split : Piece.ifStart.written = "" ++ "<?php" ++ " if ( " := by decide
  rw [split]
  exact (regionStart (by decide)).append word (.inl rfl)

/-- The head of a conditional, with its condition. -/
theorem condition {test : String} (h : Scans true test [] true false) :
    Scans false ("<?php if ( " ++ test ++ " ) : ?>") [.openCode, .conditional, .closeCode] false
      true :=
  (ifStart.append h (.inl rfl)).append (closing " ) : " (by decide))
    (.inr (by decide))

/-! ### The count of results -/

theorem labelOperands {count : String} (h : EchoName count) (texts : List (List Char)) :
    ∀ code ∈ labelOperands ("$" ++ count) texts, Scans true code [] true false := by
  induction texts with
  | nil => exact nofun
  | cons first rest ih =>
    have some_text (text : List Char) : ∀ code ∈
        (if text.isEmpty then [] else [Literal.ofText (String.ofList text)]),
        Scans true code [] true false := by
      intro code hcode
      split at hcode
      · cases hcode
      · rw [List.mem_singleton.mp hcode]
        exact (ofText _).weaken false
    cases rest with
    | nil => exact some_text first
    | cons second rest =>
      intro code hcode
      rcases List.mem_append.mp hcode with hcode | hcode
      · exact some_text first code hcode
      · rcases List.mem_cons.mp hcode with rfl | hcode
        · exact .variable h
        · exact ih code hcode

theorem intercalate {separator : String} (h : Scans true separator [] true true)
    (ends : endsName separator.toList = true) (codes : List String)
    (hcodes : ∀ code ∈ codes, Scans true code [] true false) :
    Scans true (separator.intercalate codes) [] true false := by
  induction codes with
  | nil => exact (of_hushed (by decide : hushed "" = true)).weaken false
  | cons first rest ih =>
    have hfirst := hcodes first (List.mem_cons_self ..)
    have hrest := ih fun code h => hcodes code (List.mem_cons_of_mem _ h)
    cases rest with
    | nil => exact String.intercalate_singleton ▸ hfirst
    | cons second rest =>
      rw [String.intercalate_cons_cons]
      exact (hfirst.append h (.inr ends)).append hrest (.inl rfl)

theorem labelCode (label : String) {count : String} (h : EchoName count) :
    Scans true (labelCode label ("$" ++ count)) [] true false := by
  rw [ServerTemplate.labelCode]
  split
  · have empty : "''" = Literal.ofText "" := by decide
    exact empty ▸ (ofText "").weaken false
  · exact intercalate (of_hushed (by decide)) (by decide) _ (labelOperands h _)

theorem resultCount (labels : CountLabels) {function : Option String} (hushes : Hushes function) :
    Scans false (Piece.resultCount labels function).written
      (Piece.resultCount labels function).marks false true := by
  have name : EchoName resultCountParameter := by decide
  have texts : hushed "0 === (int) " = true ∧ hushed " ) " = true ∧ hushed "\x7b " = true ∧
      hushed " \x7d" = true ∧ hushed " elseif ( 1 === (int) " = true ∧ hushed " else " = true := by
    decide
  have branch (label : String) : Scans true ("\x7b " ++ ServerTemplate.echoStatement
      (ServerTemplate.labelCode label ("$" ++ resultCountParameter)) function ++ " \x7d")
      [] true true :=
    ((of_hushed texts.2.2.1).append (echoStatement (labelCode label name) hushes) (.inl rfl)).append
      (of_hushed texts.2.2.2.1) (.inl rfl)
  have front : Scans false "<?php if ( 0 === (int) " [.openCode, .conditional] true true := by
    have split : "<?php if ( 0 === (int) " = "<?php if ( " ++ "0 === (int) " := by decide
    exact split ▸ ifStart.append (of_hushed texts.1) (.inl rfl)
  have count : Scans true ("$" ++ resultCountParameter) [] true false := .variable name
  have close : Scans true " ) " [] true true := of_hushed texts.2.1
  have zero := ((front.append count (.inl rfl)).append close (.inr (by decide))).append
    (branch labels.zero) (.inl rfl)
  have one := (((zero.append (of_hushed texts.2.2.2.2.1) (.inl rfl)).append count (.inl rfl)).append
    close (.inr (by decide))).append (branch labels.one) (.inl rfl)
  exact ((one.append (of_hushed texts.2.2.2.2.2) (.inl rfl)).append (branch labels.many)
    (.inl rfl)).append (closing " " (by decide)) (.inl rfl)

end Scans

end ServerTemplate
