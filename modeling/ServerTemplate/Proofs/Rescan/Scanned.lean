import ServerTemplate.Proofs.Outline.Translation
import ServerTemplate.Proofs.Rescan.Pieces

/-!
# The marks of whole conversions

`Scanned ps` says that the scanner finds in what the pieces `ps` write the marks that they are meant
to have, whatever pieces follow. It holds of pieces with blocks that are nested (`Nested`), and such
are those of every template without markers whose names, operators and numbers are legible
(`Expr.Legible`), along the equations of the reference translation (`Job.translates_nested`). The
texts must not make a mark together with what follows them (`Piece.Seamless`).
-/

namespace ServerTemplate

/-! ### Texts -/

/-- A text without markers has no marks. -/
theorem MarkerFree.marks_append {cs rest : List Char} (free : MarkerFree cs)
    (whole : ¬ TagCut cs rest) : marks (cs ++ rest) = marks rest := by
  suffices ∀ before, marksFrom false before (cs ++ rest) = marks rest from this none
  induction cs with
  | nil => exact fun before => marksFrom_markup before rest
  | cons c cs ih =>
    intro before
    have none : Marker.at? false before (c :: cs ++ rest) = none := by
      change Marker.region? (c :: cs ++ rest) = _
      rw [Marker.region?_append whole, free.region?_eq_none]
      rfl
    rw [List.cons_append] at none ⊢
    rw [marksFrom_passed none]
    exact ih free.tail (fun cut => whole (cut.cons c)) (some c)

namespace Piece

/-- No text makes a mark together with what is written behind it. -/
def Seamless : List Piece → Prop
  | [] => True
  | .text content :: rest => ¬ TagCut content.toList (writtenAll rest).toList ∧ Seamless rest
  | _ :: rest => Seamless rest

instance decidableSeamless : (ps : List Piece) → Decidable (Seamless ps)
  | [] => inferInstanceAs (Decidable True)
  | .text content :: rest =>
    have := decidableSeamless rest
    inferInstanceAs (Decidable (¬ TagCut content.toList (writtenAll rest).toList ∧ Seamless rest))
  | .echo .. :: rest | .operand _ :: rest | .constant _ :: rest | .symbol _ :: rest
  | .ifStart :: rest | .ifTested :: rest | .otherwise :: rest | .ifEnd :: rest
  | .loopStart .. :: rest | .loopEnd :: rest | .resultCount .. :: rest | .currentYear :: rest
  | .stars .. :: rest => decidableSeamless rest

theorem Seamless.of_append {ps qs : List Piece} (h : Seamless (ps ++ qs)) : Seamless qs := by
  induction ps with
  | nil => exact h
  | cons p ps ih =>
    cases p with
    | text content => exact ih h.2
    | _ => exact ih h

end Piece

/-- The scanner finds the marks that pieces are meant to have in what they write in markup. -/
def Scanned (ps : List Piece) : Prop :=
  ∀ rest, Piece.Seamless (ps ++ rest) → marks (Piece.writtenAll (ps ++ rest)).toList =
    ps.flatMap Piece.marks ++ marks (Piece.writtenAll rest).toList

namespace Scanned

variable {ps qs : List Piece} {p : Piece}

theorem nil : Scanned [] := fun _ _ => rfl

theorem append (h : Scanned ps) (h' : Scanned qs) : Scanned (ps ++ qs) := by
  intro rest seamless
  rw [List.append_assoc] at seamless ⊢
  rw [h _ seamless, h' rest seamless.of_append, List.flatMap_append, List.append_assoc]

/-- Pieces that together lead from markup to markup. -/
theorem of_scans (h : Scans false (Piece.writtenAll ps) (ps.flatMap Piece.marks) false true) :
    Scanned ps := by
  intro rest _
  rw [Piece.writtenAll_append, String.toList_append, h.marks_append]

theorem piece (h : Scans false p.written p.marks false true) : Scanned [p] := by
  refine of_scans ?_
  rw [Piece.writtenAll_singleton, List.flatMap_singleton]
  exact h

theorem text {content : String} (free : MarkerFree content.toList) : Scanned [.text content] := by
  intro rest seamless
  rw [Piece.writtenAll_append, Piece.writtenAll_singleton, String.toList_append]
  exact free.marks_append seamless.1

end Scanned

/-- Pieces in code that have no marks. -/
structure Bare (ps : List Piece) (closed : Bool) : Prop where
  scans : Scans true (Piece.writtenAll ps) [] true closed
  marks : ps.flatMap Piece.marks = []

namespace Bare

variable {ps qs : List Piece} {p : Piece} {closed closed' : Bool} {code : String}

theorem piece (h : Scans true p.written [] true closed) (marks : p.marks = []) :
    Bare [p] closed where
  scans := by
    rw [Piece.writtenAll_singleton]
    exact h
  marks := by rw [List.flatMap_singleton, marks]

/-- A sign between pieces, which ends a name in front of it. -/
theorem sign (h : Bare ps closed) (h' : Bare qs closed') (quiet : hushed code = true)
    (ends : endsName code.toList = true) : Bare (ps ++ .symbol code :: qs) closed' where
  scans := by
    have written : Piece.writtenAll (ps ++ .symbol code :: qs) =
        Piece.writtenAll ps ++ code ++ Piece.writtenAll qs := by
      rw [Piece.writtenAll_append, Piece.writtenAll_cons, String.append_assoc]
      rfl
    rw [written]
    exact (h.scans.append (.of_hushed quiet) (.inr ends)).append h'.scans (.inl rfl)
  marks := by
    rw [List.flatMap_append, List.flatMap_cons, h.marks, h'.marks]
    rfl

/-- A bracket in front of pieces. -/
theorem bracket (h : Bare ps closed) (quiet : hushed code = true) :
    Bare (.symbol code :: ps) closed where
  scans := by
    rw [Piece.writtenAll_cons]
    exact (Scans.of_hushed quiet).append h.scans (.inl rfl)
  marks := by
    rw [List.flatMap_cons, h.marks]
    rfl

theorem nil : Bare [] true := ⟨.of_hushed (by decide), rfl⟩

theorem weaken (h : Bare ps true) : Bare ps closed := ⟨h.scans.weaken closed, h.marks⟩

section Marks

variable {test : List Piece}

/-- A conditional with one branch. -/
theorem marks_guard (h : Bare test false) (ps : List Piece) :
    List.flatMap Piece.marks (.ifStart :: test ++ .ifTested :: ps ++ [.ifEnd]) =
      [.openCode, .conditional, .closeCode] ++
        (ps.flatMap Piece.marks ++ Piece.ifEnd.marks) := by
  simp [h.marks, Piece.marks]

/-- A conditional with two branches. -/
theorem marks_branch (h : Bare test false) (ps qs : List Piece) :
    List.flatMap Piece.marks (.ifStart :: test ++ .ifTested :: ps ++ .otherwise :: qs ++ [.ifEnd]) =
      [.openCode, .conditional, .closeCode] ++ (ps.flatMap Piece.marks ++
        (Piece.otherwise.marks ++ (qs.flatMap Piece.marks ++ Piece.ifEnd.marks))) := by
  simp [h.marks, Piece.marks]

end Marks

end Bare

/-- The head of a conditional. -/
theorem Scanned.condition {test : List Piece} (bare : Bare test false) :
    Scanned (.ifStart :: test ++ [.ifTested]) := by
  refine of_scans ?_
  have written : Piece.writtenAll (Piece.ifStart :: test ++ [Piece.ifTested]) =
      "<?php if ( " ++ Piece.writtenAll test ++ " ) : ?>" := by
    rw [List.cons_append, Piece.writtenAll_cons, Piece.writtenAll_append,
      Piece.writtenAll_singleton, ← String.append_assoc]
    rfl
  have marks : (Piece.ifStart :: test ++ [Piece.ifTested]).flatMap Piece.marks =
      [.openCode, .conditional, .closeCode] := by
    rw [List.cons_append, List.flatMap_cons, List.flatMap_append, bare.marks]
    rfl
  rw [written, marks]
  exact .condition bare.scans

/-! ### Expressions -/

/-- Whether the names, operators and numbers of an expression make no marks: no name is the word of
a block, the names at the head of a loop are words, and operators are those that stand between two
operands. -/
def Expr.Legible : Expr → Prop
  | .name _ spelled => EchoName spelled
  | .member _ (.this _) property _ => EchoName property
  | .member _ (.name _ owner) _ _ => EchoName owner
  | .arrow _ parameters _ => ∀ parameter ∈ parameters, WordName parameter ∧ EchoName parameter
  | .call _ (.member _ (.member _ (.this _) array _) _ _) _ => WordName array
  | .binary _ operator _ _ | .logical _ operator _ _ =>
    (Script.Reader.operatorLevel? operator).isSome = true
  | .constant _ (.int n) spelling => EchoName ((Constant.int n).code spelling)
  | .constant _ (.float x) spelling => EchoName ((Constant.float x).code spelling)
  | _ => True

section Expressions

variable {job : Job} {loops : Loops} {label : String} {e : Expr}

theorem legible_of_readingIn {r : Reading} (legible : e.Legible)
    (h : job.readingIn loops label e = .ok r) : r.operand.Legible := by
  obtain ⟨_, -, h⟩ := exists_ok_of_bind h
  cases e with
  | name place name =>
    obtain ⟨_, -, h⟩ := exists_ok_of_bind h
    cases h
    exact legible
  | member place object field optional =>
    cases object with
    | this =>
      obtain ⟨_, -, h⟩ := exists_ok_of_bind h
      cases h
      exact legible
    | name place' item =>
      dsimp only at h
      split at h
      · cases h
      obtain ⟨_, -, h⟩ := exists_ok_of_bind h
      split at h
      · cases h
        exact legible
      · cases h
    | _ => cases h
  | _ => cases h

theorem legible_of_accessIn {a : Job.Access} (legible : e.All Expr.Legible)
    (h : job.accessIn loops label e = .ok a) : a.operand.Legible := by
  obtain ⟨_, -, h⟩ := exists_ok_of_bind h
  split at h
  · obtain ⟨r, hr, h⟩ := exists_ok_of_bind h
    cases h
    exact legible_of_readingIn legible.self hr
  · split at h
    · obtain ⟨r, hr, h⟩ := exists_ok_of_bind h
      cases h
      exact legible_of_readingIn (r := r) legible.2.self hr
    · obtain ⟨r, hr, h⟩ := exists_ok_of_bind h
      cases h
      exact legible_of_readingIn legible.self hr
  · obtain ⟨r, hr, h⟩ := exists_ok_of_bind h
    cases h
    exact legible_of_readingIn legible.self hr

theorem legible_of_ratingIn {item : String} {arguments : List Expr} {rating : Operand}
    (legible : Expr.AllIn Expr.Legible arguments) (hitem : EchoName item)
    (h : job.ratingIn loops label item arguments = .ok rating) : rating.Legible := by
  unfold Job.ratingIn at h
  split at h
  · obtain ⟨r, hr, h⟩ := exists_ok_of_bind h
    cases h
    exact legible_of_readingIn legible.1.self hr
  · obtain ⟨r, hr, h⟩ := exists_ok_of_bind h
    cases h
    exact legible_of_readingIn legible.1.self hr
  · cases h
    exact hitem

/-! ### Conditions -/

theorem Scans.constant {place : Text.Place} {v : Constant} {spelling : String}
    (legible : (Expr.constant place v spelling).Legible) :
    Scans true (v.code spelling) [] true false := by
  cases v with
  | null => exact .name (by decide : EchoName "null")
  | bool value =>
    cases value with
    | true => exact .name (by decide : EchoName "true")
    | false => exact .name (by decide : EchoName "false")
  | int n => exact .name legible
  | float x => exact .name legible
  | text content => exact (Scans.ofText content).weaken false
  | halves points => exact (Scans.ofText (Constant.joined points)).weaken false

theorem hushed_operator {operator : String}
    (h : (Script.Reader.operatorLevel? operator).isSome = true) :
    hushed (" " ++ operator ++ " ") = true ∧ endsName (" " ++ operator ++ " ").toList = true := by
  unfold Script.Reader.operatorLevel? at h
  split at h
  all_goals first | decide | cases h

/-- A condition has no marks. -/
theorem Job.bare_operandOf {ps : List Piece} (legible : e.All Expr.Legible)
    (h : job.operandOf loops label e = .ok ps) : Bare ps false := by
  induction label, e using Job.operandOf.induct generalizing ps with
  | case1 | case2 =>
    rw [operandOf] at h
    obtain ⟨a, access, h⟩ := exists_ok_of_bind h
    cases h
    exact .piece (.operand (legible_of_accessIn legible access)) rfl
  | case3 =>
    rw [operandOf] at h
    cases h
    exact .piece (.constant legible.self) rfl
  | case4 label place inner ih =>
    rw [operandOf] at h
    obtain ⟨qs, hqs, h⟩ := exists_ok_of_bind h
    cases h
    have brackets : hushed "( " = true ∧ hushed " )" = true := by decide
    exact ((ih legible.2 hqs).sign .nil brackets.2 (by decide)).weaken.bracket brackets.1
  | case5 label place operator left right hl hr | case6 label place operator left right hl hr =>
    rw [operandOf] at h
    obtain ⟨l, hleft, h⟩ := exists_ok_of_bind h
    obtain ⟨r, hright, h⟩ := exists_ok_of_bind h
    cases h
    obtain ⟨quiet, ends⟩ := hushed_operator legible.1
    exact (hl legible.2.1 hleft).sign (hr legible.2.2 hright) quiet ends
  | case7 label place test consequent alternate ht hc ha =>
    rw [operandOf] at h
    obtain ⟨t, htest, h⟩ := exists_ok_of_bind h
    obtain ⟨c, hconsequent, h⟩ := exists_ok_of_bind h
    obtain ⟨a, halternate, h⟩ := exists_ok_of_bind h
    cases h
    have signs : hushed "( " = true ∧ hushed " ) ? " = true ∧ hushed " : " = true := by
      decide
    have branches := (hc legible.2.2.1 hconsequent).sign (ha legible.2.2.2 halternate)
      signs.2.2 (by decide)
    have all := ((ht legible.2.1 htest).sign branches signs.2.1 (by decide)).bracket signs.1
    simpa only [List.cons_append, List.append_assoc] using all
  | case9 label place callee arguments =>
    rw [operandOf] at h
    obtain ⟨_, _, h⟩ := exists_ok_of_bind h
    obtain ⟨_, _, h⟩ := exists_ok_of_bind h
    split at h <;> cases h
  | case8 | case10 | case11 | case12 | case13 =>
    rw [operandOf] at h
    cases h

end Expressions

/-! ### Nested blocks -/

/-- Pieces whose blocks are nested, inside of some loops: a loop runs over what is seen there, the
texts are free of markers, and the rest makes no marks but its own. -/
inductive Nested (job : Job) : Loops → List Piece → Prop where
  | nil {loops : Loops} : Nested job loops []
  | append {loops : Loops} {ps qs : List Piece} (front : Nested job loops ps)
    (behind : Nested job loops qs) : Nested job loops (ps ++ qs)
  | text {loops : Loops} {content : String} (free : MarkerFree content.toList) :
    Nested job loops [.text content]
  | echo {loops : Loops} {value : Operand} {function : Option String} (legible : value.Legible)
    (hushes : Hushes function) : Nested job loops [.echo value function]
  | resultCount {loops : Loops} (labels : CountLabels) {function : Option String}
    (hushes : Hushes function) : Nested job loops [.resultCount labels function]
  | currentYear {loops : Loops} : Nested job loops [.currentYear]
  | stars {loops : Loops} (number : Int) {rating : Operand} (legible : rating.Legible) :
    Nested job loops [.stars number rating]
  | guard {loops : Loops} {test ps : List Piece} (bare : Bare test false)
    (body : Nested job loops ps) :
    Nested job loops (.ifStart :: test ++ .ifTested :: ps ++ [.ifEnd])
  | branch {loops : Loops} {test ps qs : List Piece} (bare : Bare test false)
    (first : Nested job loops ps) (second : Nested job loops qs) :
    Nested job loops (.ifStart :: test ++ .ifTested :: ps ++ .otherwise :: qs ++ [.ifEnd])
  | loop {loops : Loops} {array item : String} {ps : List Piece} (harray : WordName array)
    (hitem : WordName item) (seen : job.sees loops array = true)
    (body : Nested job ((item, array) :: loops) ps) :
    Nested job loops (.loopStart array item :: ps ++ [.loopEnd])

namespace Nested

variable {job : Job} {loops : Loops} {label : String} {e : Expr} {k : Cursor} {o : Outline}
  {ps : List Piece}

/-- The scanner finds the marks of nested blocks. -/
theorem scanned (h : Nested job loops ps) : Scanned ps := by
  induction h with
  | nil => exact .nil
  | append _ _ front behind => exact front.append behind
  | text free => exact .text free
  | echo legible hushes => exact .piece (.echo legible hushes)
  | resultCount labels hushes => exact .piece (.resultCount labels hushes)
  | currentYear => exact .piece .currentYear
  | stars number legible => exact .piece (.stars number legible)
  | guard bare _ body =>
    have all := ((Scanned.condition bare).append body).append (.piece .ifEnd)
    simpa only [List.cons_append, List.nil_append, List.append_assoc] using all
  | branch bare _ _ first second =>
    have all := ((((Scanned.condition bare).append first).append (.piece .otherwise)).append
      second).append (.piece .ifEnd)
    simpa only [List.cons_append, List.nil_append, List.append_assoc] using all
  | loop harray hitem _ _ body =>
    exact ((Scanned.piece (.loopStart harray hitem)).append body).append (.piece .loopEnd)

theorem of_accessAt {a : Job.Access} (legible : a.operand.Legible)
    (h : job.accessAt k e a = .ok o) : Nested job loops o.pieces := by
  cases a with
  | value r =>
    obtain ⟨function, resolved, h⟩ := exists_ok_of_bind h
    cases h
    exact .echo legible (.of_functionFor resolved)
  | count operand =>
    cases h
    exact .echo legible nofun

theorem of_helperAt {name : String} {arguments : List Expr}
    (legible : Expr.AllIn Expr.Legible arguments) (items : ∀ p ∈ loops, EchoName p.1)
    (h : job.helperAt loops k label e name arguments = .ok o) : Nested job loops o.pieces := by
  unfold Job.helperAt at h
  split at h
  · obtain ⟨_, -, h⟩ := exists_ok_of_bind h
    obtain ⟨function, resolved, h⟩ := exists_ok_of_bind h
    cases h
    exact .resultCount job.labels (.of_functionFor resolved)
  · split at h
    · cases h
      exact .currentYear
    · split at h
      · cases h
      · rename_i item array hloop
        obtain ⟨rating, rated, h⟩ := exists_ok_of_bind h
        cases h
        have hitem : EchoName item := items _ (List.mem_of_head? hloop)
        exact .stars job.stars (legible_of_ratingIn legible hitem rated)

theorem of_text {content : String}
    (free : Piece.TextsMarkerFree (Outline.text content).pieces) :
    Nested job loops (Outline.text content).pieces := by
  rw [Outline.pieces] at free ⊢
  split
  · exact .nil
  · rename_i nonempty
    rw [if_neg nonempty] at free
    exact .text (free content (List.mem_singleton_self _))

theorem of_texts {texts : List String}
    (free : Piece.TextsMarkerFree (Outline.ofTexts k texts).1.pieces) :
    Nested job loops (Outline.ofTexts k texts).1.pieces := by
  induction texts generalizing k with
  | nil => exact .nil
  | cons content texts ih =>
    rw [Outline.ofTexts, Outline.pieces] at free ⊢
    exact (of_text fun c hc => free c (List.mem_append_left _ hc)).append
      (ih fun c hc => free c (List.mem_append_right _ hc))

theorem sees_of_requireSeen {name : String} (h : job.requireSeen loops e name label = .ok ()) :
    job.sees loops name = true := by
  unfold Job.requireSeen at h
  split at h
  · assumption
  · cases h

end Nested

/-- Every equation of the reference translation nests its blocks. -/
theorem Job.translates_nested (job : Job) :
    job.Translates
      (fun loops _ _ e o _ => (∀ p ∈ loops, EchoName p.1) → e.All Expr.Legible →
        Piece.TextsMarkerFree o.pieces → Nested job loops o.pieces)
      fun loops _ holes _ o _ => (∀ p ∈ loops, EchoName p.1) → Expr.AllIn Expr.Legible holes →
        Piece.TextsMarkerFree o.pieces → Nested job loops o.pieces where
  name access outline _ legible _ := .of_accessAt (legible_of_accessIn legible access) outline
  member access outline _ legible _ := .of_accessAt (legible_of_accessIn legible access) outline
  text _ _ _ free := .of_text free
  group ih items legible free := ih items legible.2 free
  rendered _ ih items legible free := ih items legible.2 free
  skipped _ _ _ _ := .nil
  guard operand ih items legible free :=
    .guard (bare_operandOf legible.2.1 operand)
      (ih items legible.2.2 fun c hc => free c (by simp [Outline.pieces, hc]))
  taken operand _ ih items legible free :=
    .guard (bare_operandOf legible.2.1 operand)
      (ih items legible.2.2.1 fun c hc => free c (by simp [Outline.pieces, hc]))
  conditional operand _ ih₁ ih₂ items legible free :=
    .branch (bare_operandOf legible.2.1 operand)
      (ih₁ items legible.2.2.1 fun c hc => free c (by simp [Outline.pieces, hc]))
      (ih₂ items legible.2.2.2 fun c hc => free c (by simp [Outline.pieces, hc]))
  helper _ outline items legible _ := .of_helperAt legible.2.2 items outline
  loop shape head ih items legible free := by
    obtain ⟨_, _, _, _, _, _, rfl⟩ := CallShape.of?_eq_loop shape
    obtain ⟨hitem, echo⟩ := legible.2.2.1.self _ (List.mem_singleton_self _)
    obtain ⟨_, required, -⟩ := exists_ok_of_bind head
    have body := ih (fun p hp => by
        rcases List.mem_cons.mp hp with rfl | hp
        · exact echo
        · exact items p hp)
      legible.2.2.1.2 fun c hc => free c (by simp [Outline.pieces, hc])
    exact .loop legible.1 hitem (Nested.sees_of_requireSeen required) body
  nil _ _ free := .of_texts free
  lacking _ _ _ := .nil
  cons ih ihs items legible free := by
    rw [Outline.pieces] at free ⊢
    have inside := ih items legible.1 fun c hc => free c (by simp [Outline.pieces, hc])
    have rest := ihs items legible.2 fun c hc => free c (by simp [Outline.pieces, hc])
    exact (Nested.of_text fun c hc => free c (List.mem_append_left _ hc)).append
      (inside.append rest)

end ServerTemplate
