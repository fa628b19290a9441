import ServerTemplate.Proofs.Literal.Conditional

/-!
# Regions with a constant

In code, and as an operand, a constant is written as its code and nothing else (`lower_bare`). A
region of code with a constant in its only hole is converted with the code of the constant in place
of the hole (`convert_constantHole`).
-/

namespace ServerTemplate

open Emit

variable {job : Job} {use : Use} {label spelling : String} {place : Text.Place} {v : Constant}
  {p : Progress}

theorem bind_begin {α : Type} {e : Expr} {f : Bool → Emit α} :
    (begin use e label >>= f) p = f (use == .operand || p.tracker.inCode)
      (p.noting (.expression e label (use == .operand || p.tracker.inCode))) := rfl

theorem constant_bare {e : Expr} :
    Emit.constant job e v spelling label true p =
      .ok () (p.writing (.constant (v.code spelling))) := by
  cases v with
  | bool b => cases b <;> rfl
  | _ => rfl

/-- In code, and as an operand, a constant is written as its code. -/
theorem lower_bare (bare : use = .operand ∨ use = .value ∧ p.tracker.inCode = true) :
    lower job use label (.constant place v spelling) p =
      .ok () ((p.noting (.expression (.constant place v spelling) label true)).writing
        (.constant (v.code spelling))) := by
  have lowered : lower job use label (.constant place v spelling) = (do
      Emit.constant job (.constant place v spelling) v spelling label
        (← begin use (.constant place v spelling) label)) := by
    rw [lower]
    all_goals
      intro _ block
      simp [block] at bare
  have isBare : (use == .operand || p.tracker.inCode) = true := by
    rcases bare with rfl | ⟨-, code⟩
    · rfl
    · rw [code, Bool.or_true]
  rw [lowered, bind_begin, isBare]
  exact constant_bare

/-- Two texts that are a region of code without markers, but for a hole between them. -/
structure AreAroundHole (front back : String) : Prop where
  opens : ∃ code, segments false front.toList = [.marker .openCode, .text code]
  closes : ∃ code, segments true back.toList = [.text code, .marker .closeCode]

/-- A region that writes a value is a region around a hole. -/
theorem areAroundHole_echo : AreAroundHole "<?php echo " "; ?>" where
  opens := ⟨" echo ".toList, by decide +kernel⟩
  closes := ⟨"; ".toList, by decide +kernel⟩

/-- A region with a constant in its only hole is converted with the code of the constant in place of
the hole. -/
theorem convert_constantHole {front back : String} (around : AreAroundHole front back)
    (templatePlace : Text.Place) (job : Job) :
    job.convert ⟨templatePlace, [front, back], [.constant place v spelling]⟩ =
      .ok (front ++ v.code spelling ++ back) := by
  obtain ⟨⟨_, opens⟩, ⟨_, closes⟩⟩ := around
  refine eq_ok_of_toOption ?_
  let e : Expr := .constant place v spelling
  have converted : (job.convert (Part.hole front e (.text back)).template).toOption = _ :=
    Part.convert_codeHole opens closes
  refine converted.trans ?_
  change some (front ++ (Piece.writtenAll [.constant (v.code spelling)] ++ back)) = _
  rw [Piece.writtenAll_singleton, String.append_assoc]
  rfl

/-- An expression is written in code, and as an operand, as some code and nothing else, and so in
every region around it. -/
structure Expr.IsCode (e : Expr) (code : String) : Prop where
  written : ∀ (job : Job) (use : Use) (label : String) (p : Progress),
    use = .operand ∨ use = .value ∧ p.tracker.inCode = true →
      lower job use label e p =
        .ok () ((p.noting (.expression e label true)).writing (.constant code))
  inRegion : ∀ front back : String, AreAroundHole front back →
    ∀ (place : Text.Place) (job : Job),
      job.convert ⟨place, [front, back], [e]⟩ = .ok (front ++ code ++ back)

theorem isCode_constant : (Expr.constant place v spelling).IsCode (v.code spelling) where
  written _ _ _ _ := lower_bare
  inRegion _ _ around templatePlace job := convert_constantHole around templatePlace job

end ServerTemplate
