import ServerTemplate.Proofs.Outline.Writes

/-!
# Conditions agree with the reference translation

In code, an expression is converted to the pieces that `Job.operandOf` gives, or fails as it does
(`writesCode_lower`). The induction is that of `operandOf`; the frame that a conditional in code
opens and leaves makes no difference to the loops.
-/

namespace ServerTemplate

open Emit

variable {job : Job} {loops : Loops} {s : Progress} {label : String} {e : Expr}

namespace Emit

/-- Writes what a name or a property gives. -/
def access (job : Job) (e : Expr) (bare : Bool) : Job.Access → Emit Unit
  | .value r => value job e bare r
  | .count operand =>
    write (if bare then .operand (.count operand) else .echo (.count operand) none)

section Access

variable {bare : Bool} {good : Unit → Progress → Prop} {bad : Diagnostic → Progress → Prop}

theorem after_readValue (h : job.Represents loops s.tracker) :
    After (readValue job e label bare) s good bad ↔
      match job.readingIn loops label e with
      | .ok r => After (value job e bare r) s good bad
      | .error d => bad d s := by
  unfold readValue
  rw [after_bind, after_tracker, h.reading, after_check]
  cases job.readingIn loops label e <;> rfl

theorem after_property {place : Text.Place} {object : Expr} {name : String} {optional : Bool}
    (h : job.Represents loops s.tracker) :
    After (property job (.member place object name optional) object name label bare) s good bad ↔
      match job.accessIn loops label (.member place object name optional) with
      | .ok a => After (access job (.member place object name optional) bare a) s good bad
      | .error d => bad d s := by
  have value : After (readValue job (.member place object name optional) label bare) s good bad ↔
      match (do return .value (← job.readingIn loops label (.member place object name optional)) :
        Except Diagnostic Job.Access) with
      | .ok a => After (access job (.member place object name optional) bare a) s good bad
      | .error d => bad d s := by
    rw [after_readValue h]
    cases job.readingIn loops label (.member place object name optional) <;> rfl
  have count : After (countOf job object label bare) s good bad ↔
      match (do return .count (← job.readingIn loops label object).operand :
        Except Diagnostic Job.Access) with
      | .ok a => After (access job (.member place object name optional) bare a) s good bad
      | .error d => bad d s := by
    unfold countOf
    rw [after_bind, after_tracker, h.reading, after_check]
    cases job.readingIn loops label object <;> rfl
  unfold property Job.accessIn
  rw [after_bind, after_tracker, h.requirePlain, after_check]
  cases job.plain label (.member place object name optional) with
  | error d => rfl
  | ok _ =>
    cases object with
    | this => exact value
    | _ =>
      dsimp only [bind, Except.bind]
      split
      · exact count
      · exact value

theorem after_name {place : Text.Place} {name : String} (h : job.Represents loops s.tracker) :
    After (readValue job (.name place name) label bare) s good bad ↔
      match job.accessIn loops label (.name place name) with
      | .ok a => After (access job (.name place name) bare a) s good bad
      | .error d => bad d s := by
  rw [after_readValue h]
  change _ ↔ match (do return .value (← job.readingIn loops label (.name place name)) :
    Except Diagnostic Job.Access) with | .ok a => _ | .error d => _
  cases job.readingIn loops label (.name place name) <;> rfl

end Access

/-! ### Operands -/

theorem after_begin_operand {f : Bool → Emit Unit} {good : Unit → Progress → Prop}
    {bad : Diagnostic → Progress → Prop} :
    After (begin .operand e label >>= f) s good bad ↔
      After (f true) (s.noting (.expression e label true)) good bad := Iff.rfl

theorem after_refuse {construct : Unsupported} {good : Unit → Progress → Prop}
    {bad : Diagnostic → Progress → Prop} (h : job.Represents loops s.tracker) :
    After (refuse job e label construct) s good bad ↔ bad (job.refusal e label construct) s := by
  unfold refuse
  rw [after_bind, after_tracker, h.unsupported, after_throw]

/-- An operand writes what is written behind its beginning. -/
theorem WritesCode.begin {f : Bool → Emit Unit} {r : Except Diagnostic (List Piece)}
    (h : WritesCode (s.noting (.expression e label true)) (f true) r) :
    WritesCode s (begin .operand e label >>= f) r :=
  after_begin_operand.mpr <| h.mono
    (fun _ _ ⟨ps, hr, w, hk⟩ => ⟨ps, hr, w.of_noting, hk⟩) fun _ _ h => h

theorem WritesCode.refuse {construct : Unsupported} (h : job.Represents loops s.tracker) :
    WritesCode s (Emit.refuse job e label construct) (.error (job.refusal e label construct)) :=
  (after_refuse h).mpr rfl

/-- What a name or a property gives is written bare in code. -/
theorem access_code (a : Job.Access) : access job e true a = write (.operand a.operand) := by
  cases a <;> rfl

end Emit

section Cases

variable {place : Text.Place} {use : Use}

theorem writesCode_name {name : String} (h : job.Represents loops s.tracker) :
    WritesCode s (lower job .operand label (.name place name))
      (job.operandOf loops label (.name place name)) := by
  rw [lower, Job.operandOf]
  refine .begin ?_
  unfold WritesCode
  rw [after_name (s := s.noting _) h]
  cases job.accessIn loops label (.name place name) with
  | error d => rfl
  | ok a =>
    dsimp only
    rw [access_code]
    exact ⟨_, rfl, .writing _ _, rfl⟩

theorem writesCode_member {object : Expr} {name : String} {optional : Bool}
    (h : job.Represents loops s.tracker) :
    WritesCode s (lower job .operand label (.member place object name optional))
      (job.operandOf loops label (.member place object name optional)) := by
  rw [lower, Job.operandOf]
  refine .begin ?_
  unfold WritesCode
  rw [after_property (s := s.noting _) h]
  cases job.accessIn loops label (.member place object name optional) with
  | error d => rfl
  | ok a =>
    dsimp only
    rw [access_code]
    exact ⟨_, rfl, .writing _ _, rfl⟩

theorem writesCode_constant {v : Constant} {spelling : String} :
    WritesCode s (lower job .operand label (.constant place v spelling))
      (job.operandOf loops label (.constant place v spelling)) := by
  rw [lower, Job.operandOf]
  · refine .begin ?_
    rw [constant_code]
    exact ⟨_, rfl, .writing _ _, rfl⟩
  · rintro _ ⟨⟩
  · rintro _ ⟨⟩

/-- Two operands with an operator between them. -/
theorem writesCode_operator {left right : Expr} {l r sign : String}
    (h : job.Represents loops s.tracker) (code : s.tracker.inCode = true)
    (hl : ∀ s : Progress, job.Represents loops s.tracker → s.tracker.inCode = true →
      WritesCode s (lower job .operand l left) (job.operandOf loops l left))
    (hr : ∀ s : Progress, job.Represents loops s.tracker → s.tracker.inCode = true →
      WritesCode s (lower job .operand r right) (job.operandOf loops r right)) :
    WritesCode s
      (do lower job .operand l left; write (.symbol sign); lower job .operand r right)
      (do
        let first ← job.operandOf loops l left
        let second ← job.operandOf loops r right
        return first ++ .symbol sign :: second) := by
  refine (hl s h code).then (fun first s₁ h₁ w₁ k₁ => ?_) (fun d hd => by rw [hd]; rfl)
  rw [after_bind, after_write]
  have same : (s₁.writing (.symbol sign)).tracker = s.tracker := w₁.tracker
  refine (hr _ (same ▸ h) (same ▸ code)).mono (fun _ s₂ ⟨second, h₂, w₂, k₂⟩ => ?_) fun d _ hd => ?_
  · refine ⟨first ++ ([.symbol sign] ++ second), by rw [h₁, h₂]; rfl, ?_, k₂.trans k₁⟩
    exact w₁.trans ((Wrote.writing _ _).trans w₂)
  · rw [h₁, hd]
    rfl

theorem writesCode_group {inner : Expr} (h : job.Represents loops s.tracker)
    (code : s.tracker.inCode = true)
    (ih : ∀ s : Progress, job.Represents loops s.tracker → s.tracker.inCode = true →
      WritesCode s (lower job .operand label inner) (job.operandOf loops label inner)) :
    WritesCode s (lower job .operand label (.group place inner))
      (job.operandOf loops label (.group place inner)) := by
  rw [lower, if_neg (by decide), Job.operandOf]
  refine .begin ?_
  unfold WritesCode
  rw [if_pos rfl, after_bind, after_write]
  refine (ih ((s.noting _).writing _) h code).then (fun ps s₁ h₁ w₁ k₁ => ?_)
    (fun d hd => by rw [hd]; rfl)
  rw [after_write]
  refine ⟨[.symbol "( "] ++ ps ++ [.symbol " )"], by rw [h₁]; rfl, ?_, k₁⟩
  exact ((Wrote.writing _ _).trans w₁).trans (.writing _ _)

theorem writesCode_conditional {test consequent alternate : Expr}
    (h : job.Represents loops s.tracker) (code : s.tracker.inCode = true)
    (ht : ∀ s : Progress, job.Represents loops s.tracker → s.tracker.inCode = true →
      WritesCode s (lower job .operand (label ++ "-test") test)
        (job.operandOf loops (label ++ "-test") test))
    (hc : ∀ s : Progress, job.Represents loops s.tracker → s.tracker.inCode = true →
      WritesCode s (lower job .operand (label ++ "-consequent") consequent)
        (job.operandOf loops (label ++ "-consequent") consequent))
    (ha : ∀ s : Progress, job.Represents loops s.tracker → s.tracker.inCode = true →
      WritesCode s (lower job .operand (label ++ "-alternate") alternate)
        (job.operandOf loops (label ++ "-alternate") alternate)) :
    WritesCode s (lower job .operand label (.conditional place test consequent alternate))
      (job.operandOf loops label (.conditional place test consequent alternate)) := by
  rw [lower, Job.operandOf]
  refine .begin ?_
  unfold WritesCode
  rw [after_bind, after_inCode, if_pos (show (s.noting _).tracker.inCode = true from code)]
  unfold inlineConditional
  rw [after_bind, after_enterScope_none, after_bind, after_write]
  -- the parts stand in a frame of their own, which represents the same loops
  have inner : job.Represents loops (s.tracker.enter .conditional) := h.enter (by decide)
  have inner_code : (s.tracker.enter .conditional).inCode = true := code
  refine (ht (((s.noting _).tracking _).writing _) inner inner_code).then
    (fun t s₁ h₁ w₁ k₁ => ?_) (fun d hd => by rw [hd]; rfl)
  rw [after_bind, after_write]
  have same₁ : (s₁.writing (.symbol " ) ? ")).tracker = s.tracker.enter .conditional := w₁.tracker
  refine (hc _ (same₁ ▸ inner) (same₁ ▸ inner_code)).then (fun c s₂ h₂ w₂ k₂ => ?_)
    (fun d hd => by rw [h₁, hd]; rfl)
  rw [after_bind, after_write]
  have same₂ : (s₂.writing (.symbol " : ")).tracker = s.tracker.enter .conditional :=
    w₂.tracker.trans same₁
  refine (ha _ (same₂ ▸ inner) (same₂ ▸ inner_code)).then (fun a s₃ h₃ w₃ k₃ => ?_)
    (fun d hd => by rw [h₁, h₂, hd]; rfl)
  obtain ⟨frame, left⟩ := Tracker.exit_enter h.sound.nonempty .conditional
  have same₃ : s₃.tracker = s.tracker.enter .conditional := w₃.tracker.trans same₂
  refine after_exitScope (fun _ t' ht' => ?_) fun d hd => ?_
  · rw [same₃, left] at ht'
    cases ht'
    refine ⟨[.symbol "( "] ++ t ++ [.symbol " ) ? "] ++ c ++ [.symbol " : "] ++ a, ?_, ?_,
      k₃.trans (k₂.trans k₁)⟩
    · rw [h₁, h₂, h₃]
      simp [bind, Except.bind, pure, Except.pure]
    · have wrote := ((((Wrote.writing _ _).trans w₁).trans (.writing _ _)).trans w₂).trans
        (.writing _ _) |>.trans w₃
      exact wrote.within
  · rw [same₃, left] at hd
    cases hd

/-- A helper has no form in code. -/
theorem writesCode_helper {name : String} {arguments : List Expr}
    (h : job.Represents loops s.tracker) (code : s.tracker.inCode = true) :
    WritesCode s (helper job e name label arguments)
      (.error (job.refusal e label (.helperInCode name))) := by
  unfold WritesCode helper
  rw [after_bind, after_tracker, if_pos code]
  exact WritesCode.refuse h

/-- Nor has a loop. -/
theorem writesCode_loopHead {array : String} {item? : Option String}
    (h : job.Represents loops s.tracker) (code : s.tracker.inCode = true) :
    WritesCode s (loopHead job e array label item?)
      (.error (job.refusal e label (.loopInCode array))) := by
  unfold WritesCode loopHead
  rw [after_bind, after_tracker, if_pos code]
  exact WritesCode.refuse h

/-- A call has no form in code. -/
theorem writesCode_call {callee : Expr} {arguments : List Expr} (h : job.Represents loops s.tracker)
    (code : s.tracker.inCode = true) :
    WritesCode s (lower job .operand label (.call place callee arguments))
      (job.operandOf loops label (.call place callee arguments)) := by
  rw [lower_call, Job.operandOf]
  refine .begin ?_
  unfold WritesCode
  rw [after_bind, after_tracker, Progress.noting_tracker, h.requirePlain, after_check]
  cases job.plain label callee with
  | error d => rfl
  | ok _ =>
    dsimp only
    rw [h.requirePlainOwner, after_check]
    cases job.plainOwner label callee with
    | error d => rfl
    | ok _ =>
      have h₀ : job.Represents loops
          (s.noting (.expression (.call place callee arguments) label true)).tracker := h
      have code₀ : (s.noting (.expression (.call place callee arguments) label true)).tracker.inCode
          = true := code
      unfold called
      cases CallShape.of? callee with
      | none => exact WritesCode.refuse h₀
      | some shape =>
        cases shape with
        | helper name => exact writesCode_helper h₀ code₀
        | loop array =>
          dsimp only
          split
          · exact (writesCode_loopHead h₀ code₀).then (fun _ _ h _ _ => by cases h) fun _ h => h
          · exact writesCode_loopHead h₀ code₀

end Cases

/-- A condition is written as the reference translation gives it, or fails as that does. -/
theorem writesCode_lower (job : Job) (loops : Loops) (label : String) (e : Expr) :
    ∀ s : Progress, job.Represents loops s.tracker → s.tracker.inCode = true →
      WritesCode s (lower job .operand label e) (job.operandOf loops label e) := by
  -- parts are lowered behind other parts, so the hypotheses speak of all states
  induction label, e using Job.operandOf.induct with
  | case1 label place name => exact fun s h _ => writesCode_name h
  | case2 label place object property optional => exact fun s h _ => writesCode_member h
  | case3 label place v spelling => exact fun s _ _ => writesCode_constant
  | case4 label place inner ih => exact fun s h code => writesCode_group h code ih
  | case5 label place operator left right hl hr | case6 label place operator left right hl hr =>
    intro s h code
    rw [lower, Job.operandOf]
    exact .begin (writesCode_operator h code hl hr)
  | case7 label place test consequent alternate ht hc ha =>
    exact fun s h code => writesCode_conditional h code ht hc ha
  | case8 label place tag templatePlace chunks holes =>
    intro s h _
    rw [lower, if_neg (by simp), Job.operandOf]
    refine .begin ?_
    rw [if_pos (.inr rfl)]
    exact .refuse h
  | case9 label place callee arguments => exact fun s h code => writesCode_call h code
  | case10 | case11 | case12 | case13 =>
    intro s h _
    rw [lower, Job.operandOf]
    exact .begin (.refuse h)

end ServerTemplate
