import ServerTemplate.Proofs.Emission.Parts
import ServerTemplate.Proofs.Outline.Writes

/-!
# What is converted in code

While code is being written, a conversion begins expressions, writes values, constants and signs,
and opens and leaves frames of its own (`CodeStep`). It writes no text, no block and no echo, and
it reads no literal text. So is every expression converted that begins in code, whether it is
converted in the end or refused; if it is converted, all scopes are left as they were found
(`inCode_lower`). Only the branches of a block may be rendered instead.

A condition is converted between the two parts of the head of a block in just this way
(`after_condition`).
-/

namespace ServerTemplate

open Emit
open Relation (ReflTransGen)

/-- Whether a piece is a part of an expression in code. -/
def Piece.isCode : Piece → Bool
  | operand _ | constant _ | symbol _ => true
  | _ => false

/-- What a conversion does in one go while code is being written. -/
inductive CodeStep : Progress → Progress → Prop
  /-- An expression begins, and is written bare. -/
  | begins {s : Progress} (code : s.tracker.inCode = true) (e : Expr) (label : String) :
      CodeStep s (s.noting (.expression e label true))
  | write {s : Progress} {piece : Piece} (code : s.tracker.inCode = true)
      (bare : piece.isCode = true) : CodeStep s (s.writing piece)
  /-- A frame is opened or left. -/
  | frame {s : Progress} {t : Tracker} (code : s.tracker.inCode = true)
      (same : t.regions = s.tracker.regions) : CodeStep s (s.tracking t)

/-- What a conversion does in any number of steps while code is being written. -/
abbrev CodeRun : Progress → Progress → Prop := ReflTransGen CodeStep

/-- What is left behind a frame that was opened is what was there before it. -/
theorem Tracker.eq_of_exit_enter {t t' : Tracker} {kind : FrameKind} {frame : Frame}
    (left : (t.enter kind).exit (some kind) = .ok (frame, t')) : t' = t := by
  by_cases empty : t.frames = []
  · simp [exit, enter, empty] at left
  · obtain ⟨frame', left'⟩ := exit_enter empty kind
    rw [left] at left'
    cases left'
    rfl

namespace Emit

/-- A part of a conversion that, begun in the scopes `t`, writes code only. If it succeeds, it ends
in the scopes `t`. -/
def InCode {α : Type} (t : Tracker) (x : Emit α) : Prop :=
  ∀ s : Progress, s.tracker = t →
    After x s (fun _ s' => CodeRun s s' ∧ s'.tracker = t) fun _ s' => CodeRun s s'

namespace InCode

variable {α β : Type} {x : Emit α} {t : Tracker} {job : Job} {label : String} {e : Expr}

theorem bind {f : α → Emit β} (h : InCode t x) (hf : ∀ a, InCode t (f a)) :
    InCode t (x >>= f) := by
  intro s hs
  rw [after_bind]
  refine (h s hs).mono (fun a s₁ ⟨run, hs₁⟩ => ?_) fun _ _ run => run
  refine (hf a s₁ hs₁).mono (fun _ s₂ ⟨run', hs₂⟩ => ?_) fun _ s₂ run' => run.trans run'
  exact ⟨run.trans run', hs₂⟩

theorem throw (d : Diagnostic) : InCode t (throw d : Emit α) := fun _ _ => .refl

theorem ofExcept (r : Except Diagnostic α) : InCode t (ofExcept r) :=
  fun _ hs => after_ofExcept (fun _ _ => ⟨.refl, hs⟩) fun _ _ => .refl

theorem tracker {f : Tracker → Emit β} (h : InCode t (f t)) : InCode t (Emit.tracker >>= f) := by
  intro s hs
  rw [after_bind, after_tracker, hs]
  exact h s hs

theorem inCode {f : Bool → Emit β} (h : InCode t (f t.inCode)) : InCode t (Emit.inCode >>= f) := by
  intro s hs
  rw [after_bind, after_inCode, hs]
  exact h s hs

theorem refuse {construct : Unsupported} : InCode t (Emit.refuse job e label construct) :=
  tracker (throw _)

variable (code : t.inCode = true)

include code

theorem write (piece : Piece) (bare : piece.isCode = true) : InCode t (Emit.write piece) :=
  fun _ hs => ⟨.single (.write (hs ▸ code) bare), hs⟩

/-- An expression that begins in code is written bare. -/
theorem begin {use : Use} {f : Bool → Emit β} (hf : InCode t (f true)) :
    InCode t (Emit.begin use e label >>= f) := by
  intro s hs
  have inside : s.tracker.inCode = true := hs ▸ code
  have begun : CodeRun s (s.noting (.expression e label true)) := .single (.begins inside e label)
  rw [after_bind, after_begin, inside, Bool.or_true]
  refine (hf (s.noting (.expression e label true)) hs).mono (fun _ s₁ ⟨run, hs₁⟩ => ?_)
    fun _ s₁ run => begun.trans run
  exact ⟨begun.trans run, hs₁⟩

theorem readValue : InCode t (Emit.readValue job e label true) :=
  tracker <| (ofExcept _).bind fun _ => write code _ rfl

theorem countOf : InCode t (Emit.countOf job e label true) :=
  tracker <| (ofExcept _).bind fun _ => write code _ rfl

theorem property {object : Expr} {name : String} :
    InCode t (Emit.property job e object name label true) := by
  refine tracker <| (ofExcept _).bind fun _ => ?_
  split
  · exact readValue code
  · split
    · exact countOf code
    · exact readValue code

theorem constant {v : Constant} {spelling : String} :
    InCode t (Emit.constant job e v spelling label true) := by
  rcases v with _ | b | _ | _ | _
  case bool => cases b <;> exact write code _ rfl
  all_goals exact write code _ rfl

/-- Two operands with an operator between them. -/
theorem operator {left right : Emit Unit} {sign : String} (hl : InCode t left)
    (hr : InCode t right) : InCode t (do left; Emit.write (.symbol sign); right) :=
  hl.bind fun _ => (write code _ rfl).bind fun _ => hr

/-- A helper has no form in code, and neither has a loop. -/
theorem called {place : Text.Place} {callee : Expr} {arguments : List Expr} :
    InCode t (Emit.called job label place callee arguments) := by
  have helper (name : String) :
      InCode t (Emit.helper job (.call place callee arguments) name label arguments) := by
    refine tracker ?_
    rw [if_pos code]
    exact refuse
  have loop (array : String) (item? : Option String) (rest : Unit → Emit Unit) :
      InCode t (Emit.loopHead job (.call place callee arguments) array label item? >>= rest) := by
    intro s hs
    have refused : After
        (Emit.loopHead job (.call place callee arguments) array label item?) s
        (fun _ _ => False) fun _ s' => s' = s := by
      unfold Emit.loopHead
      rw [after_bind, after_tracker, hs, if_pos code]
      rfl
    rw [after_bind]
    exact refused.mono (fun _ _ => False.elim) fun _ _ same => same ▸ .refl
  unfold Emit.called
  split
  · exact refuse
  · exact helper _
  · split
    · exact loop _ _ _
    · exact bind_pure_unit (x := Emit.loopHead _ _ _ _ _) ▸ loop _ _ _

omit code in
/-- A frame of its own around what writes code only. -/
theorem framed {x : Emit Unit} {kind : FrameKind} (code : t.inCode = true)
    (h : InCode (t.enter kind) x) : InCode t (do enterScope kind; x; exitScope kind) := by
  intro s hs
  subst hs
  have entered : CodeRun s (s.tracking (s.tracker.enter kind)) := .single (.frame code rfl)
  rw [after_bind, after_enterScope_none, after_bind]
  refine (h _ rfl).mono (fun _ s₁ ⟨run, hs₁⟩ => ?_) fun _ _ run => entered.trans run
  have before := entered.trans run
  refine after_exitScope (fun frame t left => ?_) fun _ _ => before
  have same : t = s.tracker := Tracker.eq_of_exit_enter (hs₁ ▸ left)
  subst same
  exact ⟨before.tail (.frame (hs₁ ▸ code) (hs₁ ▸ rfl)), rfl⟩

/-- A conditional in code has a frame of its own. -/
theorem inlineConditional {test consequent alternate : Emit Unit}
    (htest : InCode (t.enter .conditional) test)
    (hthen : InCode (t.enter .conditional) consequent)
    (helse : InCode (t.enter .conditional) alternate) :
    InCode t (Emit.inlineConditional test consequent alternate) := by
  have inner : (t.enter .conditional).inCode = true := code
  have parts : InCode (t.enter .conditional) _ :=
    (write inner (.symbol "( ") rfl).bind fun _ => htest.bind fun _ =>
      (write inner (.symbol " ) ? ") rfl).bind fun _ => hthen.bind fun _ =>
      (write inner (.symbol " : ") rfl).bind fun _ => helse
  have whole := framed code parts
  simp only [bind_assoc] at whole
  exact whole

end InCode

end Emit

variable {job : Job} {s : Progress}

/-- Whether an expression is rendered, and not converted, where it is the branch of a block. -/
def Expr.isRendered (tag : String) (e : Expr) : Bool :=
  match e.ungrouped with
  | .tagged _ tag' _ _ _ => tag' == tag
  | .constant _ (.text _) _ | .constant _ (.halves _) _ => true
  | _ => false

/-- An expression that begins in code is converted in code, unless it is a branch that is rendered.
-/
theorem inCode_lower (job : Job) {use : Use} (label : String) {e : Expr} {t : Tracker}
    (code : t.inCode = true) (plain : use = .block → e.isRendered job.tag = false) :
    InCode t (lower job use label e) := by
  suffices all : (∀ use label e, (use = .block → e.isRendered job.tag = false) → ∀ t : Tracker,
      t.inCode = true → InCode t (lower job use label e)) ∧
        ∀ (_ : String) (_ : Nat) (_ : List Expr) (_ : List String), True from
    all.1 use label e plain t code
  clear plain code t label use e
  -- an operand is no branch
  have ofOperand {p : Prop} (block : Use.operand = .block) : p := absurd block (by decide)
  -- one case for each equation of the conversion
  refine lower.mutual_induct job _ _ ?groupInBlock ?group ?rendered ?skipped ?text ?halves ?constant
    ?name ?member ?binary ?logical ?conditional ?call ?this ?arrow ?template ?other ?nil ?lacking
    ?cons
  case groupInBlock =>
    intro label place inner ih plain t code
    rw [lower, if_pos rfl]
    exact ih plain t code
  case group =>
    intro use label place inner huse hoperand hvalue _ t code
    rw [lower, if_neg huse]
    exact .begin code <| (InCode.write code _ rfl).bind fun _ =>
      (hoperand ofOperand t code).bind fun _ => .write code _ rfl
  case rendered =>
    intro use label place tag templatePlace texts holes h _ plain
    have skipped : (tag == job.tag) = false := plain h.1
    exact absurd h.2 (beq_eq_false_iff_ne.mp skipped)
  case skipped =>
    intro use label place tag templatePlace texts holes h _ t code
    rw [lower, if_neg h]
    refine .begin code ?_
    rw [if_pos (.inr rfl)]
    exact .refuse
  case text =>
    intro label place spelling content plain
    have skipped : true = false := plain rfl
    cases skipped
  case halves =>
    intro label place spelling points plain
    have skipped : true = false := plain rfl
    cases skipped
  case constant =>
    intro use label place v spelling hv hp _ t code
    rw [lower]
    · exact .begin code (.constant code)
    · exact hv
    · exact hp
  case name =>
    intro use label place name _ t code
    rw [lower]
    exact .begin code (.readValue code)
  case member =>
    intro use label place object name optional _ t code
    rw [lower]
    exact .begin code (.property code)
  case binary =>
    intro use label place operator left right hl hr _ t code
    rw [lower]
    exact .begin code (.operator code (hl ofOperand t code) (hr ofOperand t code))
  case logical =>
    intro use label place operator left right hl hr _ _ _ t code
    rw [lower]
    exact .begin code (.operator code (hl ofOperand t code) (hr ofOperand t code))
  case conditional =>
    intro use label place test consequent alternate htest hthen helse _ _ _ t code
    rw [lower]
    refine .begin code (.inCode ?_)
    rw [if_pos code]
    exact .inlineConditional code (htest ofOperand _ code) (hthen ofOperand _ code)
      (helse ofOperand _ code)
  case call =>
    intro use label place callee arguments _ _ t code
    rw [lower_call]
    refine .begin code (.tracker ?_)
    refine (InCode.ofExcept _).bind fun _ => (InCode.ofExcept _).bind fun _ => ?_
    exact .called code
  case this | arrow | template | other =>
    intros
    rw [lower]
    exact .begin (by assumption) .refuse
  case nil | lacking | cons => intros; trivial

/-- The test of a condition is converted in code, between the two parts of the head. If it is
converted, all is as it was in front of the head. -/
theorem after_condition (label : String) (test : Expr) :
    After (condition (lower job .operand label test)) s
      (fun _ s' => ∃ s₁, CodeRun ((s.writing .ifStart).tracking s.tracker.enterCode) s₁ ∧
        s' = (s₁.tracking s.tracker).writing .ifTested)
      fun _ s' => CodeRun ((s.writing .ifStart).tracking s.tracker.enterCode) s' := by
  have inside : InCode s.tracker.enterCode (lower job .operand label test) :=
    inCode_lower job label rfl nofun
  unfold condition
  rw [after_bind, after_write, after_bind, after_enterCode, after_bind]
  refine (inside _ rfl).mono (fun _ s₁ ⟨run, hs₁⟩ => ?_) fun _ _ run => run
  rw [after_bind]
  refine after_leaveCode (fun t left => ?_) fun _ _ => run
  rw [hs₁, Tracker.leaveCode_enterCode] at left
  cases left
  exact ⟨s₁, run, rfl⟩

end ServerTemplate
