import ServerTemplate.Proofs.Coverage.Brings

/-!
# Expressions are dealt with as a whole

`LowersCovered` says of an expression that a conversion that succeeds has dealt with all that occurs
in it: what is converted by itself has a form and has begun, owners and callees are plain
references, and the only functions are those that loops are given. Of the arguments of helpers only
the rating that stars are drawn for is looked at; all others are unused.

There is one lemma for each kind of expression, and `lowersCovered` puts them together.
-/

namespace ServerTemplate

open Emit

variable {job : Job} {tag label : String} {use : Use} {place : Text.Place} {r : Standing}
  {e object inner callee left right : Expr} {arguments : List Expr} {t : Tracker} {s : Progress}

/-! ### References -/

namespace Fact

theorem covered_this : (covered tag .reference (.this place)).holds s :=
  covered_of_parts trivial coveredAll_nil

theorem covered_name {name : String} : (covered tag .reference (.name place name)).holds s :=
  covered_of_parts trivial coveredAll_nil

/-- A property is a reference if its owner is and it is not read optionally. -/
theorem covered_member {property : String} (h : (covered tag .reference object).holds s) :
    (covered tag .reference (.member place object property false)).holds s :=
  covered_of_parts rfl (coveredAll_cons.mpr ⟨h, coveredAll_nil⟩)

/-- What occurs in a part occurs in the whole. -/
theorem covered_part (h : (covered tag r e).holds s) {p : Standing × Expr}
    (hp : p ∈ e.parts tag r) : (covered tag p.1 p.2).holds s :=
  fun _ _ occurs => h _ _ (.inside hp occurs)

end Fact

/-- What passes is no property that is read optionally. -/
theorem Job.plain_of_requirePlain {property : String} {optional : Bool}
    (h : job.requirePlain t label (.member place object property optional) = .ok ()) :
    optional = false := by
  cases optional with
  | true => cases h
  | false => rfl

/-- What reads a value is a name, or a plain property of the component or of a name. -/
theorem Job.covered_of_reading {v : Reading} (h : job.reading t label e = .ok v) :
    (Fact.covered tag .reference e).holds s := by
  obtain ⟨_, plain, h⟩ := exists_ok_of_bind h
  cases e with
  | name => exact Fact.covered_name
  | member place object property optional =>
    cases Job.plain_of_requirePlain plain
    cases object with
    | this => exact Fact.covered_member Fact.covered_this
    | name => exact Fact.covered_member Fact.covered_name
    | _ => cases h
  | _ => cases h

/-- An argument that is used as a rating is a reference. -/
theorem Job.covered_of_ratingOperand {item : String} {v : Operand}
    (h : job.ratingOperand t label item arguments = .ok v) :
    (Fact.coveredAll tag (arguments.map ((Standing.ofRating arguments, ·)))).holds s := by
  unfold Job.ratingOperand at h
  split at h
  · obtain ⟨_, read, -⟩ := exists_ok_of_bind h
    exact Fact.coveredAll_cons.mpr ⟨Job.covered_of_reading read, Fact.coveredAll_nil⟩
  · obtain ⟨_, read, -⟩ := exists_ok_of_bind h
    exact Fact.coveredAll_cons.mpr ⟨Job.covered_of_reading read, Fact.coveredAll_nil⟩
  · rename_i noMember noName
    refine Fact.coveredAll_unused ?_
    unfold Standing.ofRating
    split
    · exact (noName _ _ rfl).elim
    · exact (noMember _ _ _ _ rfl).elim
    · rfl

/-- The callee of a call that has a form is a plain reference. -/
theorem CallShape.covered_callee {shape : CallShape} (h : CallShape.of? callee = some shape)
    (plain : job.requirePlain t label callee = .ok ())
    (plain_owner : job.requirePlainOwner t label callee = .ok ()) :
    (Fact.covered tag .reference callee).holds s := by
  cases callee with
  | member place object property optional =>
    cases Job.plain_of_requirePlain plain
    cases object with
    | this => exact Fact.covered_member Fact.covered_this
    | member place' inner property' optional' =>
      cases Job.plain_of_requirePlain plain_owner
      cases inner with
      | this => exact Fact.covered_member (Fact.covered_member Fact.covered_this)
      | _ => cases h
    | _ => cases h
  | _ => cases h

namespace Emit.Brings

/-! ### Parts of expressions -/

theorem value {bare : Bool} {v : Reading} : Brings .nothing (Emit.value job e bare v) := by
  unfold Emit.value
  split
  · exact write _
  · exact cursor.quiet_bind fun _ => check fun _ _ => write _

/-- What reads a value is a reference. -/
theorem readValue {bare : Bool} :
    Brings (.covered tag .reference e) (Emit.readValue job e label bare) :=
  tracker.quiet_bind fun _ => check fun _ read =>
    value.known fun _ => Job.covered_of_reading read

theorem countOf {bare : Bool} :
    Brings (.covered tag .reference object) (Emit.countOf job object label bare) :=
  tracker.quiet_bind fun _ => check fun _ read =>
    (write _).known fun _ => Job.covered_of_reading read

/-- A property is not read optionally, and its owner is a reference. -/
theorem property {name : String} {optional bare : Bool} :
    Brings (.and (.known (optional = false)) (.covered tag .reference object))
      (Emit.property job (.member place object name optional) object name label bare) := by
  unfold Emit.property
  refine tracker.quiet_bind fun _ => check fun _ plain => ?_
  have plain := Job.plain_of_requirePlain plain
  -- a property that is read by itself, with the owner as a part of it
  have whole : Brings (.and (.known (optional = false)) (.covered tag .reference object))
      (Emit.readValue job (.member place object name optional) label bare) :=
    readValue.mono fun _ h => ⟨plain, Fact.covered_part h (List.mem_singleton_self _)⟩
  split
  · exact whole
  split
  · exact countOf.mono fun _ h => ⟨plain, h⟩
  · exact whole

theorem constant {v : Constant} {spelling : String} {bare : Bool} :
    Brings .nothing (Emit.constant job e v spelling label bare) := by
  have word {code name : String} : Brings .nothing (
      if bare then Emit.write (.constant code)
      else Emit.refuse job e label (.constantInMarkup name)) := by
    split
    · exact write _
    · exact refuse
  have content {code content : String} : Brings .nothing (
      if bare then Emit.write (.constant code) else Emit.constantText content) := by
    split
    · exact write _
    · exact (constantText _).mono fun _ _ => trivial
  cases v with
  | null => exact word
  | bool value => cases value <;> exact word
  | int | float | text | halves => exact content

/-- A helper looks at an argument if it is the rating for stars. All others are unused. -/
theorem helper {name : String} :
    Brings (.coveredAll tag
        (arguments.map ((CallShape.arguments (some (.helper name)) arguments, ·))))
      (Emit.helper job e name label arguments) := by
  unfold Emit.helper
  refine tracker.quiet_bind fun t => ?_
  split
  · exact refuse
  split
  · rename_i count
    refine check fun _ _ => cursor.quiet_bind fun _ => check fun _ _ => (write _).known fun _ => ?_
    exact Fact.coveredAll_unused (if_pos (.inl count))
  split
  · rename_i year
    exact (write _).known fun _ => Fact.coveredAll_unused (if_pos (.inr year))
  rename_i noCount noYear
  split
  · exact throw
  refine check fun _ rating => (write _).known fun _ => ?_
  rw [CallShape.arguments, if_neg (not_or.mpr ⟨noCount, noYear⟩)]
  exact Job.covered_of_ratingOperand rating

/-- The head of a loop without a function is refused. -/
theorem loopHead_none {f : Fact} {array : String} :
    Brings f (loopHead job e array label none) := by
  unfold loopHead
  refine tracker.quiet_bind fun _ => ?_
  split
  · exact refuse
  · exact check fun _ _ => refuse

theorem loopHead {array : String} {item? : Option String} :
    Brings .nothing (loopHead job e array label item?) := by
  cases item? with
  | none => exact loopHead_none
  | some item =>
    unfold Emit.loopHead
    refine tracker.quiet_bind fun _ => ?_
    split
    · exact refuse
    refine check fun _ _ => ?_
    dsimp only
    split
    · exact refuse
    · exact write _

end Emit.Brings

/-! ### Expressions -/

/-- The standings of the expressions that are used in some way. -/
def Use.Fits : Use → Standing → Prop
  | .operand, .hole | .operand, .part | .value, .hole | .block, .part => True
  | _, _ => False

/-- A part of an expression that is converted has a standing of its own. -/
theorem Use.Fits.inner_eq {use : Use} (h : use.Fits r) (r' : Standing) : r.inner r' = r' := by
  cases r with
  | unused => cases use <;> exact h.elim
  | _ => rfl

/-- What is in parentheses may be used as an operand where the parentheses are used. -/
theorem Use.Fits.operand {use : Use} (h : use.Fits r) : Use.operand.Fits r := by
  cases r with
  | hole | part => trivial
  | _ => cases use <;> exact h.elim

/-- What is converted has been dealt with if it has a form and has been converted. -/
theorem Use.Fits.covers {use : Use} (h : use.Fits r) (form : e.HasForm tag)
    (converted : s.Converted e) : s.Covers tag r e := by
  cases r with
  | hole | part => exact ⟨form, converted⟩
  | _ => cases use <;> exact h.elim

/-- What the conversion of an expression comes to: it deals with all that occurs in the expression.
-/
def LowersCovered (job : Job) (use : Use) (label : String) (e : Expr) : Prop :=
  ∀ r, use.Fits r → e.Interleaved job.tag r →
    Brings (.covered job.tag r e) (lower job use label e)

/-- An expression begins. It has been dealt with if it has a form and its parts have been dealt
with. -/
theorem Emit.Brings.begin {k : Bool → Emit Unit} (fits : use.Fits r)
    (h : ∀ bare, (use = .operand → bare = true) →
      Brings (.and (.known (e.HasForm tag)) (.coveredAll tag (e.parts tag r))) (k bare)) :
    Brings (.covered tag r e) (Emit.begin use e label >>= k) := by
  intro s
  rw [after_bind, after_begin]
  have bare : use = .operand → (use == .operand || s.tracker.inCode) = true := by
    rintro rfl
    rfl
  refine (h _ bare _).mono (fun _ s' ⟨older, form, inner⟩ => ?_) fun _ _ h => h
  refine ⟨(List.suffix_cons _ _).trans older, ?_⟩
  have begun : (Fact.begun e).holds s' :=
    (Fact.begun e).lasts older ⟨_, _, _, List.mem_cons_self, rfl⟩
  exact Fact.covered_of_parts (fits.covers form (.inl begun)) inner

namespace LowersCovered

theorem operand (h : LowersCovered job .operand label e) (whole : e.Interleaved job.tag .part) :
    Brings (.covered job.tag .part e) (lower job .operand label e) :=
  h .part trivial whole

theorem value (h : LowersCovered job .value label e) (whole : e.Interleaved job.tag .hole) :
    Brings (.covered job.tag .hole e) (lower job .value label e) :=
  h .hole trivial whole

theorem block (h : LowersCovered job .block label e) (whole : e.Interleaved job.tag .part) :
    Brings (.covered job.tag .part e) (lower job .block label e) :=
  h .part trivial whole

/-- Parentheses are dealt with what is in them. -/
theorem covered_group (fits : use.Fits r) (h : (Fact.covered tag r inner).holds s) :
    (Fact.covered tag r (.group place inner)).holds s :=
  Fact.covered_of_parts (fits.covers trivial (.inr trivial))
    (Fact.coveredAll_cons.mpr ⟨h, Fact.coveredAll_nil⟩)

theorem group (huse : use ≠ .block) (hop : LowersCovered job .operand label inner)
    (hval : LowersCovered job .value label inner) :
    LowersCovered job use label (.group place inner) := by
  intro r fits whole
  have whole := whole.part (List.mem_singleton_self _)
  rw [lower, if_neg huse]
  refine Brings.begin fits fun bare hbare => ?_
  cases bare with
  | true =>
    refine (Brings.write _).quiet_bind fun _ => ?_
    refine ((hop r fits.operand whole).bind_quiet fun _ => .write _).mono fun _ h => ?_
    exact ⟨trivial, Fact.coveredAll_cons.mpr ⟨h, Fact.coveredAll_nil⟩⟩
  | false =>
    have value : Use.value.Fits r := by
      cases use with
      | value => exact fits
      | operand => cases hbare rfl
      | block => exact (huse rfl).elim
    refine (hval r value whole).mono fun _ h => ?_
    exact ⟨trivial, Fact.coveredAll_cons.mpr ⟨h, Fact.coveredAll_nil⟩⟩

/-- A template that is rendered is dealt with where its texts and holes are. -/
theorem rendered {templatePlace : Text.Place} {texts : List String} {holes : List Expr}
    (hparts : texts.length = holes.length + 1 → (∀ e ∈ holes, e.Interleaved job.tag .hole) →
      Brings (.and (.written texts) (.coveredAll job.tag (holes.map ((Standing.hole, ·)))))
        (lowerParts job (labelPrefix label) 0 holes texts)) :
    LowersCovered job .block label (.tagged place job.tag templatePlace texts holes) := by
  intro r fits whole
  rw [lower, if_pos ⟨rfl, rfl⟩]
  cases r with
  | part =>
    refine (hparts (whole _ _ _ _ _ .here) fun e he => ?_).mono fun s h => ?_
    · exact whole.part (p := (.hole, e)) (List.mem_map_of_mem he)
    · obtain ⟨written, inner⟩ := h
      exact Fact.covered_of_parts ⟨rfl, .inr written⟩ inner
  | _ => exact fits.elim

/-- A template that is not rendered is skipped in a hole, and refused elsewhere. -/
theorem skipped {tag : String} {templatePlace : Text.Place} {texts : List String}
    {holes : List Expr} (huse : ¬ (use = .block ∧ tag = job.tag)) :
    LowersCovered job use label (.tagged place tag templatePlace texts holes) := by
  intro r fits _
  rw [lower, if_neg huse]
  refine Brings.begin fits fun bare hbare => ?_
  split
  · exact .refuse
  · rename_i skips
    obtain ⟨htag, bare_false⟩ := not_or.mp skips
    have htag : tag = job.tag := Decidable.not_not.mp htag
    have hole : r = .hole := by
      cases use with
      | operand => exact (bare_false (hbare rfl)).elim
      | block => exact (huse ⟨rfl, htag⟩).elim
      | value => cases r <;> first | rfl | exact fits.elim
    refine Brings.pure.known fun s => ⟨htag, ?_⟩
    rw [Expr.parts, if_pos ⟨hole, htag⟩]
    exact Fact.coveredAll_nil

/-- A text is written as text where it stands for a block. -/
theorem text {content spelling : String} :
    LowersCovered job .block label (.constant place (.text content) spelling) := by
  intro r fits _
  rw [lower]
  refine (Brings.constantText content).mono fun s h => ?_
  exact Fact.covered_of_parts (fits.covers trivial (.inr (.inr h))) Fact.coveredAll_nil

theorem halves {points : List Nat} {spelling : String} :
    LowersCovered job .block label (.constant place (.halves points) spelling) := by
  intro r fits _
  rw [lower]
  refine (Brings.constantText (Constant.joined points)).mono fun s h => ?_
  exact Fact.covered_of_parts (fits.covers trivial (.inr (.inr h))) Fact.coveredAll_nil

theorem name {name : String} : LowersCovered job use label (.name place name) := by
  intro r fits _
  rw [lower]
  refine Brings.begin fits fun bare _ => ?_
  have reads : Brings (.covered job.tag .reference (.name place name))
      (Emit.readValue job (.name place name) label bare) := .readValue
  exact reads.mono fun _ _ => ⟨trivial, Fact.coveredAll_nil⟩

theorem member {property : String} {optional : Bool} :
    LowersCovered job use label (.member place object property optional) := by
  intro r fits _
  rw [lower]
  refine Brings.begin fits fun bare _ => ?_
  have reads : Brings (.and (.known (optional = false)) (.covered job.tag .reference object))
      (Emit.property job (.member place object property optional) object property label bare) :=
    .property
  refine reads.mono fun _ h => ?_
  obtain ⟨plain, owner⟩ := h
  refine ⟨plain, ?_⟩
  rw [Expr.parts, fits.inner_eq]
  exact Fact.coveredAll_cons.mpr ⟨owner, Fact.coveredAll_nil⟩

/-- Two operands with an operator between them. -/
theorem operator {l r : String} {sign : Piece} (hl : LowersCovered job .operand l left)
    (hr : LowersCovered job .operand r right) (whole_left : left.Interleaved job.tag .part)
    (whole_right : right.Interleaved job.tag .part) :
    Brings (.coveredAll job.tag [(.part, left), (.part, right)])
      (do lower job .operand l left; write sign; lower job .operand r right) :=
  ((hl.operand whole_left).bind fun _ =>
    (Brings.write _).quiet_bind fun _ => hr.operand whole_right).mono fun _ ⟨first, second⟩ =>
      Fact.coveredAll_cons.mpr ⟨first, Fact.coveredAll_cons.mpr ⟨second, Fact.coveredAll_nil⟩⟩

/-- The two parts of an operation have standings of their own. -/
theorem parts_of_operands (fits : use.Fits r)
    (h : (Fact.coveredAll tag [(.part, left), (.part, right)]).holds s) :
    (Fact.coveredAll tag [(r.inner .part, left), (r.inner .part, right)]).holds s := by
  rwa [fits.inner_eq]

theorem binary {operator : String}
    (hl : LowersCovered job .operand (label ++ "-left") left)
    (hr : LowersCovered job .operand (label ++ "-right") right) :
    LowersCovered job use label (.binary place operator left right) := by
  intro r fits whole
  have whole_left := whole.part (p := (r.inner .part, left)) (by simp [Expr.parts])
  have whole_right := whole.part (p := (r.inner .part, right)) (by simp [Expr.parts])
  rw [fits.inner_eq] at whole_left whole_right
  rw [lower]
  refine Brings.begin fits fun bare _ => ?_
  split
  · exact (hl.operator hr whole_left whole_right).mono fun _ h =>
      ⟨trivial, parts_of_operands fits h⟩
  · exact .refuse

theorem logical {operator : String}
    (hl : LowersCovered job .operand (label ++ "-left") left)
    (hr : LowersCovered job .operand (label ++ "-right") right)
    (htest : LowersCovered job .operand (label ++ "-test") left)
    (hblock : LowersCovered job .block (label ++ "-consequent") right) :
    LowersCovered job use label (.logical place operator left right) := by
  intro r fits whole
  have whole_left := whole.part (p := (r.inner .part, left)) (by simp [Expr.parts])
  have whole_right := whole.part (p := (r.inner .part, right)) (by simp [Expr.parts])
  rw [fits.inner_eq] at whole_left whole_right
  rw [lower]
  refine Brings.begin fits fun bare _ => ?_
  split
  · exact (hl.operator hr whole_left whole_right).mono fun _ h =>
      ⟨trivial, parts_of_operands fits h⟩
  split
  · refine ((Brings.condition (htest.operand whole_left)).bind fun _ =>
      Brings.block fun _ => .oneBranch (hblock.block whole_right)).mono fun _ h => ?_
    obtain ⟨first, second⟩ := h
    exact ⟨trivial, parts_of_operands fits
      (Fact.coveredAll_cons.mpr ⟨first, Fact.coveredAll_cons.mpr ⟨second, Fact.coveredAll_nil⟩⟩)⟩
  · exact .refuse

/-- An empty text has been dealt with, wherever it stands for a branch. -/
theorem covered_of_isEmptyText (empty : e.isEmptyText = true) :
    (Fact.covered tag .part e).holds s := by
  induction e using Expr.ungrouped.induct with
  | case1 place inner ih =>
    exact covered_group (show Use.block.Fits .part from trivial) (ih empty)
  | case2 e noGroup =>
    unfold Expr.isEmptyText at empty
    cases e with
    | group place inner => exact (noGroup place inner rfl).elim
    | constant place v spelling =>
      cases v with
      | text content =>
        exact Fact.covered_of_parts ⟨trivial, .inr (.inl (eq_of_beq empty))⟩ Fact.coveredAll_nil
      | _ => cases empty
    | _ => cases empty

theorem conditional {test consequent alternate : Expr}
    (htest : LowersCovered job .operand (label ++ "-test") test)
    (hthen : LowersCovered job .operand (label ++ "-consequent") consequent)
    (helse : LowersCovered job .operand (label ++ "-alternate") alternate)
    (hthen_block : LowersCovered job .block (label ++ "-consequent") consequent)
    (helse_block : LowersCovered job .block (label ++ "-alternate") alternate) :
    LowersCovered job use label (.conditional place test consequent alternate) := by
  intro r fits whole
  have whole_test := whole.part (p := (r.inner .part, test)) (by simp [Expr.parts])
  have whole_then := whole.part (p := (r.inner .part, consequent)) (by simp [Expr.parts])
  have whole_else := whole.part (p := (r.inner .part, alternate)) (by simp [Expr.parts])
  rw [fits.inner_eq] at whole_test whole_then whole_else
  -- in each case the three parts have been dealt with
  have assemble {f : Progress} (first : (Fact.covered job.tag .part test).holds f)
      (second : (Fact.covered job.tag .part consequent).holds f)
      (third : (Fact.covered job.tag .part alternate).holds f) :
      (Fact.and (.known ((Expr.conditional place test consequent alternate).HasForm job.tag))
        (.coveredAll job.tag
          ((Expr.conditional place test consequent alternate).parts job.tag r))).holds f := by
    refine ⟨trivial, ?_⟩
    rw [Expr.parts, fits.inner_eq]
    exact Fact.coveredAll_cons.mpr ⟨first, Fact.coveredAll_cons.mpr ⟨second,
      Fact.coveredAll_cons.mpr ⟨third, Fact.coveredAll_nil⟩⟩⟩
  rw [lower]
  refine Brings.begin fits fun _ _ => Brings.inCode.quiet_bind fun code => ?_
  split
  · exact (Brings.inlineConditional (htest.operand whole_test) (hthen.operand whole_then)
      (helse.operand whole_else)).mono fun _ h => assemble h.1 h.2.1 h.2.2
  · refine ((Brings.condition (htest.operand whole_test)).bind fun _ =>
      Brings.block
        (f := .and (.covered job.tag .part consequent) (.covered job.tag .part alternate))
        fun start => ?_).mono fun _ h => assemble h.1 h.2.1 h.2.2
    split
    · rename_i empty
      exact (Brings.oneBranch (hthen_block.block whole_then)).mono fun _ h =>
        ⟨h, covered_of_isEmptyText empty⟩
    · exact Brings.branches_cons (hthen_block.block whole_then)
        (.oneBranch (helse_block.block whole_else))

/-- A call in a form that it has deals with its arguments. -/
theorem called (fits : use.Fits r)
    (whole : (Expr.call place callee arguments).Interleaved job.tag r)
    (hbody : ∀ arrow item body, arguments = [.arrow arrow [item] body] →
      LowersCovered job .block "map-loop-body" body) :
    Brings (.and (.known ((CallShape.of? callee).isSome = true))
        (.coveredAll job.tag
          (arguments.map ((CallShape.arguments (CallShape.of? callee) arguments, ·)))))
      (called job label place callee arguments) := by
  unfold Emit.called
  cases shape : CallShape.of? callee with
  | none => exact .refuse
  | some form =>
    cases form with
    | helper name => exact Brings.helper.mono fun _ h => ⟨rfl, h⟩
    | loop array =>
      dsimp only
      split
      · rename_i arrow item body
        have given : CallShape.arguments (CallShape.of? callee) [.arrow arrow [item] body] =
            .callback := by rw [shape]; rfl
        have whole_arrow : (Expr.arrow arrow [item] body).Interleaved job.tag .callback :=
          whole.part (p := (.callback, .arrow arrow [item] body))
            (by simp [Expr.parts, given, fits.inner_eq])
        have whole_body := whole_arrow.part (List.mem_singleton_self _)
        refine (Brings.loopHead.quiet_bind fun _ => Brings.block fun _ =>
          .oneBranch ((hbody _ _ _ rfl).block whole_body)).mono fun _ h => ⟨rfl, ?_⟩
        refine Fact.coveredAll_cons.mpr ⟨?_, Fact.coveredAll_nil⟩
        exact Fact.covered_of_parts ⟨_, _, _, rfl⟩
          (Fact.coveredAll_cons.mpr ⟨h, Fact.coveredAll_nil⟩)
      · exact Brings.loopHead_none

theorem call (hbody : ∀ arrow item body, arguments = [.arrow arrow [item] body] →
      LowersCovered job .block "map-loop-body" body) :
    LowersCovered job use label (.call place callee arguments) := by
  intro r fits whole
  rw [lower_call]
  refine Brings.begin fits fun _ _ => Brings.tracker.quiet_bind fun _ => ?_
  refine Brings.check fun _ plain => Brings.check fun _ plain_owner => ?_
  refine (called fits whole hbody).mono fun s ⟨shaped, given⟩ => ⟨trivial, ?_⟩
  obtain ⟨shape, hshape⟩ := Option.isSome_iff_exists.mp shaped
  rw [Expr.parts, fits.inner_eq, fits.inner_eq]
  exact Fact.coveredAll_cons.mpr ⟨CallShape.covered_callee hshape plain plain_owner, given⟩

/-- What has no form at all is refused. -/
theorem refused {construct : Unsupported}
    (hlower : lower job use label e = do
      let _ ← Emit.begin use e label
      refuse job e label construct) : LowersCovered job use label e := by
  intro r fits _
  rw [hlower]
  exact Brings.begin fits fun _ _ => .refuse

end LowersCovered

/-- Wherever an expression stands, and wherever texts with expressions between them stand, the
conversion deals with all that occurs there. -/
theorem lowersCovered (job : Job) :
    (∀ use label e, LowersCovered job use label e) ∧
      ∀ front index holes texts, texts.length = holes.length + 1 →
        (∀ e ∈ holes, e.Interleaved job.tag .hole) →
        Brings (.and (.written texts) (.coveredAll job.tag (holes.map ((Standing.hole, ·)))))
          (lowerParts job front index holes texts) := by
  -- one case for each equation of the conversion
  refine lower.mutual_induct job _ _ ?groupInBlock ?group ?rendered ?skipped ?text ?halves ?constant
    ?name ?member ?binary ?logical ?conditional ?call ?this ?arrow ?template ?other ?nil ?lacking
    ?cons
  case groupInBlock =>
    intro label place inner ih r fits whole
    rw [lower, if_pos rfl]
    exact (ih r fits (whole.part (List.mem_singleton_self _))).mono fun _ h =>
      LowersCovered.covered_group fits h
  case group => exact fun use label place inner huse hop hval => .group huse hop hval
  case rendered =>
    intro use label place tag templatePlace texts holes huse ih
    obtain ⟨rfl, rfl⟩ := huse
    exact .rendered ih
  case skipped => exact fun use label place tag templatePlace texts holes huse => .skipped huse
  case text => exact fun label place spelling content => .text
  case halves => exact fun label place spelling points => .halves
  case constant =>
    intro use label place v spelling hv hp r fits _
    rw [lower]
    · exact Brings.begin fits fun _ _ =>
        Brings.constant.mono fun _ _ => ⟨trivial, Fact.coveredAll_nil⟩
    · exact hv
    · exact hp
  case name => exact fun use label place name => .name
  case member => exact fun use label place object name optional => .member
  case binary => exact fun use label place operator left right hl hr => .binary hl hr
  case logical =>
    exact fun use label place operator left right hl hr htest hblock => .logical hl hr htest hblock
  case conditional =>
    exact fun use label place test consequent alternate h₁ h₂ h₃ h₄ h₅ =>
      .conditional h₁ h₂ h₃ h₄ h₅
  case call =>
    intro use label place callee arguments ih
    refine .call fun arrow item body h => ?_
    subst h
    exact ih
  case this | arrow | template | other =>
    intros
    exact .refused (by rw [lower])
  case nil =>
    intro front index texts _ _
    rw [lowerParts]
    exact (Brings.chunks texts).mono fun _ h => ⟨h, Fact.coveredAll_nil⟩
  case lacking =>
    intro front index e holes lengths
    cases lengths
  case cons =>
    intro front index e holes content texts he hrest lengths whole
    obtain ⟨whole_e, whole_rest⟩ := List.forall_mem_cons.mp whole
    rw [lowerParts]
    refine ((Brings.chunk content).bind fun _ => (Brings.hole (he.value whole_e)).bind fun _ =>
      hrest (Nat.succ.inj lengths) whole_rest).mono fun _ h => ?_
    obtain ⟨text, first, texts, rest⟩ := h
    exact ⟨List.forall_mem_cons.mpr ⟨text, texts⟩, Fact.coveredAll_cons.mpr ⟨first, rest⟩⟩

end ServerTemplate
