import Mathlib.Data.List.Forall2
import ServerTemplate.Proofs.Emission.After
import ServerTemplate.Proofs.Server.Statement
import ServerTemplate.Template.Lowering

/-!
# Counts of results

The code for a count of results tests the number of results and echoes one of three labels, each cut
at its placeholders and put together again from literals and the count. Run with a number of
results, it echoes exactly one value, which is the label for that number with the number in place of
every placeholder (`Server.echoed?_resultCount`), through the function of the policy that is chosen
where the helper is called (`resultCount_echoes`).

Functions are left open. They are assumed to take texts, so that a number is the same to them as its
decimal text.
-/

namespace ServerTemplate

namespace Server

/-! ### Running statements -/

/-- A value that is tested or written. -/
inductive Scalar where
  | int (n : Int)
  | text (content : String)
  | bool (b : Bool)
  deriving DecidableEq, Repr

namespace Scalar

/-- A value as a text. -/
def display : Scalar → String
  | int n => toString n
  | text content => content
  | bool b => if b then "1" else ""

/-- A value as an integer. The number that a text begins with is left out. -/
def toInt? : Scalar → Option Int
  | int n => some n
  | bool b => some (if b then 1 else 0)
  | text _ => none

/-- Whether a value holds as a test. -/
def isTruthy : Scalar → Bool
  | int n => n != 0
  | text content => content != "" && content != "0"
  | bool b => b

end Scalar

section Running

variable (apply : String → Scalar → String) (σ : String → Option Scalar)

/-- The value of an expression, where functions and variables have the given values. -/
def Expression.value? : Expression → Option Scalar
  | int n => some (.int n)
  | text content => some (.text content)
  | var name => σ name
  | toInt e => do return .int (← (← e.value?).toInt?)
  | call function e => do return .text (apply function (← e.value?))
  | parens e => e.value?
  | join left right => do return .text ((← left.value?).display ++ (← right.value?).display)
  | same left right => do return .bool (decide ((← left.value?) = (← right.value?)))

/-- The values that statements echo, in order. -/
def Program.echoed? : Program → Option (List String)
  | done => some []
  | echo value rest => do
    let value ← value.value? apply σ
    return value.display :: (← rest.echoed?)
  | choice test body otherwise rest => do
    let test ← test.value? apply σ
    let first ← if test.isTruthy then body.echoed? else otherwise.echoed?
    return first ++ (← rest.echoed?)

/-- The values that a region of code echoes, in order. -/
def echoed? (code : String) : Option (List String) := do
  (← statements? code).echoed? apply σ

/-- Functions do not tell a value from its text. -/
def TakesTexts : Prop :=
  ∀ function value, apply function value = apply function (.text value.display)

/-- A value that is written through a function, or as it is. -/
def through (function : Option String) (content : String) : String :=
  match function with
  | some function => apply function (.text content)
  | none => content

end Running

end Server

/-! ### Labels -/

/-- The label for a number of results. -/
def CountLabels.labelFor (labels : CountLabels) (n : Int) : String :=
  if n = 0 then labels.zero else if n = 1 then labels.one else labels.many

/-- A label with the count in place of every placeholder. -/
def filled (count : List Char) : List Char → List Char
  | [] => []
  | '\x7b' :: 'c' :: 'o' :: 'u' :: 'n' :: 't' :: '\x7d' :: rest => count ++ filled count rest
  | c :: rest => c :: filled count rest

/-- A label with a number in place of every placeholder. -/
def filledLabel (label : String) (n : Int) : String :=
  String.ofList (filled (toString n).toList label.toList)

/-- Texts with the count between each two neighbours. -/
def withCount (count : List Char) : List (List Char) → List Char
  | [] => []
  | [last] => last
  | first :: rest => first ++ count ++ withCount count rest

theorem splitAtCount_ne_nil (label : List Char) : splitAtCount label ≠ [] := by
  fun_induction splitAtCount label <;> simp

/-- Cutting a label at its placeholders and putting the count in between fills it. -/
theorem withCount_splitAtCount (count label : List Char) :
    withCount count (splitAtCount label) = filled count label := by
  fun_induction splitAtCount label with
  | case1 => rfl
  | case2 rest ih =>
    obtain ⟨first, more, hsplit⟩ := List.exists_cons_of_ne_nil (splitAtCount_ne_nil rest)
    rw [hsplit] at ih ⊢
    rw [withCount, ih, filled]
    · rfl
    · simp
  | case3 c rest other none ih => exact absurd none (splitAtCount_ne_nil rest)
  | case4 c rest other first more hsplit ih =>
    rw [hsplit] at ih
    rw [filled]
    · rw [← ih]
      cases more <;> rfl
    · exact other

namespace Server

/-! ### The code for a label -/

/-- The operands of a label. -/
def labelTerms (count : Expression) : List (List Char) → List Expression
  | [] => []
  | [last] => if last.isEmpty then [] else [.text (.ofList last)]
  | first :: rest =>
    (if first.isEmpty then [] else [.text (.ofList first)]) ++ count :: labelTerms count rest

/-- The expression of a label. -/
def labelTerm (count : Expression) (label : String) : Expression :=
  match labelTerms count (splitAtCount label.toList) with
  | [] => .text ""
  | first :: more => more.foldl .join first

/-- Each operand of a label is read from its code. -/
theorem isOperand_labelOperands {code : String} {count : Expression}
    (h : IsOperand code.toList count) (pieces : List (List Char)) :
    List.Forall₂ (fun (code : String) e => IsOperand code.toList e) (labelOperands code pieces)
      (labelTerms count pieces) := by
  -- an empty text has no operand, neither in the code nor in the expression
  have content (cs : List Char) : List.Forall₂ (fun (code : String) e => IsOperand code.toList e)
      (if cs.isEmpty then [] else [Literal.ofText (.ofList cs)])
      (if cs.isEmpty then [] else [.text (.ofList cs)]) := by
    split
    · exact .nil
    · exact .cons (isOperand_quoted _) .nil
  induction pieces with
  | nil => exact .nil
  | cons first rest ih =>
    cases rest with
    | nil => exact content first
    | cons => exact List.rel_append (content first) (.cons h ih)

/-- Operands behind another one, with a point in front of each, are joined to it in order. -/
theorem continues_of_forall₂ {codes : List String} {es : List Expression}
    (h : List.Forall₂ (fun (code : String) e => IsOperand code.toList e) codes es) :
    Continues (codes.flatMap fun code => " . ".toList ++ code.toList)
      fun left => es.foldl .join left := by
  induction h with
  | nil => exact continues_nil
  | cons first _ ih => exact ih.cons first

theorem toList_intercalate (separator first : String) (more : List String) :
    (separator.intercalate (first :: more)).toList =
      first.toList ++ more.flatMap fun code => separator.toList ++ code.toList := by
  induction more generalizing first with
  | nil => simp
  | cons second more ih =>
    rw [String.intercalate_cons_cons, String.toList_append, String.toList_append, ih second]
    simp

/-- The code for a label is read as its expression. -/
theorem isExpression_labelCode {count : String} {e : Expression} (h : IsOperand count.toList e)
    (label : String) : IsExpression (labelCode label count).toList (labelTerm e label) := by
  have each := isOperand_labelOperands h (splitAtCount label.toList)
  unfold labelCode labelTerm
  generalize labelOperands count (splitAtCount label.toList) = codes at each ⊢
  generalize labelTerms e (splitAtCount label.toList) = es at each ⊢
  cases each with
  | nil => exact (isOperand_quoted "").expression continues_nil
  | cons first more =>
    dsimp only
    rw [List.isEmpty_cons, if_neg Bool.false_ne_true, toList_intercalate]
    exact first.expression (continues_of_forall₂ more)

/-! ### The value of a label -/

section Values

variable {apply : String → Scalar → String} {σ : String → Option Scalar} {e left : Expression}
  {count content : String}

/-- The value of an expression, as a text. -/
def Shows (apply : String → Scalar → String) (σ : String → Option Scalar) (e : Expression)
    (content : String) : Prop :=
  ∃ value, e.value? apply σ = some value ∧ value.display = content

theorem Shows.join {right : Expression} {more : String} (h : Shows apply σ left content)
    (h' : Shows apply σ right more) : Shows apply σ (.join left right) (content ++ more) := by
  obtain ⟨value, found, rfl⟩ := h
  obtain ⟨value', found', rfl⟩ := h'
  exact ⟨.text (value.display ++ value'.display), by simp [Expression.value?, found, found'], rfl⟩

theorem shows_foldl {es : List Expression} {contents : List String}
    (h : Shows apply σ left content) (each : List.Forall₂ (Shows apply σ) es contents) :
    Shows apply σ (es.foldl .join left) (content ++ String.join contents) := by
  induction each generalizing left content with
  | nil => simpa using h
  | cons first _ ih => simpa [String.append_assoc] using ih (h.join first)

/-- The operands of a label show its texts and the count between them. -/
theorem shows_labelTerms (h : Shows apply σ e count) (pieces : List (List Char)) :
    ∃ contents, List.Forall₂ (Shows apply σ) (labelTerms e pieces) contents ∧
      (String.join contents).toList = withCount count.toList pieces := by
  have content (cs : List Char) : ∃ contents, List.Forall₂ (Shows apply σ)
      (if cs.isEmpty then [] else [.text (.ofList cs)]) contents ∧
        (String.join contents).toList = cs := by
    cases cs with
    | nil => exact ⟨[], .nil, by simp⟩
    | cons c cs => exact ⟨[.ofList (c :: cs)], .cons ⟨_, rfl, rfl⟩ .nil, by simp⟩
  induction pieces with
  | nil => exact ⟨[], .nil, by simp [withCount]⟩
  | cons first rest ih =>
    cases rest with
    | nil => exact content first
    | cons second rest =>
      obtain ⟨firsts, shown, hfirsts⟩ := content first
      obtain ⟨others, shown', hothers⟩ := ih
      refine ⟨firsts ++ count :: others, List.rel_append shown (.cons h shown'), ?_⟩
      simp [String.join_append, hfirsts, hothers, withCount]

/-- The expression of a label shows it with the count in place of the placeholders. -/
theorem shows_labelTerm (h : Shows apply σ e count) (label : String) :
    Shows apply σ (labelTerm e label) (.ofList (filled count.toList label.toList)) := by
  obtain ⟨contents, each, whole⟩ := shows_labelTerms h (splitAtCount label.toList)
  rw [withCount_splitAtCount] at whole
  rw [← whole, String.ofList_toList, labelTerm]
  generalize labelTerms e (splitAtCount label.toList) = es at each ⊢
  cases each with
  | nil => exact ⟨.text "", rfl, rfl⟩
  | cons first more => simpa using shows_foldl first more

end Values

/-! ### The code for a count -/

/-- The count in code. -/
def countTerm : Expression := .var resultCountParameter

/-- The expression that is echoed for a label. -/
def echoedTerm (function : Option String) (label : String) : Expression :=
  match function with
  | some function => .call function (labelTerm countTerm label)
  | none => labelTerm countTerm label

/-- The statements for a count. -/
def countProgram (labels : CountLabels) (function : Option String) : Program :=
  .choice (.same (.int 0) (.toInt countTerm)) (.echo (echoedTerm function labels.zero) .done)
    (.choice (.same (.int 1) (.toInt countTerm)) (.echo (echoedTerm function labels.one) .done)
      (.echo (echoedTerm function labels.many) .done) .done) .done

variable {apply : String → Scalar → String} {σ : String → Option Scalar} {function : Option String}

theorem isOperand_countTerm : IsOperand ("$" ++ resultCountParameter).toList countTerm := by
  rw [String.toList_append]
  exact isOperand_var (by decide)

/-- A label is echoed, through a function or as it is. -/
theorem isProgram_echoStatement (named : ∀ f, function = some f → IsName f ∧ f ≠ "instanceof")
    (label : String) :
    IsProgram (echoStatement (labelCode label ("$" ++ resultCountParameter)) function).toList
      (.echo (echoedTerm function label) .done) := by
  have whole := isExpression_labelCode isOperand_countTerm label
  cases function with
  | none => simpa [echoStatement, echoedTerm] using whole.echo
  | some function =>
    obtain ⟨name, other⟩ := named function rfl
    simpa [echoStatement, echoedTerm] using ((whole.call name other).expression continues_nil).echo

/-- The code for a count is read as its statements. -/
theorem statements?_resultCount (labels : CountLabels)
    (named : ∀ f, function = some f → IsName f ∧ f ≠ "instanceof") :
    statements? (Piece.written (.resultCount labels function)) =
      some (countProgram labels function) := by
  have echo := isProgram_echoStatement named
  have number := isOperand_countTerm.toInt
  have others := (isOperand_one.same number).elseif (echo labels.one) (echo labels.many).otherwise
  have whole := (isOperand_zero.same number).choice (echo labels.zero) others
  refine whole.statements?_eq ?_
  change (Piece.resultCountCode labels function).toList = _
  unfold Piece.resultCountCode
  dsimp only
  -- the texts of the branches stay closed, only what is around them is spelled out
  rw [show (Operand.var resultCountParameter).text = "$" ++ resultCountParameter from rfl]
  generalize "$" ++ resultCountParameter = count
  generalize echoStatement (labelCode labels.zero count) function = zero
  generalize echoStatement (labelCode labels.one count) function = one
  generalize echoStatement (labelCode labels.many count) function = many
  simp

/-- What is echoed for a label is the label with the count in it. -/
theorem shows_echoedTerm (texts : TakesTexts apply) {n : Int}
    (given : σ resultCountParameter = some (.int n)) (label : String) :
    Shows apply σ (echoedTerm function label) (through apply function (filledLabel label n)) := by
  have shown : Shows apply σ (labelTerm countTerm label) (filledLabel label n) :=
    shows_labelTerm (e := countTerm) ⟨.int n, given, rfl⟩ label
  cases function with
  | none => exact shown
  | some function =>
    obtain ⟨value, found, display⟩ := shown
    refine ⟨.text (apply function value), by simp [echoedTerm, Expression.value?, found], ?_⟩
    rw [texts function value, display]
    rfl

/-- A conditional with nothing behind it echoes what the branch does that its test selects. -/
theorem echoed?_choice {test : Expression} {body otherwise : Program} {b : Bool}
    (h : test.value? apply σ = some (.bool b)) :
    (Program.choice test body otherwise .done).echoed? apply σ =
      if b then body.echoed? apply σ else otherwise.echoed? apply σ := by
  cases b <;> simp [Program.echoed?, h, Scalar.isTruthy]

/-- Run with a number of results, the code for a count echoes the label for the number, with the
number in it, and nothing else. -/
theorem echoed?_resultCount (labels : CountLabels)
    (named : ∀ f, function = some f → IsName f ∧ f ≠ "instanceof") (texts : TakesTexts apply)
    {n : Int} (given : σ resultCountParameter = some (.int n)) :
    echoed? apply σ (Piece.written (.resultCount labels function)) =
      some [through apply function (filledLabel (labels.labelFor n) n)] := by
  have tests (k : Nat) : (Expression.same (.int k) (.toInt countTerm)).value? apply σ =
      some (.bool (decide ((k : Int) = n))) := by
    simp [Expression.value?, countTerm, given, Scalar.toInt?]
  have echoes (label : String) : (Program.echo (echoedTerm function label) .done).echoed? apply σ =
      some [through apply function (filledLabel label n)] := by
    have shown : Shows apply σ (echoedTerm function label) _ := shows_echoedTerm texts given label
    obtain ⟨value, found, display⟩ := shown
    simp [Program.echoed?, found, display]
  have whole : (countProgram labels function).echoed? apply σ =
      some [through apply function (filledLabel (labels.labelFor n) n)] := by
    rw [countProgram, echoed?_choice (tests 0), echoed?_choice (tests 1), echoes, echoes, echoes,
      CountLabels.labelFor]
    obtain rfl | nonzero := eq_or_ne n 0
    · simp
    obtain rfl | other := eq_or_ne n 1
    · simp
    · simp [nonzero, other, Ne.symm nonzero, Ne.symm other]
  rw [echoed?, statements?_resultCount labels named]
  exact whole

end Server

/-! ### Calls of the helper -/

section Calls

variable {job : Job} {use : Use} {label : String} {place method this : Text.Place}
  {arguments : List Expr} {p : Progress} {r : Resolution}

theorem EscapePolicy.isName_function {policy : EscapePolicy} {f : String}
    (h : policy.function? = some f) : Server.IsName f ∧ f ≠ "instanceof" := by
  cases policy <;> cases h <;> decide

open Emit in
/-- In markup the helper writes the count, through the function of the policy that is chosen. -/
theorem Emit.helper_formatResultCount {e : Expr} (markup : p.tracker.inCode = false)
    (visible : p.tracker.isVisible resultCountParameter = true)
    (resolved : job.declaration.resolve resultCountParameter p.cursor.attributeName? none
      (some e.place.line) = .ok r) :
    helper job e "formatResultCount" label arguments p =
      .ok () (p.writing (.resultCount job.labels r.policy.function?)) := by
  have function : job.functionFor p.cursor resultCountParameter none e =
      .ok r.policy.function? := by
    rw [Job.functionFor, resolved]
    rfl
  have seen : job.requireVisible p.tracker e resultCountParameter label = .ok () := if_pos visible
  change (if p.tracker.inCode then _ else if "formatResultCount" = "formatResultCount" then _
    else _ : Emit Unit) p = _
  rw [markup, if_neg Bool.false_ne_true, if_pos rfl, seen]
  change (ofExcept (job.functionFor p.cursor resultCountParameter none e) >>= _ : Emit Unit) p = _
  rw [function]
  rfl

/-- A call of the helper in markup writes the count and nothing else. -/
theorem lower_formatResultCount (value : use ≠ .operand) (markup : p.tracker.inCode = false)
    (visible : p.tracker.isVisible resultCountParameter = true)
    (resolved : job.declaration.resolve resultCountParameter p.cursor.attributeName? none
      (some place.line) = .ok r) :
    let call := Expr.call place (.member method (.this this) "formatResultCount" false) arguments
    lower job use label call p =
      .ok () ((p.noting (.expression call label false)).writing
        (.resultCount job.labels r.policy.function?)) := by
  intro call
  have bare : (use == .operand || p.tracker.inCode) = false := by
    rw [markup, Bool.or_false]
    exact beq_false_of_ne value
  rw [lower_call]
  change Emit.helper job call "formatResultCount" label arguments
    (p.noting (.expression call label (use == .operand || p.tracker.inCode))) = _
  rw [bare]
  exact Emit.helper_formatResultCount markup visible resolved

/-- A call of the helper in markup writes code that, run with any number of results, echoes one
value: the label for the number with the number in place of each placeholder, through the function
of the policy that is chosen for the count. -/
theorem resultCount_echoes (value : use ≠ .operand) (markup : p.tracker.inCode = false)
    (visible : p.tracker.isVisible resultCountParameter = true)
    (resolved : job.declaration.resolve resultCountParameter p.cursor.attributeName? none
      (some place.line) = .ok r) :
    ∃ piece event, lower job use label
        (.call place (.member method (.this this) "formatResultCount" false) arguments) p =
          .ok () ((p.noting event).writing piece) ∧
      ∀ (apply : String → Server.Scalar → String) (σ : String → Option Server.Scalar) (n : Int),
        Server.TakesTexts apply → σ resultCountParameter = some (.int n) →
          Server.echoed? apply σ piece.written =
            some [Server.through apply r.policy.function?
              (filledLabel (job.labels.labelFor n) n)] :=
  ⟨_, _, lower_formatResultCount value markup visible resolved, fun _ _ _ texts given =>
    Server.echoed?_resultCount job.labels (fun _ => EscapePolicy.isName_function) texts given⟩

/-- A component that counts its results. -/
def countJob : Job where
  declaration :=
    { name := .str "list"
      parameters := [⟨"totalResults", "number", .null, some .html⟩] }
  source := ""
  tag := "html"
  labels := ⟨"None", "Just \x7bcount\x7d", "\x7bcount\x7d results\x7bcount\x7d"⟩
  stars := 5

/-- A function that keeps texts as they are, as escaping does with texts without markup. -/
def plainly (_ : String) (value : Server.Scalar) : String := value.display

theorem resultCount_echoes_countJob :
    ∃ piece event, lower countJob .value "" (.call ⟨1, 2⟩
        (.member ⟨1, 2⟩ (.this ⟨1, 2⟩) "formatResultCount" false) []) countJob.start =
          .ok () ((countJob.start.noting event).writing piece) ∧
      Server.echoed? plainly (fun _ => some (.int 5)) piece.written = some ["5 results5"] := by
  obtain ⟨piece, event, written, echoed⟩ := @resultCount_echoes countJob .value "" ⟨1, 2⟩ ⟨1, 2⟩
    ⟨1, 2⟩ [] countJob.start ⟨.html, .declared⟩ (by decide) rfl (by decide +kernel) rfl
  refine ⟨piece, event, written, (echoed plainly _ 5 (fun _ _ => rfl) rfl).trans ?_⟩
  decide +kernel

end Calls

end ServerTemplate
