import ServerTemplate.Proofs.Escaping.Reads
import ServerTemplate.Proofs.Literal.Conditional
import ServerTemplate.Proofs.Server.Grouping
import ServerTemplate.Proofs.Server.Reading

/-!
# The structure of conditions

In code, what is written for an expression of both languages is the text of the expression of code
that mirrors it (`Expr.Mirrors.spells`), whatever the scopes are. So `lower_parses_iff` says when
the code that is written has the structure of the script by the rules of the server language, and
`not_parses_nestedChoice` that a conditional in the second branch of another has none at all.
-/

namespace ServerTemplate

open Emit Server

namespace Server

/-- By the rules of the server language a text is an expression with some structure. -/
def Parses (text : String) (tree : Tree) : Prop := tokens? text = some tree.tokens ∧ tree.Legal

/-- A text that reading does not find a structure of has none. -/
theorem Parses.bind_read? {text : String} {tree : Tree} (h : Parses text tree) :
    (tokens? text).bind read? = some tree := by
  rw [h.1]
  exact read?_tokens h.2

end Server

/-! ### What is written -/

/-- An expression that generated code refers to is read. -/
theorem Expr.isRead_of_reference? {e : Expr} {operand : Operand} (h : e.reference? = some operand) :
    e.isRead = true := by
  unfold Expr.reference? at h
  split at h
  · rfl
  · split at h
    · cases h
    · rename_i plain
      simpa [isRead] using plain
  · rfl
  · cases h

namespace Emit

/-- In code, a part of a conversion writes a text if it succeeds, and ends in code. -/
def Spells (x : Emit Unit) (text : String) : Prop :=
  ∀ s : Progress, s.tracker.inCode = true →
    After x s (fun _ s' => s'.written = s.written ++ text ∧ s'.tracker.inCode = true)
      fun _ _ => True

namespace Spells

variable {x y : Emit Unit} {text text' : String} {e : Expr} {label : String}

theorem bind (h : Spells x text) (h' : Spells y text') : Spells (do x; y) (text ++ text') := by
  intro s code
  rw [after_bind]
  refine (h s code).mono (fun _ s₁ ⟨written, code₁⟩ => ?_) fun _ _ _ => trivial
  refine (h' s₁ code₁).mono (fun _ s₂ ⟨written', code₂⟩ => ⟨?_, code₂⟩) fun _ _ _ => trivial
  rw [written', written, String.append_assoc]

theorem write (piece : Piece) : Spells (Emit.write piece) piece.written :=
  fun s code => ⟨s.written_writing piece, code⟩

/-- An operand writes what is written behind its beginning. -/
theorem begin {f : Bool → Emit Unit} (h : Spells (f true) text) :
    Spells (Emit.begin .operand e label >>= f) text :=
  fun s code => h (s.noting (.expression e label true)) code

/-- A check that asks the scopes writes nothing. -/
theorem check {α : Type} {r : Tracker → Except Diagnostic α} {f : α → Emit Unit}
    (h : ∀ t a, r t = .ok a → Spells (f a) text) :
    Spells (do f (← ofExcept (r (← tracker)))) text := by
  intro s code
  rw [after_bind, after_tracker, after_bind]
  exact after_ofExcept (fun a ha => h _ a ha s code) fun _ _ => trivial

theorem enterScope : Spells (Emit.enterScope .conditional) "" :=
  fun _ code => ⟨String.append_empty.symm, code⟩

theorem exitScope : Spells (Emit.exitScope .conditional) "" := by
  intro s code
  refine after_exitScope (fun frame t ht => ⟨String.append_empty.symm, ?_⟩) fun _ _ => trivial
  have same : (s.tracking t).tracker.inCode = s.tracker.inCode := by
    rw [Progress.tracking_tracker, Tracker.inCode, Tracker.regions_of_exit ht]
    rfl
  exact same.trans code

/-- In code a part may be what it is in code. -/
theorem ifInCode {f : Bool → Emit Unit} (h : Spells (f true) text) :
    Spells (do f (← inCode)) text := by
  intro s code
  rw [after_bind, after_inCode, code]
  exact h s code

/-- Reading a value gives what generated code refers to, and writes nothing. -/
theorem reading {job : Job} {operand : Operand} {f : Reading → Emit Unit}
    (h : e.reference? = some operand) (hf : ∀ r, r.operand = operand → Spells (f r) text) :
    Spells (do f (← ofExcept (job.reading (← tracker) label e))) text := by
  refine check fun t r hr => hf r ?_
  have same := Job.reference?_of_reading (Expr.isRead_of_reference? h) hr
  exact Option.some.inj (same.symm.trans h)

theorem readValue {job : Job} {operand : Operand} (h : e.reference? = some operand) :
    Spells (Emit.readValue job e label true) operand.text :=
  reading h fun _ same => same ▸ write (.operand _)

theorem countOf {job : Job} {operand : Operand} (h : e.reference? = some operand) :
    Spells (Emit.countOf job e label true) operand.count.text :=
  reading h fun _ same => same ▸ write (.operand (.count _))

theorem property {job : Job} {place : Text.Place} {object : Expr} {name : String} {optional : Bool}
    {operand : Operand} (h : (Expr.member place object name optional).operand? = some operand) :
    Spells (Emit.property job (.member place object name optional) object name label true)
      operand.text := by
  refine check fun _ _ _ => ?_
  cases object with
  | this => exact readValue h
  | _ =>
    dsimp only
    by_cases counted : name = "length"
    · rw [if_pos counted]
      rw [Expr.operand?, if_pos counted] at h
      · obtain ⟨inner, hinner, rfl⟩ := Option.map_eq_some_iff.mp h
        exact countOf hinner
      · exact nofun
    · rw [if_neg counted]
      rw [Expr.operand?, if_neg counted] at h
      · exact readValue h
      · exact nofun

end Spells

end Emit

/-- In code, an expression of both languages is written as the one of code that mirrors it. -/
theorem Expr.Mirrors.spells {e : Expr} {t : Tree} (h : e.Mirrors t) (job : Job) (label : String) :
    Emit.Spells (lower job .operand label e) t.text := by
  induction h generalizing label with
  | @read e operand h =>
    rw [Operand.text_tree]
    cases e with
    | name place name =>
      rw [lower]
      exact .begin (.readValue h)
    | member place object name optional =>
      rw [lower]
      exact .begin (.property h)
    | _ => cases h
  | constant place v spelling =>
    rw [lower, Constant.text_tree]
    · exact .begin (constant_code .. ▸ .write _)
    · rintro _ ⟨⟩
    · rintro _ ⟨⟩
  | group place h ih =>
    rw [lower, if_neg (by decide), Tree.text, String.append_assoc]
    exact .begin ((Spells.write (.symbol "( ")).bind ((ih label).bind (.write (.symbol " )"))))
  | @binary place operator left right l r hl hr ihl ihr
  | @logical place operator left right l r hl hr ihl ihr =>
    have both := (ihl (label ++ "-left")).bind
      ((Spells.write (.symbol (" " ++ operator ++ " "))).bind (ihr (label ++ "-right")))
    have same : l.text ++ ((" " ++ operator ++ " ") ++ r.text) =
        (Tree.binary operator l r).text := by
      simp only [Tree.text, String.append_assoc]
    rw [lower, ← same]
    exact .begin both
  | @conditional place test consequent alternate t c a ht hc ha iht ihc iha =>
    have parts := Spells.enterScope.bind ((Spells.write (.symbol "( ")).bind
      ((iht (label ++ "-test")).bind ((Spells.write (.symbol " ) ? ")).bind
        ((ihc (label ++ "-consequent")).bind ((Spells.write (.symbol " : ")).bind
          ((iha (label ++ "-alternate")).bind .exitScope))))))
    have same : "" ++ ("( " ++ (t.text ++ (" ) ? " ++ (c.text ++ (" : " ++ (a.text ++ "")))))) =
        (Tree.conditional (.parens t) c a).text := by
      have mark : " ) ? " = " )" ++ " ? " := by decide
      rw [mark]
      simp only [Tree.text, String.append_assoc, String.empty_append, String.append_empty]
    rw [lower, ← same]
    exact .begin (.ifInCode parts)

/-! ### What the text is read as -/

/-- **The structure of conditions.** What is written in code for an expression of both languages is,
by the rules of the server language, an expression with the structure that it has in the script,
exactly if nothing stands side by side that the two languages group in different ways. -/
theorem lower_parses_iff (job : Job) {use : Use} (value : use ≠ .block) (label : String) {e : Expr}
    {t : Tree} (mirrors : e.Mirrors t) (grouped : e.Grouped) (spelled : t.Spelled) {s s' : Progress}
    (code : s.tracker.inCode = true) (run : lower job use label e s = .ok () s') :
    ∃ text, s'.written = s.written ++ text ∧ (Parses text t ↔ e.Portable) := by
  have operand : lower job .operand label e s = .ok () s' := by
    cases use with
    | value => exact (lower_value_of_code code).symm.trans run
    | operand => exact run
    | block => exact absurd rfl value
  refine ⟨t.text, ((mirrors.spells job label s code).of_ok operand).1, ?_⟩
  rw [← mirrors.legal_iff spelled grouped]
  exact and_iff_right (Tree.lexes_text spelled).tokens?_eq

/-- The title of a list. -/
def titleRead : Expr := .member ⟨1, 0⟩ (.this ⟨1, 0⟩) "title" false

theorem titleRead_mirrors : titleRead.Mirrors (.var "title") :=
  .read (show titleRead.operand? = some (.var "title") from rfl)

/-- The expression `this.title !== '' ? 2 ** 3 ** 2 : (this.title ? 'a' : 'b')`. -/
def bracketedChoice : Expr :=
  .conditional ⟨1, 0⟩
    (.binary ⟨1, 0⟩ "!==" titleRead (.constant ⟨1, 0⟩ (.text "") "''"))
    (.binary ⟨1, 0⟩ "**" (.constant ⟨1, 0⟩ (.int 2) "2") (.binary ⟨1, 0⟩ "**"
      (.constant ⟨1, 0⟩ (.int 3) "3") (.constant ⟨1, 0⟩ (.int 2) "2")))
    (.group ⟨1, 0⟩ (.conditional ⟨1, 0⟩ titleRead (.constant ⟨1, 0⟩ (.text "a") "'a'")
      (.constant ⟨1, 0⟩ (.text "b") "'b'")))

/-- The structure of the code for it. -/
def bracketedTree : Tree :=
  .conditional (.parens (.binary "!==" (.var "title") (.quoted "")))
    (.binary "**" (.numeral "2") (.binary "**" (.numeral "3") (.numeral "2")))
    (.parens (.conditional (.parens (.var "title")) (.quoted "a") (.quoted "b")))

theorem bracketedChoice_mirrors : bracketedChoice.Mirrors bracketedTree :=
  .conditional _ (.binary _ _ titleRead_mirrors (.constant ..))
    (.binary _ _ (.constant ..) (.binary _ _ (.constant ..) (.constant ..)))
    (.group _ (.conditional _ titleRead_mirrors (.constant ..) (.constant ..)))

/-- The code for a conditional with powers in its first branch, and another conditional in
parentheses in its second one, has the structure of the script. -/
theorem lower_parses_bracketedChoice :
    ∃ s', lower listJob .value "" bracketedChoice
        (listJob.start.tracking listJob.start.tracker.enterCode) = .ok () s' ∧
      Parses s'.written bracketedTree := by
  have ok : Emit.succeeds (lower listJob .value "" bracketedChoice)
      (listJob.start.tracking listJob.start.tracker.enterCode) = true := by decide +kernel
  cases run : lower listJob .value "" bracketedChoice
      (listJob.start.tracking listJob.start.tracker.enterCode) with
  | error d s' =>
    rw [Emit.succeeds, run] at ok
    cases ok
  | ok a s' =>
    obtain ⟨text, written, structured⟩ := lower_parses_iff listJob (by decide) ""
      bracketedChoice_mirrors (by decide +kernel) (by decide +kernel) rfl run
    refine ⟨s', rfl, ?_⟩
    have nothing : (listJob.start.tracking listJob.start.tracker.enterCode).written = "" := rfl
    rw [written, nothing, String.empty_append]
    exact structured.mpr (by decide +kernel)

/-- The expression `this.title ? 'x' : this.title ? 'y' : 'z'`. -/
def nestedChoice : Expr :=
  .conditional ⟨1, 0⟩ titleRead (.constant ⟨1, 0⟩ (.text "x") "'x'")
    (.conditional ⟨1, 0⟩ titleRead (.constant ⟨1, 0⟩ (.text "y") "'y'")
      (.constant ⟨1, 0⟩ (.text "z") "'z'"))

/-- A conditional in the second branch of another is written without parentheses, and what is
written is no expression of the server language. -/
theorem not_parses_nestedChoice :
    nestedChoice.Grouped ∧ (∃ t, nestedChoice.Mirrors t ∧ t.Spelled) ∧
      listJob.convert ⟨⟨1, 0⟩, ["<?php echo ", "; ?>"], [nestedChoice]⟩ =
        .ok "<?php echo ( $title ) ? 'x' : ( $title ) ? 'y' : 'z'; ?>" ∧
      ¬ ∃ tree, Parses "( $title ) ? 'x' : ( $title ) ? 'y' : 'z'" tree := by
  refine ⟨by decide +kernel, ⟨_, .conditional _ titleRead_mirrors (.constant ..)
    (.conditional _ titleRead_mirrors (.constant ..) (.constant ..)), by decide +kernel⟩,
    eq_ok_of_toOption (by decide +kernel), ?_⟩
  rintro ⟨tree, h⟩
  have unread : (tokens? "( $title ) ? 'x' : ( $title ) ? 'y' : 'z'").bind read? = none := by
    decide +kernel
  exact absurd (h.bind_read?.symm.trans unread) nofun

end ServerTemplate
