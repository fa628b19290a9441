import ServerTemplate.Proofs.Escaping.Function
import ServerTemplate.Proofs.Server.Lexing
import ServerTemplate.Script.Expression

/-!
# Grouping in scripts and in server code

A condition is written as it stands in the script, operands and operators one behind the other. So
its code has the structure that it has in the script only where the two languages group alike.
`Expr.Mirrors` says of an expression of code that it has the structure of one of a script,
`Expr.Grouped` that the latter has its structure by the rules of scripts, and `Expr.Portable` lists
what must not stand side by side. By the rules of the server language an expression of code has the
structure of a script's exactly where nothing of the list occurs (`Expr.Mirrors.legal_iff`).
-/

namespace ServerTemplate

open Server

/-! ### Expressions of both languages -/

/-- How code reads a value. -/
def Operand.tree : Operand → Tree
  | var name => .var name
  | field item name => .element item name
  | count of => .call "count" of.tree

theorem Operand.text_tree (operand : Operand) : operand.tree.text = operand.text := by
  induction operand with
  | var name | field item name => rfl
  | count of ih =>
    have head : "count" ++ "( " = "count( " := by decide
    rw [tree, Tree.text, ih, head, text]

/-- A constant in code. -/
def Constant.tree (v : Constant) (spelling : String) : Tree :=
  match v with
  | .null | .bool _ => .constant (v.code spelling)
  | .int _ | .float _ => .numeral (v.code spelling)
  | .text content => .quoted content
  | .halves points => .quoted (joined points)

theorem Constant.text_tree (v : Constant) (spelling : String) :
    (v.tree spelling).text = v.code spelling := by
  cases v <;> rfl

/-- How code reads what a name or a property gives. -/
def Expr.operand? (e : Expr) : Option Operand :=
  match e with
  | .member _ (.this _) _ _ => e.reference?
  | .member _ object property _ =>
    if property = "length" then object.reference?.map .count else e.reference?
  | _ => e.reference?

/-- An expression of code has the structure of one of a script. Tests stand in parentheses. -/
inductive Expr.Mirrors : Expr → Tree → Prop
  | read {e : Expr} {operand : Operand} (h : e.operand? = some operand) : Mirrors e operand.tree
  | constant (place : Text.Place) (v : Constant) (spelling : String) :
    Mirrors (.constant place v spelling) (v.tree spelling)
  | group (place : Text.Place) {inner : Expr} {t : Tree} (h : Mirrors inner t) :
    Mirrors (.group place inner) (.parens t)
  | binary (place : Text.Place) (operator : String) {left right : Expr} {l r : Tree}
    (hl : Mirrors left l) (hr : Mirrors right r) :
    Mirrors (.binary place operator left right) (.binary operator l r)
  | logical (place : Text.Place) (operator : String) {left right : Expr} {l r : Tree}
    (hl : Mirrors left l) (hr : Mirrors right r) :
    Mirrors (.logical place operator left right) (.binary operator l r)
  | conditional (place : Text.Place) {test consequent alternate : Expr} {t c a : Tree}
    (ht : Mirrors test t) (hc : Mirrors consequent c) (ha : Mirrors alternate a) :
    Mirrors (.conditional place test consequent alternate) (.conditional (.parens t) c a)

theorem Operand.legal (operand : Operand) : operand.tree.Legal := by
  induction operand with
  | var name | field item name => trivial
  | count of ih => exact ih

theorem Constant.legal (v : Constant) (spelling : String) : (v.tree spelling).Legal := by
  cases v <;> trivial

/-! ### Rules -/

namespace Expr

/-- How strongly an expression of a script binds. -/
def level : Expr → Nat
  | binary _ operator _ _ | logical _ operator _ _ =>
    (Script.Reader.operatorLevel? operator).getD 13
  | conditional .. => 0
  | _ => 13

/-- The least level on the left of an operator of a script: powers group from the right. -/
def leftLevel (level : Nat) : Nat := if level = 12 then 13 else level

/-- Whether an expression has its structure by the rules of scripts. -/
def Grouped : Expr → Prop
  | binary _ operator left right | logical _ operator left right =>
    (∃ level, Script.Reader.operatorLevel? operator = some level ∧ leftLevel level ≤ left.level ∧
      Script.Reader.rightLevel level ≤ right.level) ∧ left.Grouped ∧ right.Grouped
  | conditional _ test consequent alternate =>
    1 ≤ test.level ∧ test.Grouped ∧ consequent.Grouped ∧ alternate.Grouped
  | group _ inner => inner.Grouped
  | _ => True

/-- The operator of an expression. -/
def operator? : Expr → Option String
  | binary _ operator _ _ | logical _ operator _ _ => some operator
  | _ => none

/-- Whether code may take an expression for a class. -/
def isClass : Expr → Bool
  | group .. => true
  | e =>
    match e.operand? with
    | some (.var _) | some (.field ..) => true
    | _ => false

def isConditional : Expr → Bool
  | conditional .. => true
  | _ => false

/-- Two operators that group from the left in scripts, and not in server code: two equalities, two
comparisons, or two `??`. -/
def Clash (operator operator' : String) : Prop :=
  level? operator = level? operator' ∧ level? operator ∈ [some 1, some 7, some 8]

/-- What may stand on the two sides of an operator: none with which it clashes on the left, and what
binds more strongly than the others on both sides of `instanceof`. -/
structure Meets (operator : String) (left right : Expr) : Prop where
  noClash : ∀ operator' ∈ left.operator?, ¬ Clash operator operator'
  ofClass : operator = "instanceof" → right.isClass = true
  strong : operator = "instanceof" →
    ∀ operator' ∈ left.operator?, operator' = "instanceof" ∨ operator' = "**"

/-- Whether server code groups an expression as scripts do, if it is written without parentheses of
its own. -/
def Portable : Expr → Prop
  | binary _ operator left right | logical _ operator left right =>
    Meets operator left right ∧ left.Portable ∧ right.Portable
  | conditional _ test consequent alternate =>
    alternate.isConditional = false ∧ test.Portable ∧ consequent.Portable ∧ alternate.Portable
  | group _ inner => inner.Portable
  | _ => True

instance (operator operator' : String) : Decidable (Clash operator operator') :=
  inferInstanceAs (Decidable (_ ∧ _))

instance (operator : String) (left right : Expr) : Decidable (Meets operator left right) :=
  decidable_of_iff (_ ∧ _ ∧ _) ⟨fun h => ⟨h.1, h.2.1, h.2.2⟩, fun h => ⟨h.1, h.2, h.3⟩⟩

def decidableGrouped : (e : Expr) → Decidable e.Grouped
  | binary _ operator left right | logical _ operator left right =>
    have := left.decidableGrouped
    have := right.decidableGrouped
    inferInstanceAs (Decidable ((∃ level ∈ Script.Reader.operatorLevel? operator,
      leftLevel level ≤ left.level ∧ Script.Reader.rightLevel level ≤ right.level) ∧ _ ∧ _))
  | conditional _ test consequent alternate =>
    have := test.decidableGrouped
    have := consequent.decidableGrouped
    have := alternate.decidableGrouped
    inferInstanceAs (Decidable (_ ∧ _ ∧ _ ∧ _))
  | group _ inner => inner.decidableGrouped
  | this _ | name .. | member .. | constant .. | call .. | arrow .. | tagged .. | template ..
  | other .. => isTrue trivial

instance : DecidablePred Grouped := decidableGrouped

def decidablePortable : (e : Expr) → Decidable e.Portable
  | binary _ _ left right | logical _ _ left right =>
    have := left.decidablePortable
    have := right.decidablePortable
    inferInstanceAs (Decidable (_ ∧ _ ∧ _))
  | conditional _ test consequent alternate =>
    have := test.decidablePortable
    have := consequent.decidablePortable
    have := alternate.decidablePortable
    inferInstanceAs (Decidable (_ ∧ _ ∧ _ ∧ _))
  | group _ inner => inner.decidablePortable
  | this _ | name .. | member .. | constant .. | call .. | arrow .. | tagged .. | template ..
  | other .. => isTrue trivial

instance : DecidablePred Portable := decidablePortable

end Expr

/-! ### Levels of both languages -/

/-- The level in server code of the operators of a level in scripts, but for `instanceof`. -/
def serverLevel (level : Nat) : Nat := if level ≤ 11 then level else level + 1

/-- The level in server code of an operator of scripts, which may be `instanceof`. -/
def codeLevel (ofClass : Bool) (level : Nat) : Nat := if ofClass then 12 else serverLevel level

/-- The level of an operator at the right edge of an expression, where `instanceof` is closed. -/
def edgeLevel (ofClass : Bool) (level : Nat) : Nat :=
  if ofClass then closedLevel else serverLevel level

/-- Whether an operator may stand at a level of scripts. -/
def LevelOf (ofClass : Bool) (level : Nat) : Prop :=
  1 ≤ level ∧ level ≤ 12 ∧ (ofClass = true → level = 8)

instance (ofClass : Bool) (level : Nat) : Decidable (LevelOf ofClass level) :=
  inferInstanceAs (Decidable (_ ∧ _ ∧ _))

/-- The levels of an operator of both languages. -/
theorem levelOf {operator : String} {n : Nat} (common : (level? operator).isSome = true)
    (h : Script.Reader.operatorLevel? operator = some n) :
    LevelOf (operator == "instanceof") n ∧
      level? operator = some (codeLevel (operator == "instanceof") n) := by
  unfold Script.Reader.operatorLevel? at h
  split at h
  all_goals cases h
  all_goals first
    | exact ⟨by decide, rfl⟩
    | cases common

theorem serverLevel_mono {n n' : Nat} (h : n ≤ n') : serverLevel n ≤ serverLevel n' := by
  unfold serverLevel
  split <;> split <;> omega

/-- On the right of an operator other than `instanceof` the rules of scripts ask for enough. -/
theorem rightLeast_le {n : Nat} (h : LevelOf false n) :
    rightLeast (codeLevel false n) ≤ serverLevel (Script.Reader.rightLevel n) := by
  have all : ∀ n : Fin 13, LevelOf false n →
      rightLeast (codeLevel false n) ≤ serverLevel (Script.Reader.rightLevel n) := by decide
  exact all ⟨n, Nat.lt_succ_of_le h.2.1⟩ h

/-- By the rules of scripts an operand may stand on the left of an operator. In code it may not if
the two are of one level that does not group from the left there, or if it binds less than
`instanceof`. -/
theorem leftLeast_le_iff {c c' : Bool} {n n' : Nat} (hn : LevelOf c n) (hn' : LevelOf c' n')
    (hleft : Expr.leftLevel n ≤ n') :
    leftLeast (codeLevel c n) ≤ edgeLevel c' n' ↔
      ¬ (codeLevel c n = codeLevel c' n' ∧ codeLevel c n ∈ [1, 7, 8]) ∧
        (c = true → c' = true ∨ codeLevel c' n' = 13) := by
  have all : ∀ n n' : Fin 13, LevelOf c n → LevelOf c' n' → Expr.leftLevel n ≤ n' →
      (leftLeast (codeLevel c n) ≤ edgeLevel c' n' ↔
        ¬ (codeLevel c n = codeLevel c' n' ∧ codeLevel c n ∈ [1, 7, 8]) ∧
          (c = true → c' = true ∨ codeLevel c' n' = 13)) := by
    cases c <;> cases c' <;> decide
  exact all ⟨n, Nat.lt_succ_of_le hn.2.1⟩ ⟨n', Nat.lt_succ_of_le hn'.2.1⟩ hn hn' hleft

/-! ### The edges of an expression -/

namespace Expr

/-- The level in server code of the operator at the right edge of an expression. -/
def rightEdge : Expr → Nat
  | e@(binary _ operator _ _) | e@(logical _ operator _ _) =>
    edgeLevel (operator == "instanceof") e.level
  | conditional .. => choiceLevel
  | _ => closedLevel

/-- The edges of an expression of code bind as the expression of the script does. -/
structure Edges (e : Expr) (t : Tree) : Prop where
  right : t.rightOpen = e.rightEdge
  left : serverLevel e.level ≤ t.leftOpen
  strong : serverLevel e.level ≤ e.rightEdge

theorem Edges.of_closed {e : Expr} {t : Tree} (right : t.rightOpen = closedLevel)
    (left : t.leftOpen = closedLevel) (edge : e.rightEdge = closedLevel) (level : e.level = 13) :
    Edges e t :=
  ⟨right.trans edge.symm, by rw [level, left]; decide, by rw [level, edge]; decide⟩

theorem Edges.of_operand? {e : Expr} {operand : Operand} (h : e.operand? = some operand) :
    Edges e operand.tree := by
  cases e <;> first | cases operand <;> exact .of_closed rfl rfl rfl rfl | cases h

theorem Edges.constant (place : Text.Place) (v : Constant) (spelling : String) :
    Edges (.constant place v spelling) (v.tree spelling) := by
  cases v <;> exact .of_closed rfl rfl rfl rfl

/-- An operator binds at both edges of an expression as its operands allow. -/
theorem edges_binary {operator : String} {left right : Expr} {l r : Tree} {n : Nat}
    (common : (level? operator).isSome = true)
    (hn : Script.Reader.operatorLevel? operator = some n)
    (hleft : leftLevel n ≤ left.level) (hright : Script.Reader.rightLevel n ≤ right.level)
    (hl : Edges left l) (hr : Edges right r) :
    (Tree.binary operator l r).rightOpen = edgeLevel (operator == "instanceof") n ∧
      serverLevel n ≤ (Tree.binary operator l r).leftOpen ∧
      serverLevel n ≤ edgeLevel (operator == "instanceof") n := by
  have le_left : serverLevel n ≤ l.leftOpen := by
    refine Nat.le_trans (serverLevel_mono (Nat.le_trans ?_ hleft)) hl.left
    unfold leftLevel
    split <;> omega
  have le_right : serverLevel n ≤ r.rightOpen := by
    rw [hr.right]
    refine Nat.le_trans (serverLevel_mono (Nat.le_trans ?_ hright)) hr.strong
    unfold Script.Reader.rightLevel
    split <;> omega
  obtain ⟨⟨-, -, relational⟩, hserver⟩ := levelOf common hn
  rw [Tree.rightOpen, Tree.leftOpen, hserver]
  cases hclass : operator == "instanceof" with
  | true =>
    rw [if_pos (beq_iff_eq.mp hclass)]
    obtain rfl := relational hclass
    exact ⟨rfl, Nat.le_min.mpr ⟨by decide, le_left⟩, by decide⟩
  | false =>
    rw [if_neg (beq_eq_false_iff_ne.mp hclass)]
    exact ⟨Nat.min_eq_left le_right, Nat.le_min.mpr ⟨Nat.le_refl _, le_left⟩, Nat.le_refl _⟩

theorem Mirrors.edges {e : Expr} {t : Tree} (h : e.Mirrors t) (spelled : t.Spelled)
    (grouped : e.Grouped) : Edges e t := by
  induction h with
  | read h => exact .of_operand? h
  | constant place v spelling => exact .constant place v spelling
  | group => exact .of_closed rfl rfl rfl rfl
  | binary place operator hl hr ihl ihr | logical place operator hl hr ihl ihr =>
    obtain ⟨common, spelled_left, spelled_right⟩ := spelled
    obtain ⟨⟨n, hn, hleft, hright⟩, grouped_left, grouped_right⟩ := grouped
    obtain ⟨right, left, strong⟩ := edges_binary common hn hleft hright
      (ihl spelled_left grouped_left) (ihr spelled_right grouped_right)
    refine ⟨?_, ?_, ?_⟩ <;> simp only [rightEdge, level, hn, Option.getD_some]
    · exact right
    · exact left
    · exact strong
  | conditional => exact ⟨rfl, Nat.le_refl 0, Nat.le_refl 0⟩

/-! ### What stands side by side -/

theorem Mirrors.isClass_eq {e : Expr} {t : Tree} (h : e.Mirrors t) : t.isClass = e.isClass := by
  cases h with
  | @read _ operand h =>
    cases e with
    | name | member =>
      rw [isClass, h]
      · cases operand <;> rfl
      · exact nofun
    | _ => cases h
  | constant place v =>
    cases v with
    | bool value => cases value <;> rfl
    | _ => rfl
  | _ => rfl

theorem level?_eq_thirteen {operator : String} : level? operator = some 13 ↔ operator = "**" := by
  refine ⟨fun h => ?_, fun h => h ▸ rfl⟩
  unfold level? at h
  split at h
  all_goals first | rfl | cases h

/-- What may stand on the left of an operator. -/
theorem left_iff {operator : String} {left : Expr} {l : Tree} {n : Nat}
    (common : (level? operator).isSome = true)
    (hn : Script.Reader.operatorLevel? operator = some n)
    (hleft : leftLevel n ≤ left.level) (h : left.Mirrors l) (spelled : l.Spelled)
    (grouped : left.Grouped) :
    leftLeast (codeLevel (operator == "instanceof") n) ≤ l.rightOpen ↔
      (∀ operator' ∈ left.operator?, ¬ Clash operator operator') ∧
        (operator = "instanceof" →
          ∀ operator' ∈ left.operator?, operator' = "instanceof" ∨ operator' = "**") := by
  obtain ⟨levels, hserver⟩ := levelOf common hn
  have bound : leftLeast (codeLevel (operator == "instanceof") n) ≤ closedLevel :=
    leftLeast_le (lt_closedLevel hserver)
  rw [(h.edges spelled grouped).right]
  cases h with
  | read h =>
    cases left <;> first | exact ⟨fun _ => ⟨nofun, fun _ => nofun⟩, fun _ => bound⟩ | cases h
  | constant | group => exact ⟨fun _ => ⟨nofun, fun _ => nofun⟩, fun _ => bound⟩
  | conditional =>
    have pos := levels.1
    unfold leftLevel at hleft
    split at hleft <;> exact absurd hleft (by simp only [level]; omega)
  | binary place operator' | logical place operator' =>
    obtain ⟨common', -⟩ := spelled
    obtain ⟨⟨n', hn', -⟩, -⟩ := grouped
    obtain ⟨levels', hserver'⟩ := levelOf common' hn'
    simp only [level, hn', Option.getD_some] at hleft
    simp only [rightEdge, level, hn', Option.getD_some, operator?, Option.mem_def,
      Option.some.injEq, forall_eq', Clash, hserver, hserver', ← level?_eq_thirteen]
    rw [leftLeast_le_iff levels levels' hleft]
    simp

/-- What may stand on the right of an operator. -/
theorem right_iff {operator : String} {right : Expr} {r : Tree} {n : Nat}
    (common : (level? operator).isSome = true)
    (hn : Script.Reader.operatorLevel? operator = some n)
    (hright : Script.Reader.rightLevel n ≤ right.level) (h : right.Mirrors r) (spelled : r.Spelled)
    (grouped : right.Grouped) :
    (rightLeast (codeLevel (operator == "instanceof") n) ≤ r.leftOpen ∧
        (operator = "instanceof" → r.isClass = true)) ↔
      (operator = "instanceof" → right.isClass = true) := by
  rw [h.isClass_eq]
  refine and_iff_right_iff_imp.mpr fun ofClass => ?_
  obtain ⟨levels, -⟩ := levelOf common hn
  cases hclass : operator == "instanceof" with
  | true =>
    have closed := Tree.leftOpen_of_isClass (h.isClass_eq.trans (ofClass (beq_iff_eq.mp hclass)))
    rw [closed]
    exact Nat.le_refl closedLevel
  | false =>
    rw [hclass] at levels
    refine Nat.le_trans (rightLeast_le levels) (Nat.le_trans (serverLevel_mono hright) ?_)
    exact (h.edges spelled grouped).left

/-- A conditional may not stand in the second branch of another. -/
theorem alternate_iff {e : Expr} {t : Tree} (h : e.Mirrors t) (spelled : t.Spelled)
    (grouped : e.Grouped) : rightLeast choiceLevel ≤ t.leftOpen ↔ e.isConditional = false := by
  have left := (h.edges spelled grouped).left
  have other (pos : 1 ≤ e.level) : rightLeast choiceLevel ≤ t.leftOpen := by
    refine Nat.le_trans (Nat.le_trans ?_ (serverLevel_mono pos)) left
    decide
  cases h with
  | read h =>
    cases e <;> first | exact iff_of_true (other (Nat.le_add_left 1 12)) rfl | cases h
  | constant | group => exact iff_of_true (other (Nat.le_add_left 1 12)) rfl
  | conditional => exact iff_of_false (by change ¬ 1 ≤ 0; decide) (by simp [isConditional])
  | binary place operator | logical place operator =>
    obtain ⟨⟨n, hn, -⟩, -⟩ := grouped
    obtain ⟨⟨pos, -⟩, -⟩ := levelOf spelled.1 hn
    refine iff_of_true (other ?_) rfl
    simpa only [level, hn, Option.getD_some] using pos

/-- An operator with its operands is grouped alike where the operands are and nothing that clashes
stands side by side. -/
theorem legal_binary_iff {operator : String} {left right : Expr} {l r : Tree} {n : Nat}
    (common : (level? operator).isSome = true)
    (hn : Script.Reader.operatorLevel? operator = some n)
    (hleft : leftLevel n ≤ left.level) (hright : Script.Reader.rightLevel n ≤ right.level)
    (hl : left.Mirrors l) (hr : right.Mirrors r) (spelled : l.Spelled ∧ r.Spelled)
    (grouped : left.Grouped ∧ right.Grouped) (ihl : l.Legal ↔ left.Portable)
    (ihr : r.Legal ↔ right.Portable) : (Tree.binary operator l r).Legal ↔
      Meets operator left right ∧ left.Portable ∧ right.Portable := by
  obtain ⟨-, hserver⟩ := levelOf common hn
  have onLeft := left_iff common hn hleft hl spelled.1 grouped.1
  have onRight := right_iff common hn hright hr spelled.2 grouped.2
  rw [Tree.Legal, ihl, ihr]
  constructor
  · rintro ⟨⟨m, hm, first, second⟩, ofClass, rest⟩
    rw [hserver] at hm
    cases hm
    obtain ⟨noClash, strong⟩ := onLeft.mp first
    exact ⟨⟨noClash, onRight.mp ⟨second, ofClass⟩, strong⟩, rest⟩
  · rintro ⟨⟨noClash, ofClass, strong⟩, rest⟩
    obtain ⟨second, ofClass⟩ := onRight.mpr ofClass
    exact ⟨⟨_, hserver, onLeft.mpr ⟨noClash, strong⟩, second⟩, ofClass, rest⟩

/-- By the rules of the server language an expression of code has the structure of an expression of
a script exactly if the latter is written so that the two languages group it alike. -/
theorem Mirrors.legal_iff {e : Expr} {t : Tree} (h : e.Mirrors t) (spelled : t.Spelled)
    (grouped : e.Grouped) : t.Legal ↔ e.Portable := by
  induction h with
  | @read e operand h =>
    cases e <;> first | exact iff_of_true operand.legal trivial | cases h
  | constant place v spelling => exact iff_of_true (v.legal spelling) trivial
  | group place h ih => exact ih spelled grouped
  | binary place operator hl hr ihl ihr | logical place operator hl hr ihl ihr =>
    obtain ⟨common, spelled⟩ := spelled
    obtain ⟨⟨n, hn, hleft, hright⟩, grouped⟩ := grouped
    exact legal_binary_iff common hn hleft hright hl hr spelled grouped
      (ihl spelled.1 grouped.1) (ihr spelled.2 grouped.2)
  | conditional place ht hc ha iht ihc iha =>
    obtain ⟨spelled_test, spelled_consequent, spelled_alternate⟩ := spelled
    obtain ⟨-, grouped_test, grouped_consequent, grouped_alternate⟩ := grouped
    have closed : leftLeast choiceLevel ≤ closedLevel := by decide
    rw [Tree.Legal, Portable, alternate_iff ha spelled_alternate grouped_alternate,
      ihc spelled_consequent grouped_consequent, iha spelled_alternate grouped_alternate,
      ← iht spelled_test grouped_test]
    exact and_iff_right closed

end Expr

end ServerTemplate
