import Mathlib.Data.List.Forall2
import ServerTemplate.Template.Lowering

/-!
# Templates that differ in places only

Two expressions are alike (`Expr.Alike`) if they are built in the same way from the same names,
operators, constants and texts: they may stand at different places, and a construct that no
expression stands for may be spelled differently. Two templates are alike (`Template.Alike`) if
their texts are the same and the expressions in their holes are alike.

A conversion asks an expression for its form in a few ways, and alike expressions answer the same:
which call it is, whether it is markup, and whether it is the empty text.
-/

namespace ServerTemplate

/-- Two expressions that differ in their places, and in how unknown constructs are spelled, only. -/
inductive Expr.Alike : Expr → Expr → Prop
  | name {place place' : Text.Place} {name : String} : Alike (.name place name) (.name place' name)
  | this {place place' : Text.Place} : Alike (.this place) (.this place')
  | member {place place' : Text.Place} {object object' : Expr} {property : String}
      {optional : Bool} (inner : Alike object object') :
      Alike (.member place object property optional) (.member place' object' property optional)
  | call {place place' : Text.Place} {callee callee' : Expr} {arguments arguments' : List Expr}
      (function : Alike callee callee') (given : List.Forall₂ Alike arguments arguments') :
      Alike (.call place callee arguments) (.call place' callee' arguments')
  | arrow {place place' : Text.Place} {parameters : List String} {body body' : Expr}
      (inner : Alike body body') :
      Alike (.arrow place parameters body) (.arrow place' parameters body')
  | binary {place place' : Text.Place} {operator : String} {left left' right right' : Expr}
      (first : Alike left left') (second : Alike right right') :
      Alike (.binary place operator left right) (.binary place' operator left' right')
  | logical {place place' : Text.Place} {operator : String} {left left' right right' : Expr}
      (first : Alike left left') (second : Alike right right') :
      Alike (.logical place operator left right) (.logical place' operator left' right')
  | conditional {place place' : Text.Place}
      {test test' consequent consequent' alternate alternate' : Expr} (condition : Alike test test')
      (first : Alike consequent consequent') (second : Alike alternate alternate') :
      Alike (.conditional place test consequent alternate)
        (.conditional place' test' consequent' alternate')
  | group {place place' : Text.Place} {inner inner' : Expr} (content : Alike inner inner') :
      Alike (.group place inner) (.group place' inner')
  | constant {place place' : Text.Place} {value : Constant} {spelling : String} :
      Alike (.constant place value spelling) (.constant place' value spelling)
  | template {place place' : Text.Place} {texts : List String} {holes holes' : List Expr}
      (filled : List.Forall₂ Alike holes holes') :
      Alike (.template place texts holes) (.template place' texts holes')
  | tagged {place place' templatePlace templatePlace' : Text.Place} {tag : String}
      {texts : List String} {holes holes' : List Expr} (filled : List.Forall₂ Alike holes holes') :
      Alike (.tagged place tag templatePlace texts holes)
        (.tagged place' tag templatePlace' texts holes')
  | other {place place' : Text.Place} {kind source source' : String} :
      Alike (.other place kind source) (.other place' kind source')

/-- Two templates with the same texts, and alike expressions in their holes. -/
structure Template.Alike (template template' : Template) : Prop where
  texts : template'.chunks = template.chunks
  holes : List.Forall₂ Expr.Alike template.holes template'.holes

namespace Expr.Alike

mutual

/-- Every expression is like itself. -/
theorem refl : ∀ e : Expr, e.Alike e
  | .name .. => .name
  | .this _ => .this
  | .member _ object _ _ => .member (refl object)
  | .call _ callee arguments => .call (refl callee) (refl_list arguments)
  | .arrow _ _ body => .arrow (refl body)
  | .binary _ _ left right => .binary (refl left) (refl right)
  | .logical _ _ left right => .logical (refl left) (refl right)
  | .conditional _ test consequent alternate =>
    .conditional (refl test) (refl consequent) (refl alternate)
  | .group _ inner => .group (refl inner)
  | .constant .. => .constant
  | .template _ _ holes => .template (refl_list holes)
  | .tagged _ _ _ _ holes => .tagged (refl_list holes)
  | .other .. => .other

theorem refl_list : ∀ es : List Expr, List.Forall₂ Expr.Alike es es
  | [] => .nil
  | e :: es => .cons (refl e) (refl_list es)

end

/-- Alike callees are called in the same form. -/
theorem callShape {e e' : Expr} (h : e.Alike e') : CallShape.of? e' = CallShape.of? e := by
  cases h with
  | member inner =>
    cases inner with
    | member owner => cases owner <;> rfl
    | _ => rfl
  | _ => rfl

/-- Alike expressions are alike without the parentheses around them. -/
theorem ungrouped {e e' : Expr} (h : e.Alike e') : e.ungrouped.Alike e'.ungrouped := by
  induction e using Expr.ungrouped.induct generalizing e' with
  | case1 place inner ih =>
    cases h with
    | group content =>
      rw [Expr.ungrouped, Expr.ungrouped]
      exact ih content
  | case2 e no_group =>
    cases h with
    | group content => exact absurd rfl (no_group _ _)
    | _ => constructor <;> assumption

theorem isMarkup {e e' : Expr} (h : e.Alike e') (tag : String) :
    e'.isMarkup tag = e.isMarkup tag := by
  unfold Expr.isMarkup
  generalize e.ungrouped = inner, e'.ungrouped = inner', h.ungrouped = alike
  cases alike <;> rfl

theorem isEmptyText {e e' : Expr} (h : e.Alike e') : e'.isEmptyText = e.isEmptyText := by
  unfold Expr.isEmptyText
  generalize e.ungrouped = inner, e'.ungrouped = inner', h.ungrouped = alike
  cases alike with
  | @constant _ _ value => cases value <;> rfl
  | _ => rfl

end Expr.Alike

theorem Template.Alike.refl (template : Template) : template.Alike template :=
  ⟨rfl, Expr.Alike.refl_list _⟩

end ServerTemplate
