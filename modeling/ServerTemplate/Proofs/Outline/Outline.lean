import ServerTemplate.Template.Lowering

/-!
# Outlines

An outline is a fragment as a tree: texts, values, conditionals and loops, put one behind the other
and into each other. `Outline.pieces` writes it.

`Expr.skeleton` is the part of an outline that the template alone determines: its texts and the
blocks around them, in document order.
-/

namespace ServerTemplate

/-- A value that is escaped where it is written: the field whose policy applies, the array whose
items have the field unless it is a parameter, the expression, and the function chosen. -/
structure EchoSite where
  field : String
  array : Option String
  e : Expr
  function : Option String

/-- A fragment as a tree. -/
inductive Outline where
  | empty
  /-- Text of the template. -/
  | text (content : String)
  /-- A value. -/
  | echo (value : Operand) (site : EchoSite)
  /-- The count of results. -/
  | resultCount (labels : CountLabels) (site : EchoSite)
  /-- Generated code that escapes nothing. -/
  | code (piece : Piece)
  | seq (first second : Outline)
  /-- What stands in a hole. -/
  | hole (content : Outline)
  /-- A conditional with one branch. -/
  | guard (test : List Piece) (body : Outline)
  /-- A conditional with two branches. -/
  | branch (test : List Piece) (first second : Outline)
  | loop (array item : String) (body : Outline)

/-- The pieces of a fragment in order. An empty text is no piece. -/
def Outline.pieces : Outline → List Piece
  | empty => []
  | text content => if content = "" then [] else [.text content]
  | echo value site => [.echo value site.function]
  | resultCount labels site => [.resultCount labels site.function]
  | code piece => [piece]
  | seq first second => first.pieces ++ second.pieces
  | hole content => content.pieces
  | guard test body => .ifStart :: test ++ .ifTested :: body.pieces ++ [.ifEnd]
  | branch test first second =>
    .ifStart :: test ++ .ifTested :: first.pieces ++ .otherwise :: second.pieces ++ [.ifEnd]
  | loop array item body => .loopStart array item :: body.pieces ++ [.loopEnd]

/-- A text that is written if a condition holds. -/
def guardText (test body : String) : String :=
  "<?php if ( " ++ test ++ " ) : ?>" ++ body ++ "<?php endif; ?>"

/-- A text that is written if a condition holds, and one that is written else. -/
def branchText (test first second : String) : String :=
  "<?php if ( " ++ test ++ " ) : ?>" ++ first ++ "<?php else : ?>" ++ second ++ "<?php endif; ?>"

/-- A text that is written for every item of an array. -/
def loopText (array item body : String) : String :=
  "<?php foreach ( $" ++ array ++ " as $" ++ item ++ " ) : ?>" ++ body ++ "<?php endforeach; ?>"

/-- How a fragment is written. -/
def Outline.written : Outline → String
  | empty => ""
  | text content => content
  | echo value site => (Piece.echo value site.function).written
  | resultCount labels site => (Piece.resultCount labels site.function).written
  | code piece => piece.written
  | seq first second => first.written ++ second.written
  | hole content => content.written
  | guard test body => guardText (Piece.writtenAll test) body.written
  | branch test first second => branchText (Piece.writtenAll test) first.written second.written
  | loop array item body => loopText array item body.written

/-- The pieces of a fragment are written as the fragment is. -/
theorem Outline.writtenAll_pieces (o : Outline) : Piece.writtenAll o.pieces = o.written := by
  induction o with
  | empty => rfl
  | text content =>
    rw [pieces, written]
    split
    · rename_i hempty
      rw [hempty, Piece.writtenAll_nil]
    · exact Piece.writtenAll_singleton _
  | echo value site => exact Piece.writtenAll_singleton _
  | resultCount labels site => exact Piece.writtenAll_singleton _
  | code piece => exact Piece.writtenAll_singleton _
  | seq first second ih₁ ih₂ => rw [pieces, Piece.writtenAll_append, ih₁, ih₂, written]
  | hole content ih => rw [pieces, ih, written]
  | guard test body ih =>
    simp only [pieces, written, ← ih, List.cons_append, List.append_assoc, Piece.writtenAll_cons,
      Piece.writtenAll_append, Piece.writtenAll_nil, String.append_empty, ← String.append_assoc]
    rfl
  | branch test first second ih₁ ih₂ =>
    simp only [pieces, written, ← ih₁, ← ih₂, List.cons_append, List.append_assoc,
      Piece.writtenAll_cons, Piece.writtenAll_append, Piece.writtenAll_nil, String.append_empty,
      ← String.append_assoc]
    rfl
  | loop array item body ih =>
    simp only [pieces, written, ← ih, List.cons_append, Piece.writtenAll_cons,
      Piece.writtenAll_append, Piece.writtenAll_nil, String.append_empty, ← String.append_assoc]
    rfl

/-! ### What the template determines -/

/-- Whether a piece is a text of the template or begins, divides or ends a block. -/
def Piece.isSkeleton : Piece → Bool
  | text _ | ifStart | ifTested | otherwise | ifEnd | loopStart .. | loopEnd => true
  | _ => false

/-- The piece for a text, unless the text is empty. -/
def Piece.ofText (content : String) : List Piece := if content = "" then [] else [.text content]

/-- How a constant is written as text, if it may be. -/
def Constant.text? (v : Constant) (spelling : String) : Option String :=
  let spelled (otherwise : String) := if spelling = "" then otherwise else spelling
  match v with
  | .null | .bool _ => none
  | .int n => some (spelled (toString n))
  | .float x => some (spelled x.text)
  | .text s => some s
  | .halves points => some (joined points)

mutual

/-- The texts of an expression in markup and the blocks around them. A template is rendered as the
branch of a conditional or the body of a loop and skipped elsewhere. -/
def Expr.skeleton (tag : String) (rendered : Bool) : Expr → List Piece
  | .group _ inner => inner.skeleton tag rendered
  | .tagged _ tag' _ texts holes =>
    if rendered = true ∧ tag' = tag then Expr.skeletonOfParts tag holes texts else []
  | .constant _ v spelling => (v.text? spelling).elim [] Piece.ofText
  | .logical _ _ _ right => .ifStart :: .ifTested :: right.skeleton tag true ++ [.ifEnd]
  | .conditional _ _ consequent alternate =>
    .ifStart :: .ifTested :: consequent.skeleton tag true
      ++ (if alternate.isEmptyText then [] else .otherwise :: alternate.skeleton tag true)
      ++ [.ifEnd]
  | .call _ callee arguments =>
    match CallShape.of? callee, arguments with
    | some (.loop array), [.arrow _ [item] body] =>
      .loopStart array item :: body.skeleton tag true ++ [.loopEnd]
    | _, _ => []
  | _ => []

/-- The texts of a template, and between them what stands in its holes. -/
def Expr.skeletonOfParts (tag : String) : List Expr → List String → List Piece
  | [], texts => texts.flatMap Piece.ofText
  | _ :: _, [] => []
  | e :: holes, content :: texts =>
    Piece.ofText content ++ e.skeleton tag false ++ Expr.skeletonOfParts tag holes texts

end

theorem Expr.skeleton_loop {tag : String} {rendered : Bool} {place place' : Text.Place}
    {callee body : Expr} {array item : String} (h : CallShape.of? callee = some (.loop array)) :
    (Expr.call place callee [.arrow place' [item] body]).skeleton tag rendered =
      .loopStart array item :: body.skeleton tag true ++ [.loopEnd] := by
  rw [skeleton]
  exact h

/-- The texts of a template and the blocks around them, in document order. -/
def Template.skeleton (template : Template) (tag : String) : List Piece :=
  Expr.skeletonOfParts tag template.holes template.chunks

end ServerTemplate
