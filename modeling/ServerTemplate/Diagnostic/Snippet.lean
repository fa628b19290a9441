import ServerTemplate.Diagnostic.Style
import ServerTemplate.Text.Lines

/-!
# Source snippets

A diagnostic shows the lines of the source around the fault, each with its number, and a caret under
the column where the fault begins.
-/

namespace ServerTemplate

/-- The lines around a fault. -/
structure Snippet where
  /-- The lines with their numbers. -/
  lines : List (Nat × String)
  /-- The number of the line at fault. -/
  errorLine : Int
  /-- Where the caret stands, if there is one. -/
  column : Option Int

namespace Snippet

/-- The lines of `source` from `context` lines before `line` to as many behind it, unless there is
no such line. -/
def around? (source : String) (line : Int) (column : Option Int) (context : Int := 1) :
    Option Snippet :=
  let all := Text.lines source.toList
  if 0 < line ∧ line ≤ all.length then
    let start := (line - 1 - context).toNat
    let stop := (min (all.length : Int) (line + context)).toNat
    let shown := ((all.zipIdx 1).drop start).take (stop - start)
    some ⟨shown.map fun (text, number) => (number, String.ofList text), line, column⟩
  else none

/-- The number at the right of a field of three characters. -/
def paddedNumber (n : Int) : String :=
  let digits := toString n
  String.ofList (List.replicate (3 - digits.length) ' ') ++ digits

/-- A numbered source line. The one at fault is marked. -/
def lineSpans (number : Int) (content : String) (atFault : Bool) : List Span :=
  [.of .lineNumber ((if atFault then ">" else " ") ++ paddedNumber number), .plain " | ",
    .of (if atFault then .faultyLine else .dim) content]

/-- The rule above and below the lines. -/
def rule : Span := .of .dim "   |"

/-- The lines of the snippet as they are shown. -/
def spans (snippet : Snippet) : List (List Span) :=
  let caret : List (List Span) :=
    match snippet.column with
    | none => []
    | some column =>
      [[rule, .plain (" " ++ String.ofList (List.replicate column.toNat ' ') ++ "^")]]
  [rule] ::
    snippet.lines.map (fun (number, content) =>
      lineSpans number content ((number : Int) == snippet.errorLine))
    ++ caret ++ [[rule]]

/-- The text of the snippet. -/
def text (styled : Bool) (snippet : Snippet) : String := Span.renderLines styled snippet.spans

end Snippet

end ServerTemplate
