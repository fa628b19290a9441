import ServerTemplate.Diagnostic.Failure
import ServerTemplate.Output.Piece
import ServerTemplate.Script.Parser

/-!
# Options of a library

Components that are converted together share their options. Options are checked when they are set.
-/

namespace ServerTemplate

/-- What conversions have in common. -/
structure Options where
  /-- The method whose template is converted, instead of the one that a component declares. -/
  entryPoint : Option String := none
  /-- The tag of the templates that are rendered. -/
  tag : String := "html"
  labels : CountLabels := ⟨"", "1 result found", "\x7bcount\x7d results found"⟩
  /-- The number of stars of a rating, at least one. -/
  stars : Int := 5
  stars_pos : 1 ≤ stars := by decide
  /-- The parser of templates and scripts. -/
  parser : Script.Parser := Script.parser

/-- The default options. -/
instance : Inhabited Options := ⟨{}⟩

/-- Options with the given labels and number of stars, where they are given. There must be three
labels and at least one star. -/
def Options.of (entryPoint : Option String) (tag : String) (labels : Option (List String))
    (stars : Int) : Result Options := do
  let labels ←
    match labels with
    | none => pure (default : Options).labels
    | some [zero, one, many] => pure ⟨zero, one, many⟩
    | some _ => throw (.badOptions .countLabels)
  if h : 1 ≤ stars then return { entryPoint, tag, labels, stars, stars_pos := h }
  else throw (.badOptions .starCount)

end ServerTemplate
