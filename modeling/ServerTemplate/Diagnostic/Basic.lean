import ServerTemplate.Diagnostic.Cause
import ServerTemplate.Diagnostic.Snippet

/-!
# Diagnostics

A diagnostic is a cause of failure at a site. Its text names the cause and the site, shows the
source and gives the details of the cause; the compact text, for a terminal, puts the code in front
and a link to the documentation behind.
-/

namespace ServerTemplate

/-- Where a conversion fails, as far as it is known. -/
structure Site where
  component : Option String := none
  line : Option Int := none
  snippet : Option Snippet := none

/-- A cause of failure at a site. -/
structure Diagnostic where
  cause : Cause
  site : Site

namespace Diagnostic

/-- Whether a diagnostic has a line; lines count from one. What is not well formed stands at one
that is not known here. -/
def hasLine (d : Diagnostic) : Bool :=
  match d.cause with
  | .entry .syntaxError => true
  | _ => d.site.line.isSome

/-- Whether a diagnostic says where a policy is to be declared. -/
def hasPolicyPath (d : Diagnostic) : Bool :=
  match d.cause with
  | .noPolicy .. => true
  | _ => false

/-- The component and the line, where they are known. Only a script's fault has a column. -/
def place (d : Diagnostic) : String :=
  let component :=
    match d.site.component with
    | some name => if name = "" then "<component>" else name
    | none => "<component>"
  let column : Option Int :=
    match d.cause with
    | .entry fault => fault.column?
    | _ => none
  match d.site.line with
  | none => component
  | some line =>
    if line = 0 then component
    else
      component ++ ":" ++ toString line ++
        (match column with
          | some column => ":" ++ toString column
          | none => "")

/-- The cause and the place in one line. -/
def headline (d : Diagnostic) : List Span :=
  d.cause.summary ++ [.plain " in ", .of .place d.place]

/-- The lines of the snippet and the details. -/
def body (d : Diagnostic) : List (List Span) :=
  (match d.site.snippet with
    | some snippet => snippet.spans
    | none => []) ++ d.cause.details

/-- A first line with the code in front, if there is one. -/
def header (code : Option String) (message : List Span) : List Span :=
  match code with
  | some code => if code = "" then message else [.of .code code, .plain ": "] ++ message
  | none => message

/-- The lines of the whole text. -/
def lines (d : Diagnostic) : List (List Span) := d.headline :: d.body

/-- The lines of the compact text. -/
def compactLines (d : Diagnostic) : List (List Span) :=
  header (d.cause.code?.map ErrorCode.text) d.headline :: d.body ++
    (match d.cause.code? with
      | some code => [[.plain "  ", .of .dim "Docs:", .plain " ", .of .link code.link]]
      | none => [])

/-- The summary of the cause. -/
def message (styled : Bool) (d : Diagnostic) : String := Span.render styled d.cause.summary

/-- The whole text. -/
def text (styled : Bool) (d : Diagnostic) : String := Span.renderLines styled d.lines

/-- The text for a terminal, with code and link. -/
def compact (styled : Bool) (d : Diagnostic) : String := Span.renderLines styled d.compactLines

end Diagnostic

end ServerTemplate
