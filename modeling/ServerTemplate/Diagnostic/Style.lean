/-!
# Styled text

A diagnostic is a sequence of spans, each with the styles it takes on a terminal. `Span.render`
writes them with or without the control sequences, so that the two forms of a diagnostic cannot
differ in anything else, and `stripControls` takes the control sequences out of a text again.

`Role` names the parts of a diagnostic that have a style of their own.
-/

namespace ServerTemplate

/-- A way to show text on a terminal. -/
inductive Style where
  | reset
  | bold
  | dim
  | cyan
  | yellow
  | green
  | brightRed
  | brightGreen
  | brightBlue
  | magenta
  deriving DecidableEq, Repr

namespace Style

/-- The number of a style in a control sequence. -/
def number : Style → String
  | reset => "0"
  | bold => "1"
  | dim => "2"
  | cyan => "36"
  | yellow => "33"
  | green => "32"
  | brightRed => "91"
  | brightGreen => "92"
  | brightBlue => "94"
  | magenta => "35"

/-- The control sequence that turns a style on. -/
def sequence (style : Style) : String := "\x1b[" ++ style.number ++ "m"

/-- The style of a name. -/
def ofName? : String → Option Style
  | "reset" => some reset
  | "bold" => some bold
  | "dim" => some dim
  | "cyan" => some cyan
  | "yellow" => some yellow
  | "green" => some green
  | "bright_red" => some brightRed
  | "bright_green" => some brightGreen
  | "bright_blue" => some brightBlue
  | "magenta" => some magenta
  | _ => none

end Style

/-- A text and the styles it is shown in. -/
structure Span where
  styles : List Style
  text : String

/-- A part of a diagnostic with a style of its own. -/
inductive Role where
  /-- The code of an error. -/
  | code
  /-- The component and the place in it. -/
  | place
  /-- A name that the template uses. -/
  | identifier
  /-- A place in the declarations that has to be edited. -/
  | declarationPath
  | hint
  | suggestion
  /-- Rules, ordinary lines and labels. -/
  | dim
  /-- The address of a page of the documentation. -/
  | link
  /-- The number of a source line. -/
  | lineNumber
  /-- The source line that is at fault. -/
  | faultyLine
  deriving DecidableEq, Repr

/-- The styles of a part. -/
def Role.styles : Role → List Style
  | code => [.brightRed, .bold]
  | place => [.cyan]
  | identifier => [.magenta]
  | declarationPath => [.yellow, .bold]
  | hint => [.green]
  | suggestion => [.brightGreen, .bold]
  | dim => [.dim]
  | link => [.brightBlue]
  | lineNumber => [.yellow]
  | faultyLine => [.brightRed]

namespace Span

/-- A text without style. -/
def plain (text : String) : Span := ⟨[], text⟩

/-- A part in its style. -/
def of (role : Role) (text : String) : Span := ⟨role.styles, text⟩

/-- The text of a span, between control sequences if styles are wanted and it has any. -/
def write (styled : Bool) (span : Span) : String :=
  if styled && !span.styles.isEmpty then
    String.join (span.styles.map Style.sequence) ++ span.text ++ Style.reset.sequence
  else span.text

/-- The text of several spans. -/
def render (styled : Bool) (spans : List Span) : String :=
  String.join (spans.map (write styled))

/-- The text of several lines. -/
def renderLines (styled : Bool) (lines : List (List Span)) : String :=
  "\n".intercalate (lines.map (render styled))

/-- Without styles a span is its text. -/
@[simp] theorem write_false (span : Span) : write false span = span.text := by
  simp [write]

end Span

/-- The number of characters of a control sequence behind the escape character, if one follows it:
one character, or a bracket, parameters, intermediate characters and a final one. -/
def controlLength? : List Char → Option Nat
  | [] => none
  | '[' :: rest =>
    let parameters := rest.takeWhile fun c => 0x30 ≤ c.toNat && c.toNat ≤ 0x3F
    let rest := rest.dropWhile fun c => 0x30 ≤ c.toNat && c.toNat ≤ 0x3F
    let middle := rest.takeWhile fun c => 0x20 ≤ c.toNat && c.toNat ≤ 0x2F
    match rest.dropWhile fun c => 0x20 ≤ c.toNat && c.toNat ≤ 0x2F with
    | final :: _ =>
      if 0x40 ≤ final.toNat && final.toNat ≤ 0x7E then
        some (parameters.length + middle.length + 2)
      else none
    | [] => none
  | c :: _ => if 0x40 ≤ c.toNat && c.toNat ≤ 0x5F then some 1 else none

/-- The characters without the control sequences in them. The first `skipped` belong to a sequence
that has begun before. -/
def stripFrom : Nat → List Char → List Char
  | _, [] => []
  | skipped + 1, _ :: rest => stripFrom skipped rest
  | 0, c :: rest =>
    if c == '\x1b' then
      match controlLength? rest with
      | some length => stripFrom length rest
      | none => c :: stripFrom 0 rest
    else c :: stripFrom 0 rest

/-- The text without control sequences. -/
def stripControls (s : String) : String := String.ofList (stripFrom 0 s.toList)

/-- Whether diagnostics are styled: a variable that demands it wins over one that forbids it, an
empty variable says nothing, and otherwise a terminal decides. -/
def stylesWanted (demand forbid : Option String) (onTerminal : Bool) : Bool :=
  let isSet (value : Option String) : Bool := value.any (· != "")
  if isSet demand then true
  else if isSet forbid then false
  else onTerminal

end ServerTemplate
