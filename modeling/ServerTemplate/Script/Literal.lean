import ServerTemplate.Script.Reader

/-!
# Literals of a script

Strings, templates, numbers and regular expressions. Strings and templates are made of plain text
and escapes; a template has holes with expressions in them as well.
-/

namespace ServerTemplate.Script.Reader

/-- Passes a certain character, with nothing in front of it. -/
def character (c : Char) : Reader Unit := do
  check ((← rest).head? == some c)
  pass 1

/-- Plain text or an escape; `plain` gives the number of plain characters. -/
def textPart (plain : List Char → Nat) : Reader Node := do
  let cs ← rest
  match plain cs with
  | 0 =>
    match escapeLength? cs with
    | some length => leaf .escape length
    | none => fail
  | length => leaf .stringText length

/-- The number of plain characters in a string that a given quote ends. -/
def plainInString (quote : Char) (cs : List Char) : Nat :=
  (cs.takeWhile fun c => c != quote && c != '\\' && c != '\n' && c != '\r').length

/-- A string in single or double quotes. It does not go over the end of a line. -/
def string : Reader Node := do
  skip true
  let start ← offset
  match ← rest with
  | [] => fail
  | quote :: _ =>
    check (quote == '\x22' || quote == '\x27')
    pass 1
    let parts ← many (textPart (plainInString quote))
    character quote
    close .string start parts

/-- The number of plain characters in a template. -/
def plainInTemplate : List Char → Nat
  | [] => 0
  | '$' :: '\x7b' :: _ => 0
  | c :: rest => if c == '\x60' || c == '\\' then 0 else plainInTemplate rest + 1

/-- A hole of a template with its expression. -/
def hole (within : Within) : Reader Node := do
  let start ← offset
  character '$'
  character '\x7b'
  let inner ← within (.expressions .bracket)
  punctuator "\x7d"
  close .hole start [inner]

/-- A template, which begins here. -/
def template (within : Within) : Reader Node := do
  let start ← offset
  character '\x60'
  let parts ← many do
    if "$\x7b".toList.isPrefixOf (← rest) then hole within else textPart plainInTemplate
  character '\x60'
  close .template start parts

/-- A number. -/
def number : Reader Node := do
  skip true
  match numberLength? (← rest) with
  | some length => leaf .number length
  | none => fail

/-- A regular expression. -/
def regex : Reader Node := do
  skip true
  match regexLength? (← rest) with
  | some length => leaf .regex length
  | none => fail

end ServerTemplate.Script.Reader
