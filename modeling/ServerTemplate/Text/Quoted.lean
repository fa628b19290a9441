import ServerTemplate.Text.Digit
import ServerTemplate.Text.Printable

/-!
# Quoted text in messages

A message shows a text between quotes, so that blanks and control characters in it can be seen. The
quotes are single, unless the text holds a single quote and no double quote. A backslash and the
quote in use are escaped, a line feed, carriage return and tab have letters of their own, and any
other character that is not printable is written by its code point.
-/

namespace ServerTemplate.Text

/-- The code point in at least `width` hexadecimal digits. -/
def hexPadded (width n : Nat) : List Char :=
  let digits := (Nat.toDigits 16 n).map Char.toLower
  List.replicate (width - digits.length) '0' ++ digits

/-- One character between quotes of the kind `mark`. -/
def quotedChar (mark c : Char) : List Char :=
  if c == '\\' || c == mark then ['\\', c]
  else if c == '\n' then ['\\', 'n']
  else if c == '\r' then ['\\', 'r']
  else if c == '\t' then ['\\', 't']
  else if isPrintable c then [c]
  else if c.toNat < 0x100 then ['\\', 'x'] ++ hexPadded 2 c.toNat
  else if c.toNat < 0x10000 then ['\\', 'u'] ++ hexPadded 4 c.toNat
  else ['\\', 'U'] ++ hexPadded 8 c.toNat

/-- The quote that a text is shown in. -/
def quoteMark (cs : List Char) : Char :=
  if cs.contains '\x27' && !cs.contains '\x22' then '\x22' else '\x27'

/-- The text in quotes. -/
def quoted (s : String) : String :=
  let mark := quoteMark s.toList
  String.ofList (mark :: s.toList.flatMap (quotedChar mark) ++ [mark])

example : quoted "it's" = "\"it's\"" ∧ quoted "a\"b\n" = "'a\"b\\n'" := by decide +kernel

end ServerTemplate.Text
