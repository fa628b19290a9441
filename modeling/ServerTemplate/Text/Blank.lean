/-!
# Blank characters

Two classes of blank characters are used. `isBlank` is the wider: the separators of Unicode and the
ASCII controls that separate lines, fields and records. Markers and markup go by it. `isNumberBlank`
is what may surround the text of a number: the same without the four ASCII information separators.
-/

namespace ServerTemplate.Text

/-- The blank characters beyond ASCII. -/
def isWideBlank (c : Char) : Bool :=
  ['\u0085', '\u00a0', '\u1680', '\u2028', '\u2029', '\u202f', '\u205f', '\u3000'].contains c
    || (0x2000 ≤ c.toNat && c.toNat ≤ 0x200A)

/-- A blank character: white space or an information separator. -/
def isBlank (c : Char) : Bool :=
  (9 ≤ c.toNat && c.toNat ≤ 13) || (0x1C ≤ c.toNat && c.toNat ≤ 0x20) || isWideBlank c

/-- A blank character that may surround the text of a number. -/
def isNumberBlank (c : Char) : Bool :=
  (9 ≤ c.toNat && c.toNat ≤ 13) || c == ' ' || isWideBlank c

/-- Drops the characters of a class at both ends. -/
def trimBoth (p : Char → Bool) (cs : List Char) : List Char :=
  ((cs.dropWhile p).reverse.dropWhile p).reverse

/-- The text without the blank characters at its ends. -/
def trim (s : String) : String := String.ofList (trimBoth isBlank s.toList)

end ServerTemplate.Text
