import ServerTemplate.Text.Digit
import ServerTemplate.Text.Letter

/-!
# Lexemes of a script

Each function here looks at the characters that are left of a script and gives the length of the
lexeme that they begin with: of a name, a number, an escape, a regular expression, a comment. A
lexeme is always the longest one possible.

`endsStatement` decides whether a statement may end without a semicolon at a point, and
`startsConditional` whether a question mark begins the branches of a conditional.
-/

namespace ServerTemplate.Script

/-- White space between lexemes. -/
def isSpace (c : Char) : Bool :=
  let n := c.toNat
  (9 ≤ n && n ≤ 13) || n == 0x20 || n == 0xA0 || n == 0x1680 || (0x2000 ≤ n && n ≤ 0x200B)
    || n == 0x2028 || n == 0x2029 || n == 0x202F || n == 0x205F || n == 0x2060 || n == 0x3000
    || n == 0xFEFF

/-- A character that ends a line comment. -/
def isLineBreak (c : Char) : Bool := c == '\n' || c == '\u2028' || c == '\u2029'

/-- A hexadecimal digit. -/
def isHexDigit (c : Char) : Bool := (Text.hexDigit? c).isSome

/-- An octal digit. -/
def isOctalDigit (c : Char) : Bool := '0' ≤ c && c ≤ '7'

/-- A binary digit. -/
def isBinaryDigit (c : Char) : Bool := c == '0' || c == '1'

/-! ### Names -/

/-- A character that a name may begin with. -/
def isNameStart (c : Char) : Bool :=
  if c.toNat < 0x7F then c.isAlpha || c == '$' || c == '_' else !isSpace c

/-- A character that a name may go on with. -/
def isNamePart (c : Char) : Bool := isNameStart c || c.isDigit

/-- The length of an escape for a code point: four digits, or any number of them in braces. -/
def codePointEscapeLength? : List Char → Option Nat
  | '\\' :: 'u' :: '\x7b' :: rest =>
    let digits := rest.takeWhile isHexDigit
    if !digits.isEmpty && (rest.drop digits.length).head? == some '\x7d' then
      some (digits.length + 4)
    else none
  | '\\' :: 'u' :: a :: b :: c :: d :: _ =>
    if [a, b, c, d].all isHexDigit then some 6 else none
  | _ => none

/-- The number of characters with which a name goes on, of which the first `taken` belong to an
escape. -/
def nameRest : Nat → List Char → Nat
  | _, [] => 0
  | taken + 1, _ :: rest => nameRest taken rest + 1
  | 0, c :: rest =>
    if isNamePart c then nameRest 0 rest + 1
    else
      match codePointEscapeLength? (c :: rest) with
      | some length => nameRest (length - 1) rest + 1
      | none => 0

/-- The length of a name. -/
def nameLength? (cs : List Char) : Option Nat :=
  match cs with
  | [] => none
  | c :: _ =>
    if isNameStart c || (codePointEscapeLength? cs).isSome then some (nameRest 0 cs) else none

/-! ### Numbers -/

/-- The number of characters with which digits go on. One underscore may stand between two. -/
def digitsRest (p : Char → Bool) : List Char → Nat
  | [] => 0
  | '_' :: d :: rest => if p d then digitsRest p rest + 2 else 0
  | d :: rest => if p d then digitsRest p rest + 1 else 0

/-- The length of digits, zero if there are none. -/
def digitsLength (p : Char → Bool) : List Char → Nat
  | [] => 0
  | d :: rest => if p d then digitsRest p rest + 1 else 0

/-- The length of an exponent, zero if there is none. -/
def exponentLength : List Char → Nat
  | e :: rest =>
    if e == 'e' || e == 'E' then
      let sign :=
        match rest with
        | '+' :: _ | '-' :: _ => 1
        | _ => 0
      let digits := digitsLength Char.isDigit (rest.drop sign)
      if digits = 0 then 0 else 1 + sign + digits
    else 0
  | [] => 0

/-- The length of the whole part of a decimal with a fraction or an exponent, zero if there is none.
It may have one leading zero. -/
def wholeLength (cs : List Char) : Nat :=
  match cs with
  | '0' :: d :: rest =>
    if d.isDigit && d != '0' then 2 + digitsRest Char.isDigit rest else 1
  | d :: rest =>
    if d == '0' then 1 else if d.isDigit then 1 + digitsRest Char.isDigit rest else 0
  | [] => 0

/-- The length of a decimal with a fraction or an exponent, zero if there is none. -/
def decimalLength (cs : List Char) : Nat :=
  let whole := wholeLength cs
  let rest := cs.drop whole
  match rest with
  | '.' :: rest =>
    let fraction := digitsLength Char.isDigit rest
    if whole = 0 && fraction = 0 then 0
    else whole + 1 + fraction + exponentLength (rest.drop fraction)
  | rest =>
    let power := exponentLength rest
    if whole = 0 || power = 0 then 0 else whole + power

/-- The length of an integer of a base other than ten, zero if there is none. -/
def prefixedLength : List Char → Nat
  | '0' :: x :: rest =>
    let digits :=
      if x == 'x' || x == 'X' then digitsLength isHexDigit rest
      else if x == 'o' || x == 'O' then digitsLength isOctalDigit rest
      else if x == 'b' || x == 'B' then digitsLength isBinaryDigit rest
      else 0
    if digits = 0 then 0 else digits + 2
  | _ => 0

/-- The length with the mark of a big integer, if that follows. -/
def withBigMark (length : Nat) (cs : List Char) : Nat :=
  if length ≠ 0 ∧ (cs.drop length).head? = some 'n' then length + 1 else length

/-- The length of a number. -/
def numberLength? (cs : List Char) : Option Nat :=
  let longest := max (decimalLength cs)
    (max (withBigMark (prefixedLength cs) cs) (withBigMark (digitsLength Char.isDigit cs) cs))
  if longest = 0 then none else some longest

/-! ### Texts -/

/-- The length of an escape in a string or template. -/
def escapeLength? : List Char → Option Nat
  | '\\' :: c :: rest =>
    if c == 'x' then
      match rest with
      | a :: b :: _ => if isHexDigit a && isHexDigit b then some 4 else none
      | _ => none
    else if c == 'u' then codePointEscapeLength? ('\\' :: c :: rest)
    else if isOctalDigit c then some (2 + ((rest.take 2).takeWhile isOctalDigit).length)
    else if (c == '\r' || c == '?') && rest.head?.any isLineBreak then some 3
    else some 2
  | _ => none

/-- The length of the pattern of a regular expression, of which the first `taken` characters are
passed. In brackets a slash does not end it. -/
def patternLength (inBrackets : Bool) : Nat → List Char → Nat
  | _, [] => 0
  | taken + 1, _ :: rest => patternLength inBrackets taken rest + 1
  | 0, c :: rest =>
    if c == '\n' then 0
    else if c == '\\' then
      match rest with
      | d :: _ => if d == '\n' then 0 else patternLength inBrackets 1 rest + 1
      | [] => 0
    else if inBrackets then patternLength (c != ']') 0 rest + 1
    else if c == '/' then 0
    else patternLength (c == '[') 0 rest + 1

/-- The length of a regular expression: slash, pattern, slash, flags. -/
def regexLength? : List Char → Option Nat
  | '/' :: rest =>
    let pattern := patternLength false 0 rest
    match rest.drop pattern with
    | '/' :: behind =>
      if pattern = 0 then none
      else some (pattern + 2 + (behind.takeWhile fun c => 'a' ≤ c && c ≤ 'z').length)
    | _ => none
  | _ => none

/-! ### Comments -/

/-- The number of characters up to the end of a block comment, including it. -/
def blockCommentRest? : List Char → Option Nat
  | [] => none
  | '*' :: '/' :: _ => some 2
  | _ :: rest => (blockCommentRest? rest).map (· + 1)

/-- The length of a comment. -/
def commentLength? : List Char → Option Nat
  | '/' :: '/' :: rest =>
    some (2 + (rest.takeWhile fun c => !isLineBreak c && c != '\r').length)
  | '/' :: '*' :: rest => (blockCommentRest? rest).map (· + 2)
  | _ => none

/-- The length of a comment that a mark of a document opens, up to the end of the line. -/
def lineCommentLength? (cs : List Char) : Option Nat :=
  if "<!--".toList.isPrefixOf cs || "-->".toList.isPrefixOf cs then
    some (cs.takeWhile fun c => !isLineBreak c).length
  else none

/-! ### The end of a statement -/

/-- A blank that the search for the end of a statement passes over. -/
def isEndBlank (c : Char) : Bool :=
  let n := c.toNat
  (9 ≤ n && n ≤ 13) || n == 0x20 || n == 0x1680 || (0x2000 ≤ n && n ≤ 0x2006)
    || (0x2008 ≤ n && n ≤ 0x200A) || n == 0x2028 || n == 0x2029 || n == 0x205F || n == 0x3000

/-- What is left behind blanks and comments. There is nothing if a slash begins no comment; a block
comment that is not closed reaches to the end. The first `taken` characters are passed. -/
def skipBlanksAndComments? : Nat → List Char → Option (List Char)
  | _, [] => some []
  | taken + 1, _ :: rest => skipBlanksAndComments? taken rest
  | 0, c :: rest =>
    if isEndBlank c then skipBlanksAndComments? 0 rest
    else if c == '/' then
      match rest with
      | '/' :: _ => skipBlanksAndComments? (rest.takeWhile fun c => !isLineBreak c).length rest
      | '*' :: behind =>
        skipBlanksAndComments? (((blockCommentRest? behind).getD behind.length) + 1) rest
      | _ => none
    else some (c :: rest)

/-- Whether a statement ends in front of the first lexeme of a new line: not if the lexeme can only
go on with the statement. -/
def newLineEnds : List Char → Bool
  | [] => true
  | c :: rest =>
    if "`,:;*%><=[(?^|&/".toList.contains c then false
    else
      match c with
      | '.' => rest.head?.any Char.isDigit
      | '+' => rest.head? == some '+'
      | '-' => rest.head? == some '-'
      | '!' => rest.head? != some '='
      | 'i' =>
        match rest with
        | 'n' :: rest =>
          if rest.head?.any Text.isLetter then
            !("stanceof".toList.isPrefixOf rest && !(rest.drop 8).head?.any Text.isLetter)
          else false
        | _ => true
      | _ => true

/-- What a comment in front of the next lexeme does to the end of a statement: if it reaches over a
line and no operator is possible, it ends the statement. -/
inductive CommentEffect where
  | none
  | ends
  /-- The search goes on with what is left. -/
  | passed (left : List Char)

/-- The effect of the comment that the characters begin with. A block comment that is not closed is
none where an operator is possible. -/
def commentEffect (operatorPossible : Bool) : List Char → CommentEffect
  | '/' :: '*' :: rest =>
    match blockCommentRest? rest with
    | Option.none => if operatorPossible then .none else .ends
    | some length =>
      let behind := rest.drop length
      if behind.head? == some '/' then
        match skipBlanksAndComments? 0 behind with
        | Option.none => .none
        | some left =>
          if !operatorPossible && !(left.head?.any fun c => c == ',' || c == '=') then .ends
          else .passed left
      else if (rest.take length).any isLineBreak && !operatorPossible
          && !(behind.head?.any fun c => c == ',' || c == '=') then .ends
      else .passed behind
  | '/' :: '/' :: rest =>
    match skipBlanksAndComments? 0 (rest.dropWhile fun c => !isLineBreak c) with
    | Option.none => .none
    | some left =>
      if !operatorPossible && !(left.head?.any fun c => c == ',' || c == '=') then .ends
      else .passed left
  | _ => .none

/-- Whether a statement ends at a point from which `cs` is left, without a look behind comments that
end no statement. -/
def endsHere (operatorPossible : Bool) : Nat → List Char → Bool
  | 0, _ => false
  | fuel + 1, cs =>
    match cs with
    | [] => true
    | c :: rest =>
      if c == '/' then
        match commentEffect operatorPossible cs with
        | .none => false
        | .ends => true
        | .passed left =>
          match left with
          | [] => false
          | d :: behind =>
            if d == '\x7d' then true
            else if isLineBreak d then (skipBlanksAndComments? 0 behind).any newLineEnds
            else if isEndBlank d then endsHere operatorPossible fuel behind
            else false
      else if c == '\x7d' then true
      else if isLineBreak c then (skipBlanksAndComments? 0 rest).any newLineEnds
      else if isEndBlank c then endsHere operatorPossible fuel rest
      else false

/-- Whether a statement may end without a semicolon at a point from which `cs` is left: at the end
of the script, in front of a closing brace, or at the end of a line. Comments in between are passed
one by one. -/
def endsStatement (operatorPossible : Bool) : Nat → List Char → Bool
  | 0, _ => false
  | fuel + 1, cs =>
    if endsHere operatorPossible (cs.length + 1) cs then true
    else
      let next := cs.dropWhile isSpace
      match commentLength? next with
      | some length => endsStatement operatorPossible fuel (next.drop length)
      | none => false

/-- Whether a question mark begins the branches of a conditional: not if it is one of two, or if it
belongs to an optional property. -/
def startsConditional : List Char → Bool
  | '?' :: '?' :: _ => false
  | '?' :: '.' :: rest => rest.head?.any Char.isDigit
  | '?' :: _ => true
  | _ => false

/-- Whether the branches of a conditional follow at a point from which `cs` is left. In front of the
question mark there may be comments, and behind them blanks. -/
def conditionalFollows : Nat → List Char → Bool
  | 0, _ => false
  | fuel + 1, cs =>
    if startsConditional (cs.dropWhile isEndBlank) then true
    else
      let next := cs.dropWhile isSpace
      match commentLength? next with
      | some length => conditionalFollows fuel (next.drop length)
      | none => false

end ServerTemplate.Script
