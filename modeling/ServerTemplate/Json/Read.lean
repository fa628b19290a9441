import ServerTemplate.Json.Value
import ServerTemplate.Number.Read
import ServerTemplate.Text.CodeUnit

/-!
# Reading JSON

`Json.read` reads a whole text as one JSON value, or says what is wrong with it and on which line.
Of the members of a record with one key the last gives the value, in the place of the first. Besides
the values of the standard, `NaN`, `Infinity` and `-Infinity` are read.

A reader takes the characters that are left and returns those left behind the value. A fault carries
the characters that were left where it lies, from which its line is counted.
-/

namespace ServerTemplate.Json

/-- What is wrong with a JSON text. -/
inductive Defect where
  | noValue
  | noMemberName
  | noColon
  | noComma
  | textAfterValue
  | unclosedString
  | badEscape
  | badCodeUnit
  | controlCharacter
  | byteOrderMark
  /-- An integer has more than `maxDecimalDigits` digits. -/
  | tooManyDigits
  deriving DecidableEq, Repr

/-- The message for a defect. -/
def Defect.message : Defect → String
  | noValue => "Expecting value"
  | noMemberName => "Expecting property name enclosed in double quotes"
  | noColon => "Expecting ':' delimiter"
  | noComma => "Expecting ',' delimiter"
  | textAfterValue => "Extra data"
  | unclosedString => "Unterminated string starting at"
  | badEscape => "Invalid \\escape"
  | badCodeUnit => "Invalid \\uXXXX escape"
  | controlCharacter => "Invalid control character at"
  | byteOrderMark => "Unexpected UTF-8 BOM (decode using utf-8-sig)"
  | tooManyDigits => "Integer string too long"

/-- A defect and the characters left where it lies. -/
structure Fault where
  defect : Defect
  left : List Char

/-- A reader's result: a value and the characters left behind it, or a fault. -/
abbrev Reading (α : Type) := Except Fault (α × List Char)

/-- White space between tokens. -/
def isSpace (c : Char) : Bool := c == ' ' || c == '\t' || c == '\n' || c == '\r'

/-- The characters from the next token on. -/
def skipSpace (cs : List Char) : List Char := cs.dropWhile isSpace

/-- The character that a one-letter escape denotes. -/
def plainEscape? : Char → Option Char
  | '\x22' => some '\x22'
  | '\\' => some '\\'
  | '/' => some '/'
  | 'b' => some '\x08'
  | 'f' => some '\x0c'
  | 'n' => some '\n'
  | 'r' => some '\r'
  | 't' => some '\t'
  | _ => none

/-- Puts a code point in front of those of a reading. -/
def Reading.cons (unit : Nat) : Reading (List Nat) → Reading (List Nat)
  | .ok (units, left) => .ok (unit :: units, left)
  | .error fault => .error fault

/-- The code points and code units up to the closing quote. The characters of the whole string, from
the opening quote on, are `opened`. -/
def readUnits (opened : List Char) : List Char → Reading (List Nat)
  | [] => .error ⟨.unclosedString, opened⟩
  | '\x22' :: rest => .ok ([], rest)
  | ['\\'] => .error ⟨.unclosedString, opened⟩
  | '\\' :: 'u' :: a :: b :: c :: d :: rest =>
    match Text.codeUnit? a b c d with
    | some unit =>
      if rest.isEmpty then .error ⟨.badCodeUnit, opened⟩ else (readUnits opened rest).cons unit
    | none => .error ⟨.badCodeUnit, opened⟩
  | '\\' :: 'u' :: _ => .error ⟨.badCodeUnit, opened⟩
  | '\\' :: c :: rest =>
    match plainEscape? c with
    | some c => (readUnits opened rest).cons c.toNat
    | none => .error ⟨.badEscape, opened⟩
  | c :: rest =>
    if c.toNat ≤ 0x1F then .error ⟨.controlCharacter, c :: rest⟩
    else (readUnits opened rest).cons c.toNat

/-- The text up to the closing quote. -/
def readString (opened cs : List Char) : Reading String :=
  (readUnits opened cs).map fun (units, left) => (String.ofList (Text.joinPairs units), left)

/-- The part of a number behind its whole digits: the fraction and the exponent, where they are
complete, and the characters left. -/
def splitFraction (cs : List Char) : List Char × List Char :=
  let (fraction, rest) :=
    match cs with
    | '.' :: d :: rest =>
      if d.isDigit then ('.' :: d :: rest.takeWhile Char.isDigit, rest.dropWhile Char.isDigit)
      else ([], cs)
    | _ => ([], cs)
  match rest with
  | e :: tail =>
    let (sign, digits) :=
      match tail with
      | '+' :: more => (['+'], more)
      | '-' :: more => (['-'], more)
      | _ => ([], tail)
    let power := digits.takeWhile Char.isDigit
    if (e == 'e' || e == 'E') && !power.isEmpty then
      (fraction ++ e :: sign ++ power, digits.dropWhile Char.isDigit)
    else (fraction, rest)
  | [] => (fraction, rest)

/-- A number: an integer unless it has a fraction or an exponent. -/
def readNumber (cs : List Char) : Reading Json :=
  let (negative, unsigned) :=
    match cs with
    | '-' :: rest => (true, rest)
    | _ => (false, cs)
  let (whole, rest) :=
    match unsigned with
    | '0' :: rest => (['0'], rest)
    | _ => (unsigned.takeWhile Char.isDigit, unsigned.dropWhile Char.isDigit)
  if whole.isEmpty then .error ⟨.noValue, cs⟩
  else
    match splitFraction rest with
    | ([], _) =>
      if maxDecimalDigits < whole.length then .error ⟨.tooManyDigits, cs⟩
      else
        let n : Int := decimalValue whole
        .ok (int (if negative then -n else n), rest)
    | (fraction, left) =>
      match Binary64.ofUnsigned? negative (whole ++ fraction) with
      | some x => .ok (float x, left)
      | none => .error ⟨.noValue, cs⟩

/-- The characters behind a word that the text begins with. -/
def afterWord? : List Char → List Char → Option (List Char)
  | [], rest => some rest
  | w :: word, c :: rest => if w == c then afterWord? word rest else none
  | _ :: _, [] => none

/-- A value that is one word or a number. -/
def readScalar (cs : List Char) : Reading Json :=
  let words : List (String × Json) :=
    [("null", null), ("true", bool true), ("false", bool false), ("NaN", float .nan),
      ("Infinity", float (.infinite false)), ("-Infinity", float (.infinite true))]
  match words.findSome? fun w => (afterWord? w.1.toList cs).map fun left => (w.2, left) with
  | some result => .ok result
  | none => readNumber cs

mutual

/-- One value. Every step into a list or record and every further item of it takes one unit of fuel
and at least one character, so the length of the text is enough. -/
def readValue : Nat → List Char → Reading Json
  | 0, cs => .error ⟨.noValue, cs⟩
  | fuel + 1, cs =>
    match cs with
    | '\x22' :: rest => (readString cs rest).map fun (text, left) => (str text, left)
    | '[' :: rest =>
      match skipSpace rest with
      | ']' :: left => .ok (list [], left)
      | items => readItems fuel items []
    | '\x7b' :: rest =>
      match skipSpace rest with
      | '\x7d' :: left => .ok (record [], left)
      | members => readMembers fuel members []
    | _ => readScalar cs

/-- The items of a list that are left behind those read, which are listed backwards. -/
def readItems : Nat → List Char → List Json → Reading Json
  | 0, cs, _ => .error ⟨.noValue, cs⟩
  | fuel + 1, cs, before =>
    match readValue fuel cs with
    | .error fault => .error fault
    | .ok (item, left) =>
      match skipSpace left with
      | ']' :: left => .ok (list (item :: before).reverse, left)
      | ',' :: left => readItems fuel (skipSpace left) (item :: before)
      | left => .error ⟨.noComma, left⟩

/-- The members of a record that are left behind those read. -/
def readMembers : Nat → List Char → List (String × Json) → Reading Json
  | 0, cs, _ => .error ⟨.noMemberName, cs⟩
  | fuel + 1, cs, before =>
    match cs with
    | '\x22' :: rest =>
      match readString cs rest with
      | .error fault => .error fault
      | .ok (key, left) =>
        match skipSpace left with
        | ':' :: left =>
          match readValue fuel (skipSpace left) with
          | .error fault => .error fault
          | .ok (value, left) =>
            let members := insert before key value
            match skipSpace left with
            | '\x7d' :: left => .ok (record members, left)
            | ',' :: left => readMembers fuel (skipSpace left) members
            | left => .error ⟨.noComma, left⟩
        | left => .error ⟨.noColon, left⟩
    | _ => .error ⟨.noMemberName, cs⟩

end

/-- The line on which the characters left begin. -/
def lineOf (all left : List Char) : Nat :=
  (all.take (all.length - left.length)).count '\n' + 1

/-- Reads a text as one value. A fault comes with its line. -/
def read (text : String) : Except (Defect × Nat) Json :=
  let all := text.toList
  let fail (fault : Fault) : Except (Defect × Nat) Json :=
    .error (fault.defect, lineOf all fault.left)
  if all.head? = some '\ufeff' then fail ⟨.byteOrderMark, all⟩
  else
    match readValue (2 * all.length + 2) (skipSpace all) with
    | .error fault => fail fault
    | .ok (value, left) =>
      match skipSpace left with
      | [] => .ok value
      | left => fail ⟨.textAfterValue, left⟩

end ServerTemplate.Json
