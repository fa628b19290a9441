import ServerTemplate.Text.Case
import ServerTemplate.Text.CodeUnit

/-!
# Encodings

The text that octets stand for in an encoding, or none if they stand for no text. No encoding admits
half of a pair of code units, and UTF-8 admits a code point only in its shortest form.
-/

namespace ServerTemplate.Text

/-- An encoding of texts as octets. -/
inductive Encoding where
  | utf8
  /-- UTF-8 with a mark in front that may be missing. -/
  | markedUtf8
  /-- UTF-16 with the low octet of a code unit first, or the high one. -/
  | utf16 (highFirst : Bool)
  /-- UTF-16 with a mark in front that gives the order. Without it the low octet is first. -/
  | markedUtf16
  | ascii
  | latin1
  | windows1252
  deriving DecidableEq, Repr

/-- The code point of a lead with the tails behind it, six bits in each. -/
def tailed (lead : Nat) (tails : List Nat) : Nat :=
  tails.foldl (fun value tail => value * 0x40 + (tail - 0x80)) lead

/-- Whether octets are tails. -/
def areTails (octets : List Nat) : Bool := octets.all fun b => 0x80 ≤ b && b < 0xC0

/-- The characters of octets in UTF-8. -/
def decodeUtf8 : List Nat → Option (List Char)
  | [] => some []
  | a :: rest =>
    if a < 0x80 then (decodeUtf8 rest).map (Char.ofNat a :: ·)
    else
      match rest with
      | [] => none
      | b :: rest =>
        if 0xC2 ≤ a && a < 0xE0 && areTails [b] then
          (decodeUtf8 rest).map (Char.ofNat (tailed (a - 0xC0) [b]) :: ·)
        else
          match rest with
          | [] => none
          | c :: rest =>
            let three := tailed (a - 0xE0) [b, c]
            if 0xE0 ≤ a && a < 0xF0 && areTails [b, c] && 0x800 ≤ three
                && !isHighHalf three && !isLowHalf three then
              (decodeUtf8 rest).map (Char.ofNat three :: ·)
            else
              match rest with
              | [] => none
              | d :: rest =>
                let four := tailed (a - 0xF0) [b, c, d]
                if 0xF0 ≤ a && a < 0xF8 && areTails [b, c, d] && 0x10000 ≤ four
                    && four ≤ 0x10FFFF then
                  (decodeUtf8 rest).map (Char.ofNat four :: ·)
                else none

/-- The code units of octets in pairs. -/
def codeUnits (highFirst : Bool) : List Nat → Option (List Nat)
  | [] => some []
  | [_] => none
  | a :: b :: rest =>
    (codeUnits highFirst rest).map ((if highFirst then a * 256 + b else b * 256 + a) :: ·)

/-- The characters of code units, in which every half has its other half. -/
def pairedUnits : List Nat → Option (List Char)
  | [] => some []
  | high :: rest =>
    if isLowHalf high then none
    else if isHighHalf high then
      match rest with
      | low :: rest =>
        if isLowHalf low then (pairedUnits rest).map (joinHalves high low :: ·) else none
      | [] => none
    else (pairedUnits rest).map (Char.ofNat high :: ·)

/-- The code points of the octets from 0x80 to 0x9F in Windows-1252, zero for those without any. -/
def windowsPoints : List Nat :=
  [0x20AC, 0, 0x201A, 0x0192, 0x201E, 0x2026, 0x2020, 0x2021, 0x02C6, 0x2030, 0x0160, 0x2039,
    0x0152, 0, 0x017D, 0, 0, 0x2018, 0x2019, 0x201C, 0x201D, 0x2022, 0x2013, 0x2014, 0x02DC, 0x2122,
    0x0161, 0x203A, 0x0153, 0, 0x017E, 0x0178]

/-- The character of an octet in Windows-1252. -/
def windowsChar? (octet : Nat) : Option Char :=
  if 0x80 ≤ octet && octet < 0xA0 then
    match windowsPoints[octet - 0x80]? with
    | none | some 0 => none
    | some point => some (Char.ofNat point)
  else some (Char.ofNat octet)

namespace Encoding

/-- The encoding with a name. Case, dashes, underscores and blanks make no difference. -/
def ofName? (name : String) : Option Encoding :=
  match asciiLower (String.ofList (name.toList.filter fun c => !"-_ ".toList.contains c)) with
  | "utf8" | "u8" | "utf" => some .utf8
  | "utf8sig" => some .markedUtf8
  | "utf16" | "u16" => some .markedUtf16
  | "utf16le" => some (.utf16 false)
  | "utf16be" => some (.utf16 true)
  | "ascii" | "usascii" | "646" => some .ascii
  | "latin1" | "latin" | "iso88591" | "l1" | "8859" | "cp819" => some .latin1
  | "cp1252" | "windows1252" | "1252" => some .windows1252
  | _ => none

/-- The characters that octets stand for. -/
def decode (e : Encoding) (octets : List Nat) : Option (List Char) :=
  match e with
  | utf8 => decodeUtf8 octets
  | markedUtf8 =>
    match octets with
    | 0xEF :: 0xBB :: 0xBF :: rest => decodeUtf8 rest
    | _ => decodeUtf8 octets
  | utf16 highFirst => (codeUnits highFirst octets).bind pairedUnits
  | markedUtf16 =>
    match octets with
    | 0xFF :: 0xFE :: rest => (codeUnits false rest).bind pairedUnits
    | 0xFE :: 0xFF :: rest => (codeUnits true rest).bind pairedUnits
    | _ => (codeUnits false octets).bind pairedUnits
  | ascii => if octets.all (· < 0x80) then some (octets.map Char.ofNat) else none
  | latin1 => some (octets.map Char.ofNat)
  | windows1252 => octets.mapM windowsChar?

end Encoding

/-- A text whose lines end with a line feed alone. -/
def unifyLineEnds : List Char → List Char
  | [] => []
  | '\r' :: '\n' :: rest => '\n' :: unifyLineEnds rest
  | c :: rest => (if c == '\r' then '\n' else c) :: unifyLineEnds rest

example : decodeUtf8 [0x61, 0xC3, 0xA9, 0xE2, 0x82, 0xAC, 0xF0, 0x9F, 0x98, 0x80]
    = some ['a', 'é', '€', '😀'] := by decide

example : decodeUtf8 [0xC0, 0x80] = none ∧ decodeUtf8 [0xED, 0xA0, 0x80] = none
    ∧ decodeUtf8 [0xF4, 0x90, 0x80, 0x80] = none ∧ decodeUtf8 [0xE2, 0x82] = none := by decide

end ServerTemplate.Text
