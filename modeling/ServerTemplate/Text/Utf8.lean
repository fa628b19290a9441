import ServerTemplate.Text.Encoding

/-!
# Octets of a text

A script is parsed as octets in UTF-8, and the offsets of its nodes count octets. `encodeUtf8` gives
the octets of a text. `decodeLossy` reads octets that need not be a text: it puts the replacement
character for the longest part of a character that begins at an octet, and reads on behind it.
-/

namespace ServerTemplate.Text

/-- The octets of a character. -/
def octetsOf (c : Char) : List Nat :=
  let point := c.toNat
  if point < 0x80 then [point]
  else if point < 0x800 then [0xC0 + point / 0x40, 0x80 + point % 0x40]
  else if point < 0x10000 then
    [0xE0 + point / 0x1000, 0x80 + point / 0x40 % 0x40, 0x80 + point % 0x40]
  else
    [0xF0 + point / 0x40000, 0x80 + point / 0x1000 % 0x40, 0x80 + point / 0x40 % 0x40,
      0x80 + point % 0x40]

/-- The octets of a text. -/
def encodeUtf8 (cs : List Char) : List Nat := cs.flatMap octetsOf

/-- The number of octets up to the last line feed and with it, none if there is no line feed. -/
def behindLastFeed (octets : List Nat) : Nat :=
  octets.length - (octets.reverse.takeWhile (· != 0x0A)).length

/-- The number of tails behind a lead, none for an octet that is no lead. -/
def tailsBehind (lead : Nat) : Nat :=
  if 0xC2 ≤ lead && lead < 0xE0 then 1
  else if 0xE0 ≤ lead && lead < 0xF0 then 2
  else if 0xF0 ≤ lead && lead < 0xF5 then 3
  else 0

/-- Whether an octet may stand behind a lead. Behind some leads only a part of the tails may: the
others would spell a code point at greater length than need be, half of a pair, or none at all. -/
def isFirstTail (lead octet : Nat) : Bool :=
  areTails [octet] && !(lead == 0xE0 && octet < 0xA0) && !(lead == 0xED && 0xA0 ≤ octet)
    && !(lead == 0xF0 && octet < 0x90) && !(lead == 0xF4 && 0x90 ≤ octet)

/-- The characters of octets in UTF-8, with replacement characters where they are no text. -/
def decodeLossy : List Nat → List Char
  | [] => []
  | a :: rest =>
    if a < 0x80 then Char.ofNat a :: decodeLossy rest
    else if tailsBehind a == 0 then '\ufffd' :: decodeLossy rest
    else
      match rest with
      | [] => ['\ufffd']
      | b :: rest =>
        if !isFirstTail a b then '\ufffd' :: decodeLossy (b :: rest)
        else if tailsBehind a == 1 then Char.ofNat (tailed (a - 0xC0) [b]) :: decodeLossy rest
        else
          match rest with
          | [] => ['\ufffd']
          | c :: rest =>
            if !areTails [c] then '\ufffd' :: decodeLossy (c :: rest)
            else if tailsBehind a == 2 then
              Char.ofNat (tailed (a - 0xE0) [b, c]) :: decodeLossy rest
            else
              match rest with
              | [] => ['\ufffd']
              | d :: rest =>
                if !areTails [d] then '\ufffd' :: decodeLossy (d :: rest)
                else Char.ofNat (tailed (a - 0xF0) [b, c, d]) :: decodeLossy rest

example : encodeUtf8 ['a', 'é', '€', '😀']
    = [0x61, 0xC3, 0xA9, 0xE2, 0x82, 0xAC, 0xF0, 0x9F, 0x98, 0x80] := by decide

example : decodeLossy [0xE2, 0x82, 0x61, 0x80, 0xF0, 0x9F, 0x98]
    = ['\ufffd', 'a', '\ufffd', '\ufffd'] := by decide

end ServerTemplate.Text
