import ServerTemplate.Json.Value

/-!
# Writing JSON

`Json.write` is the text of a value in ASCII on one line. A character beyond ASCII is written by its
UTF-16 code units.
-/

namespace ServerTemplate.Json

/-- A UTF-16 code unit as an escape. -/
def writeUnit (unit : Nat) : List Char := ['\\', 'u'] ++ Text.hexPadded 4 unit

/-- A character inside a string. -/
def writeChar (c : Char) : List Char :=
  if c == '\x22' || c == '\\' then ['\\', c]
  else if 0x20 ≤ c.toNat && c.toNat < 0x7F then [c]
  else if c.toNat < 0x10000 then writeUnit c.toNat
  else
    let beyond := c.toNat - 0x10000
    writeUnit (0xD800 + beyond / 0x400) ++ writeUnit (0xDC00 + beyond % 0x400)

/-- A string with its quotes. -/
def writeString (s : String) : String :=
  String.ofList ('\x22' :: s.toList.flatMap writeChar ++ ['\x22'])

/-- A floating-point number. -/
def writeFloat : Binary64 → String
  | .nan => "NaN"
  | .infinite false => "Infinity"
  | .infinite true => "-Infinity"
  | x => x.text

mutual

/-- The text of a value. -/
def write : Json → String
  | null => "null"
  | bool b => if b then "true" else "false"
  | int n => toString n
  | float x => writeFloat x
  | str s => writeString s
  | list items => "[" ++ ", ".intercalate (writeItems items) ++ "]"
  | record members => "\x7b" ++ ", ".intercalate (writeMembers members) ++ "\x7d"

/-- The texts of the items of a list. -/
def writeItems : List Json → List String
  | [] => []
  | item :: rest => write item :: writeItems rest

/-- The texts of the members of a record. -/
def writeMembers : List (String × Json) → List String
  | [] => []
  | (key, value) :: rest => (writeString key ++ ": " ++ write value) :: writeMembers rest

end

end ServerTemplate.Json
