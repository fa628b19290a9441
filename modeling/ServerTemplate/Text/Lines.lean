/-!
# Lines and places

Two notions of a line are in use. A snippet shows the lines of a text as an editor does: they end at
any line terminator or separator (`lines`). A place in a script counts line feeds only
(`Place.after`): its line is one more than the number of line feeds before it, its column the number
of characters since the last one.
-/

namespace ServerTemplate.Text

/-- A character that ends a line of a snippet. -/
def isLineEnd (c : Char) : Bool :=
  (10 ≤ c.toNat && c.toNat ≤ 13) || (0x1C ≤ c.toNat && c.toNat ≤ 0x1E)
    || c == '\u0085' || c == '\u2028' || c == '\u2029'

/-- The lines of a text without their ends. A carriage return and the line feed after it are one
end, and nothing follows the last end. -/
def lines : List Char → List (List Char)
  | [] => []
  | '\r' :: '\n' :: rest => [] :: lines rest
  | c :: rest =>
    if isLineEnd c then [] :: lines rest
    else
      match lines rest with
      | [] => [[c]]
      | line :: more => (c :: line) :: more

/-- A place in a text: the line counts from one, the column from zero. -/
structure Place where
  line : Int
  column : Int
  deriving DecidableEq, Repr

/-- The number of characters since the last line feed. -/
def columnAfter (before : List Char) : Nat :=
  (before.reverse.takeWhile (· != '\n')).length

/-- The place reached behind the text `before`. -/
def Place.after (before : List Char) : Place :=
  ⟨before.count '\n' + 1, columnAfter before⟩

end ServerTemplate.Text
