/-!
# The closest of several names

A misspelt name is answered with the known name that is most like it. Two names are compared by
their longest common block, then, on either side of it, by the longest common blocks of what is left
there. If `m` characters lie in such blocks and the names have `t` characters together, their
likeness is `2 * m / t`, and a name counts as close from three fifths on.

In a word of 200 characters or more, a character that makes up more than about one percent of it
starts no block, but a block grows over it.
-/

namespace ServerTemplate.Text

/-- The number of characters from the start on in which two lists agree, as long as the characters
are in the class `p`. -/
def agreement (p : Char → Bool) : List Char → List Char → Nat
  | x :: xs, y :: ys => if x == y && p x then agreement p xs ys + 1 else 0
  | _, _ => 0

/-- A block that two lists have in common. -/
structure CommonBlock where
  /-- The number of characters in front of the block in the first list. -/
  left : Nat
  /-- The number of characters in front of the block in the second list. -/
  right : Nat
  size : Nat

/-- The longer of `best` and the blocks that start where `xs` does, at `left`, and at some place of
the second list from `right` on. The first of several equally long blocks is kept. -/
def CommonBlock.scanRight (p : Char → Bool) (left : Nat) (xs : List Char) :
    List Char → Nat → CommonBlock → CommonBlock
  | [], _, best => best
  | y :: ys, right, best =>
    let size := agreement p xs (y :: ys)
    scanRight p left xs ys (right + 1) (if best.size < size then ⟨left, right, size⟩ else best)

/-- The longer of `best` and the blocks that start at some place of the first list from `left` on.
-/
def CommonBlock.scanLeft (p : Char → Bool) (ys : List Char) :
    List Char → Nat → CommonBlock → CommonBlock
  | [], _, best => best
  | x :: xs, left, best =>
    scanLeft p ys xs (left + 1) (scanRight p left (x :: xs) ys 0 best)

/-- The block with all that agrees directly before and behind it. -/
def CommonBlock.grow (xs ys : List Char) (block : CommonBlock) : CommonBlock :=
  let back := agreement (fun _ => true) (xs.take block.left).reverse (ys.take block.right).reverse
  let forth := agreement (fun _ => true) (xs.drop (block.left + block.size))
    (ys.drop (block.right + block.size))
  ⟨block.left - back, block.right - back, back + block.size + forth⟩

/-- The longest block of characters in the class `p` that two lists have in common, the first of
several, grown at both ends. -/
def longestCommonBlock (p : Char → Bool) (xs ys : List Char) : CommonBlock :=
  (CommonBlock.scanLeft p ys xs 0 ⟨0, 0, 0⟩).grow xs ys

/-- The number of characters in common blocks. -/
def inCommon (p : Char → Bool) (xs ys : List Char) : Nat :=
  match longestCommonBlock p xs ys with
  | ⟨left, right, size⟩ =>
    if 0 < size ∧ left + size ≤ xs.length then
      size + inCommon p (xs.take left) (ys.take right)
        + inCommon p (xs.drop (left + size)) (ys.drop (right + size))
    else 0
termination_by xs.length
decreasing_by
  all_goals simp only [List.length_take, List.length_drop]; omega

/-- A character that may start a block: in a long word, one that is not too frequent. -/
def isStarter (word : List Char) (c : Char) : Bool :=
  word.length < 200 || word.count c ≤ word.length / 100 + 1

/-- How much a name is like a word: a fraction with its denominator. -/
def likeness (word name : String) : Nat × Nat :=
  let total := word.length + name.length
  if total = 0 then (1, 1)
  else (2 * inCommon (isStarter word.toList) name.toList word.toList, total)

/-- The name that is most like `word`, if any is close; of equally close names the last in order. -/
def closest? (word : String) (names : List String) : Option String :=
  let better (best : Option ((Nat × Nat) × String)) (name : String) :=
    let new := likeness word name
    if 5 * new.1 < 3 * new.2 then best
    else
      match best with
      | none => some (new, name)
      | some (old, other) =>
        let oldShare := old.1 * new.2
        let newShare := new.1 * old.2
        if oldShare < newShare ∨ (oldShare = newShare ∧ other < name) then some (new, name)
        else best
  (names.foldl better none).map (·.2)

end ServerTemplate.Text
