import ServerTemplate.Script.Statement

/-!
# Reading a whole script

`read` ties the readers of phrases together: each is given the readers of the phrases in it, one
level of nesting deeper. The bound on the depth is far more than the characters of a script can
need.
-/

namespace ServerTemplate.Script

open Reader

/-- The reader of a phrase, given the readers of the phrases in it. -/
def phrase (within : Within) : Goal → Reader Node
  | .level least ending => level within least ending
  | .expressions ending => expressions within ending
  | .unary ending => unary within ending
  | .construction => construction within
  | .target => target within
  | .template => template within
  | .block => block within
  | .statement => statement within
  | .element => element within

/-- The reader of a phrase that is nested no deeper than the bound. -/
def phraseUpTo : Nat → Goal → Reader Node
  | 0, _ => fail
  | depth + 1, goal => phrase (phraseUpTo depth) goal

/-- The statements of a script. A script that is run by a program may name that in its first line.
-/
def statements (depth : Nat) : Reader (List Node) := do
  skip true
  match ← rest with
  | '#' :: '!' :: cs => pass ((cs.takeWhile fun c => c != '\n').length + 2)
  | _ => pure ()
  let found ← many (phraseUpTo depth .statement)
  skip true
  check (← rest).isEmpty
  return found

/-- Whether a node reaches over a comment and beyond. -/
def Node.surrounds (node comment : Node) : Bool :=
  node.start.octet < comment.start.octet && comment.stop < node.stop

mutual

/-- A tree with a comment as a node of its own, in the smallest node around it. -/
def Node.withComment (comment : Node) : Node → Node
  | ⟨kind, slot, start, stop, children⟩ =>
    ⟨kind, slot, start, stop, insertComment comment children⟩

/-- Children with a comment in or between them. -/
def insertComment (comment : Node) : List Node → List Node
  | [] => [comment]
  | child :: rest =>
    if child.surrounds comment then Node.withComment comment child :: rest
    else if comment.start.octet ≤ child.start.octet then comment :: child :: rest
    else child :: insertComment comment rest

end

/-- The tree of a script, none if it is not well formed. -/
def read? (source : List Char) : Option Node :=
  if source.contains '\x00' then none
  else
    match statements (32 * (source.length + 2)) { rest := source } with
    | some (found, final) =>
      let tree : Node := ⟨.part, .none, {}, final.offset.octet, found⟩
      some (final.comments.foldl (fun tree comment => Node.withComment comment tree) tree)
    | none => none

end ServerTemplate.Script
