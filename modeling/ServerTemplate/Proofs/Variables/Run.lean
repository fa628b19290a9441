import ServerTemplate.Proofs.Outline.Outline

/-!
# Running a fragment

A fragment runs in one function, whose variables are all in one store: a loop assigns its item for
every element, stars count in the variable `i`, and what is assigned stays assigned behind the loop.
`Outline.run` runs a fragment from a store and gives the values of the variables that it reads, with
what each was meant to be: the value that the name has in the template, where the item of a loop
stands for an element in the body of the loop and nowhere else.

What values are and which conditions hold is left open (`World`).
-/

namespace ServerTemplate

/-- The values of the variables of a function. -/
abbrev Store (V : Type) := String → V

/-- The store with one variable assigned. -/
def Store.assign {V : Type} (σ : Store V) (name : String) (v : V) : Store V :=
  fun other => if other = name then v else σ other

/-- What a fragment needs to know of its values. -/
structure World (V : Type) where
  /-- The elements of a value, over which a loop runs. -/
  elements : V → List V
  number : Int → V
  /-- How a value is spelled. -/
  spelling : V → String
  /-- Whether a condition holds, given its code and the variables. -/
  holds : List Piece → Store V → Bool

/-- A variable that is read. -/
structure Read (V : Type) where
  name : String
  /-- The value in the store. -/
  got : V
  /-- The value of the name in the template. -/
  meant : V

/-- The variable in which stars are counted. -/
def starCounter : String := "i"

/-- The variable that the code of an operand reads. -/
def Operand.variableName : Operand → String
  | var name => name
  | field item _ => item
  | count operand => operand.variableName

section Store

variable {V : Type} (σ : Store V)

@[simp] theorem Store.assign_self (name : String) (v : V) : σ.assign name v name = v := if_pos rfl

theorem Store.assign_of_ne {name other : String} (h : other ≠ name) (v : V) :
    σ.assign name v other = σ other :=
  if_neg h

end Store

namespace World

variable {V : Type} (w : World V)

/-- The variable that a dollar sign and a name stand for. If the name itself begins with a dollar
sign, it is the variable that the value of another one names. -/
def variableOf (σ : Store V) : List Char → String
  | '$' :: rest => w.spelling (σ (variableOf σ rest))
  | name => String.ofList name

/-- A name without dollar signs stands for itself. -/
theorem variableOf_toList {name : String} (plain : '$' ∉ name.toList) (σ : Store V) :
    w.variableOf σ name.toList = name := by
  unfold variableOf
  split
  · rename_i rest h
    exact (plain (h ▸ List.mem_cons_self ..)).elim
  · exact String.ofList_toList

/-- A variable is read, where the names of the template stand for `ρ`. -/
def read (ρ σ : Store V) (name : String) : Read V :=
  ⟨name, σ (w.variableOf σ name.toList), ρ name⟩

/-- The rating is read once for each star, after the star has been counted. -/
def readStars (ρ σ : Store V) (number : Int) (rating : Operand) : List (Read V) :=
  (List.range number.toNat).map fun k : Nat =>
    w.read ρ (σ.assign starCounter (w.number (k + 1))) rating.variableName

/-- Runs the body of a loop for elements one after the other. -/
def runLoop (body : V → Store V → List (Read V) × Store V) :
    List V → Store V → List (Read V) × Store V
  | [], σ => ([], σ)
  | v :: vs, σ =>
    ((body v σ).1 ++ (runLoop body vs (body v σ).2).1, (runLoop body vs (body v σ).2).2)

end World

section Run

variable {V : Type} (w : World V)

/-- The variables that generated code reads, and the store behind it. -/
def Piece.run (ρ σ : Store V) : Piece → List (Read V) × Store V
  | echo value _ | operand value => ([w.read ρ σ value.variableName], σ)
  | resultCount .. => ([w.read ρ σ resultCountParameter], σ)
  | stars number rating =>
    (w.readStars ρ σ number rating, σ.assign starCounter (w.number (number.toNat + 1)))
  | _ => ([], σ)

/-- The variables that a condition reads. -/
def Piece.readAll (ρ σ : Store V) (test : List Piece) : List (Read V) :=
  test.flatMap fun
    | operand value => [w.read ρ σ value.variableName]
    | _ => []

/-- The variables that a fragment reads, and the store behind it. The names of the template stand
for `ρ`: in the body of a loop the item stands for the element. -/
def Outline.run (ρ σ : Store V) : Outline → List (Read V) × Store V
  | empty | text _ => ([], σ)
  | echo value site => (Piece.echo value site.function).run w ρ σ
  | resultCount labels site => (Piece.resultCount labels site.function).run w ρ σ
  | code piece => piece.run w ρ σ
  | seq first second =>
    ((first.run ρ σ).1 ++ (second.run ρ (first.run ρ σ).2).1, (second.run ρ (first.run ρ σ).2).2)
  | hole content => content.run ρ σ
  | guard test body =>
    if w.holds test σ then (Piece.readAll w ρ σ test ++ (body.run ρ σ).1, (body.run ρ σ).2)
    else (Piece.readAll w ρ σ test, σ)
  | branch test first second =>
    if w.holds test σ then (Piece.readAll w ρ σ test ++ (first.run ρ σ).1, (first.run ρ σ).2)
    else (Piece.readAll w ρ σ test ++ (second.run ρ σ).1, (second.run ρ σ).2)
  | loop array item body =>
    let ran := World.runLoop
      (fun v σ => body.run (ρ.assign item v) (σ.assign (w.variableOf σ item.toList) v))
      (w.elements (w.read ρ σ array).got) σ
    (w.read ρ σ array :: ran.1, ran.2)

end Run

end ServerTemplate
