import ServerTemplate.Component.Escaping
import ServerTemplate.Output.Literal

/-!
# Pieces of output

A converted fragment is a sequence of pieces: texts of the template, which are kept as they are, and
generated code. `Piece.written` is how a piece is written and `Piece.writtenAll` how a sequence is.
-/

namespace ServerTemplate

/-- A value that generated code reads. -/
inductive Operand where
  /-- A parameter or a whole loop item. -/
  | var (name : String)
  /-- A field of a loop item. -/
  | field (item name : String)
  /-- The number of elements of a value. -/
  | count (of : Operand)
  deriving DecidableEq, Repr

/-- How generated code reads a value. -/
def Operand.text : Operand → String
  | var name => "$" ++ name
  | field item name => "$" ++ item ++ "[" ++ Literal.ofText name ++ "]"
  | count operand => "count( " ++ operand.text ++ " )"

/-- The labels of a count of results: for none, for one, and for any other number. -/
structure CountLabels where
  zero : String
  one : String
  many : String
  deriving DecidableEq, Repr

/-- What is written of a fragment at one time. -/
inductive Piece where
  /-- Text of the template. -/
  | text (content : String)
  /-- A value written through a function, or as it is. -/
  | echo (value : Operand) (function : Option String)
  /-- A value in code. -/
  | operand (value : Operand)
  /-- A constant in code. -/
  | constant (code : String)
  /-- An operator or a bracket in code. -/
  | symbol (code : String)
  | ifStart
  | ifTested
  | otherwise
  | ifEnd
  | loopStart (array item : String)
  | loopEnd
  /-- The count of results, each label written through a function, or as it is. -/
  | resultCount (labels : CountLabels) (function : Option String)
  | currentYear
  /-- As many stars as given, of which those up to the rating are full. -/
  | stars (number : Int) (rating : Operand)
  deriving DecidableEq, Repr

/-- The parameter that holds the number of results. -/
def resultCountParameter : String := "totalResults"

/-- The field of a loop item that holds its rating. -/
def ratingField : String := "rating"

/-- The texts between the placeholders for the count in a label. -/
def splitAtCount : List Char → List (List Char)
  | [] => [[]]
  | '\x7b' :: 'c' :: 'o' :: 'u' :: 'n' :: 't' :: '\x7d' :: rest => [] :: splitAtCount rest
  | c :: rest =>
    match splitAtCount rest with
    | [] => [[c]]
    | first :: more => (c :: first) :: more

/-- The operands that make up a label: its texts that are not empty, and the count between each two
neighbours. -/
def labelOperands (count : String) : List (List Char) → List String
  | [] => []
  | [last] => if last.isEmpty then [] else [Literal.ofText (String.ofList last)]
  | first :: rest =>
    (if first.isEmpty then [] else [Literal.ofText (String.ofList first)])
      ++ count :: labelOperands count rest

/-- The code for a label. -/
def labelCode (label count : String) : String :=
  let operands := labelOperands count (splitAtCount label.toList)
  if operands.isEmpty then "''" else " . ".intercalate operands

/-- The statement that writes a value through a function, or as it is. -/
def echoStatement (value : String) (function : Option String) : String :=
  match function with
  | some function => "echo " ++ function ++ "( " ++ value ++ " );"
  | none => "echo " ++ value ++ ";"

namespace Piece

/-- The code that writes the label for a number of results. -/
def resultCountCode (labels : CountLabels) (function : Option String) : String :=
  let count := (Operand.var resultCountParameter).text
  let branch (label : String) :=
    "\x7b " ++ echoStatement (labelCode label count) function ++ " \x7d"
  "<?php if ( 0 === (int) " ++ count ++ " ) " ++ branch labels.zero
    ++ " elseif ( 1 === (int) " ++ count ++ " ) " ++ branch labels.one
    ++ " else " ++ branch labels.many ++ " ?>"

/-- The code that writes stars for a rating. -/
def starsCode (number : Int) (rating : Operand) : String :=
  "<?php for ( $i = 1; $i <= " ++ toString number ++ "; $i++ ) : ?>"
    ++ "<span class=\"star\"><?php echo $i <= " ++ rating.text ++ " ? '★' : '☆'; ?></span>"
    ++ "<?php endfor; ?>"

/-- How a piece is written. -/
def written : Piece → String
  | text content => content
  | echo value function => "<?php " ++ echoStatement value.text function ++ " ?>"
  | operand value => value.text
  | constant code => code
  | symbol code => code
  | ifStart => "<?php if ( "
  | ifTested => " ) : ?>"
  | otherwise => "<?php else : ?>"
  | ifEnd => "<?php endif; ?>"
  | loopStart array item => "<?php foreach ( $" ++ array ++ " as $" ++ item ++ " ) : ?>"
  | loopEnd => "<?php endforeach; ?>"
  | resultCount labels function => resultCountCode labels function
  | currentYear => "<?php echo date( 'Y' ); ?>"
  | stars number rating => starsCode number rating

/-- How several pieces are written. -/
def writtenAll (pieces : List Piece) : String := String.join (pieces.map written)

theorem writtenAll_cons (piece : Piece) (pieces : List Piece) :
    writtenAll (piece :: pieces) = piece.written ++ writtenAll pieces := String.join_cons

theorem writtenAll_append (ps qs : List Piece) :
    writtenAll (ps ++ qs) = writtenAll ps ++ writtenAll qs := by
  rw [writtenAll, List.map_append, String.join_append]
  rfl

theorem writtenAll_nil : writtenAll [] = "" := String.join_nil

theorem writtenAll_singleton (piece : Piece) : writtenAll [piece] = piece.written := by
  rw [writtenAll_cons, writtenAll_nil, String.append_empty]

end Piece

example : labelCode "\x7bcount\x7d results" "$n" = "$n . ' results'" := by decide +kernel

end ServerTemplate
