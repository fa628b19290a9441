import ServerTemplate.Diagnostic.Basic

/-!
# Failures

Nearly every operation that fails gives a diagnostic. The few other reasons lie in values that no
number or character of the output can hold, in integers too long to be written out, in components
whose name is no text, in files that cannot be decoded, and in options that make no sense.
-/

namespace ServerTemplate

/-- Options that make no sense. -/
inductive OptionFault where
  | countLabels
  | starCount
  deriving DecidableEq, Repr

/-- What is wrong with the options. -/
def OptionFault.message : OptionFault → String
  | countLabels => "result_count_labels needs zero, one and many labels"
  | starCount => "star_count must be positive"

/-- Why an operation has no result. -/
inductive Failure where
  | diagnosed (diagnostic : Diagnostic)
  /-- An integer lies beyond the floating-point numbers. -/
  | integerOutOfRange
  /-- An escape denotes a code point beyond the last one. -/
  | codePointOutOfRange
  /-- An escape denotes a code point of more than 31 bits. -/
  | codePointTooLong
  /-- An integer has too many digits. -/
  | tooManyDigits
  /-- The name of a component is no text, and stands where nothing else can. -/
  | nameNotText
  /-- A file does not hold text in the encoding it is read in. -/
  | undecodable (path : String)
  | badOptions (fault : OptionFault)

/-- The result of an operation. -/
abbrev Result (α : Type) := Except Failure α

/-- A diagnosed result. -/
def Result.ofDiagnosed {α : Type} : Except Diagnostic α → Result α
  | .ok a => .ok a
  | .error d => .error (.diagnosed d)

/-- The text of a value in a message, a path or a name. -/
def Result.ofText (value : Json) : Result String :=
  if value.hasText then .ok value.display else .error .tooManyDigits

end ServerTemplate
