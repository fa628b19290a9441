import ServerTemplate.Component.Policy
import ServerTemplate.Diagnostic.Style
import ServerTemplate.Json.Read
import ServerTemplate.Scope.Frame
import ServerTemplate.Text.Similar
import ServerTemplate.Text.Sorted

/-!
# Causes of failure

A conversion fails as a whole, for one cause. The causes are grouped by what is at fault: the
source, the names that a template uses, the order of its scopes, a construct without a server-side
form, a missing policy, or a declaration. Each cause has a summary of one line and details on lines
of their own; what is shown in a style is marked as a span.
-/

namespace ServerTemplate

/-- Why a source has no entry template. -/
inductive EntryFault where
  /-- The source is no script. -/
  | syntaxError
  | noTemplate (tag entryPoint : String)
  | severalTemplates (tag entryPoint : String) (lines : List Int)
  /-- A fault in given words, with a column and a suggestion. -/
  | stated (summary : String) (column : Option Int) (suggestion : Option String)

/-- How scopes or code regions are entered and left out of order. -/
inductive Imbalance where
  | noOpenScope
  | wrongScope (expected found : FrameKind)
  | regionLeftInScope (kind : FrameKind)
  | regionInsideRegion
  | markerWithoutRegion
  | noOpenRegion
  | scopesLeftOpen (kinds : List FrameKind)
  | regionLeftOpen
  /-- An imbalance in given words. -/
  | stated (summary : String)

/-- A construct that has no server-side form. -/
inductive Unsupported where
  /-- A kind of expression, named as a message names it. -/
  | expression (description : String)
  | optionalChaining
  /-- A constant that has a form in conditions only. -/
  | constantInMarkup (spelling : String)
  /-- A property of a name that is no loop item. -/
  | foreignProperty (owner property : String)
  | noReference (description : String)
  | operatorInMarkup (operator : String)
  /-- A tagged template where none is rendered, and the tag of those that are. -/
  | taggedTemplate (tag markupTag : String)
  | loopInCode (array : String)
  | loopWithoutArrow (array : String)
  | shadowingItem (array item : String)
  | helperInCode (helper : String)
  | call (callee : String)
  /-- A construct and advice in given words. -/
  | stated (construct : String) (advice : Option String)

/-- What is wrong with a declaration, or with the place it is looked for. -/
inductive DeclarationFault where
  | notARecord (kind : String)
  | noComponentName
  | parametersNotAList
  | noEntryName
  | duplicateParameter (name : String)
  | arrayFieldsNotARecord
  | arrayNotAList (array : String)
  | unknownToken (token : Json)
  /-- No declaration of a name, where it was looked for, and the names declared there. -/
  | notDeclared (name : String) (place : String) (available : List String)
  | noCatalog (name : String)
  | invalidJson (path : String) (defect : Json.Defect)
  | fileNotARecord (path : String)
  /-- A fault in given words. -/
  | stated (summary : String)

/-- Why a conversion fails. -/
inductive Cause where
  | general (summary : String)
  | entry (fault : EntryFault)
  /-- A name that no scope binds, where it is used, and the names that are visible there. -/
  | unresolved (name context : String) (visible : List String)
  /-- A property of a loop item, or a helper for one, outside any loop. -/
  | outsideLoop (expression context : String)
  | imbalance (fault : Imbalance)
  | unsupported (construct : Unsupported) (context : String)
  /-- A field without a policy, and where one is to be declared. -/
  | noPolicy (field path : String)
  | declaration (fault : DeclarationFault) (path : Option String)

/-- The kinds of error that can be looked up. -/
inductive ErrorCode where
  | parseError
  | unresolvedVariable
  | missingLoopContext
  | scopeImbalance
  | unsupportedConstruct
  | missingEscapeMetadata
  | invalidMetadata
  deriving DecidableEq, Repr

namespace ErrorCode

/-- All codes in order. -/
def all : List ErrorCode :=
  [parseError, unresolvedVariable, missingLoopContext, scopeImbalance, unsupportedConstruct,
    missingEscapeMetadata, invalidMetadata]

/-- The identifier of a code. -/
def identifier : ErrorCode → String
  | parseError => "PARSE_ERROR"
  | unresolvedVariable => "UNRESOLVED_VARIABLE"
  | missingLoopContext => "MISSING_LOOP_CONTEXT"
  | scopeImbalance => "SCOPE_IMBALANCE"
  | unsupportedConstruct => "UNSUPPORTED_CONSTRUCT"
  | missingEscapeMetadata => "MISSING_ESCAPE_METADATA"
  | invalidMetadata => "INVALID_METADATA"

/-- The text of a code. -/
def text : ErrorCode → String
  | parseError => "L-PAR-001"
  | unresolvedVariable => "L-SCP-001"
  | missingLoopContext => "L-SCP-002"
  | scopeImbalance => "L-SCP-003"
  | unsupportedConstruct => "L-CNV-001"
  | missingEscapeMetadata => "L-ESC-001"
  | invalidMetadata => "L-MET-001"

/-- The part of a conversion that a code belongs to. -/
def category : ErrorCode → String
  | parseError => "parser"
  | unresolvedVariable | missingLoopContext | scopeImbalance => "scope"
  | unsupportedConstruct => "conversion"
  | missingEscapeMetadata => "escaping"
  | invalidMetadata => "metadata"

/-- The page that explains a code. -/
def link (code : ErrorCode) : String :=
  "https://litpress.readthedocs.io/en/latest/errors/#" ++ Text.asciiLower code.text

/-- The name of the kind of error. -/
def kindName : ErrorCode → String
  | parseError => "ParseError"
  | unresolvedVariable => "UnresolvedVariableError"
  | missingLoopContext => "MissingLoopContextError"
  | scopeImbalance => "ScopeImbalanceError"
  | unsupportedConstruct => "UnsupportedConstructError"
  | missingEscapeMetadata => "MissingEscapeMetadataError"
  | invalidMetadata => "MetadataError"

end ErrorCode

/-- The code of a cause. A cause in general words has none. -/
def Cause.code? : Cause → Option ErrorCode
  | general _ => none
  | entry _ => some .parseError
  | unresolved .. => some .unresolvedVariable
  | outsideLoop .. => some .missingLoopContext
  | imbalance _ => some .scopeImbalance
  | unsupported .. => some .unsupportedConstruct
  | noPolicy .. => some .missingEscapeMetadata
  | declaration .. => some .invalidMetadata

/-- The name of the kind of error that a cause belongs to. -/
def Cause.kindName (cause : Cause) : String :=
  match cause.code? with
  | some code => code.kindName
  | none => "ConversionError"

/-! ### Summaries and details -/

/-- The methods of a component that have a fixed rendering, in order. -/
def helperNames : List String := ["formatResultCount", "getCurrentYear", "renderStars"]

namespace EntryFault

/-- The fault in one line. -/
def summary : EntryFault → String
  | syntaxError => "Invalid template source"
  | noTemplate tag entryPoint =>
    "No " ++ tag ++ "`...` template returned from '" ++ entryPoint ++ "()'"
  | severalTemplates tag entryPoint lines =>
    "Ambiguous entry: " ++ toString lines.length ++ " " ++ tag ++ " templates returned from '"
      ++ entryPoint ++ "()' (lines " ++ ", ".intercalate (lines.map toString) ++ ")"
  | stated summary _ _ => summary

/-- What to do about the fault. -/
def suggestion? : EntryFault → Option String
  | syntaxError => some "Check for unbalanced backticks, braces or $\x7b \x7d in the template"
  | noTemplate tag entryPoint =>
    some ("The entry method '" ++ entryPoint ++ "' must return a " ++ tag ++ " template")
  | severalTemplates .. =>
    some ("Return exactly one template from the entry method, "
      ++ "or set 'entryPoint' in the component metadata")
  | stated _ _ suggestion => suggestion

/-- The column of the fault, where it is known. -/
def column? : EntryFault → Option Int
  | stated _ column _ => column
  | _ => none

end EntryFault

/-- The imbalance in one line. -/
def Imbalance.summary : Imbalance → String
  | noOpenScope => "Scope exit with no open scope"
  | wrongScope expected found =>
    "Expected to close a " ++ expected.name ++ " scope, found " ++ found.name
  | regionLeftInScope kind =>
    "Closing " ++ kind.name ++ " scope with an unclosed <?php region"
  | regionInsideRegion => "'<?php' inside an open <?php region"
  | markerWithoutRegion => "'?>' without a matching '<?php' in template text"
  | noOpenRegion => "'?>' without a matching '<?php'"
  | scopesLeftOpen kinds =>
    "Conversion ended with open scopes: " ++ ", ".intercalate (kinds.map FrameKind.name)
  | regionLeftOpen => "Conversion ended inside a <?php region"
  | stated summary => summary

namespace Unsupported

/-- The construct as a message names it. -/
def construct : Unsupported → String
  | expression description => description
  | optionalChaining => "optional chaining"
  | constantInMarkup spelling => "literal " ++ spelling
  | foreignProperty owner property => owner ++ "." ++ property
  | noReference description => description
  | operatorInMarkup operator => "'" ++ operator ++ "' expression"
  | taggedTemplate tag _ => tag ++ "`...`"
  | loopInCode array | loopWithoutArrow array | shadowingItem array _ =>
    "this." ++ array ++ ".map()"
  | helperInCode helper => "this." ++ helper ++ "()"
  | call callee => callee ++ "()"
  | stated construct _ => construct

/-- What to write instead. -/
def advice? : Unsupported → Option String
  | expression _ => none
  | optionalChaining => some "Use plain property access: this.x or item.field"
  | constantInMarkup _ => some "Boolean and null literals are only supported in conditions"
  | foreignProperty .. => some "Property reads are supported on this and on loop items only"
  | noReference _ => some "Expected this.<name>, <item>.<field> or <item>"
  | operatorInMarkup _ =>
    some ("Operators are supported in conditions; use cond && html`...` "
      ++ "or a ternary to render markup conditionally")
  | taggedTemplate _ markupTag =>
    some ("Only " ++ markupTag ++ " templates in markup are supported")
  | loopInCode _ => some "Loops render markup and cannot appear inside a <?php region"
  | loopWithoutArrow _ => some "Use a single-parameter arrow: this.items.map(item => html`...`)"
  | shadowingItem _ item =>
    some ("Loop item '" ++ item ++ "' shadows a visible name; rename the arrow parameter")
  | helperInCode _ => some "Helpers render markup and cannot appear inside a <?php region"
  | call _ =>
    some ("Supported calls: this.<array>.map(item => html`...`) and the helpers "
      ++ ", ".intercalate (helperNames.map fun name => "this." ++ name ++ "()"))
  | stated _ advice => advice

end Unsupported

/-- At most this many declared names are listed when a name is not declared. -/
def listedNames : Nat := 10

/-- The fault in one line. A name that is not declared is answered with a similar one, or else with
the first of those that are. -/
def DeclarationFault.summary : DeclarationFault → String
  | notARecord kind => "Component metadata must be an object, got " ++ kind
  | noComponentName => "Component metadata has no name"
  | parametersNotAList => "'parameters' must be a list"
  | noEntryName => "Entry has no 'name'"
  | duplicateParameter name => "Duplicate parameter '" ++ name ++ "'"
  | arrayFieldsNotARecord => "'arrayFields' must be an object"
  | arrayNotAList array => "arrayFields entry '" ++ array ++ "' must be a list"
  | unknownToken token =>
    "Unknown escape token " ++ token.quoted ++ " (expected one of: "
      ++ ", ".intercalate (EscapePolicy.tokens.map (·.1)) ++ ")"
  | notDeclared name place available =>
    let sought := "Component '" ++ name ++ "' has no metadata"
      ++ (if place = "" then "" else " in " ++ place)
    match Text.closest? name available with
    | some similar => sought ++ ". Did you mean '" ++ similar ++ "'?"
    | none =>
      if available.isEmpty then sought
      else
        sought ++ ". Available: " ++ ", ".intercalate (available.take listedNames)
          ++ (if listedNames < available.length then
            " ... (" ++ toString available.length ++ " total)" else "")
  | noCatalog name => "No loader configured to look up metadata for '" ++ name ++ "'"
  | invalidJson path defect => "Invalid JSON in " ++ path ++ ": " ++ defect.message
  | fileNotARecord path => path ++ " must contain an object of components"
  | stated summary => summary

namespace Cause

/-- The cause in one line. -/
def summary : Cause → List Span
  | general summary => [.plain summary]
  | entry fault => [.plain fault.summary]
  | unresolved name context _ =>
    [.plain "Undefined variable '", .of .identifier name,
      .plain ("' in context '" ++ context ++ "'")]
  | outsideLoop expression context =>
    [.plain "'", .of .identifier expression,
      .plain ("' used outside a loop in context '" ++ context ++ "'")]
  | imbalance fault => [.plain fault.summary]
  | unsupported construct context =>
    [.plain "Unsupported construct ", .of .identifier construct.construct,
      .plain (" in context '" ++ context ++ "'")]
  | noPolicy field _ =>
    [.plain "Field '", .of .identifier field, .plain "' has no escape policy"]
  | declaration fault _ => [.plain fault.summary]

/-- A line of advice. -/
def hintLine (advice : List Span) : List Span :=
  [.plain "  ", .of .hint "Hint:", .plain " "] ++ advice

/-- A line of advice, where there is any. Empty advice is none. -/
def hintLines (advice : Option String) : List (List Span) :=
  match advice with
  | some advice => if advice = "" then [] else [hintLine [.plain advice]]
  | none => []

/-- Advice, paths and names that help with the cause, on lines of their own. -/
def details : Cause → List (List Span)
  | general _ => []
  | entry fault => hintLines fault.suggestion?
  | unresolved name _ visible =>
    let sorted := Text.sorted visible
    let listed := if sorted.isEmpty then "(none)" else ", ".intercalate sorted
    let advice : List Span :=
      match Text.closest? name sorted with
      | some similar => [.plain "Did you mean '", .of .suggestion similar, .plain "'?"]
      | none => [.plain ("Declare '" ++ name ++ "' in the component's parameters")]
    [[.plain ("  Visible: " ++ listed)], hintLine advice]
  | outsideLoop .. =>
    [hintLine [.plain
      "Move the expression inside a this.<array>.map(item => html`...`) body"]]
  | imbalance _ => []
  | unsupported construct _ => hintLines construct.advice?
  | noPolicy _ path =>
    [[.plain "  Add: ", .of .declarationPath path],
      hintLine [.plain "Declare one of html, url, attr, js, none"]]
  | declaration _ path =>
    match path with
    | some path => if path = "" then [] else [[.plain "  At: ", .of .declarationPath path]]
    | none => []

end Cause

end ServerTemplate
