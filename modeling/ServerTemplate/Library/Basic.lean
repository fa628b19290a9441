import ServerTemplate.Library.Catalog
import ServerTemplate.Library.Options
import ServerTemplate.Output.Function
import ServerTemplate.Template.FromScript
import ServerTemplate.Template.Lowering

/-!
# Libraries of components

A library converts components with common options, and finds their declarations in a catalog. A
declaration that was found by its name is kept, so that it stays the same until the library forgets
it, whatever becomes of the catalog; a failed search is not kept.
-/

namespace ServerTemplate

/-! ### Conversion -/

/-- What a source is: the text of a template alone, or a script with a template in it. -/
inductive SourceForm where
  | template
  | script
  deriving DecidableEq, Repr

namespace Options

/-- The method that returns the template of a component. -/
def entryPointOf (o : Options) (d : Declaration) : EntryPoint :=
  match o.entryPoint.filter (· != "") with
  | some name => .named name
  | none =>
    ⟨d.entryPoint.display,
      match d.entryPoint with
      | .str name => some name
      | _ => none⟩

/-- The entry template of a component. -/
def entry (o : Options) (form : SourceForm) (source : String) (d : Declaration) : Result Entry :=
  let found :=
    match form with
    | .template => Entry.ofTemplate source (o.entryPointOf d) o.tag d.title o.parser
    | .script => Entry.ofScript source (o.entryPointOf d) o.tag d.title o.parser
  found.mapError d.retold

/-- The fragment for a component. -/
def convert (o : Options) (form : SourceForm) (source : String) (d : Declaration) :
    Result String := do
  let entry ← o.entry form source d
  let job : Job := ⟨d, source, o.tag, o.labels, o.stars⟩
  (job.convert entry.template).mapError d.told

/-- The render function for a component. -/
def renderFunction (o : Options) (form : SourceForm) (source : String) (d : Declaration) :
    Result String := do
  d.renderFunction (← o.convert form source d)

end Options

/-! ### Declarations by name -/

/-- Components with common options. -/
structure Library where
  options : Options := {}
  /-- Where declarations are found, if anywhere. -/
  catalog : Option Catalog := none
  /-- The declarations found so far. -/
  found : List (String × Declaration) := []

namespace Library

/-- The declaration of a component, and the library that has found it. -/
def find (l : Library) (name : String) : Result (Declaration × Library) :=
  match l.found.find? fun entry => entry.1 == name with
  | some entry => .ok (entry.2, l)
  | none =>
    match l.catalog with
    | none => .error (.diagnosed (Declaration.failure (.noCatalog name) name))
    | some catalog => do
      let d ← catalog.find name
      return (d, { l with found := (name, d) :: l.found })

/-- The library without the declarations found so far. -/
def forget (l : Library) : Library := { l with found := [] }

/-- The declaration that is given by its JSON form, under the given name if there is one, or by the
name of a component. -/
def resolve (l : Library) (given : Json) (name : Option Json := none) :
    Result (Declaration × Library) :=
  match given with
  | .str component => l.find component
  | entry => do return (← Declaration.ofJson entry name, l)

end Library

end ServerTemplate
