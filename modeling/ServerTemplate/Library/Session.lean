import ServerTemplate.Library.Basic

/-!
# Sessions

A session is a library in use. Requests come one after the other: a catalog in memory is edited,
declarations are looked up, components are converted, and the declarations found so far are
forgotten. A conversion is done by a converter made for it, or by one that is kept for the whole
session. That one holds in between what its last conversion left behind, finished or not.
-/

namespace ServerTemplate

/-! ### Converters -/

/-- A converter with the component that it was last used for. -/
structure Converter where
  options : Options
  declaration : Declaration
  source : String
  /-- The state in which the last conversion ended. -/
  progress : Progress

namespace Converter

/-- A converter that has not been used. -/
def fresh (o : Options) : Converter where
  options := o
  declaration := { name := .str "" }
  source := ""
  progress := { tracker := Tracker.start [] none }

/-- The conversion of the component at hand. -/
def job (c : Converter) : Job :=
  ⟨c.declaration, c.source, c.options.tag, c.options.labels, c.options.stars⟩

/-- The converter with another component at hand. -/
def take (c : Converter) (source : String) (d : Declaration) : Converter :=
  { c with
    declaration := d
    source
    progress := { c.progress with
      pieces := []
      cursor := {}
      tracker := Tracker.start d.parameterNames d.title
      journal := [] } }

/-- Converts the component at hand. -/
def lower (c : Converter) (template : Template) : Result String × Converter :=
  match lowerTemplate c.job template c.progress with
  | .ok _ progress => (.ok (Piece.writtenAll progress.pieces.reverse), { c with progress })
  | .error d progress => (.error (c.declaration.told d), { c with progress })

/-- The fragment for a component. A source without an entry template is not taken at hand. -/
def convert (c : Converter) (form : SourceForm) (source : String) (d : Declaration) :
    Result String × Converter :=
  match c.options.entry form source d with
  | .error failure => (.error failure, c)
  | .ok entry => (c.take source d).lower entry.template

end Converter

/-! ### Requests -/

/-- Which converter does a conversion. -/
inductive Worker where
  | fresh
  | kept

/-- What is made of a component. -/
inductive Product where
  | fragment
  | function

/-- A declaration, its JSON form or the name of a component. -/
inductive Given where
  | declared (d : Declaration)
  | json (given : Json)

/-- A request to a session. -/
inductive Request where
  /-- The entry of a component is set in the catalog. -/
  | put (name : String) (entry : Json)
  /-- The entry of a component is removed from the catalog. -/
  | remove (name : String)
  /-- The names in the catalog are asked for. -/
  | names
  /-- A declaration is asked for. -/
  | find (name : String)
  | forget
  | make (worker : Worker) (product : Product) (form : SourceForm) (source : String)
      (given : Given)

/-- The answer to a request. -/
inductive Answer where
  | done
  | names (names : List String)
  | declaration (d : Declaration)
  | text (text : String)

/-- What is made of a component from its fragment. -/
def Product.of (product : Product) (d : Declaration) (fragment : String) : Result String :=
  match product with
  | .fragment => .ok fragment
  | .function => d.renderFunction fragment

/-! ### Sessions -/

/-- A library in use, and the converter that is kept. -/
structure Session where
  library : Library
  kept : Converter

namespace Session

/-- A library at the start of a session. -/
def start (l : Library) : Session := ⟨l, .fresh l.options⟩

/-- The session with a catalog in memory edited. -/
def edit (s : Session) (change : List (String × Json) → List (String × Json)) : Session :=
  match s.library.catalog with
  | some (.memory entries) =>
    { s with library := { s.library with catalog := some (.memory (change entries)) } }
  | _ => s

/-- The outcome of a look-up, and the session with the library behind it. -/
def keep (s : Session) : Result (Declaration × Library) → Result Declaration × Session
  | .ok (d, library) => (.ok d, { s with library })
  | .error failure => (.error failure, s)

/-- The declaration that is given. -/
def resolve (s : Session) : Given → Result Declaration × Session
  | .declared d => (.ok d, s)
  | .json given => s.keep (s.library.resolve given)

/-- Has a component converted. -/
def convert (s : Session) (worker : Worker) (form : SourceForm) (source : String)
    (d : Declaration) : Result String × Session :=
  match worker with
  | .fresh => (((Converter.fresh s.library.options).convert form source d).1, s)
  | .kept =>
    let (fragment, kept) := s.kept.convert form source d
    (fragment, { s with kept })

/-- Answers a request. -/
def step (s : Session) : Request → Result Answer × Session
  | .put name entry => (.ok .done, s.edit fun entries => Json.insert entries name entry)
  | .remove name =>
    (.ok .done, s.edit fun entries => entries.filter fun entry => entry.1 != name)
  | .names => ((s.library.catalog.elim (.ok []) Catalog.names).map .names, s)
  | .find name =>
    let (found, s) := s.keep (s.library.find name)
    (found.map .declaration, s)
  | .forget => (.ok .done, { s with library := s.library.forget })
  | .make worker product form source given =>
    match s.resolve given with
    | (.error failure, s) => (.error failure, s)
    | (.ok d, s) =>
      let (fragment, s) := s.convert worker form source d
      ((fragment >>= product.of d).map .text, s)

/-- The answers to requests, and the session after them. -/
def run (s : Session) : List Request → List (Result Answer) × Session
  | [] => ([], s)
  | request :: rest =>
    let (answer, s) := s.step request
    let (answers, s) := s.run rest
    (answer :: answers, s)

end Session

end ServerTemplate
