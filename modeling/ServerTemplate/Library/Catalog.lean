import ServerTemplate.Component.Declaration
import ServerTemplate.Diagnostic.Failure
import ServerTemplate.Library.Folder
import ServerTemplate.Text.Encoding

/-!
# Catalogs

A catalog gives the declaration of a component by its name. It is held in memory or in files, each a
JSON record of declarations. Files are searched in order, so that one overrides those behind it; a
file that is missing is passed over, and one that cannot be read stops the search.
-/

namespace ServerTemplate

/-- Where declarations are kept. -/
inductive Catalog where
  | memory (entries : List (String × Json))
  | files (folder : Folder) (paths : List Path) (encoding : Text.Encoding)

namespace Catalog

/-- The failure to find a declaration. -/
def notDeclared (name place : String) (available : List String) : Failure :=
  .diagnosed (Declaration.failure (.notDeclared name place available) none name)

/-- The declaration of an entry with a name. -/
def declared (name : String) (entry : Json) : Result Declaration :=
  Declaration.ofJson entry (some (.str name))

/-! ### Files -/

/-- The name of the file that stands for a folder. -/
def fileName : String := "metadata.json"

/-- The catalog in files of a folder. In place of a file its folder may be given. -/
def ofFiles (folder : Folder) (paths : List String) (encoding : Text.Encoding) : Catalog :=
  let file (text : String) : Path :=
    let path := Path.ofText text
    if folder.isFolder path then path.step fileName else path
  .files folder (paths.map file) encoding

/-- The entries of a file, none if it is missing. -/
def entriesOf? (folder : Folder) (encoding : Text.Encoding) (path : Path) :
    Result (Option (List (String × Json))) :=
  match folder.file? path with
  | none => .ok none
  | some octets =>
    match encoding.decode octets with
    | none => .error (.undecodable path.text)
    | some chars =>
      match Json.read (String.ofList (Text.unifyLineEnds chars)) with
      | .ok (.record entries) => .ok (some entries)
      | .ok _ =>
        .error (.diagnosed (Declaration.failure (.fileNotARecord path.text) none path.text))
      | .error (.tooManyDigits, _) => .error .tooManyDigits
      | .error (defect, line) =>
        .error (.diagnosed
          ⟨.declaration (.invalidJson path.text defect) path.text, { line := some line }⟩)

/-- The first entry with a name in files, or else all names in them. -/
def search (folder : Folder) (encoding : Text.Encoding) (name : String) :
    List Path → Result (Except (List String) Json)
  | [] => .ok (.error [])
  | path :: rest => do
    match ← entriesOf? folder encoding path with
    | none => search folder encoding name rest
    | some entries =>
      match Json.lookup entries name with
      | some entry => return .ok entry
      | none =>
        match ← search folder encoding name rest with
        | .ok entry => return .ok entry
        | .error names => return .error (entries.map (·.1) ++ names)

/-- All names in files. -/
def namesIn (folder : Folder) (encoding : Text.Encoding) : List Path → Result (List String)
  | [] => .ok []
  | path :: rest => do
    let entries := (← entriesOf? folder encoding path).getD []
    return entries.map (·.1) ++ (← namesIn folder encoding rest)

/-! ### Look-up -/

/-- The declaration of a component. -/
def find (c : Catalog) (name : String) : Result Declaration :=
  match c with
  | memory entries =>
    match Json.lookup entries name with
    | some entry => declared name entry
    | none => .error (notDeclared name "" (Text.sorted (entries.map (·.1))))
  | files folder paths encoding => do
    match ← search folder encoding name paths with
    | .ok entry => declared name entry
    | .error names =>
      throw (notDeclared name (", ".intercalate (paths.map Path.text)) (Text.sortedDistinct names))

/-- The names of all declared components in order. -/
def names (c : Catalog) : Result (List String) :=
  match c with
  | memory entries => .ok (Text.sorted (entries.map (·.1)))
  | files folder paths encoding =>
    return Text.sortedDistinct (← namesIn folder encoding paths)

end Catalog

end ServerTemplate
