/-!
# Folders

A folder of files and folders, as it is found at one moment, and the paths in it. A path goes from
folder to folder; two dots lead to the folder around one, which for the outermost is outside.
Nothing outside is known but that there are folders.
-/

namespace ServerTemplate

/-- A path: the folders that it goes through and what it leads to. -/
structure Path where
  /-- Whether it begins at the root of all folders. -/
  absolute : Bool
  steps : List String
  deriving DecidableEq, Repr

namespace Path

/-- The path that a text denotes. Empty steps and single dots lead nowhere and are dropped. -/
def ofText (text : String) : Path where
  absolute := text.toList.head? == some '/'
  steps := (text.splitOn "/").filter fun step => step != "" && step != "."

/-- The text of a path. -/
def text (p : Path) : String :=
  let steps := "/".intercalate p.steps
  if p.absolute then "/" ++ steps else if p.steps.isEmpty then "." else steps

/-- The path one step further. -/
def step (p : Path) (name : String) : Path := { p with steps := p.steps ++ [name] }

end Path

/-- A folder with all that is in it. Every file and folder is known by the steps that lead to it. -/
structure Folder where
  /-- The files with their octets. -/
  files : List (List String × List Nat) := []
  folders : List (List String) := []

/-- Where a path leads. -/
inductive Location where
  | inside (steps : List String)
  | outside
  deriving DecidableEq, Repr

namespace Folder

/-- Whether steps lead to a folder: one that is there for itself or around something else. -/
def hasFolder (f : Folder) (steps : List String) : Bool :=
  steps.isEmpty || f.folders.any (fun folder => steps.isPrefixOf folder)
    || f.files.any fun file => steps.isPrefixOf file.1 && steps != file.1

/-- Whether a location is a folder. -/
def isFolderAt (f : Folder) : Location → Bool
  | .inside steps => f.hasFolder steps
  | .outside => true

/-- Where steps lead from a location. All but the last must lead to folders. -/
def walk (f : Folder) (origin : Location) : List String → Option Location
  | [] => some origin
  | name :: rest =>
    if !f.isFolderAt origin then none
    else
      match origin with
      | .outside => if name == ".." then f.walk .outside rest else none
      | .inside [] => if name == ".." then f.walk .outside rest else f.walk (.inside [name]) rest
      | .inside steps =>
        if name == ".." then f.walk (.inside steps.dropLast) rest
        else f.walk (.inside (steps ++ [name])) rest

/-- Where a path leads. An absolute path leads to nothing that is known. -/
def locate (f : Folder) (p : Path) : Option Location :=
  if p.absolute then none else f.walk (.inside []) p.steps

/-- Whether a path leads to a folder. -/
def isFolder (f : Folder) (p : Path) : Bool := (f.locate p).any f.isFolderAt

/-- The octets of the file that a path leads to. -/
def file? (f : Folder) (p : Path) : Option (List Nat) :=
  match f.locate p with
  | some (.inside steps) => (f.files.find? fun file => file.1 == steps).map (·.2)
  | _ => none

end Folder

end ServerTemplate
