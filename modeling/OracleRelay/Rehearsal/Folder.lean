/-
# A folder of files

A path leads from the folder, name by name, to a file or a folder. Outside of the folder nothing is known but that there
are folders.

Key definitions: `Rehearsal.Folder`, `Rehearsal.Folder.step`, `Rehearsal.Folder.read`.
-/
import OracleRelay.Command.Act

namespace OracleRelay
namespace Rehearsal

/-- The names of a path, and the texts of files, by their paths. -/
abbrev Folder : Type := List (List String × String)

/-- Where a path has led. -/
inductive Place where
  | folder (names : List String)
  | file (text : String)
  | outside
  deriving DecidableEq, Repr

namespace Folder

/-- The names of a path. -/
def namesOf (path : String) : List String := path.splitOn "/"

/-- The folder of some files. -/
def ofFiles (files : List (String × String)) : Folder := files.map fun (path, text) => (namesOf path, text)

/-- Where a name leads in a place. -/
def step (f : Folder) (name : String) : Place → Except ReadFault Place
  | .file _ => .error .notFolder
  | .outside => if name = "" ∨ name = "." ∨ name = ".." then .ok .outside else .error .missing
  | .folder names =>
    if name = "" ∨ name = "." then .ok (.folder names)
    else if name = ".." then .ok (if names.isEmpty then .outside else .folder names.dropLast)
    else
      let inner := names ++ [name]
      match f.lookup inner with
      | some text => .ok (.file text)
      | none => if f.any fun file => inner.isPrefixOf file.1 then .ok (.folder inner) else .error .missing

/-- The text of the file at a path. -/
def read (f : Folder) (path : String) : Except ReadFault String := do
  if path = "" then throw .missing
  let start : Place := if path.startsWith "/" then .outside else .folder []
  match ← (namesOf path).foldlM (fun place name => f.step name place) start with
  | .file text => return text
  | _ => throw .isFolder

end Folder
end Rehearsal
end OracleRelay
