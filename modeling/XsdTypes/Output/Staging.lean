import XsdTypes.Files.System
import XsdTypes.Lowering.Target
import XsdTypes.Model.Identifier
import XsdTypes.Text.Table
import XsdTypes.Place.UnixPath
import XsdTypes.Script.Render

/-!
# Writing files into a directory

Files are staged first. When all are there, each is written beside its place under a temporary name,
and only when that has worked for all of them are they moved into their places. If one cannot be
written, the temporary files are removed again. An index that names all modules is written with
them.
-/

namespace XsdTypes

/-- Files that wait to be written below a directory. -/
structure Staging where
  /-- The directory. -/
  root : String
  /-- The name of the index, if there is to be one. -/
  index : Option String := some "_index.d.ts"
  /-- The files by path. -/
  staged : Table := []
  deriving Repr

namespace Staging

/-- A path with a segment after it. -/
def appendSegment (path segment : String) : String :=
  if path = "" ∨ path.toList.getLast? = some '/' then path ++ segment
  else path ++ "/" ++ segment

/-- The place of a file: below the directory, and never above or beside it. -/
def placeOf (root path : String) : Except ExportError String :=
  let segments := (Text.splitAt (· == '/') path).filter (· ≠ "")
  if segments.contains "." ∨ segments.contains ".." then .error (.write path .escapes)
  else .ok (segments.foldl appendSegment root)

/-- Stages a file. -/
def stage (s : Staging) (path text : String) : Except ExportError Staging := do
  let _ ← placeOf s.root path
  return { s with staged := Table.put path text s.staged }

/-- The index: a line for each staged file, in the order of the paths. -/
def indexText (s : Staging) : String :=
  let modules := s.staged.map fun (path, _) => (Text.stripEnd Script.extension path).getD path
  let bases := modules.map fun path => Identifier.forDeclaration (Text.afterLast '/' path)
  let lines := ((Text.freshAll "" bases []).zip modules).map fun (name, path) =>
    "export * as " ++ name ++ " from \"./" ++ path ++ "\";\n"
  String.join lines

/-- The files to write: those that are staged, and the index last. -/
def files (s : Staging) : Table :=
  s.staged ++ (s.index.map fun name => (name, s.indexText)).toList

/-- The temporary name of a file. -/
def temporary (place : String) : String :=
  place ++ ".tmp"

variable {m : Type → Type} [Monad m]

/-- Writes one file under its temporary name, and gives its place. -/
def writeTemporary (fs : FileSystem m) (root path text : String) :
    m (Except ExportError String) := do
  match placeOf root path with
  | .error e => return .error e
  | .ok place =>
    let made ←
      match UnixPath.parentText? place with
      | some parent => fs.createDirectories parent
      | none => pure (.ok ())
    match made with
    | .error fault => return .error (.write path (.file fault))
    | .ok () =>
      match ← fs.writeText (temporary place) text with
      | .error fault => return .error (.write path (.file fault))
      | .ok () => return .ok place

/-- Writes files under their temporary names. The places of those that were written come with the
first error, if there is one. -/
def writeTemporaries (fs : FileSystem m) (root : String) :
    Table → m (List String × Except ExportError Unit)
  | [] => return ([], .ok ())
  | (path, text) :: files => do
    match ← writeTemporary fs root path text with
    | .error e => return ([], .error e)
    | .ok place =>
      let (places, result) ← writeTemporaries fs root files
      return (place :: places, result)

/-- Removes temporary files. -/
def removeTemporaries (fs : FileSystem m) : List String → m Unit
  | [] => return ()
  | place :: places => do
    let _ ← fs.remove (temporary place)
    removeTemporaries fs places

/-- Moves temporary files into their places, up to the first error. -/
def moveIntoPlace (fs : FileSystem m) : List String → m (Except ExportError Unit)
  | [] => return .ok ()
  | place :: places => do
    match ← fs.rename (temporary place) place with
    | .error fault => return .error (.write place (.file fault))
    | .ok () => moveIntoPlace fs places

/-- Writes all files. -/
def finish (fs : FileSystem m) (s : Staging) : m (Except ExportError Unit) := do
  match ← writeTemporaries fs s.root s.files with
  | (places, .error e) =>
    removeTemporaries fs places
    return .error e
  | (places, .ok ()) => moveIntoPlace fs places

end Staging

end XsdTypes
