import XsdTypes.Chars.Utf8
import XsdTypes.Files.System
import XsdTypes.Place.UnixPath

/-!
# Disks

A file system as a value: directories and files by their paths from the root, and a working
directory. A name is a list of bytes, which need not be a text. A path leads through directories
only, and double dots lead up.
-/

namespace XsdTypes

/-- The name of a file or a directory. -/
abbrev FileName := List UInt8

/-- What stands at a path. -/
inductive DiskEntry where
  /-- A file with its bytes. -/
  | file (content : List UInt8)
  | directory
  deriving DecidableEq, Repr

/-- A file system. -/
structure Disk where
  /-- What stands at which path, the root left out. -/
  entries : List (List FileName × DiskEntry) := []
  /-- The working directory. -/
  cwd : List FileName := []
  deriving DecidableEq, Repr

namespace Disk

/-- What stands at a path from the root. -/
def entry? (d : Disk) (path : List FileName) : Option DiskEntry :=
  if path.isEmpty then some .directory else d.entries.lookup path

/-- Puts something at a path. -/
def put (d : Disk) (path : List FileName) (entry : DiskEntry) : Disk :=
  let set : List (List FileName × DiskEntry) → List (List FileName × DiskEntry) :=
    List.map fun (p, e) => (p, if p = path then entry else e)
  if (d.entries.lookup path).isSome then { d with entries := set d.entries }
  else { d with entries := d.entries ++ [(path, entry)] }

/-- Takes away what stands at a path. -/
def erase (d : Disk) (path : List FileName) : Disk :=
  { d with entries := d.entries.filter fun (p, _) => p ≠ path }

/-! ## Paths -/

/-- The most bytes that a name may have. -/
def nameLimit : Nat := 255

/-- The most bytes that a path may have. -/
def pathLimit : Nat := 4095

/-- The byte between two names. -/
def slash : UInt8 := '/'.toUInt8

/-- The bytes of a text. -/
def bytesOf (s : String) : List UInt8 :=
  Chars.bytes s.toList

/-- Follows steps from a place; every place on the way has to be a directory. -/
def follow (d : Disk) : List FileName → List FileName → Except FileFault (List FileName)
  | place, [] => .ok place
  | place, step :: steps =>
    match d.entry? place with
    | none => .error .missing
    | some (.file _) => .error .notDirectory
    | some .directory =>
      if step = bytesOf "." then follow d place steps
      else if step = bytesOf ".." then follow d place.dropLast steps
      else if nameLimit < step.length then .error .longName
      else follow d (place ++ [step]) steps

/-- The names between the slashes of a path. -/
def names (path : List UInt8) : List FileName :=
  (path.splitBy fun a b => a != slash && b != slash).filter (· ≠ [slash])

/-- Whether a slash ends a path. -/
def endsInSlash (path : List UInt8) : Bool :=
  path.getLast? == some slash

/-- Follows names along a path, if it is one that can be followed. -/
def followAlong (d : Disk) (path : List UInt8) (names : List FileName) :
    Except FileFault (List FileName) :=
  if path.isEmpty then .error .missing
  else if path.contains 0 then .error (.other "file name contained an unexpected NUL byte")
  else if pathLimit < path.length then .error .longName
  else d.follow (if path.head? = some slash then [] else d.cwd) names

/-- The place that a path means. A slash at its end stands for the directory itself. -/
def locate (d : Disk) (path : List UInt8) : Except FileFault (List FileName) :=
  d.followAlong path (if endsInSlash path then names path ++ [bytesOf "."] else names path)

/-- The directory that holds the last name of a path, and that name. There is none if the path ends
in dots or is the root. -/
def split (d : Disk) (path : List UInt8) : Except FileFault (List FileName × Option FileName) := do
  let names := names path
  let directory ← d.followAlong path (names.dropLast ++ [bytesOf "."])
  return (directory, names.getLast?.filter fun name => name ≠ bytesOf "." && name ≠ bytesOf "..")

/-- Whether a path leads to a directory. -/
def isDirectory (d : Disk) (path : String) : Bool :=
  match d.locate (bytesOf path) with
  | .ok place => d.entry? place = some .directory
  | .error _ => false

/-! ## Operations -/

/-- The bytes of a file. -/
def readBytes (d : Disk) (path : List UInt8) : Except FileFault (List UInt8) := do
  match d.entry? (← d.locate path) with
  | none => throw .missing
  | some .directory => throw .isDirectory
  | some (.file content) => return content

/-- The text of a file. -/
def readText (d : Disk) (path : List UInt8) : Except FileFault String := do
  match Chars.decode? (← d.readBytes path) with
  | some text => return String.ofList text
  | none => throw .notText

/-- The disk with a file that holds a text. -/
def writeText (d : Disk) (path text : String) : Except FileFault Disk := do
  let place ← d.locate (bytesOf path)
  if d.entry? place = some .directory then throw .isDirectory
  return d.put place (.file (bytesOf text))

/-- The disk with one more directory, whose parent is there. -/
def makeDirectory (d : Disk) (path : String) : Except FileFault Disk := do
  let place ← d.locate (bytesOf path)
  if (d.entry? place).isSome then throw .exists
  return d.put place .directory

/-- Makes a directory and the missing ones above it, at most `fuel` of them. -/
def makeDirectories : Nat → String → StateM Disk (Except FileFault Unit)
  | 0, _ => return .error .missing
  | fuel + 1, path => do
    if path = "" then return .ok ()
    match (← get).makeDirectory path with
    | .ok d =>
      set d
      return .ok ()
    | .error .missing =>
      match UnixPath.parentText? path with
      | none => return .error .missing
      | some parent =>
        match ← makeDirectories fuel parent with
        | .error fault => return .error fault
        | .ok () =>
          match (← get).makeDirectory path with
          | .ok d =>
            set d
            return .ok ()
          | .error fault => return if (← get).isDirectory path then .ok () else .error fault
    | .error fault => return if (← get).isDirectory path then .ok () else .error fault

/-- The disk with a file moved. A directory is not replaced, and a slash after the name of a file is
refused. -/
def rename (d : Disk) (source target : String) : Except FileFault Disk := do
  let (sourceDirectory, oldName?) ← d.split (bytesOf source)
  let (targetDirectory, newName?) ← d.split (bytesOf target)
  match oldName?, newName? with
  | some oldName, some newName =>
    let origin ← d.follow sourceDirectory [oldName]
    match d.entry? origin with
    | none => throw .missing
    | some entry =>
      let place ← d.follow targetDirectory [newName]
      if endsInSlash (bytesOf source) || endsInSlash (bytesOf target) then throw .notDirectory
      if d.entry? place = some .directory then throw .isDirectory
      return (d.erase origin).put place entry
  | _, _ => throw .busy

/-- The disk without a file. -/
def remove (d : Disk) (path : String) : Except FileFault Disk := do
  let place ← d.locate (bytesOf path)
  match d.entry? place with
  | none => throw .missing
  | some .directory => throw .isDirectory
  | some (.file _) => return d.erase place

/-- Makes a change, if it works. -/
def change (f : Disk → Except FileFault Disk) : StateM Disk (Except FileFault Unit) := do
  match f (← get) with
  | .ok d =>
    set d
    return .ok ()
  | .error fault => return .error fault

/-- A disk as a file system. -/
def system : FileSystem (StateM Disk) where
  readText path := return (← get).readText path
  createDirectories path := makeDirectories (path.length + 2) path
  writeText path text := change fun d => d.writeText path text
  rename source target := change fun d => d.rename source target
  remove path := change fun d => d.remove path

/-- What stands below the working directory, by its path from there. -/
def listing (d : Disk) : List (String × DiskEntry) :=
  d.entries.filterMap fun (path, entry) =>
    match d.cwd.isPrefixOf? path with
    | some [] => none
    | some below =>
      some (Text.join "/" (below.map fun name => String.ofList (Chars.decodeLossy name)), entry)
    | none => none

/-- The disk with a directory and those above it. -/
def withDirectory (d : Disk) (path : List FileName) : Disk :=
  (List.range path.length).foldl
    (fun d n =>
      let above := path.take (n + 1)
      if (d.entry? above).isSome then d else d.put above .directory)
    d

end Disk

end XsdTypes
