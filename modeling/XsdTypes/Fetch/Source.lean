import XsdTypes.Fetch.Options
import XsdTypes.Schema.Error

/-!
# Where documents come from

A source answers a URL with a text or with the reason why there is none. Documents come from
memory, which counts how often each is asked for, or from files. Any source can be given a memory of
its own, so that it is not asked twice for what it has once answered.
-/

namespace XsdTypes

/-- Something that answers URLs. -/
abbrev DocumentSource (m : Type → Type) := String → m (Except FetchFault String)

/-! ## Memory -/

/-- Documents held in memory. -/
structure Shelf where
  /-- The texts by URL. -/
  documents : List (String × String) := []
  /-- The URLs that have been asked for, the latest first. -/
  asked : List String := []
  deriving Repr, Inhabited

namespace Shelf

/-- Puts a document on the shelf; an earlier one with its URL is no longer found. -/
def put (shelf : Shelf) (url text : String) : Shelf :=
  { shelf with documents := (url, text) :: shelf.documents }

/-- How often a URL has been asked for. -/
def timesAsked (shelf : Shelf) (url : String) : Nat :=
  shelf.asked.count url

/-- Answers from the shelf. -/
def source : DocumentSource (StateM Shelf) := fun url => do
  modify fun shelf => { shelf with asked := url :: shelf.asked }
  match (← get).documents.lookup url with
  | some text => return .ok text
  | none => return .error .unknown

/-- How many requests the documents can give rise to: a text asks for fewer documents than it has
characters, and the first document is asked for by no text. -/
def requestLimit (shelf : Shelf) : Nat :=
  shelf.documents.foldl (fun count (_, text) => count + text.length) 1

end Shelf

variable {m : Type → Type} [Monad m]

/-! ## Caches -/

/-- The answers that have been given, by URL. -/
abbrev Cache := List (String × String)

/-- Asks a source only for what is not in the cache, and keeps its answer there. -/
def DocumentSource.cached (source : DocumentSource m) : DocumentSource (StateT Cache m) :=
  fun url => do
    match (← get).lookup url with
    | some text => return .ok text
    | none =>
      match ← source url with
      | .ok text =>
        modify fun cache => (url, text) :: cache
        return .ok text
      | .error fault => return .error fault

/-! ## Files -/

/-- The path of the file that a URL or a path names. -/
def localPath? (url : String) : Option (List UInt8) :=
  if Text.startsWith "file:" url then (Url.parse? none url).bind Url.filePath?
  else some (Chars.bytes url.toList)

/-- Answers from files, if the settings allow it. -/
def fileSource (readText : List UInt8 → m (Except FileFault String)) (options : FetchOptions) :
    DocumentSource m := fun url =>
  if !options.allowLocal then pure (.error .localDisabled)
  else
    match localPath? url with
    | none => pure (.error .badFileUrl)
    | some path => do return (← readText path).mapError .file

/-- Whether a document is on another machine. -/
def isRemote (url : String) : Bool :=
  Text.startsWith "http://" url || Text.startsWith "https://" url

/-- Answers from files, and refuses what is remote. -/
def defaultSource (readText : List UInt8 → m (Except FileFault String)) (options : FetchOptions) :
    DocumentSource m := fun url =>
  if isRemote url then pure (.error .remote) else fileSource readText options url

end XsdTypes
