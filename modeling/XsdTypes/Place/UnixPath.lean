import XsdTypes.Chars.Split
import XsdTypes.Text.Basic

/-!
# Paths

A path is absolute or not and has parts between slashes. Repeated slashes and single dots mean
nothing and are not kept. Double dots are ordinary parts until the path is normalised, which works
on the text alone and never looks at files.
-/

namespace XsdTypes

/-- A path with slashes between its parts. -/
structure UnixPath where
  /-- Whether the path starts at the root. -/
  isAbsolute : Bool
  /-- The parts, none of them empty or a single dot. -/
  parts : List String
  deriving DecidableEq, Repr, Inhabited

namespace UnixPath

/-- Reads a path. -/
def ofText (s : String) : UnixPath where
  isAbsolute := Text.startsWith "/" s
  parts := (Text.splitAt (· == '/') s).filter fun part => part ≠ "" && part ≠ "."

/-- The path with slashes between its parts. -/
def text (p : UnixPath) : String :=
  (if p.isAbsolute then "/" else "") ++ Text.join "/" p.parts

/-- The path without its last part, if it has one. -/
def parent? (p : UnixPath) : Option UnixPath :=
  if p.parts.isEmpty then none else some { p with parts := p.parts.dropLast }

/-- A path as seen from the directory `dir`: an absolute path stays what it is. -/
def join (dir p : UnixPath) : UnixPath :=
  if p.isAbsolute then p else { dir with parts := dir.parts ++ p.parts }

/-- Adds a part to the parts before it, which are given latest first. A double dot takes the part
before it away; at the root it means nothing, and at the start of a relative path it stays. -/
def pushPart (isAbsolute : Bool) (before : List String) (part : String) : List String :=
  if part = ".." then
    match before with
    | [] => if isAbsolute then [] else [".."]
    | last :: rest => if last = ".." then ".." :: last :: rest else rest
  else part :: before

/-- The path without double dots, except at the start of a relative path. -/
def normalize (p : UnixPath) : UnixPath :=
  { p with parts := (p.parts.foldl (pushPart p.isAbsolute) []).reverse }

/-- A location as seen from the file `base`, normalised and with slashes only. A base without a
part names no file, and the location then stands for itself. -/
def resolve (base location : String) : String :=
  let location := ofText location
  let joined :=
    match (ofText base).parent? with
    | some dir => dir.join location
    | none => location
  joined.normalize.text.map fun c => if c = '\\' then '/' else c

/-! ## The part above, in writing

A file system is given paths as they are written. The path of the directory above is the start of
the path itself, up to where the last part begins; what means nothing is dropped only at its end. -/

/-- Whether a piece between slashes is no part of the path. -/
def isVoid (piece : List Char) : Bool :=
  piece.isEmpty || piece == ['.']

/-- The pieces up to the last one that is a part. -/
def dropVoid (pieces : List (List Char)) : List (List Char) :=
  (pieces.reverse.dropWhile isVoid).reverse

/-- The start of a path that is a part by itself: the root, or a dot that the path begins with. -/
def headOf : List Char → List Char
  | '/' :: _ => ['/']
  | ['.'] => ['.']
  | '.' :: '/' :: _ => ['.']
  | _ => []

/-- The path of the directory above, as it is written in a path. Nothing is above the root and above
an empty path. -/
def parentText? (path : String) : Option String :=
  let cs := path.toList
  let head := headOf cs
  match dropVoid (Chars.splitAt (· == '/') (cs.drop head.length)) with
  | [] => if head = ['.'] then some "" else none
  | pieces => some (String.ofList (head ++ Chars.join ['/'] (dropVoid pieces.dropLast)))

end UnixPath

end XsdTypes
