import XsdTypes.Place.UnixPath
import XsdTypes.Place.Url

/-!
# Where a referenced document is

A document refers to another by a URL, by a reference that is joined to the document's own URL, or
by a path as seen from the document's directory.
-/

namespace XsdTypes.Place

/-- The URL that a text is by itself. A scheme of one letter is a drive letter, not a scheme. -/
def url? (s : String) : Option Url :=
  (Url.parse? none s).filter fun url => 1 < url.scheme.length

/-- Whether a text is a URL by itself. -/
def isUrl (s : String) : Bool :=
  (url? s).isSome

/-- The place of the document that the document at `base` refers to as `location`. -/
def resolve (base location : String) : String :=
  if isUrl location then location
  else
    match (url? base).bind fun url => Url.parse? (some url) location with
    | some url => url.text
    | none => UnixPath.resolve base location

end XsdTypes.Place
