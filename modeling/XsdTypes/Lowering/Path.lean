import XsdTypes.Text.Basic

/-!
# Paths of modules

The module of a namespace stands at a path made from the URI of the namespace.
-/

namespace XsdTypes.Lowering

/-- A segment of a URI as a segment of a path: without the extension of schema documents, and with
low lines for all characters that could do harm in a path. -/
def pathSegment (segment : List Char) : List Char :=
  ((Chars.stripEnd ['.', 'x', 's', 'd'] segment).getD segment).map fun c =>
    if c.isAlphanum || c == '.' || c == '-' || c == '_' then c else '_'

/-- The path of the module of a namespace: what follows the scheme, cut at slashes, colons and
number signs. -/
def modulePath (uri : String) : String :=
  let rest :=
    match Chars.splitOnceAt [':', '/', '/'] uri.toList with
    | some (_, rest) => rest
    | none => uri.toList
  let segments := (Chars.splitAt (fun c => c == '/' || c == ':' || c == '#') rest).filter
    fun segment => segment ≠ [] && segment ≠ ['.'] && segment ≠ ['.', '.']
  if segments.isEmpty then "default"
  else String.ofList (Chars.join ['/'] (segments.map pathSegment))

end XsdTypes.Lowering
