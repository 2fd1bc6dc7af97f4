import XsdTypes.Place.Resolve

/-!
# Settings for fetching

Whether local files may be read, and a host and a port that remote documents are taken from instead
of their own.
-/

namespace XsdTypes

/-- The settings that every fetch obeys. -/
structure FetchOptions where
  /-- Whether paths and `file` URLs may be read. -/
  allowLocal : Bool := true
  /-- The host for remote URLs. -/
  forceHost : Option String := none
  /-- The port for remote URLs. -/
  forcePort : Option Nat := none
  deriving DecidableEq, Repr, Inhabited

/-- A remote URL with the host and the port that the settings force on it. A text that is no such
URL, or for which the host does not do, stays as it is. -/
def FetchOptions.redirect (o : FetchOptions) (s : String) : String :=
  if o.forceHost.isNone ∧ o.forcePort.isNone then s
  else
    let redirected? : Option Url := do
      let url ← Url.parse? none s
      if url.scheme ≠ "http".toList ∧ url.scheme ≠ "https".toList then none
      let url ←
        match o.forceHost with
        | some host => url.withHost? host
        | none => some url
      return match o.forcePort with
        | some port => url.withPort port
        | none => url
    (redirected?.map Url.text).getD s

end XsdTypes
