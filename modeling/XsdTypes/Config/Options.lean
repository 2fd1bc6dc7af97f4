import XsdTypes.Fetch.Options
import XsdTypes.Lowering.Export

/-!
# Options of a compilation
-/

namespace XsdTypes

/-- What a compilation is asked to do. -/
structure CompileOptions where
  /-- Whether paths and `file` URLs may be read. -/
  allowLocal : Bool := true
  /-- The directory into which files are written; without it they are the result. -/
  cache : Option String := none
  /-- The host for remote URLs. -/
  forceHost : Option String := none
  /-- The port for remote URLs, which counts only together with a host. -/
  forcePort : Option Nat := none
  /-- The namespace of a first document that names none. -/
  ns : Option String := none
  /-- The name of the type of whole documents. -/
  document : String := "document"
  /-- The names that take the place of names of the schema. -/
  overrides : List (String × String) := []
  deriving DecidableEq, Repr, Inhabited

namespace CompileOptions

/-- The settings for fetching. -/
def fetchOptions (o : CompileOptions) : FetchOptions where
  allowLocal := o.allowLocal
  forceHost := o.forceHost
  forcePort := if o.forceHost.isSome then o.forcePort else none

/-- The settings for the export. -/
def exportOptions (o : CompileOptions) : Lowering.ExportOptions :=
  { document := o.document }

end CompileOptions

end XsdTypes
