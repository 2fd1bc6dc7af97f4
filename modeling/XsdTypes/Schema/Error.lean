import XsdTypes.Files.Fault
import XsdTypes.Markup.Fault
import XsdTypes.Name.Bindings
import XsdTypes.Schema.Scope
import XsdTypes.Source.Location

/-!
# What goes wrong with schema documents

The causes for which loading schema documents fails, and what the report of each says. Only a tag
that does not belong where it stands lets loading go on: it is recorded and passed over.
-/

namespace XsdTypes

/-- Why a document cannot be had. -/
inductive FetchFault where
  /-- No document is registered under the URL. -/
  | unknown
  /-- The URL names a local file, and local files are not allowed. -/
  | localDisabled
  /-- The URL has the scheme `file` and names no file. -/
  | badFileUrl
  /-- The URL is remote. -/
  | remote
  /-- The file could not be read. -/
  | file (fault : FileFault)
  /-- Loading ended without the document it started from. -/
  | notLoaded
  /-- More documents are asked for than the limit allows. -/
  | tooMany
  deriving DecidableEq, Repr

/-- What the report of a failed fetch says. -/
def FetchFault.message : FetchFault → String
  | .unknown => "document not found"
  | .localDisabled => "local paths are disabled"
  | .badFileUrl => "invalid file URL"
  | .remote => "remote schemas need the `http` feature"
  | .file fault => fault.message
  | .notLoaded => "entry document was not loaded"
  | .tooMany => "too many documents"

/-- Why a text is no schema document. -/
inductive DocumentFault where
  /-- The markup is refused. -/
  | markup (fault : Markup.Fault)
  /-- The outermost tag is not the `schema` tag. -/
  | foreignRoot (name : String)
  /-- There is no tag at all. -/
  | noSchema
  /-- The text ends within a tag. -/
  | unfinished
  deriving DecidableEq, Repr

/-- What the report of a refused document says. -/
def DocumentFault.message : DocumentFault → String
  | .markup fault => fault.message
  | .foreignRoot name => "document root <" ++ name ++ "> is not an XML Schema"
  | .noSchema => "document has no schema element"
  | .unfinished => "unexpected end of document"

/-- Why loading fails. -/
inductive SchemaError where
  /-- A name has a prefix without a meaning. -/
  | unboundPrefix (cause : UnboundPrefix) (place : Location)
  /-- A tag does not belong into the tag around it. -/
  | unexpectedTag (tag parent : String) (place : Location)
  /-- A name is declared twice. -/
  | duplicate (space : SymbolSpace) (name : QName) (place : Location)
  /-- A reference means nothing. -/
  | unresolved (space : SymbolSpace) (name : QName) (place : Location)
  /-- A document cannot be had; `origin` is the tag that asks for it. -/
  | fetch (url : String) (cause : FetchFault) (origin : Option Location)
  /-- A text is no schema document. -/
  | malformed (place : Location) (cause : DocumentFault)
  /-- An attribute is missing or its value is refused. -/
  | invalidAttribute (name value : String) (place : Location)
  deriving DecidableEq, Repr

namespace SchemaError

/-- What the report of an error says. -/
def message : SchemaError → String
  | .unboundPrefix cause place =>
    "Unbound namespace prefix '" ++ cause.pfx ++ "' in '" ++ cause.name ++ "' at " ++ place.text
  | .unexpectedTag tag parent place =>
    "Unexpected <" ++ tag ++ "> inside <" ++ parent ++ "> at " ++ place.text
  | .duplicate space name place =>
    "Duplicate " ++ space.text ++ " '" ++ name.full ++ "' at " ++ place.text
  | .unresolved space name place =>
    "Unresolved " ++ space.text ++ " '" ++ name.full ++ "' at " ++ place.text
  | .fetch url cause origin =>
    let reference :=
      match origin with
      | some place => " (referenced at " ++ place.text ++ ")"
      | none => ""
    "Failed to fetch " ++ url ++ reference ++ ": " ++ cause.message
  | .malformed place cause => "Malformed XML at " ++ place.text ++ ": " ++ cause.message
  | .invalidAttribute name value place =>
    "Invalid value '" ++ value ++ "' for attribute '" ++ name ++ "' at " ++ place.text

/-- Whether loading goes on after the error. -/
def isRecoverable : SchemaError → Bool
  | .unexpectedTag .. => true
  | _ => false

end SchemaError

end XsdTypes
