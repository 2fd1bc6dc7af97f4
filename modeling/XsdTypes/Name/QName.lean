import XsdTypes.Text.Basic

/-!
# Qualified names

A name is a local part in a namespace. The namespace is given by its URI, and the empty URI stands
for no namespace, so two names are the same exactly when both parts are.
-/

namespace XsdTypes

/-- A name in a namespace. -/
structure QName where
  /-- The URI of the namespace, empty for no namespace. -/
  uri : String
  /-- The name within the namespace. -/
  localName : String
  deriving DecidableEq, Repr, Inhabited

namespace QName

/-- The namespace of XML Schema. -/
def schemaUri : String := "http://www.w3.org/2001/XMLSchema"

/-- The namespace of the reserved `xml` attributes. -/
def xmlUri : String := "http://www.w3.org/XML/1998/namespace"

/-- A name without a namespace. -/
def bare (localName : String) : QName := ⟨"", localName⟩

/-- A name of XML Schema itself. -/
def schema (localName : String) : QName := ⟨schemaUri, localName⟩

/-- The namespace, if the name has one. -/
def uri? (q : QName) : Option String :=
  if q.uri.isEmpty then none else some q.uri

/-- The name with its URI in braces before it, or the local part alone without a namespace. -/
def full (q : QName) : String :=
  if q.uri.isEmpty then q.localName else "\x7b" ++ q.uri ++ "\x7d" ++ q.localName

/-- Reads a name as `full` writes it. Without a closing brace the whole text is the local part. -/
def ofFull (s : String) : QName :=
  match s.toList with
  | '{' :: rest =>
    match Chars.splitOnce '}' rest with
    | some (uri, localName) => ⟨String.ofList uri, String.ofList localName⟩
    | none => bare s
  | _ => bare s

/-- Names are ordered by namespace, then by local part, characters by code point; a name without a
namespace comes before the others. -/
def order (a b : QName) : Ordering :=
  (compare a.uri b.uri).then (compare a.localName b.localName)

end QName

end XsdTypes
