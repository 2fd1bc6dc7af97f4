import XsdTypes.Name.QName

/-!
# Prefix bindings

Every open tag has a frame with the prefixes it declares. A prefix means what the nearest frame
says, and within a frame what was declared last. The empty prefix is the default namespace, and
binding a prefix to the empty URI takes its meaning away. The prefix `xml` is always bound.
-/

namespace XsdTypes

/-- A prefix without a meaning, and the name it was met in. -/
structure UnboundPrefix where
  /-- The prefix. -/
  pfx : String
  /-- The whole name, trimmed. -/
  name : String
  deriving DecidableEq, Repr

/-- What the report of an unbound prefix says. -/
def UnboundPrefix.message (u : UnboundPrefix) : String :=
  "unbound namespace prefix '" ++ u.pfx ++ "' in '" ++ u.name ++ "'"

/-- The prefixes of one tag with their URIs, the latest first. -/
abbrev BindingFrame := List (String × String)

/-- The prefixes in force. -/
structure Bindings where
  /-- The frame of the innermost open tag. -/
  top : BindingFrame
  /-- The frames of the tags around it, innermost first. -/
  below : List BindingFrame
  deriving DecidableEq, Repr

namespace Bindings

/-- Only the reserved prefix is bound. -/
def initial : Bindings := ⟨[("xml", QName.xmlUri)], []⟩

/-- Opens a frame for a tag. -/
def push (b : Bindings) : Bindings := ⟨[], b.top :: b.below⟩

/-- Drops the frame of a closed tag; the outermost frame stays. -/
def pop (b : Bindings) : Bindings :=
  match b.below with
  | [] => b
  | frame :: frames => ⟨frame, frames⟩

/-- Gives a prefix a meaning in the innermost frame. -/
def bind (b : Bindings) (pfx uri : String) : Bindings :=
  { b with top := (pfx, uri) :: b.top }

/-- All declarations, nearest first. -/
def declared (b : Bindings) : List (String × String) :=
  b.top ++ b.below.flatten

/-- What a prefix is bound to. -/
def lookup (b : Bindings) (pfx : String) : Option String :=
  b.declared.lookup pfx

/-- The default namespace, empty if there is none. -/
def defaultUri (b : Bindings) : String :=
  (b.lookup "").getD ""

/-- The name that a prefixed or plain text means. A plain name takes the default namespace, and so
does a text that starts with a colon. -/
def resolve (b : Bindings) (raw : String) : Except UnboundPrefix QName :=
  let raw := Text.trim raw
  match Text.splitOnce ':' raw with
  | some (pfx, localName) =>
    if pfx.isEmpty then .ok ⟨b.defaultUri, raw⟩
    else
      match b.lookup pfx with
      | some uri => if uri.isEmpty then .error ⟨pfx, raw⟩ else .ok ⟨uri, localName⟩
      | none => .error ⟨pfx, raw⟩
  | none => .ok ⟨b.defaultUri, raw⟩

/-- The name written with a prefix that means its namespace here, if there is a way to write it. A
prefix that a nearer frame has bound to something else does not serve. -/
def prefixed (b : Bindings) (q : QName) : Option String :=
  if q.uri = b.defaultUri then some q.localName
  else if q.uri.isEmpty then none
  else
    (b.declared.find? fun (pfx, _) => !pfx.isEmpty && b.lookup pfx == some q.uri).map
      fun (pfx, _) => pfx ++ ":" ++ q.localName

end Bindings

end XsdTypes
