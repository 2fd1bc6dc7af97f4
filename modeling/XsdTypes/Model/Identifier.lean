import XsdTypes.Text.Basic

/-!
# Identifiers

A name of a schema becomes an identifier of the target language by leaving out what cannot stand in
one. A name of a declaration must not be a reserved word either; a name of a member may be one.
-/

namespace XsdTypes.Identifier

/-- Whether a character may start an identifier. -/
def isStart (c : Char) : Bool :=
  c.isAlpha || c == '_' || c == '$'

/-- Whether a character may stand in an identifier. -/
def isPart (c : Char) : Bool :=
  c.isAlphanum || c == '_' || c == '$'

/-- Whether a text has the form of an identifier. -/
def isWord : List Char → Bool
  | [] => false
  | c :: cs => isStart c && cs.all isPart

/-- The words that a declaration must not have as its name. -/
def reserved : List String :=
  ["any", "as", "boolean", "break", "case", "catch", "class", "const", "constructor", "continue",
    "debugger", "declare", "default", "delete", "do", "else", "enum", "export", "extends", "false",
    "finally", "for", "from", "function", "get", "if", "implements", "import", "in", "instanceof",
    "interface", "let", "module", "namespace", "new", "null", "number", "of", "package", "private",
    "protected", "public", "require", "return", "set", "static", "string", "super", "switch",
    "symbol", "this", "throw", "true", "try", "type", "typeof", "var", "void", "while", "with",
    "yield"]

/-- Whether a name does for a declaration as it is. -/
def isValid (name : String) : Bool :=
  isWord name.toList && !reserved.contains name

/-- The name without what cannot stand in an identifier. Something is put in front of a digit and in
the place of nothing. -/
def strip (name : String) : String :=
  match name.toList.filter isPart with
  | [] => "_"
  | c :: cs => String.ofList (if c.isDigit then '_' :: c :: cs else c :: cs)

/-- The name of a member for a name of the schema. -/
def forProperty (name : String) : String :=
  if isWord name.toList then name else strip name

/-- The name of a declaration for a name of the schema; a reserved word gets a low line. -/
def forDeclaration (name : String) : String :=
  if isValid name then name
  else
    let stripped := strip name
    if reserved.contains stripped then stripped ++ "_" else stripped

end XsdTypes.Identifier
