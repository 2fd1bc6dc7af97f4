import XsdTypes.Model.Primitive

/-!
# What is declared before any document

The built-in types of XML Schema with the primitive types they become, and the attributes of the
`xml` namespace.
-/

namespace XsdTypes.Builtin

/-- The built-in types, in the order in which a graph holds them. -/
def types : List (String × Primitive) :=
  [("anyType", .any), ("anySimpleType", .any),
    -- texts
    ("string", .string), ("normalizedString", .string), ("token", .string),
    ("language", .string), ("Name", .string), ("NCName", .string), ("NMTOKEN", .string),
    ("NMTOKENS", .string), ("ID", .string), ("IDREF", .string), ("IDREFS", .string),
    ("ENTITY", .string), ("ENTITIES", .string), ("QName", .string), ("NOTATION", .string),
    ("anyURI", .string), ("base64Binary", .string), ("hexBinary", .string),
    ("duration", .string), ("gYear", .string), ("gYearMonth", .string), ("gMonth", .string),
    ("gMonthDay", .string), ("gDay", .string),
    -- numbers
    ("decimal", .number), ("float", .number), ("double", .number), ("integer", .number),
    ("nonPositiveInteger", .number), ("negativeInteger", .number),
    ("nonNegativeInteger", .number), ("positiveInteger", .number), ("long", .number),
    ("int", .number), ("short", .number), ("byte", .number), ("unsignedLong", .number),
    ("unsignedInt", .number), ("unsignedShort", .number), ("unsignedByte", .number),
    -- truth values and dates
    ("boolean", .boolean), ("date", .date), ("dateTime", .date), ("time", .date)]

/-- The attributes of the `xml` namespace, in the order in which a graph holds them. -/
def xmlAttributes : List String :=
  ["lang", "space", "base", "id"]

/-- The primitive type that a built-in type becomes. -/
def primitive? (localName : String) : Option Primitive :=
  types.lookup localName

end XsdTypes.Builtin
