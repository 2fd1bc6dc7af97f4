/-!
# Primitive types

The types of the target language that the built-in types of XML Schema become.
-/

namespace XsdTypes

/-- A primitive type of the target language. -/
inductive Primitive where
  | string
  | number
  | boolean
  | date
  | any
  deriving DecidableEq, Repr, Inhabited

/-- The word for a primitive type. -/
def Primitive.keyword : Primitive → String
  | .string => "string"
  | .number => "number"
  | .boolean => "boolean"
  | .date => "Date"
  | .any => "any"

end XsdTypes
