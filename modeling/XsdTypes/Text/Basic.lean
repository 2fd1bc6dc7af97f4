import XsdTypes.Chars.Blank
import XsdTypes.Chars.Split
import XsdTypes.Chars.Numeral
import XsdTypes.Chars.Utf8

/-!
# Texts

The cutting and trimming of `XsdTypes.Chars` on strings.
-/

namespace XsdTypes.Text

/-- The string without the blanks around it. -/
def trim (s : String) : String :=
  String.ofList (Chars.trim s.toList)

/-- Whether the string has no character other than blanks. -/
def isBlank (s : String) : Bool :=
  Chars.allBlank s.toList

/-- The words of the string, in order. -/
def words (s : String) : List String :=
  (Chars.words s.toList).map String.ofList

/-- The lines of the string, in order. -/
def lines (s : String) : List String :=
  (Chars.lines s.toList).map String.ofList

/-- The parts before and after the first `sep`, if there is one. -/
def splitOnce (sep : Char) (s : String) : Option (String × String) :=
  (Chars.splitOnce sep s.toList).map fun (before, after) =>
    (String.ofList before, String.ofList after)

/-- The pieces between the separators, empty ones included. -/
def splitAt (isSep : Char → Bool) (s : String) : List String :=
  (Chars.splitAt isSep s.toList).map String.ofList

/-- The strings put together with `sep` between them. -/
def join (sep : String) (parts : List String) : String :=
  String.ofList (Chars.join sep.toList (parts.map String.toList))

/-- What follows the last `sep`, or the whole string if there is none. -/
def afterLast (sep : Char) (s : String) : String :=
  String.ofList (Chars.afterLast sep s.toList)

/-- The string after `start`, if the string starts with it. -/
def strip (start s : String) : Option String :=
  (Chars.strip start.toList s.toList).map String.ofList

/-- The string before `ending`, if the string ends with it. -/
def stripEnd (ending s : String) : Option String :=
  (Chars.stripEnd ending.toList s.toList).map String.ofList

/-- Whether the string starts with `start`. -/
def startsWith (start s : String) : Bool :=
  start.toList.isPrefixOf s.toList

/-- The string `count` times in a row. -/
def times (count : Nat) (s : String) : String :=
  String.ofList (List.replicate count s.toList).flatten

end XsdTypes.Text
