/-!
# Blank characters

Names, numbers and texts of a schema are read with surrounding white space removed. White space
is the Unicode property `White_Space`, so a no-break space or an ideographic space counts, and not
only the four characters that separate the parts of a tag.
-/

namespace XsdTypes.Chars

/-- The characters with the Unicode property `White_Space`. -/
def isBlank (c : Char) : Bool :=
  let n := c.toNat
  (9 ≤ n && n ≤ 13) || n == 0x20 || n == 0x85 || n == 0xA0 || n == 0x1680 ||
    (0x2000 ≤ n && n ≤ 0x200A) || n == 0x2028 || n == 0x2029 || n == 0x202F ||
    n == 0x205F || n == 0x3000

/-- The text without the blanks it starts with. -/
def trimStart (cs : List Char) : List Char :=
  cs.dropWhile isBlank

/-- The text without the blanks it ends with. -/
def trimEnd (cs : List Char) : List Char :=
  (cs.reverse.dropWhile isBlank).reverse

/-- The text without the blanks around it. -/
def trim (cs : List Char) : List Char :=
  trimEnd (trimStart cs)

/-- Whether the text has no character other than blanks. -/
def allBlank (cs : List Char) : Bool :=
  cs.all isBlank

/-- The words of a text: its longest runs of characters that are not blank. `run` holds the
characters of the word being read, latest first. -/
def wordsFrom (run : List Char) : List Char → List (List Char)
  | [] => if run.isEmpty then [] else [run.reverse]
  | c :: cs =>
    if isBlank c then
      if run.isEmpty then wordsFrom [] cs else run.reverse :: wordsFrom [] cs
    else wordsFrom (c :: run) cs

/-- The words of a text, in order. -/
def words (cs : List Char) : List (List Char) :=
  wordsFrom [] cs

end XsdTypes.Chars
