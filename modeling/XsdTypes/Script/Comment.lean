import XsdTypes.Text.Basic

/-!
# Comments

Documentation is written as a comment before what it documents. The mark that would end the comment
is broken up, so that the comment ends only where it should.
-/

namespace XsdTypes.Script

/-- The text with a backslash in every mark that ends a comment. -/
def breakEndMarks : List Char → List Char
  | '*' :: '/' :: cs => '*' :: '\\' :: '/' :: breakEndMarks cs
  | c :: cs => c :: breakEndMarks cs
  | [] => []

/-- So many tabs. -/
def tabs (indent : Nat) : List Char :=
  List.replicate indent '\t'

/-- The comment for a text that is not blank: one line, or a block with a line for each line of the
text. -/
def block (indent : Nat) (text : List Char) : List Char :=
  match Chars.lines (breakEndMarks text) with
  | [line] => tabs indent ++ "/** ".toList ++ line ++ " */\n".toList
  | lines =>
    tabs indent ++ "/**\n".toList ++
      (lines.flatMap fun line =>
        Chars.trimEnd (tabs indent ++ " * ".toList ++ line) ++ ['\n']) ++
      tabs indent ++ " */\n".toList

/-- The comment for a documentation, empty if there is none. -/
def comment (indent : Nat) (documentation : Option String) : String :=
  match documentation with
  | none => ""
  | some text => if Text.isBlank text then "" else String.ofList (block indent text.toList)

end XsdTypes.Script
