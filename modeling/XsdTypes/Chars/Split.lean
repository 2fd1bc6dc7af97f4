/-!
# Cutting texts

The ways a text is cut into pieces: at the first separator, at every separator, into lines. All of
them recurse on the text itself.
-/

namespace XsdTypes.Chars

/-- The parts before and after the first `sep`, if there is one. -/
def splitOnce (sep : Char) : List Char → Option (List Char × List Char)
  | [] => none
  | c :: cs =>
    if c = sep then some ([], cs)
    else (splitOnce sep cs).map fun (before, after) => (c :: before, after)

/-- The pieces between the separators, empty ones included; there is always at least one. -/
def splitAt (isSep : Char → Bool) : List Char → List (List Char)
  | [] => [[]]
  | c :: cs =>
    if isSep c then [] :: splitAt isSep cs
    else
      match splitAt isSep cs with
      | [] => [[c]]
      | piece :: pieces => (c :: piece) :: pieces

/-- The pieces put back together with `sep` between them. -/
def join (sep : List Char) : List (List Char) → List Char
  | [] => []
  | [piece] => piece
  | piece :: pieces => piece ++ sep ++ join sep pieces

/-- The text after `start`, if the text starts with it. -/
def strip (start : List Char) (cs : List Char) : Option (List Char) :=
  start.isPrefixOf? cs

/-- The text before `ending`, if the text ends with it. -/
def stripEnd (ending : List Char) (cs : List Char) : Option (List Char) :=
  (ending.reverse.isPrefixOf? cs.reverse).map List.reverse

/-- Whether `part` occurs at some place of the text. -/
def contains (part : List Char) : List Char → Bool
  | [] => part.isEmpty
  | c :: cs => part.isPrefixOf (c :: cs) || contains part cs

/-- The parts before and after the first occurrence of `sep`, if there is one. -/
def splitOnceAt (sep : List Char) : List Char → Option (List Char × List Char)
  | [] => if sep.isEmpty then some ([], []) else none
  | c :: cs =>
    match sep.isPrefixOf? (c :: cs) with
    | some after => some ([], after)
    | none => (splitOnceAt sep cs).map fun (before, after) => (c :: before, after)

/-- What follows the last `sep`, or the whole text if there is none. -/
def afterLast (sep : Char) (cs : List Char) : List Char :=
  (cs.reverse.takeWhile (· != sep)).reverse

/-- The lines of a text. A line ends at a line feed, which it loses together with one carriage
return before it; characters after the last line feed are a line of their own. -/
def linesFrom (run : List Char) : List Char → List (List Char)
  | [] => if run.isEmpty then [] else [run.reverse]
  | c :: cs =>
    if c = '\n' then
      (match run with
        | '\r' :: run => run.reverse
        | run => run.reverse) :: linesFrom [] cs
    else linesFrom (c :: run) cs

/-- The lines of a text, in order. -/
def lines (cs : List Char) : List (List Char) :=
  linesFrom [] cs

end XsdTypes.Chars
