import XsdTypes.Text.Basic

/-!
# Texts by key

A table is a list of texts with their keys, in the order of the keys and with no key twice.
-/

namespace XsdTypes

/-- Texts by key. -/
abbrev Table := List (String × String)

namespace Table

/-- Puts a text at a key, in the place of the one that is there. -/
def put (key text : String) : Table → Table
  | [] => [(key, text)]
  | (k, t) :: entries =>
    if key < k then (key, text) :: (k, t) :: entries
    else if key = k then (key, text) :: entries
    else (k, t) :: put key text entries

/-- Puts entries into a table one after the other, so that of two with one key the later stays. -/
def putAll (entries : List (String × String)) (table : Table) : Table :=
  entries.foldl (fun table (key, text) => table.put key text) table

end Table

end XsdTypes
