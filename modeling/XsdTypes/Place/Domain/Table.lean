import XsdTypes.Chars.Blank
import XsdTypes.Chars.Numeral
import XsdTypes.Chars.Split

/-!
# Tables of characters

What is known of the characters that a domain may hold is written as tables. A table is a text of
entries with blanks between them. An entry is a character, or a range with `-` between its ends, or
every second character of a range with `~` between its ends; all are written by their numbers in
hexadecimal digits. Values may follow after `>`, with commas between them.
-/

namespace XsdTypes.Domain

/-- An entry of a table. -/
structure Entry where
  /-- The first character. -/
  first : Nat
  /-- The last character. -/
  last : Nat
  /-- The distance from one character to the next. -/
  step : Nat := 1
  /-- What is said of the characters. -/
  values : List Nat := []
  deriving DecidableEq, Repr

/-- A table of characters. -/
abbrev Table := List Entry

/-- The number that digits stand for. -/
def number (digits : List Char) : Nat :=
  ((Chars.numeral 16 0x10FFFF digits).toOption).getD 0

/-- Reads the characters of an entry. -/
def Entry.ofRange (cs : List Char) : Entry :=
  match Chars.splitOnce '-' cs, Chars.splitOnce '~' cs with
  | some (first, last), _ => { first := number first, last := number last }
  | none, some (first, last) => { first := number first, last := number last, step := 2 }
  | none, none => { first := number cs, last := number cs }

/-- Reads an entry. -/
def Entry.read (cs : List Char) : Entry :=
  match Chars.splitOnce '>' cs with
  | some (range, values) =>
    { Entry.ofRange range with values := (Chars.splitAt (· == ',') values).map number }
  | none => Entry.ofRange cs

/-- Reads a table. -/
def Table.read (text : String) : Table :=
  (Chars.words text.toList).map Entry.read

/-- Whether an entry is about a character. -/
def Entry.holds (e : Entry) (c : Char) : Bool :=
  e.first ≤ c.toNat && c.toNat ≤ e.last && (c.toNat - e.first) % e.step == 0

/-- Whether a character is in the table. -/
def Table.holds (t : Table) (c : Char) : Bool :=
  t.any (·.holds c)

/-- The first value for a character, zero for one that is not in the table. -/
def Table.valueAt (t : Table) (c : Char) : Nat :=
  ((t.find? (·.holds c)).bind (·.values.head?)).getD 0

/-- The characters that an entry gives for one of its own: the first value goes on with the
characters of the entry, and the others stay. -/
def Entry.image (e : Entry) (c : Char) : List Char :=
  match e.values with
  | [] => []
  | v :: vs => ((v + (c.toNat - e.first)) :: vs).map Char.ofNat

/-- The characters that the table gives for a character. -/
def Table.image? (t : Table) (c : Char) : Option (List Char) :=
  (t.find? (·.holds c)).map (·.image c)

end XsdTypes.Domain
