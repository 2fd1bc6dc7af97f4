import XsdTypes.Text.Basic

/-!
# Occurrence ranges

How often a particle may occur is a range with a least count and a greatest bound. Counts are the
naturals up to `2 ^ 32 - 1`; sums and products that pass the limit stay at it. A bound is a count
or unbounded. Ranges of nested particles multiply, ranges of repeated declarations add up, and
nothing times unbounded is nothing.
-/

namespace XsdTypes

/-- The greatest count. -/
def Count.limit : Nat := 4294967295

/-- A number of occurrences. -/
structure Count where
  /-- The number. -/
  val : Nat
  /-- It is within the limit. -/
  le_limit : val ≤ Count.limit := by decide
  deriving DecidableEq, Repr

namespace Count

/-- The number, or the limit if it is above it. -/
def cap (n : Nat) : Count := ⟨min n limit, Nat.min_le_right n limit⟩

instance : Inhabited Count := ⟨⟨0, Nat.zero_le limit⟩⟩

/-- No occurrence. -/
def zero : Count := ⟨0, Nat.zero_le limit⟩

/-- One occurrence. -/
def one : Count := ⟨1, by decide⟩

/-- The sum, capped. -/
def plus (a b : Count) : Count := cap (a.val + b.val)

/-- The product, capped. -/
def times (a b : Count) : Count := cap (a.val * b.val)

/-- Reads a count: decimal digits with blanks around them and at most one plus sign. -/
def parse? (s : String) : Option Count :=
  (Chars.unsigned? limit (Chars.trim s.toList)).map cap

end Count

/-- The greatest number of occurrences, if there is one. -/
inductive Bound where
  /-- At most so many. -/
  | atMost (n : Count)
  /-- Any number. -/
  | unbounded
  deriving DecidableEq, Repr, Inhabited

namespace Bound

/-- At most one occurrence. -/
def one : Bound := .atMost Count.one

/-- Reads a bound: the word `unbounded` or a count. -/
def parse? (s : String) : Option Bound :=
  if Text.trim s = "unbounded" then some .unbounded else (Count.parse? s).map .atMost

/-- Whether more than one occurrence is allowed. -/
def isMany : Bound → Bool
  | .atMost n => 1 < n.val
  | .unbounded => true

/-- The bound of a particle within a particle. -/
def times : Bound → Bound → Bound
  | .atMost a, .atMost b => .atMost (a.times b)
  | .atMost a, .unbounded => if a.val = 0 then .atMost Count.zero else .unbounded
  | .unbounded, .atMost b => if b.val = 0 then .atMost Count.zero else .unbounded
  | .unbounded, .unbounded => .unbounded

/-- The bound of two declarations together. -/
def plus : Bound → Bound → Bound
  | .atMost a, .atMost b => .atMost (a.plus b)
  | _, _ => .unbounded

/-- The bound as a schema writes it. -/
def text : Bound → String
  | .atMost n => toString n.val
  | .unbounded => "unbounded"

end Bound

/-- How often something may occur. -/
structure Occurrence where
  /-- The least count. -/
  min : Count
  /-- The greatest bound. -/
  max : Bound
  deriving DecidableEq, Repr, Inhabited

namespace Occurrence

/-- Exactly once. -/
def once : Occurrence := ⟨Count.one, Bound.one⟩

/-- At most once. -/
def atMostOnce : Occurrence := ⟨Count.zero, Bound.one⟩

/-- The range of a particle within a particle. -/
def times (a b : Occurrence) : Occurrence := ⟨a.min.times b.min, a.max.times b.max⟩

/-- The range of two declarations together. -/
def plus (a b : Occurrence) : Occurrence := ⟨a.min.plus b.min, a.max.plus b.max⟩

/-- The same range with nothing required: any one branch of a choice may be absent. -/
def optional (a : Occurrence) : Occurrence := { a with min := Count.zero }

end Occurrence

end XsdTypes
