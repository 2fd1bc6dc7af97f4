/-!
# Fresh names

A name that is taken gets the smallest number from two on that makes it free. Among the first
`taken.length + 1` numbered forms at least one is free, so the search is bounded by the names that
are taken.
-/

namespace XsdTypes.Text

/-- The base with a number after it. -/
def numbered (mark base : String) (n : Nat) : String :=
  base ++ mark ++ toString n

/-- The first free numbered form of the base from the number `n` on, trying at most `fuel` of
them. -/
def firstFree (mark base : String) (taken : List String) : Nat → Nat → String
  | 0, n => numbered mark base n
  | fuel + 1, n =>
    if numbered mark base n ∈ taken then firstFree mark base taken fuel (n + 1)
    else numbered mark base n

/-- The base itself if it is free, otherwise the base, `mark` and the smallest number from two on
that gives a free name. -/
def fresh (mark base : String) (taken : List String) : String :=
  if base ∈ taken then firstFree mark base taken taken.length 2 else base

/-- A fresh name for every base, one after the other: each is free of the names that are taken and
of the names given before it. -/
def freshAll (mark : String) : List String → List String → List String
  | [], _ => []
  | base :: bases, taken =>
    let name := fresh mark base taken
    name :: freshAll mark bases (name :: taken)

end XsdTypes.Text
