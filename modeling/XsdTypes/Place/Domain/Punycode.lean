import XsdTypes.Chars.Split

/-!
# Punycode

Writes a text with characters beyond ASCII in letters, digits and hyphens. First come the characters
of ASCII, then a hyphen if there are any, and then one number for each other character, in the order
of the characters and, for one character, of its places. A number says how many steps lie between
two characters, where a step goes to the next place of the text and, after the last place, to the
next character. Numbers are written in digits of base 36, the lowest first. A digit below a
threshold ends the number, and the thresholds adapt to the numbers before.
-/

namespace XsdTypes.Domain.Punycode

/-- The base of the digits. -/
def base : Nat := 36

/-- The least threshold. -/
def leastThreshold : Nat := 1

/-- The greatest threshold. -/
def greatestThreshold : Nat := 26

/-- The number of the first character beyond ASCII. -/
def firstCode : Nat := 0x80

/-- The bias for the first number. -/
def firstBias : Nat := 72

/-- The threshold for the digit at a place, which is counted in steps of the base. -/
def threshold (bias place : Nat) : Nat :=
  if place ≤ bias then leastThreshold
  else if bias + greatestThreshold ≤ place then greatestThreshold
  else place - bias

theorem one_le_threshold (bias place : Nat) : 1 ≤ threshold bias place := by
  unfold threshold leastThreshold greatestThreshold
  split
  · exact Nat.le_refl 1
  · split <;> omega

/-- The bias for a number whose kind is that of `n`, on top of `bias`. -/
def biasOf (bias n : Nat) : Nat :=
  if 455 < n then biasOf (bias + base) (n / 35) else bias + base * n / (n + 38)
termination_by n
decreasing_by exact Nat.div_lt_self (by omega) (by omega)

/-- The bias after a number, when the text has `length` characters. -/
def adapt (isFirst : Bool) (n length : Nat) : Nat :=
  let n := if isFirst then n / 700 else n / 2
  biasOf 0 (n + n / length)

/-! ## Writing -/

/-- The digit of a value. -/
def digitOf (value : Nat) : Char :=
  if value < 26 then Char.ofNat ('a'.toNat + value) else Char.ofNat ('0'.toNat + (value - 26))

/-- The digits of a number, from a place on. -/
def digits (bias place n : Nat) : List Char :=
  let t := threshold bias place
  if n < t then [digitOf n]
  else digitOf (t + (n - t) % (base - t)) :: digits bias (place + base) ((n - t) / (base - t))
termination_by n
decreasing_by
  have := one_le_threshold bias place
  exact Nat.lt_of_le_of_lt (Nat.div_le_self _ _) (by omega)

/-- Where the writing of a text stands. -/
structure Writing where
  /-- What has been written. -/
  out : List Char := []
  /-- The number of steps since the last character that was written. -/
  steps : Nat := 0
  /-- The bias for the next number. -/
  bias : Nat := firstBias
  /-- The number of characters that have been written. -/
  count : Nat

/-- Goes past a place of the text, where only the characters with the given code are written. -/
def Writing.pass (basics code : Nat) (w : Writing) (c : Char) : Writing :=
  if c.toNat < code then { w with steps := w.steps + 1 }
  else if c.toNat = code then
    { out := w.out ++ digits w.bias base w.steps
      bias := adapt (w.count == basics) w.steps (w.count + 1)
      count := w.count + 1 }
  else w

/-- Writes the characters with the given codes, in ascending order, after those below `next`. -/
def Writing.passAll (cs : List Char) (basics : Nat) (w : Writing) (next : Nat) :
    List Nat → Writing
  | [] => w
  | code :: codes =>
    let w := { w with steps := w.steps + (code - next) * (w.count + 1) }
    let w := cs.foldl (Writing.pass basics code) w
    Writing.passAll cs basics { w with steps := w.steps + 1 } (code + 1) codes

/-- The written form of a text. -/
def encode (cs : List Char) : List Char :=
  let basics := cs.filter (·.toNat < firstCode)
  let codes := ((cs.map Char.toNat).filter (firstCode ≤ ·)).mergeSort.eraseDups
  let w := Writing.passAll cs basics.length { count := basics.length } firstCode codes
  (if basics.isEmpty then [] else basics ++ ['-']) ++ w.out

/-! ## Reading -/

/-- The value of a digit, a letter being of either case. -/
def digit? (c : Char) : Option Nat :=
  if 'a' ≤ c ∧ c ≤ 'z' then some (c.toNat - 'a'.toNat)
  else if 'A' ≤ c ∧ c ≤ 'Z' then some (c.toNat - 'A'.toNat)
  else if '0' ≤ c ∧ c ≤ '9' then some (c.toNat - '0'.toNat + 26)
  else none

/-- Numbers of more than 32 bits are refused. -/
def limit : Nat := 0xFFFFFFFF

/-- Where the reading of a text stands between two numbers. -/
structure Reading where
  /-- The characters that are known. -/
  out : List Char
  /-- The code of the last character that was put in. -/
  code : Nat := firstCode
  /-- The bias for the next number. -/
  bias : Nat := firstBias
  /-- The place after that of the last character. -/
  start : Nat := 0

/-- Puts in the character to which the next number leads; `reached` is the sum of the number and of
the place where it started. -/
def Reading.put? (r : Reading) (reached : Nat) : Option Reading :=
  let places := r.out.length + 1
  let code := r.code + reached / places
  let place := reached % places
  if code.isValidChar then
    some {
      out := r.out.take place ++ Char.ofNat code :: r.out.drop place
      code := code
      bias := adapt (r.start == 0) (reached - r.start) places
      start := place + 1 }
  else none

/-- Reads digits. Of the number that is being read, the next digit is at `place` and counts
`weight`, and those before it lead to `reached`. -/
def Reading.digits? (r : Reading) (place weight reached : Nat) : List Char → Option (List Char)
  | [] => if place = base then some r.out else none
  | c :: cs =>
    match digit? c with
    | none => none
    | some d =>
      let t := threshold r.bias place
      let reached := reached + d * weight
      if limit < reached then none
      else if d < t then
        match r.put? reached with
        | some r => r.digits? base 1 r.start cs
        | none => none
      else if limit < weight * (base - t) then none
      else r.digits? (place + base) (weight * (base - t)) reached cs

/-- The text of which this is the written form. The last hyphen ends the characters of ASCII, unless
there are none. -/
def decode? (cs : List Char) : Option (List Char) :=
  let numbers := Chars.afterLast '-' cs
  let basics := (cs.take (cs.length - numbers.length)).dropLast
  if basics.isEmpty then Reading.digits? { out := [] } base 1 0 cs
  else Reading.digits? { out := basics } base 1 0 numbers

end XsdTypes.Domain.Punycode
