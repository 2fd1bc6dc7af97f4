/-!
# Reading numerals

Digits of a given radix are read from the left. The first character that is no digit, or the first
that takes the value over the limit, decides why a numeral is refused.
-/

namespace XsdTypes.Chars

/-- Why a text is no numeral. -/
inductive NumeralFault where
  /-- There is no digit at all. -/
  | empty
  /-- A character is no digit of the radix. -/
  | badDigit
  /-- The value is above the limit. -/
  | tooLarge
  deriving DecidableEq, Repr

/-- The greatest number of 64 bits. -/
def greatestWord : Nat := 0xFFFFFFFFFFFFFFFF

/-- The value of a digit of the given radix, letters of both cases counting from ten. -/
def digit? (radix : Nat) (c : Char) : Option Nat :=
  let value? : Option Nat :=
    if '0' ≤ c ∧ c ≤ '9' then some (c.toNat - '0'.toNat)
    else if 'a' ≤ c ∧ c ≤ 'z' then some (c.toNat - 'a'.toNat + 10)
    else if 'A' ≤ c ∧ c ≤ 'Z' then some (c.toNat - 'A'.toNat + 10)
    else none
  value?.filter (· < radix)

/-- Reads digits on top of the value `acc` of the digits before them. -/
def numeralFrom (radix limit acc : Nat) : List Char → Except NumeralFault Nat
  | [] => .ok acc
  | c :: cs =>
    match digit? radix c with
    | none => .error .badDigit
    | some d =>
      if limit < acc * radix + d then .error .tooLarge
      else numeralFrom radix limit (acc * radix + d) cs

/-- The value of a numeral without a sign. -/
def numeral (radix limit : Nat) (cs : List Char) : Except NumeralFault Nat :=
  if cs.isEmpty then .error .empty else numeralFrom radix limit 0 cs

/-- The value of a decimal numeral that may start with one plus sign. -/
def unsigned? (limit : Nat) (cs : List Char) : Option Nat :=
  let digits := match cs with
    | '+' :: rest => rest
    | cs => cs
  (numeral 10 limit digits).toOption

end XsdTypes.Chars
