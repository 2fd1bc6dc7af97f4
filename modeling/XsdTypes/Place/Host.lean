import XsdTypes.Chars.Split
import XsdTypes.Place.Domain.Ascii
import XsdTypes.Place.Percent
import XsdTypes.Text.Quoted

/-!
# Hosts

The host of a URL with a special scheme is a domain or an address. A domain is written in ASCII and
in lower case. A domain whose last label is a number has to be an IPv4 address, of which the parts
may be decimal, octal or hexadecimal and the last one may stand for several bytes. An IPv6 address
stands between square brackets. Other schemes take any text as their host.
-/

namespace XsdTypes.Host

/-! ## IPv4 -/

/-- A part of an IPv4 address: no number at all, a number that is too large, or a number. -/
def ipv4Part (cs : List Char) : Option (Option Nat) :=
  let read (radix : Nat) (digits : List Char) : Option (Option Nat) :=
    if digits.isEmpty then some (some 0)
    else if digits.all fun c => (Chars.digit? radix c).isSome then
      some (Chars.numeral radix 4294967295 digits).toOption
    else none
  match cs with
  | [] => none
  | '0' :: 'x' :: digits | '0' :: 'X' :: digits => read 16 digits
  | '0' :: d :: digits => read 8 (d :: digits)
  | digits => read 10 digits

/-- The labels of a domain, without the empty one after a final dot. -/
def labels (cs : List Char) : List (List Char) :=
  let pieces := Chars.splitAt (· == '.') cs
  if pieces.getLast? = some [] then pieces.dropLast else pieces

/-- Whether the last label is a number. -/
def endsInNumber (cs : List Char) : Bool :=
  match (labels cs).getLast? with
  | some last => (!last.isEmpty && last.all Char.isDigit) || (ipv4Part last).isSome
  | none => false

/-- The bytes of an address whose parts are given, first to last. -/
def ipv4Value? : List Nat → Option Nat
  | [] => none
  | parts =>
    let last := parts.getLast?.getD 0
    let front := parts.dropLast
    if 3 < front.length ∨ 1 <<< (8 * (4 - front.length)) ≤ last ∨ front.any (255 < ·) then none
    else some (front.zipIdx.foldl (fun sum (n, i) => sum + n <<< (8 * (3 - i))) last)

/-- The text of an IPv4 address. -/
def ipv4Text (value : Nat) : List Char :=
  Chars.join ['.'] ([3, 2, 1, 0].map fun i => (toString ((value >>> (8 * i)) % 256)).toList)

/-- Reads an IPv4 address. -/
def ipv4? (cs : List Char) : Option (List Char) := do
  let parts ← (labels cs).mapM fun label => (ipv4Part label).join
  return ipv4Text (← ipv4Value? parts)

/-! ## IPv6 -/

/-- A group of an IPv6 address: one to four hexadecimal digits. -/
def ipv6Group? (cs : List Char) : Option Nat :=
  if cs.length ≤ 4 then (Chars.numeral 16 0xFFFF cs).toOption else none

/-- One byte of an IPv4 address within an IPv6 address: no leading zero. -/
def plainByte? (cs : List Char) : Option Nat :=
  match cs with
  | '0' :: _ :: _ => none
  | cs => (Chars.numeral 10 255 cs).toOption

/-- The groups between colons; the last piece may be an IPv4 address, if `mayEndInV4`. -/
def ipv6Groups? (mayEndInV4 : Bool) (cs : List Char) : Option (List Nat) :=
  let pieces := Chars.splitAt (· == ':') cs
  match pieces.getLast? with
  | none => none
  | some last =>
    if mayEndInV4 && last.contains '.' then do
      let front ← pieces.dropLast.mapM ipv6Group?
      match ← (Chars.splitAt (· == '.') last).mapM plainByte? with
      | [a, b, c, d] => some (front ++ [a * 256 + b, c * 256 + d])
      | _ => none
    else pieces.mapM ipv6Group?

/-- The eight groups of an IPv6 address, a double colon standing for one or more zeros. -/
def ipv6Value? (cs : List Char) : Option (List Nat) :=
  match Chars.splitOnceAt [':', ':'] cs with
  | none => do
    let groups ← ipv6Groups? true cs
    if groups.length = 8 then some groups else none
  | some (before, after) => do
    let front ← if before.isEmpty then some [] else ipv6Groups? false before
    let back ← if after.isEmpty then some [] else ipv6Groups? true after
    if front.length + back.length ≤ 7 then
      some (front ++ List.replicate (8 - front.length - back.length) 0 ++ back)
    else none

/-- The number of zeros at the start of the groups. -/
def leadingZeros (groups : List Nat) : Nat :=
  (groups.takeWhile (· == 0)).length

/-- The start and the length of the first longest run of zeros. -/
def longestZeros (start : Nat) : List Nat → Nat × Nat
  | [] => (start, 0)
  | g :: gs =>
    let here := leadingZeros (g :: gs)
    let later := longestZeros (start + 1) gs
    if later.2 ≤ here then (start, here) else later

/-- A number in hexadecimal digits. -/
def hexText (n : Nat) : List Char :=
  ([4096, 256, 16].map fun unit => (n / unit, Text.hexDigit (n / unit % 16))).filterMap
    (fun (high, digit) => if high = 0 then none else some digit) ++ [Text.hexDigit (n % 16)]

/-- The text of an IPv6 address between its brackets: the first longest run of two or more zeros is
written as a double colon. -/
def ipv6Text (groups : List Nat) : List Char :=
  let write (gs : List Nat) : List Char := Chars.join [':'] (gs.map hexText)
  let (start, length) := longestZeros 0 groups
  if length < 2 then write groups
  else write (groups.take start) ++ [':', ':'] ++ write (groups.drop (start + length))

/-- Reads an address from its opening bracket on. -/
def bracketed? (cs : List Char) : Option (List Char) := do
  let inner ← Chars.stripEnd [']'] (cs.drop 1)
  let groups ← ipv6Value? inner
  return '[' :: ipv6Text groups ++ [']']

/-! ## Hosts -/

/-- Whether a character may not stand in a domain. -/
def isForbidden (c : Char) : Bool :=
  c.toNat ≤ 0x20 || 0x7E < c.toNat ||
    ['%', '#', '/', ':', '<', '>', '?', '@', '[', '\\', ']', '^', '|'].contains c

/-- Reads the host of a URL with a special scheme. -/
def special? (cs : List Char) : Option (List Char) :=
  if cs.head? = some '[' then bracketed? cs
  else do
    let domain ← Domain.toAscii? (← Chars.decode? (Percent.decode cs))
    if domain.isEmpty || domain.any isForbidden then none
    else if endsInNumber domain then ipv4? domain
    else some domain

/-- Reads the host of a URL with any other scheme. -/
def other? (cs : List Char) : Option (List Char) :=
  if cs.head? = some '[' then bracketed? cs
  else if cs.any fun c => c.toNat = 0 ||
      ['\t', '\n', '\r', ' ', '#', '/', ':', '<', '>', '?', '@', '[', '\\', ']', '^',
        '|'].contains c then none
  else some (Percent.encode Percent.isControl cs)

end XsdTypes.Host
