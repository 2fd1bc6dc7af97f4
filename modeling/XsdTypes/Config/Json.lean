import XsdTypes.Chars.Numeral
import XsdTypes.Config.Value

/-!
# Strict JSON

Reads a text that is one JSON value and nothing else: no comments, no comma before a closing
bracket, no control characters inside a string, and every surrogate escape followed by its other
half.
-/

namespace XsdTypes.Config.Json

/-- The characters that may stand between the tokens. -/
def isBlank (c : Char) : Bool :=
  c == ' ' || c == '\n' || c == '\t' || c == '\r'

/-- The text from its first character that is not blank. -/
def skipBlank (cs : List Char) : List Char :=
  cs.dropWhile isBlank

/-- The character that a one-letter escape stands for. -/
def escape? : Char → Option Char
  | '"' => some '"'
  | '\\' => some '\\'
  | '/' => some '/'
  | 'b' => some '\x08'
  | 'f' => some '\x0c'
  | 'n' => some '\n'
  | 'r' => some '\r'
  | 't' => some '\t'
  | _ => none

/-- The code unit that four hexadecimal digits stand for. -/
def unit? (digits : List Char) : Option Nat :=
  (Chars.numeral 16 0xFFFF digits).toOption

/-- Whether a code unit is the first half of a pair. -/
def isHigh (unit : Nat) : Bool :=
  0xD800 ≤ unit && unit < 0xDC00

/-- Whether a code unit is the second half of a pair. -/
def isLow (unit : Nat) : Bool :=
  0xDC00 ≤ unit && unit < 0xE000

/-- The character of a pair of code units. -/
def ofPair (high low : Nat) : Char :=
  Char.ofNat (0x10000 + (high - 0xD800) * 0x400 + (low - 0xDC00))

/-- Reads a string after its opening quote, and gives it with the text after its closing one. -/
def stringTail : List Char → Option (List Char × List Char)
  | [] => none
  | '"' :: rest => some ([], rest)
  | '\\' :: 'u' :: a :: b :: c :: d :: rest =>
    match unit? [a, b, c, d] with
    | none => none
    | some first =>
      if isLow first then none
      else if isHigh first then
        match rest with
        | '\\' :: 'u' :: e :: f :: g :: h :: rest =>
          match unit? [e, f, g, h] with
          | none => none
          | some second =>
            if isLow second then
              (stringTail rest).map fun (s, rest) => (ofPair first second :: s, rest)
            else none
        | _ => none
      else (stringTail rest).map fun (s, rest) => (Char.ofNat first :: s, rest)
  | '\\' :: c :: rest =>
    match escape? c with
    | none => none
    | some e => (stringTail rest).map fun (s, rest) => (e :: s, rest)
  | c :: rest =>
    if c.toNat < 0x20 then none else (stringTail rest).map fun (s, rest) => (c :: s, rest)

/-- Whether a text is a run of digits. -/
def areDigits (cs : List Char) : Bool :=
  !cs.isEmpty && cs.all Char.isDigit

/-- Whether a text is a whole number without a sign and without useless zeros. -/
def isWhole (cs : List Char) : Bool :=
  areDigits cs && (cs.length == 1 || cs.head? != some '0')

/-- Whether a text is an exponent without its letter. -/
def isExponent : List Char → Bool
  | '+' :: digits => areDigits digits
  | '-' :: digits => areDigits digits
  | digits => areDigits digits

/-- Reads the text of a number: a natural number, or one of the other kinds. -/
def number? (cs : List Char) : Option Value :=
  let unsigned :=
    match cs with
    | '-' :: rest => rest
    | cs => cs
  let isMark (c : Char) : Bool := c == 'e' || c == 'E'
  let decimal := unsigned.takeWhile (!isMark ·)
  let exponent := unsigned.dropWhile (!isMark ·)
  let whole := decimal.takeWhile (· != '.')
  let fraction := decimal.dropWhile (· != '.')
  if isWhole whole && (fraction.isEmpty || areDigits (fraction.drop 1)) &&
      (exponent.isEmpty || isExponent (exponent.drop 1)) then
    let value := (Chars.numeral 10 Chars.greatestWord cs).toOption
    some (.ofNumber (if cs = whole then value else none))
  else none

/-- Whether a character may be part of a number. -/
def isNumberChar (c : Char) : Bool :=
  c.isDigit || c == '-' || c == '+' || c == '.' || c == 'e' || c == 'E'

mutual

/-- Reads one value, within `fuel` nested or consecutive values. -/
def value : Nat → List Char → Option (Value × List Char)
  | 0, _ => none
  | fuel + 1, cs =>
    match skipBlank cs with
    | '\x7b' :: rest =>
      match skipBlank rest with
      | '\x7d' :: rest => some (.record [], rest)
      | rest => (members fuel rest).map fun (entries, rest) => (.record entries, rest)
    | '[' :: rest =>
      match skipBlank rest with
      | ']' :: rest => some (.list [], rest)
      | rest => (items fuel rest).map fun (values, rest) => (.list values, rest)
    | '"' :: rest => (stringTail rest).map fun (s, rest) => (.ofText (String.ofList s), rest)
    | 't' :: 'r' :: 'u' :: 'e' :: rest => some (.ofBool true, rest)
    | 'f' :: 'a' :: 'l' :: 's' :: 'e' :: rest => some (.ofBool false, rest)
    | 'n' :: 'u' :: 'l' :: 'l' :: rest => some (.null, rest)
    | rest =>
      (number? (rest.takeWhile isNumberChar)).map fun v => (v, rest.dropWhile isNumberChar)

/-- Reads the items of a list up to its closing bracket. -/
def items : Nat → List Char → Option (List Value × List Char)
  | 0, _ => none
  | fuel + 1, cs =>
    match value fuel cs with
    | none => none
    | some (v, rest) =>
      match skipBlank rest with
      | ',' :: rest => (items fuel rest).map fun (values, rest) => (v :: values, rest)
      | ']' :: rest => some ([v], rest)
      | _ => none

/-- Reads the entries of a record up to its closing brace. -/
def members : Nat → List Char → Option (List (Value × Value) × List Char)
  | 0, _ => none
  | fuel + 1, cs =>
    match skipBlank cs with
    | '"' :: rest =>
      match stringTail rest with
      | none => none
      | some (name, rest) =>
        match skipBlank rest with
        | ':' :: rest =>
          match value fuel rest with
          | none => none
          | some (v, rest) =>
            match skipBlank rest with
            | ',' :: rest =>
              (members fuel rest).map fun (entries, rest) =>
                ((.ofText (String.ofList name), v) :: entries, rest)
            | '\x7d' :: rest => some ([(.ofText (String.ofList name), v)], rest)
            | _ => none
        | _ => none
    | _ => none

end

/-- What a text holds. -/
def read? (text : String) : Option Content :=
  let cs := text.toList
  match value (2 * cs.length + 1) cs with
  | some (root, rest) =>
    if (skipBlank rest).isEmpty then some { root, listsAreRecords := true } else none
  | none => none

end XsdTypes.Config.Json
