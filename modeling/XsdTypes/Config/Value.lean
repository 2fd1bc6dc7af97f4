import XsdTypes.Text.Basic

/-!
# Values of configuration files

A configuration file holds scalars, lists and records. The formats differ in what a scalar is: in
one of them a bare word may be a text, a truth value or a number, as its reader likes, and in
another it is exactly one of them. A scalar therefore says everything that it may be taken for. In
one format a value may be given a name and be referred to, also from within itself, so references
are kept and are followed only where a value is looked at.
-/

namespace XsdTypes.Config

/-- A scalar, by what it may be taken for. -/
structure Scalar where
  /-- Whether it stands where there is nothing at all. -/
  isAbsent : Bool := false
  /-- Whether it is the null value. -/
  isNull : Bool := false
  /-- Whether it is said to be the null value, but is not. -/
  isFalseNull : Bool := false
  /-- The truth value that it is. -/
  bool? : Option Bool := none
  /-- The natural number that it is. -/
  nat? : Option Nat := none
  /-- The text that it is. -/
  text? : Option String := none
  deriving DecidableEq, Repr, Inhabited

/-- What a configuration file holds. -/
inductive Value where
  /-- A single value. -/
  | scalar (s : Scalar)
  /-- Values one after the other. -/
  | list (items : List Value)
  /-- Values by name, in the order in which they are written; a name may come twice. -/
  | record (entries : List (Value × Value))
  /-- The value that a number means. -/
  | reference (id : Nat)
  deriving Repr, Inhabited

namespace Value

/-- The null value. -/
def null : Value :=
  .scalar { isNull := true }

/-- A truth value. -/
def ofBool (b : Bool) : Value :=
  .scalar { bool? := some b }

/-- A text. -/
def ofText (s : String) : Value :=
  .scalar { text? := some s }

/-- A number, or one that is no natural number. -/
def ofNumber (n? : Option Nat) : Value :=
  .scalar { nat? := n? }

/-- Whether the value is null. -/
def isNull : Value → Bool
  | .scalar s => s.isNull
  | _ => false

/-- Whether the value is said to be null, but is not. -/
def isFalseNull : Value → Bool
  | .scalar s => s.isFalseNull
  | _ => false

/-- The truth value that the value is. -/
def bool? : Value → Option Bool
  | .scalar s => s.bool?
  | _ => none

/-- The natural number that the value is. -/
def nat? : Value → Option Nat
  | .scalar s => s.nat?
  | _ => none

/-- The text that the value is. -/
def text? : Value → Option String
  | .scalar s => s.text?
  | _ => none

/-- The entries of the record that the value is. Where nothing is written there is an empty one. -/
def entries? : Value → Option (List (Value × Value))
  | .record entries => some entries
  | .scalar s => if s.isAbsent then some [] else none
  | _ => none

end Value

/-- What a configuration file holds: a value, and what the references in it mean. -/
structure Content where
  /-- The value. -/
  root : Value
  /-- The values that are referred to, none of them a reference itself. -/
  meanings : List (Nat × Value) := []
  /-- Whether a list may stand for a record, with the values of its fields in their order. -/
  listsAreRecords : Bool := false
  deriving Repr, Inhabited

/-- The value itself, or the one that it refers to. -/
def Content.follow (c : Content) : Value → Value
  | .reference id => (c.meanings.lookup id).getD default
  | v => v

end XsdTypes.Config
