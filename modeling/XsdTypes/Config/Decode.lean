import XsdTypes.Config.Options
import XsdTypes.Config.Value
import XsdTypes.Files.Fault
import XsdTypes.Text.Table

/-!
# Options from values

Options are written as a record of fields, or, where the format has it, as a list of their values in
the order of the fields, of which the last may be left out. A field that is not known or comes twice
is refused.
-/

namespace XsdTypes

/-- Why a configuration file cannot be used. -/
inductive ConfigFault where
  /-- The file cannot be read. -/
  | unreadable (cause : FileFault)
  /-- The text does not follow the rules of its format. -/
  | malformed
  /-- There is no such field. -/
  | unknownField (name : String)
  /-- A field is given twice. -/
  | repeatedField (name : String)
  /-- A list is longer than there are fields. -/
  | tooLong (length : Nat)
  /-- A value is not what it should be. -/
  | unexpected (expected : String)
  deriving DecidableEq, Repr, Inhabited

/-- What the report of a faulty configuration file says. -/
def ConfigFault.message : ConfigFault → String
  | .unreadable cause => cause.message
  | .malformed => "malformed document"
  | .unknownField name => "unknown field " ++ name
  | .repeatedField name => "duplicate field " ++ name
  | .tooLong length => "invalid length " ++ toString length
  | .unexpected expected => "expected " ++ expected

namespace Config

variable (c : Content)

/-- The truth value that a value is. -/
def bool (v : Value) : Except ConfigFault Bool :=
  (c.follow v).bool?.elim (.error (.unexpected "a boolean")) .ok

/-- The text that a value is. -/
def text (v : Value) : Except ConfigFault String :=
  (c.follow v).text?.elim (.error (.unexpected "a string")) .ok

/-- The greatest number of a port. -/
def greatestPort : Nat := 65535

/-- The port that a value is. -/
def port (v : Value) : Except ConfigFault Nat :=
  ((c.follow v).nat?.filter (· ≤ greatestPort)).elim (.error (.unexpected "a port")) .ok

/-- What a value is, unless it is null. -/
def optional {α : Type} (read : Value → Except ConfigFault α) (v : Value) :
    Except ConfigFault (Option α) :=
  let value := c.follow v
  if value.isNull then .ok none
  else if value.isFalseNull then .error (.unexpected "null")
  else (read value).map some

/-- The table of texts that a value is. Of two entries with one name the later counts. -/
def tableOf (v : Value) : Except ConfigFault Table :=
  match (c.follow v).entries? with
  | none => .error (.unexpected "a map")
  | some entries => do
    let texts ← entries.mapM fun (name, v) => return (← text c name, ← text c v)
    return Table.putAll texts []

/-- The table of texts that a file holds. -/
def table : Except ConfigFault Table :=
  tableOf c c.root

/-- The names of the fields, in their order. -/
def fieldNames : List String :=
  ["allowLocal", "cache", "forceHost", "forcePort", "namespace", "document", "overrides"]

/-- The options with one field set. -/
def setField (o : CompileOptions) (name : String) (v : Value) :
    Except ConfigFault CompileOptions :=
  match name with
  | "allowLocal" => return { o with allowLocal := ← bool c v }
  | "cache" => return { o with cache := ← optional c (text c) v }
  | "forceHost" => return { o with forceHost := ← optional c (text c) v }
  | "forcePort" => return { o with forcePort := ← optional c (port c) v }
  | "namespace" => return { o with ns := ← optional c (text c) v }
  | "document" => return { o with document := ← text c v }
  | "overrides" => return { o with overrides := ← tableOf c v }
  | _ => .error (.unknownField name)

/-- The options with fields set one after the other, none of them among those that were set. -/
def setFields (o : CompileOptions) (done : List String) :
    List (Value × Value) → Except ConfigFault CompileOptions
  | [] => .ok o
  | (key, v) :: entries => do
    let name ← text c key
    if done.contains name then throw (.repeatedField name)
    setFields (← setField c o name v) (name :: done) entries

/-- The options that a file holds. What is not given stays as it is by default. -/
def options : Except ConfigFault CompileOptions :=
  match c.follow c.root with
  | .list items =>
    if !c.listsAreRecords then .error (.unexpected "options")
    else if fieldNames.length < items.length then .error (.tooLong items.length)
    else setFields c {} [] ((fieldNames.map .ofText).zip items)
  | v =>
    match v.entries? with
    | some entries => setFields c {} [] entries
    | none => .error (.unexpected "options")

end Config

end XsdTypes
