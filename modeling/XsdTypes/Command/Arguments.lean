import XsdTypes.Chars.Numeral
import XsdTypes.Command.Flag
import XsdTypes.Config.Decode

/-!
# Arguments of the command

Arguments are read from left to right, and the first that is wrong decides. Help and version act as
soon as they are read, whatever follows them.
-/

namespace XsdTypes

/-- Why arguments are refused. -/
inductive UsageError where
  /-- There is no such flag. -/
  | unknownFlag (arg : String)
  /-- The flag takes no value. -/
  | needlessValue (f : Flag) (value : String)
  /-- The value of the flag is missing. -/
  | missingValue (f : Flag)
  /-- The flag takes no such value. -/
  | invalidValue (f : Flag) (value : String)
  /-- The flag is given twice. -/
  | repeated (f : Flag)
  /-- There is one document already. -/
  | needlessUrl (arg : String)
  /-- There is no document. -/
  | missingUrl
  deriving DecidableEq, Repr

/-- What the report of refused arguments says. -/
def UsageError.message : UsageError → String
  | .unknownFlag arg => "unexpected argument '" ++ arg ++ "' found"
  | .needlessValue f value =>
    "unexpected value '" ++ value ++ "' for '" ++ f.text ++ "' found; no more were expected"
  | .missingValue f => "a value is required for '" ++ f.text ++ "' but none was supplied"
  | .invalidValue f value => "invalid value '" ++ value ++ "' for '" ++ f.text ++ "'"
  | .repeated f => "the argument '" ++ f.text ++ "' cannot be used multiple times"
  | .needlessUrl arg => "unexpected argument '" ++ arg ++ "' found"
  | .missingUrl => "the following required arguments were not provided:\n  <URL>"

/-- What has been read of the arguments. -/
structure Arguments where
  /-- The document to compile. -/
  url? : Option String := none
  /-- The flags with their values, the latest first. A flag that takes no value has an empty one. -/
  given : List (Flag × String) := []
  deriving DecidableEq, Repr

/-- What the command is asked to do. -/
inductive Demand where
  /-- Print help. -/
  | help
  /-- Print the version. -/
  | version
  /-- Compile a document. -/
  | compile (url : String) (a : Arguments)
  deriving DecidableEq, Repr

namespace Arguments

/-- The value of a flag, if it is given. -/
def value? (a : Arguments) (f : Flag) : Option String :=
  a.given.lookup f

/-- Whether a flag is given. -/
def has (a : Arguments) (f : Flag) : Bool :=
  (a.value? f).isSome

/-- The port that a text is. One sign may come first, so there is a negative zero. -/
def port? (s : String) : Option Nat :=
  match s.toList with
  | '-' :: digits => (Chars.numeral 10 0 digits).toOption
  | cs => Chars.unsigned? Config.greatestPort cs

/-- Whether a flag takes a value. -/
def isValid (f : Flag) (value : String) : Bool :=
  if f = .forcePort then (port? value).isSome
  else !f.isPath || value ≠ ""

/-- The arguments with a flag more. -/
def give (a : Arguments) (f : Flag) (value : String) : Except UsageError Arguments :=
  if a.has f then .error (.repeated f)
  else if isValid f value then .ok { a with given := (f, value) :: a.given }
  else .error (.invalidValue f value)

/-- The arguments with a document. -/
def giveUrl (a : Arguments) (url : String) : Except UsageError Arguments :=
  if a.url?.isSome then .error (.needlessUrl url) else .ok { a with url? := some url }

/-- The demand that all arguments together make. -/
def demand (a : Arguments) : Except UsageError Demand :=
  match a.url? with
  | some url => .ok (.compile url a)
  | none => .error .missingUrl

/-- How an argument reads on its own. -/
inductive Shape where
  /-- A flag, with the value that is attached to it. -/
  | flag (f : Flag) (attached? : Option String)
  /-- It looks like a flag, but there is none. -/
  | unknown
  /-- Only documents follow. -/
  | divider
  /-- Anything else. -/
  | plain
  deriving DecidableEq, Repr

/-- Reads an argument on its own. A long name has its value after an equals sign. A letter has it
directly after it, or after an equals sign. -/
def shape (arg : String) : Shape :=
  match arg.toList with
  | ['-', '-'] => .divider
  | '-' :: '-' :: body =>
    let name := body.takeWhile (· != '=')
    let value := body.dropWhile (· != '=')
    match Flag.ofLong? (String.ofList name) with
    | some f => .flag f (if value.isEmpty then none else some (String.ofList (value.drop 1)))
    | none => .unknown
  | '-' :: c :: body =>
    match Flag.ofLetter? c with
    | some f =>
      if body.isEmpty || !f.takesValue then .flag f none
      else .flag f (some (String.ofList (if body.head? = some '=' then body.drop 1 else body)))
    | none => .unknown
  | _ => .plain

/-- Reads the arguments after those of which `a` is made. -/
def readFrom (a : Arguments) : List String → Except UsageError Demand
  | [] => a.demand
  | arg :: rest =>
    match shape arg with
    | .plain => do readFrom (← a.giveUrl arg) rest
    | .divider => do (← rest.foldlM giveUrl a).demand
    | .unknown => .error (.unknownFlag arg)
    | .flag f attached? =>
      match attached? with
      | some value =>
        if f.takesValue then do readFrom (← a.give f value) rest
        else .error (.needlessValue f value)
      | none =>
        if f.takesValue then
          match rest with
          | [] => .error (.missingValue f)
          | value :: rest =>
            if shape value = .plain then do readFrom (← a.give f value) rest
            else .error (.missingValue f)
        else if f = .help then .ok .help
        else if f = .version then .ok .version
        else do readFrom (← a.give f "") rest

/-- Reads the arguments of the command. -/
def read (args : List String) : Except UsageError Demand :=
  readFrom {} args

end Arguments

end XsdTypes
