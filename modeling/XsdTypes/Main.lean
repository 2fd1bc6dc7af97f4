import XsdTypes.Command.Run

/-!
# The command

Connects the command to the machine: its arguments, its files and its output.
-/

namespace XsdTypes

/-- What a failure of the machine means for a file. -/
def FileFault.ofIOError : IO.Error → FileFault
  | .noFileOrDirectory .. => .missing
  | .alreadyExists .. => .exists
  | .inappropriateType _ code details => ofCode code details
  | .invalidArgument _ code details => ofCode code details
  | .resourceBusy code details => ofCode code details
  | .otherError code details => ofCode code details
  | e => .other (toString e)
where
  /-- What a code of the system means. -/
  ofCode (code : UInt32) (details : String) : FileFault :=
    if code = 16 then .busy
    else if code = 17 then .exists
    else if code = 20 then .notDirectory
    else if code = 21 then .isDirectory
    else if code = 36 then .longName
    else .other (details ++ " (os error " ++ toString code ++ ")")

/-- The result of an action on files. -/
def attempt {α : Type} (action : IO α) : IO (Except FileFault α) := do
  try return .ok (← action)
  catch e => return .error (.ofIOError e)

/-- The file system of the machine. -/
def machine : FileSystem IO where
  readText path := do
    match Chars.decode? path with
    | none => return .error .missing
    | some path =>
      match ← attempt (IO.FS.readBinFile (String.ofList path)) with
      | .error fault => return .error fault
      | .ok bytes =>
        match String.fromUTF8? bytes with
        | some text => return .ok text
        | none => return .error .notText
  createDirectories path := attempt (IO.FS.createDirAll path)
  writeText path text := attempt (IO.FS.writeFile path text)
  rename source target := attempt (IO.FS.rename source target)
  remove path := attempt (IO.FS.removeFile path)

end XsdTypes

/-- The command. -/
def main (args : List String) : IO UInt32 := do
  let outcome ← XsdTypes.Command.run XsdTypes.machine args
  (← IO.getStdout).putStr outcome.output
  (← IO.getStderr).putStr outcome.report
  return outcome.code.toUInt32
