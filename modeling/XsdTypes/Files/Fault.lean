/-!
# What goes wrong with files

The ways in which reading or writing a file fails, with the words in which the system reports them.
-/

namespace XsdTypes

/-- Why an operation on a file failed. -/
inductive FileFault where
  /-- There is nothing at the path. -/
  | missing
  /-- Something is in the way. -/
  | exists
  /-- A file stands where the path needs a directory. -/
  | notDirectory
  /-- A directory stands where a file is needed. -/
  | isDirectory
  /-- The path names a directory by dots or is the root, which cannot be replaced. -/
  | busy
  /-- A name on the path has more bytes than a name may have. -/
  | longName
  /-- The content is not UTF-8. -/
  | notText
  /-- Any other report of the system. -/
  | other (report : String)
  deriving DecidableEq, Repr, Inhabited

/-- What the report of a failed operation says. -/
def FileFault.message : FileFault → String
  | .missing => "No such file or directory (os error 2)"
  | .exists => "File exists (os error 17)"
  | .notDirectory => "Not a directory (os error 20)"
  | .isDirectory => "Is a directory (os error 21)"
  | .busy => "Device or resource busy (os error 16)"
  | .longName => "File name too long (os error 36)"
  | .notText => "stream did not contain valid UTF-8"
  | .other report => report

end XsdTypes
