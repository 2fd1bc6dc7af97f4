import XsdTypes.Files.Fault

/-!
# File systems

What a file system can be asked to do. The program works with any of them: with the one of the
machine, or with one that is a value.
-/

namespace XsdTypes

/-- The operations of a file system. Paths have slashes between their parts. The path of a file to
read may come from a URL and need not be a text. -/
structure FileSystem (m : Type → Type) where
  /-- Reads a file as text. -/
  readText : List UInt8 → m (Except FileFault String)
  /-- Makes a directory and those above it, as far as they are missing. -/
  createDirectories : String → m (Except FileFault Unit)
  /-- Writes a text into a file, which is made if it is missing. -/
  writeText : String → String → m (Except FileFault Unit)
  /-- Moves a file, in the place of the file that is there. -/
  rename : String → String → m (Except FileFault Unit)
  /-- Removes a file. -/
  remove : String → m (Except FileFault Unit)

/-- The same file system where there are further effects. -/
def FileSystem.lift {m n : Type → Type} [MonadLiftT m n] (fs : FileSystem m) : FileSystem n where
  readText path := fs.readText path
  createDirectories path := fs.createDirectories path
  writeText path text := fs.writeText path text
  rename source target := fs.rename source target
  remove path := fs.remove path

end XsdTypes
