import PageBundle.Bytes
import PageBundle.File.Fault

/-!
# File systems

A file system is what can be done with it. The operations take paths as texts; a path that does not
begin with a slash is taken from the working directory.
-/

namespace PageBundle.File

/-- The operations of a file system whose effects are those of `m`. -/
structure System (m : Type → Type) where
  /-- The contents of a file. -/
  read : String → m (Except Fault Bytes)
  /-- Puts a file in place; its directory must exist. -/
  write : String → Bytes → m (Except Fault Unit)
  /-- Makes a directory and those that it lies in, as far as they do not exist. -/
  makeDirectories : String → m (Except Fault Unit)
  isFile : String → m Bool
  isDirectory : String → m Bool

end PageBundle.File
