import PageBundle.CommandLine.Run

/-!
# The program

The operations of the real file system, the variables of the environment, and the streams. All else
is decided by `CommandLine.run`.
-/

open PageBundle

namespace PageBundle.Program

/-- The fault that an error of the runtime tells. -/
def faultOf : IO.Error → File.Fault
  | .noFileOrDirectory _ code details | .interrupted _ code details
  | .alreadyExists _ code details | .invalidArgument _ code details
  | .permissionDenied _ code details | .resourceExhausted _ code details
  | .inappropriateType _ code details | .noSuchThing _ code details
  | .otherError code details | .resourceBusy code details | .resourceVanished code details
  | .unsupportedOperation code details | .hardwareFault code details
  | .unsatisfiedConstraints code details | .illegalOperation code details
  | .protocolError code details | .timeExpired code details =>
    .ofNumber code.toNat details
  | .unexpectedEof => .other "unexpected end of file" 0
  | .userError reason => .other reason 0

/-- Runs an operation on a path and turns its errors into faults. -/
def guarded {α : Type} (path : String) (operation : IO α) : IO (Except File.Fault α) := do
  if path.toList.contains '\x00' then return .error .nulInName
  try
    return .ok (← operation)
  catch e =>
    return .error (faultOf e)

/-- Whether something of a sort is at a path. -/
def isOfType (type : IO.FS.FileType) (path : String) : IO Bool := do
  let directory ← IO.currentDir
  let found ← guarded path (directory / path).metadata
  return found.toOption.any (·.type == type)

/-- The real file system. -/
def files : File.System IO where
  read path := guarded path do return (← IO.FS.readBinFile path).toList
  write path contents := guarded path (IO.FS.writeBinFile path ⟨contents.toArray⟩)
  makeDirectories path := guarded path (if path == "" then pure () else IO.FS.createDirAll path)
  isFile path := isOfType .file path
  isDirectory path := isOfType .dir path

/-- Reads a stream to its end, after `read`. -/
partial def readAll (stream : IO.FS.Stream) (read : ByteArray) : IO ByteArray := do
  let chunk ← stream.read 65536
  if chunk.isEmpty then return read else readAll stream (read ++ chunk)

/-- A variable of the environment, as a name, an equals sign and a value. -/
def variableOf? (entry : List Char) : Option (String × String) :=
  match entry.dropWhile (· != '=') with
  | _ :: value => some (String.ofList (entry.takeWhile (· != '=')), String.ofList value)
  | [] => none

/-- The variables of the environment. -/
def environment : IO (List (String × String)) := do
  match ← guarded "/proc/self/environ" (IO.FS.readBinFile "/proc/self/environ") with
  | .error _ => return []
  | .ok contents =>
    return (contents.toList.splitOn 0).filterMap fun entry => variableOf? (Utf8.decodeLossy entry)

/-- Writes a log event. -/
def log (format : CommandLine.LogFormat) (e : Log.Event) : IO Unit :=
  match format with
  | .pretty => IO.eprintln e.line
  | .json => IO.eprintln (Json.compact e.toValue)

end PageBundle.Program

/-- Runs the program on its arguments. -/
def main (args : List String) : IO UInt32 := do
  let stdin : IO Bytes := do return (← Program.readAll (← IO.getStdin) .empty).toList
  let outcome ← CommandLine.run Program.files stdin (← Program.environment) args
  outcome.events.forM (Program.log outcome.logFormat)
  let stdout ← IO.getStdout
  stdout.write ⟨outcome.stdout.toArray⟩
  stdout.flush
  if let some message := outcome.failure then IO.eprintln s!"Error: {message}"
  if outcome.exitCode == 2 then IO.eprint CommandLine.usageText
  return UInt32.ofNat outcome.exitCode
