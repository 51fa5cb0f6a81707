/-!
# File faults

Why an operation on files fails. The wording of a fault ends with its number, unless it is found
before the operation begins.
-/

namespace PageBundle.File

/-- Why an operation on files fails. -/
inductive Fault where
  /-- Nothing is there. -/
  | missing
  /-- Something is there that is not to be replaced. -/
  | occupied
  /-- The path runs through a file. -/
  | notDirectory
  /-- A directory is there. -/
  | isDirectory
  | nameTooLong
  /-- The path contains a NUL character. -/
  | nulInName
  /-- Nothing may be written. -/
  | readOnly
  | other (reason : String) (number : Nat)
  deriving DecidableEq, Repr

/-- The wording of a fault with a number. -/
def Fault.numbered (reason : String) (number : Nat) : String :=
  s!"{reason} (os error {number})"

/-- The wording of a fault. -/
def Fault.message : Fault → String
  | .missing => numbered "No such file or directory" 2
  | .occupied => numbered "File exists" 17
  | .notDirectory => numbered "Not a directory" 20
  | .isDirectory => numbered "Is a directory" 21
  | .nameTooLong => numbered "File name too long" 36
  | .nulInName => "file name contained an unexpected NUL byte"
  | .readOnly => "store is read-only"
  | .other reason number => numbered reason number

/-- The fault with a number and a reason. -/
def Fault.ofNumber (number : Nat) (reason : String) : Fault :=
  match number with
  | 2 => .missing
  | 17 => .occupied
  | 20 => .notDirectory
  | 21 => .isDirectory
  | 36 => .nameTooLong
  | number => .other reason number

end PageBundle.File
