import PageBundle.Collection.Table
import PageBundle.File.System
import PageBundle.Text.Utf8

/-!
# Disks

A disk is a tree of directories and files, held as a table from places to what is there. A path is
walked from the top or from the working directory, name by name, and every name but the last must
lead to a directory. Operations that fail half-way leave the directories that they have made.
-/

namespace PageBundle.File

/-- A place on a disk: the names that lead there from the top. -/
abbrev Place := List String

/-- What can be at a place. -/
inductive Node where
  | directory
  | file (contents : Bytes)
  deriving DecidableEq, Repr

/-- The longest name that a directory can hold, in bytes. -/
def maxNameLength : Nat := 255

/-- The longest path that can be walked, in bytes. -/
def maxPathLength : Nat := 4095

/-- How long names and paths may be, where they are limited. -/
structure Limits where
  name : Option Nat := some maxNameLength
  path : Option Nat := some maxPathLength

/-- A text is longer than a limit allows. -/
def exceeds (limit : Option Nat) (text : String) : Bool :=
  limit.any (text.utf8ByteSize > ·)

/-- A tree of directories and files. -/
structure Disk where
  nodes : Table Place Node
  workingDirectory : Place := []
  limits : Limits := {}

/-- A path taken apart: where it begins, its names, and whether a slash ends it. -/
structure Path where
  absolute : Bool
  names : List String
  closed : Bool
  deriving DecidableEq, Repr

/-- The names in a path, `.` and `..` included. -/
def namesOf (path : String) : List String :=
  ((path.toList.splitOn '/').map String.ofList).filter (· != "")

/-- Takes a path apart, unless it cannot be a path. -/
def Path.ofString (limits : Limits) (path : String) : Except Fault Path :=
  if path.toList.contains '\x00' then .error .nulInName
  else if path == "" then .error .missing
  else if exceeds limits.path path then .error .nameTooLong
  else .ok ⟨path.toList.head? == some '/', namesOf path, path.toList.getLast? == some '/'⟩

/-- The place that a name leads to. -/
def step (here : Place) (name : String) : Place :=
  if name == "." then here else if name == ".." then here.dropLast else here ++ [name]

/-- Where a path begins. -/
def Path.start (p : Path) (d : Disk) : Place :=
  if p.absolute then [] else d.workingDirectory

namespace Disk

/-- What is at a place; the top is always a directory. -/
def node? (d : Disk) (place : Place) : Option Node :=
  if place.isEmpty then some .directory else d.nodes.get? place

/-- The disk with `node` at a place. -/
def put (d : Disk) (place : Place) (node : Node) : Disk :=
  { d with nodes := d.nodes.insert place node }

/-- Checks that `name` can be looked up at a place. -/
def enter (d : Disk) (here : Place) (name : String) : Except Fault Place :=
  match d.node? here with
  | none => .error .missing
  | some (.file _) => .error .notDirectory
  | some .directory =>
    if exceeds d.limits.name name then .error .nameTooLong else .ok (step here name)

/-- The place that names lead to, which need not have anything. -/
def walk (d : Disk) (here : Place) (names : List String) : Except Fault Place :=
  names.foldlM d.enter here

/-- The place of a path. -/
def locate (d : Disk) (path : String) : Except Fault Place := do
  let p ← Path.ofString d.limits path
  d.walk (p.start d) (if p.closed then p.names ++ ["."] else p.names)

/-- The contents of a file. -/
def read (d : Disk) (path : String) : Except Fault Bytes := do
  match d.node? (← d.locate path) with
  | none => .error .missing
  | some .directory => .error .isDirectory
  | some (.file contents) => .ok contents

/-- The place at which a path puts a file. -/
def target (d : Disk) (path : String) : Except Fault Place := do
  let p ← Path.ofString d.limits path
  if p.closed then
    let _ ← d.walk (p.start d) (p.names.dropLast ++ ["."])
    .error .isDirectory
  else
    let place ← d.walk (p.start d) p.names
    match d.node? place with
    | some .directory => .error .isDirectory
    | _ => .ok place

/-- Puts a file in place. -/
def write (d : Disk) (path : String) (contents : Bytes) : Except Fault Unit × Disk :=
  match d.target path with
  | .error e => (.error e, d)
  | .ok place => (.ok (), d.put place (.file contents))

/-- Makes the directories that names lead to from a place. -/
def makeFrom (d : Disk) (here : Place) : List String → Except Fault Unit × Disk
  | [] => (.ok (), d)
  | name :: names =>
    match d.enter here name with
    | .error e => (.error e, d)
    | .ok next =>
      match d.node? next with
      | none => (d.put next .directory).makeFrom next names
      | some .directory => d.makeFrom next names
      | some (.file _) => (.error (if names.isEmpty then .occupied else .notDirectory), d)

/-- Makes a directory and those that it lies in. -/
def makeDirectories (d : Disk) (path : String) : Except Fault Unit × Disk :=
  if path == "" then (.ok (), d)
  else
    match Path.ofString d.limits path with
    | .error e => (.error e, d)
    | .ok p => d.makeFrom (p.start d) p.names

/-- Whether a path leads to a file. -/
def isFile (d : Disk) (path : String) : Bool :=
  match d.read path with
  | .ok _ => true
  | .error _ => false

/-- Whether a path leads to a directory. -/
def isDirectory (d : Disk) (path : String) : Bool :=
  match d.locate path with
  | .ok place => d.node? place == some .directory
  | .error _ => false

/-- Takes a file away; whether there was one. -/
def remove (d : Disk) (path : String) : Bool × Disk :=
  match d.locate path with
  | .error _ => (false, d)
  | .ok place =>
    match d.node? place with
    | some (.file _) => (true, { d with nodes := d.nodes.erase place })
    | _ => (false, d)

/-- Every file that lies in a directory or below, with the names that lead to it from there. -/
def filesBelow (d : Disk) (place : Place) : List (List String × Bytes) :=
  d.nodes.entries.filterMap fun e =>
    match e.2 with
    | .file contents =>
      if place.isPrefixOf e.1 then some (e.1.drop place.length, contents) else none
    | .directory => none

/-- The disk as a file system. -/
def system : System (StateM Disk) where
  read path := fun d => (d.read path, d)
  write path contents := fun d => d.write path contents
  makeDirectories path := fun d => d.makeDirectories path
  isFile path := fun d => (d.isFile path, d)
  isDirectory path := fun d => (d.isDirectory path, d)

end Disk

end PageBundle.File
