import PageBundle.Collection.Table
import PageBundle.Store.Basic

/-!
# Stores in memory

A store that holds its resources in a table. It counts the readings, also those that find nothing,
and the writings that succeed, and it can be made to refuse writings.
-/

namespace PageBundle.Store

/-- Resources held in memory. -/
structure Memory where
  resources : Table String Bytes := .empty
  readOnly : Bool := false
  reads : UInt64 := 0
  writes : UInt64 := 0

namespace Memory

/-- The contents of a resource. -/
def get? (s : Memory) (path : String) : Option Bytes :=
  s.resources.get? path

/-- Puts a resource in place, which does not count as a writing. -/
def insert (s : Memory) (path : String) (contents : Bytes) : Memory :=
  { s with resources := s.resources.insert path contents }

/-- Takes a resource away. -/
def erase (s : Memory) (path : String) : Memory :=
  { s with resources := s.resources.erase path }

/-- Reads a resource. -/
def read (s : Memory) (path : String) : Except Error Bytes × Memory :=
  let result := match s.get? path with
    | some contents => .ok contents
    | none => .error (.notFound path)
  (result, { s with reads := s.reads + 1 })

/-- Writes a resource. -/
def write (s : Memory) (path : String) (contents : Bytes) : Except Error Unit × Memory :=
  if s.readOnly then (.error (.write path .readOnly), s)
  else (.ok (), { s.insert path contents with writes := s.writes + 1 })

/-- The memory as a store. -/
def store : Store (StateM Memory) where
  read path := fun s => s.read path
  write path contents := fun s => s.write path contents
  contains path := fun s => (.ok (s.resources.contains path), s)

@[simp] theorem get?_read (s : Memory) (path other : String) :
    (s.read path).2.get? other = s.get? other := rfl

theorem get?_insert_self (s : Memory) (path : String) (contents : Bytes) :
    (s.insert path contents).get? path = some contents :=
  Table.get?_insert_self _ _ _

theorem get?_insert_of_ne (s : Memory) {path other : String} (contents : Bytes)
    (h : other ≠ path) : (s.insert path contents).get? other = s.get? other :=
  Table.get?_insert_of_ne _ _ (by simpa using h) fun x hx => by
    have : other = x := by simpa using hx
    simpa using fun e => h (this.trans e.symm)

end Memory

end PageBundle.Store
