import PageBundle.Value.Basic

/-!
# Laying values over each other

Settings come from several sources, each a table that is laid over what came before it. A table
that meets a table is merged with it key by key; anything else replaces what it meets. A key with
points in it leads into inner tables.
-/

namespace PageBundle.Value

/-- The entries of a table; none of anything else. -/
def entriesOf : Value → List (String × Value)
  | .table entries => entries
  | _ => []

/-- The table `root` with `v` in the place of what was at `key`. -/
def replace (root : Value) (key : String) (v : Value) : Value :=
  .table ((entriesOf root).filter (·.1 != key) ++ [(key, v)])

/-- What `root` has at `key`, an empty table if there is nothing. -/
def tableAt (root : Value) (key : String) : Value :=
  (valueAt? (entriesOf root) key).getD (.table [])

mutual

/-- The table `root` with `v` laid over what is at `key`. -/
def overlay (root : Value) (key : String) (v : Value) : Value :=
  match v with
  | .table entries => root.replace key (overlayAll (root.tableAt key) entries)
  | v => root.replace key v

/-- The table `root` with entries laid over it. -/
def overlayAll (root : Value) (entries : List (String × Value)) : Value :=
  match entries with
  | [] => root
  | (key, v) :: rest => overlayAll (root.overlay key v) rest

end

/-- The table `root` with `v` laid over what is at the end of a path through inner tables. -/
def overlayAt (root : Value) (v : Value) : List String → Value
  | [] => root
  | [key] => root.overlay key v
  | key :: path => root.replace key ((root.tableAt key).overlayAt v path)

/-- The characters of keys that may be joined by points. -/
def isKeyChar (c : Char) : Bool :=
  c.isAlphanum || c == '_' || c == '-'

/-- The path that a key stands for: its parts between points, if it has nothing else in it. -/
def pathOfKey (key : String) : List String :=
  let parts := key.toList.splitOn '.'
  if parts.all fun part => !part.isEmpty && part.all isKeyChar then parts.map String.ofList
  else [key]

/-- The table `root` with the entries of a source laid over it. -/
def overlaySource (root : Value) (source : List (String × Value)) : Value :=
  source.foldl (fun root e => root.overlayAt e.2 (pathOfKey e.1)) root

end PageBundle.Value
