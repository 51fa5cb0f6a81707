import PageBundle.Script.Machine

/-!
# Minifying scripts

A script is minified by feeding it to the machine from its start and taking what `finish` still
writes. How the script is cut into chunks does not matter: `feed_append` carries the machine over a
cut, and `minifyChunks_eq` says that only the concatenation of the chunks counts. `minifyReads`
takes the script from a reader instead, which may fail.
-/

namespace PageBundle.Script

namespace Machine

theorem foldl_step (bs : Bytes) (m : Machine) (out : Bytes) :
    bs.foldl (fun (r : Machine × Bytes) b => ((r.1.step b).1, (r.1.step b).2.reverse ++ r.2))
      (m, out) = ((m.feed bs).1, (m.feed bs).2.reverse ++ out) := by
  induction bs generalizing m out with
  | nil => simp [feed]
  | cons b bs ih =>
    simp only [feed, List.foldl_cons]
    rw [ih, ih]
    simp

@[simp] theorem feed_nil (m : Machine) : m.feed [] = (m, []) := rfl

theorem feed_cons (m : Machine) (b : UInt8) (bs : Bytes) :
    m.feed (b :: bs) =
      (((m.step b).1.feed bs).1, (m.step b).2 ++ ((m.step b).1.feed bs).2) := by
  simp only [feed, List.foldl_cons]
  rw [foldl_step]
  simp [feed]

theorem feed_append (m : Machine) (xs ys : Bytes) :
    m.feed (xs ++ ys) =
      (((m.feed xs).1.feed ys).1, (m.feed xs).2 ++ ((m.feed xs).1.feed ys).2) := by
  induction xs generalizing m with
  | nil => simp
  | cons x xs ih => simp [feed_cons, ih]

/-- Feeds chunks in order; what is written during each. -/
def feedChunks (m : Machine) : List Bytes → Machine × List Bytes
  | [] => (m, [])
  | chunk :: chunks =>
    let (m, out) := m.feed chunk
    let (m, outs) := m.feedChunks chunks
    (m, out :: outs)

theorem feedChunks_eq (m : Machine) (chunks : List Bytes) :
    (m.feedChunks chunks).1 = (m.feed chunks.flatten).1 ∧
      (m.feedChunks chunks).2.flatten = (m.feed chunks.flatten).2 := by
  induction chunks generalizing m with
  | nil => simp [feedChunks]
  | cons chunk chunks ih => simp [feedChunks, feed_append, ih]

end Machine

/-- The minified script. -/
def minify (script : Bytes) : Bytes :=
  let (m, out) := Machine.start.feed script
  out ++ m.finish

/-- The minified form of a script that arrives in chunks. -/
def minifyChunks (chunks : List Bytes) : Bytes :=
  let (m, outs) := Machine.start.feedChunks chunks
  outs.flatten ++ m.finish

theorem minifyChunks_eq (chunks : List Bytes) : minifyChunks chunks = minify chunks.flatten := by
  simp [minifyChunks, minify, Machine.feedChunks_eq]

/-- Feeds what a reader delivers, read by read. An empty read is the end, and a fault of the reader
is passed on. -/
def Machine.feedReads {ε : Type} (m : Machine) : List (Except ε Bytes) → Except ε (Machine × Bytes)
  | [] => .ok (m, [])
  | .error fault :: _ => .error fault
  | .ok [] :: _ => .ok (m, [])
  | .ok chunk :: reads => do
    let (m, out) := m.feed chunk
    let (m, rest) ← m.feedReads reads
    return (m, out ++ rest)

/-- The minified form of the script that a reader delivers. -/
def minifyReads {ε : Type} (reads : List (Except ε Bytes)) : Except ε Bytes := do
  let (m, out) ← Machine.start.feedReads reads
  return out ++ m.finish

theorem Machine.feedReads_eq {ε : Type} (m : Machine) {chunks : List Bytes}
    (whole : ∀ chunk ∈ chunks, chunk ≠ []) (later : List (Except ε Bytes)) :
    m.feedReads (chunks.map .ok ++ .ok [] :: later) = .ok (m.feed chunks.flatten) := by
  induction chunks generalizing m with
  | nil => simp [feedReads]
  | cons chunk chunks ih =>
    obtain ⟨first, rest⟩ := List.forall_mem_cons.1 whole
    simp only [List.map_cons, List.cons_append, feedReads, ih _ rest, List.flatten_cons,
      feed_append]
    rfl

theorem minifyReads_eq {ε : Type} {chunks : List Bytes} (whole : ∀ chunk ∈ chunks, chunk ≠ [])
    (later : List (Except ε Bytes)) :
    minifyReads (chunks.map .ok ++ .ok [] :: later) = .ok (minify chunks.flatten) := by
  rw [minifyReads, Machine.feedReads_eq _ whole]
  rfl

/-- The minified text of a script. Faults, which the bytes of a text never lead to, would be shown
as replacement characters. -/
def minifyText (script : String) : String :=
  let out := minify (Utf8.ofString script)
  String.ofList ((Utf8.decode? out).getD (Utf8.decodeLossy out))

end PageBundle.Script
