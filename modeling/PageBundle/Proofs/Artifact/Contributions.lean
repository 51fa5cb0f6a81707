import PageBundle.Proofs.Artifact.Writing
import PageBundle.Proofs.Text.Lines
import PageBundle.Proofs.Text.Utf8

/-!
# What the members of an artifact contribute

A merge reads every member once and leaves out those that are missing or no text in the charset.
What a member adds to the artifact depends on the bytes stored for it alone (`Charset.added`), so it
is the same whatever comes of the other members, and what is read are the files as they were before:
a member at the path of the artifact adds what stood there (`exact_merge`).
-/

namespace PageBundle

open Store (Error Memory)
open Store.Memory (SameFiles)

namespace Charset

/-- The text of a resource, if it is stored and a text in the charset. -/
def text? (charset : Charset) (stored : Option Bytes) : Option String :=
  stored.bind charset.decode?

/-- Whether a resource can be merged. -/
def hasText (charset : Charset) (stored : Option Bytes) : Bool :=
  (charset.text? stored).isSome

/-- Why a resource that has no text cannot be read. -/
def reason (charset : Charset) (path : String) : Option Bytes → Error
  | none => .notFound path
  | some _ => .encoding path charset.name

/-- What a member adds to an artifact, by the bytes stored for it. -/
def added (charset : Charset) (stored : Option Bytes) : List Char :=
  (charset.text? stored).elim [] contribution

/-- The text is read back from its bytes. -/
def ReadsBack (charset : Charset) (text : String) : Prop :=
  ∀ bs, charset.encode? text = some bs → charset.decode? bs = some text

theorem ended_added (charset : Charset) (stored : Option Bytes) :
    Text.Ended (charset.added stored) := by
  rw [added]
  cases charset.text? stored with
  | none => exact .inl rfl
  | some text => exact Text.ended_endLines text.toList

/-- Only a text that begins with a byte order mark has the bytes of one at its start. -/
theorem dropMark_encode {cs : List Char} (unmarked : cs.head? ≠ some '\ufeff') :
    Codec.dropMark (Utf8.encode cs) = Utf8.encode cs := by
  unfold Codec.dropMark
  split
  next bs marked =>
    have mark : Utf8.next (Utf8.encode cs) = .char '\ufeff' bs := by
      rw [marked]
      exact Utf8.next_three bs (by decide) (by decide) (by decide)
    cases cs with
    | nil => cases marked
    | cons c cs =>
      have first : Utf8.next (Utf8.encode (c :: cs)) = .char c (Utf8.encode cs) :=
        Utf8.next_utf8EncodeChar c _
      obtain ⟨rfl, -⟩ := Utf8.Next.char.inj (first.symm.trans mark)
      exact absurd rfl unmarked
  next => rfl

theorem readsBack_utf8 {text : String} (unmarked : text.toList.head? ≠ some '\ufeff') :
    utf8.ReadsBack text := by
  intro bs encoded
  obtain rfl : Utf8.encode text.toList = bs := Option.some.inj encoded
  have bytes : Codec.utf8.decode? (Utf8.encode text.toList) = some text.toList := by
    change Utf8.decode? (Codec.dropMark (Utf8.encode text.toList)) = _
    rw [dropMark_encode unmarked, Utf8.decode?_encode]
  rw [decode?, show utf8.codec = .utf8 from rfl, bytes, Option.map_some, String.ofList_toList]

end Charset

variable (s : Memory) (charset : Charset)

theorem run_readText (path : String) : (Memory.store.readText charset path).run s =
    ((charset.text? (s.get? path)).elim (.error (charset.reason path (s.get? path))) .ok,
      (s.read path).2) := by
  change ((s.read path).1.bind (charset.decode path), (s.read path).2) = _
  rw [Memory.read, Charset.text?]
  cases s.get? path with
  | none => rfl
  | some bs =>
    simp only [Except.bind, Charset.decode, Option.bind_some]
    cases charset.decode? bs <;> rfl

/-- What reading members gives, member by member. -/
theorem run_gather (ids : List String) : ((gather Memory.store charset ids).run s).1 =
    { content := (ids.filter fun id => charset.hasText (s.get? id)).flatMap fun id =>
        charset.added (s.get? id)
      merged := ids.filter fun id => charset.hasText (s.get? id)
      omitted := (ids.filter fun id => !charset.hasText (s.get? id)).map fun id =>
        (id, charset.reason id (s.get? id)) } := by
  induction ids generalizing s with
  | nil => rfl
  | cons id ids ih =>
    have first : ((gather Memory.store charset (id :: ids)).run s).1 =
        ((gather Memory.store charset ids).run (s.read id).2).1.add id
          ((Memory.store.readText charset id).run s).1 := rfl
    rw [first, ih, run_readText]
    simp only [Memory.get?_read]
    cases found : charset.text? (s.get? id) with
    | none | some text => simp [Gathering.add, Charset.hasText, Charset.added, found]

variable (set : ReferenceSet) (path : String)

/-- The text of an artifact, by the members that are merged. -/
def mergedText (merged : List String) : String :=
  String.ofList (merged.flatMap fun id => charset.added (s.get? id))

/-- What a merge reports and leaves behind. -/
structure Merge.Exact (report : Merge) (t : Memory) : Prop where
  path_eq : report.path = path
  /-- The members that are stored and texts are merged, in the order in which they were found. -/
  merged : report.merged = set.members.filter fun id => charset.hasText (s.get? id)
  /-- The others are left out, each for its own reason. -/
  omitted : report.omitted = (set.members.filter fun id => !charset.hasText (s.get? id)).map
    fun id => (id, charset.reason id (s.get? id))
  skipped : report.skipped = set.members.filter fun id => !charset.hasText (s.get? id)
  /-- Every member is told once. -/
  once : (report.merged ++ report.skipped).Perm set.members
  apart : ∀ id, Text.Ended (charset.added (s.get? id))
  written : ∀ size, report.written = .ok size → ∃ bs, t.get? path = some bs ∧ bs.length = size ∧
    charset.encode? (mergedText s charset report.merged) = some bs ∧
    (charset.ReadsBack (mergedText s charset report.merged) →
      charset.decode? bs = some (mergedText s charset report.merged))
  elsewhere : ∀ other, other ≠ path → t.get? other = s.get? other
  failed : ∀ e, report.written = .error e → SameFiles s t ∧
    (e = .encoding path charset.name ∧
        charset.encode? (mergedText s charset report.merged) = none ∨
      e = .write path .readOnly ∧ s.readOnly = true)

variable {s charset set path} {report : Merge} {t : Memory}

/-- The text that is written is that of the merged members. -/
theorem content_of_gather {g : Gathering} {ids : List String}
    (gathered : (gather Memory.store charset ids).run s = (g, t)) :
    String.ofList g.content = mergedText s charset g.merged := by
  have told := run_gather s charset ids
  rw [gathered] at told
  obtain rfl : g = _ := told
  rfl

namespace Merged

theorem members (made : Merged s charset set path report t) :
    report.merged = (set.members.filter fun id => charset.hasText (s.get? id)) ∧
      report.omitted = (set.members.filter fun id => !charset.hasText (s.get? id)).map
        fun id => (id, charset.reason id (s.get? id)) := by
  have told := run_gather s charset set.members
  cases made with
  | unencodable gathered | encoded gathered =>
    rw [gathered] at told
    exact ⟨congrArg Gathering.merged told, congrArg Gathering.omitted told⟩

theorem written_of_ok (made : Merged s charset set path report t) {size : Nat}
    (written : report.written = .ok size) : ∃ bs, t.get? path = some bs ∧ bs.length = size ∧
      charset.encode? (mergedText s charset report.merged) = some bs := by
  cases made with
  | unencodable => cases written
  | @encoded g u bs gathered encoded =>
    rw [content_of_gather gathered] at encoded
    cases takes : u.readOnly with
    | true => simp [Memory.write_of_readOnly bs takes, Except.map] at written
    | false =>
      rw [Memory.write_of_writable bs takes] at written
      exact ⟨bs, Memory.get?_write_self bs takes, Except.ok.inj written,
        Charset.encode?_of_ok encoded⟩

/-- Nothing but the encoding of the whole text or its writing fails. -/
theorem cause_of_error (made : Merged s charset set path report t) {e : Error}
    (failed : report.written = .error e) :
    e = .encoding path charset.name ∧
        charset.encode? (mergedText s charset report.merged) = none ∨
      e = .write path .readOnly ∧ s.readOnly = true := by
  have files := sameFiles_gather s charset set.members
  cases made with
  | unencodable gathered encoded =>
    rw [content_of_gather gathered] at encoded
    obtain rfl := Except.error.inj failed
    exact .inl (Charset.encode?_of_error encoded)
  | @encoded g u bs gathered encoded =>
    rw [gathered] at files
    cases takes : u.readOnly with
    | false => simp [Memory.write_of_writable bs takes, Except.map] at failed
    | true =>
      rw [Memory.write_of_readOnly bs takes] at failed
      exact .inr ⟨(Except.error.inj failed).symm, files.readOnly.symm.trans takes⟩

theorem exact (made : Merged s charset set path report t) : report.Exact s charset set path t := by
  obtain ⟨merged, omitted⟩ := made.members
  have skipped : report.skipped = set.members.filter fun id => !charset.hasText (s.get? id) := by
    rw [Merge.skipped, omitted, List.map_map]
    exact List.map_id _
  have once : (report.merged ++ report.skipped).Perm set.members := by
    rw [merged, skipped]
    exact List.filter_append_perm _ _
  refine ⟨made.path_eq, merged, omitted, skipped, once, fun id => Charset.ended_added _ _, ?_,
    made.changedAt.elsewhere, ?_⟩
  · intro size written
    obtain ⟨bs, here, length, encoded⟩ := made.written_of_ok written
    exact ⟨bs, here, length, encoded, fun readsBack => readsBack bs encoded⟩
  · intro e failed
    exact ⟨made.sameFiles_of_error failed, made.cause_of_error failed⟩

end Merged

/-- **A merge leaves out what it cannot read, and nothing else.** It tells every member once, writes
what the readable ones add, in order, and changes no other file; it fails only if their text cannot
be encoded or the memory refuses writings, and then it changes nothing. This holds of any charset,
whatever its codec does. In UTF-8 every text is read back that does not begin with a byte order
mark. -/
theorem exact_merge (s : Memory) (charset : Charset) (set : ReferenceSet) (path : String) :
    let run := (merge Memory.store charset set path).run s
    run.1.Exact s charset set path run.2 ∧
      ∀ text : String, text.toList.head? ≠ some '\ufeff' → Charset.utf8.ReadsBack text :=
  ⟨(merged_merge s charset set path).exact, fun _ => Charset.readsBack_utf8⟩

/-- The members are a text with a byte order mark, bytes that are no text, the artifact as it stands,
and one that is missing. -/
theorem exact_merge_replacing :
    let s : Memory := ((({} : Memory).insert "/a.js" [0xEF, 0xBB, 0xBF, 0x61]).insert "/b.js"
      [0xFF]).insert "/out.js" [0x62, 0x0D, 0x0A]
    let set := ReferenceSet.ofList ["/a.js", "/b.js", "/out.js", "/c.js"]
    let run := (merge Memory.store .utf8 set "/out.js").run s
    run.1.merged = ["/a.js", "/out.js"] ∧ run.1.skipped = ["/b.js", "/c.js"] ∧
      run.1.written = .ok 4 ∧
      (run.2.get? "/out.js").bind Charset.utf8.decode? = some "a\nb\n" := by
  intro s set run
  obtain ⟨exact, readsBack⟩ := exact_merge s .utf8 set "/out.js"
  have merged : run.1.merged = ["/a.js", "/out.js"] := exact.merged.trans (by decide +kernel)
  have skipped : run.1.skipped = ["/b.js", "/c.js"] := exact.skipped.trans (by decide +kernel)
  have text : mergedText s .utf8 run.1.merged = "a\nb\n" := by
    rw [merged]
    decide +kernel
  have succeeded : run.1.written = .ok 4 := by decide +kernel
  obtain ⟨bs, here, -, -, decodes⟩ := exact.written 4 succeeded
  refine ⟨merged, skipped, succeeded, ?_⟩
  rw [here, Option.bind_some, decodes (readsBack _ (by rw [text]; decide +kernel)), text]

end PageBundle
