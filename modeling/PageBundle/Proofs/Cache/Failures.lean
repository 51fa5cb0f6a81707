import PageBundle.Proofs.Cache.Building
import PageBundle.Proofs.Store.Counters

/-!
# Failed builds leave nothing behind

A request whose build fails leaves an empty cell, in which nothing is stored, and changes the counts
of misses and of failed builds, and nothing else (`Answered.of_error`). So a history goes on as if
such a request had not been made: `Omits` tells that a history is another one without some of its
failed requests, and `Forgets` that two sessions are the same but for empty cells, for these counts
and for the counters of the memory. The first implies the second for whole histories
(`Forgets.run`), and so the next build does the same in both.
-/

namespace PageBundle.ArtifactCache

open Store (Error Memory)
open Store.Memory (SameFiles)

/-- The cache after some more failures. -/
def withFailures (c : ArtifactCache) (n : Nat) : ArtifactCache :=
  { c with
    counts :=
      { c.counts with
        misses := c.counts.misses + .ofNat n
        failedBuilds := c.counts.failedBuilds + .ofNat n } }

theorem withFailures_zero (c : ArtifactCache) : c.withFailures 0 = c := by
  simp [withFailures]

theorem withFailures_withFailures (c : ArtifactCache) (n k : Nat) :
    (c.withFailures n).withFailures k = c.withFailures (n + k) := by
  simp [withFailures, add_assoc]

/-- Failures before an answer and after it count alike. -/
theorem record_withFailures (c : ArtifactCache) (n : Nat) (paths : BuildOnce ReferenceSet String)
    (answer : Request) :
    (c.withFailures n).record paths answer = (c.record paths answer).withFailures n := by
  cases answer with
  | empty | cached => rfl
  | ran build =>
    cases built : build.path.isOk with
    | true => simp [withFailures, record, RequestCounts.record, built, add_right_comm]
    | false => simp [withFailures, record, RequestCounts.record, built, add_right_comm]

/-- The second cache is the first one after some more failures: it has the same paths, and the same
of everything else but the two counts. The cells of the builds that failed make no difference. -/
structure FailedMore (n : Nat) (c d : ArtifactCache) : Prop where
  stored : ∀ set, d.paths.get? set = c.paths.get? set
  rest : { d with paths := c.paths } = c.withFailures n

namespace FailedMore

variable {n k : Nat} {c d e : ArtifactCache}

theorem refl (c : ArtifactCache) : FailedMore 0 c c :=
  ⟨fun _ => rfl, c.withFailures_zero.symm⟩

theorem trans (first : FailedMore n c d) (second : FailedMore k d e) : FailedMore (n + k) c e where
  stored set := (second.stored set).trans (first.stored set)
  rest := by
    rw [← withFailures_withFailures, ← first.rest]
    exact congrArg (fun e : ArtifactCache => { e with paths := c.paths }) second.rest

theorem size_eq (more : FailedMore n c d) : d.size = c.size :=
  BuildOnce.size_congr more.stored

theorem build_eq (more : FailedMore n c d) {m : Type → Type} [Monad m] (store : Store m)
    (set : ReferenceSet) : d.build store set = c.build store set := by
  have same := congrArg (fun c : ArtifactCache => c.build store set) more.rest
  exact same

/-- The same answer keeps two caches the same. -/
theorem record (more : FailedMore n c d) {paths paths' : BuildOnce ReferenceSet String}
    (same : ∀ set, paths'.get? set = paths.get? set) (answer : Request) :
    FailedMore n (c.record paths answer) (d.record paths' answer) where
  stored := same
  rest := (congrArg (fun c : ArtifactCache => c.record paths answer) more.rest).trans
    (record_withFailures c n paths answer)

/-- A request is answered in the same way after more failures. -/
theorem request {σ : Type} (more : FailedMore n c d) (store : Store (StateM σ)) (s : σ)
    (set : ReferenceSet) :
    let one := (c.request store set).run s
    let other := (d.request store set).run s
    other.1.1 = one.1.1 ∧ other.2 = one.2 ∧ FailedMore n one.1.2 other.1.2 := by
  cases isEmpty : set.isEmpty with
  | true =>
    rw [request_of_isEmpty store isEmpty, request_of_isEmpty store isEmpty]
    exact ⟨rfl, rfl, more⟩
  | false =>
    cases stored : c.paths.get? set with
    | some path =>
      rw [request_of_stored store isEmpty stored,
        request_of_stored store isEmpty ((more.stored set).trans stored)]
      exact ⟨rfl, rfl, more.record more.stored (.cached path)⟩
    | none =>
      rw [request_of_missing store isEmpty stored,
        request_of_missing store isEmpty ((more.stored set).trans stored), more.build_eq]
      have enlisted (other : ReferenceSet) :
          (d.paths.enlist set).get? other = (c.paths.enlist set).get? other := by
        rw [BuildOnce.get?_enlist, BuildOnce.get?_enlist, more.stored]
      let build := ((c.build store set).run s).1
      exact ⟨rfl, rfl, more.record (BuildOnce.get?_record_congr enlisted build.path.toOption)
        (.ran build)⟩

end FailedMore

/-- **A request that fails is seen in two counts only.** -/
theorem Answered.of_error {s t : Memory} {c after : ArtifactCache} {set : ReferenceSet}
    {answer : Request} {e : Error} (answered : Answered Memory.store s c set answer after t)
    (something : set.isEmpty = false) (failed : answer.path = .error e) :
    FailedMore 1 c after ∧ SameFiles s t ∧
      (e = .encoding (c.pathOf set) c.charset.name ∨ e = .write (c.pathOf set) .readOnly) := by
  have same := answered.sameFiles_of_error failed
  cases answered with
  | empty nothing => simp [something] at nothing
  | cached => cases failed
  | @ran build t _ missing built =>
    have building := built_build s c set
    rw [built] at building
    have none : build.path = .error e := failed
    obtain ⟨unapplied, cause⟩ : build.run = [] ∧ _ := building.error_cases none
    refine ⟨⟨?_, ?_⟩, same, cause⟩
    · rw [none]
      exact c.paths.get?_enlist set
    · simp [ArtifactCache.record, RequestCounts.record, withFailures, none, unapplied, Run.addTo,
        Run.receipts, Except.isOk, Except.toBool]

/-- A request that succeeds where nothing is stored is a miss and a build. -/
theorem Answered.counts_of_missing {s t : Memory} {c after : ArtifactCache} {set : ReferenceSet}
    {answer : Request} {path : String} (answered : Answered Memory.store s c set answer after t)
    (missing : c.paths.get? set = none) (given : answer.path = .ok path) :
    after.counts =
      { c.counts with misses := c.counts.misses + 1, builds := c.counts.builds + 1 } := by
  cases answered with
  | empty => cases given
  | cached _ stored => simp [missing] at stored
  | @ran build _ _ _ built =>
    have succeeded : build.path = .ok path := given
    simp [record, RequestCounts.record, succeeded, Except.isOk, Except.toBool]

namespace Session

/-- The set is not empty, and no artifact for it can be built now. -/
def Fails (s : Session) (set : ReferenceSet) : Prop :=
  set.isEmpty = false ∧ ∃ e, (s.reply set).path = .error e

theorem answered_act (s : Session) (set : ReferenceSet) :
    Answered Memory.store s.memory s.cache set (s.reply set) (s.act (.request set)).cache
      (s.act (.request set)).memory :=
  answered_request Memory.store s.memory s.cache set

/-- The first history, from a session on, without some of its requests that fail. -/
inductive Omits : Session → List Action → List Action → Prop
  | nil {s : Session} : Omits s [] []
  | keep {s : Session} {action : Action} {actions kept : List Action}
      (later : Omits (s.act action) actions kept) : Omits s (action :: actions) (action :: kept)
  | drop {s : Session} {set : ReferenceSet} {actions kept : List Action} (fails : s.Fails set)
      (later : Omits (s.act (.request set)) actions kept) :
      Omits s (.request set :: actions) kept

theorem Omits.length_le {s : Session} {actions kept : List Action} (omits : Omits s actions kept) :
    kept.length ≤ actions.length := by
  induction omits with
  | nil => exact Nat.le_refl 0
  | keep _ ih => exact Nat.succ_le_succ ih
  | drop _ _ ih => exact Nat.le_succ_of_le ih

/-- Two sessions are the same but for some failures in the second one, and for the counters of the
memory and the answers. -/
structure Forgets (n : Nat) (s t : Session) : Prop where
  files : SameFiles s.memory t.memory
  cache : FailedMore n s.cache t.cache

namespace Forgets

variable {n : Nat} {s t : Session}

theorem refl (s : Session) : Forgets 0 s s :=
  ⟨.refl s.memory, .refl s.cache⟩

/-- A request is answered alike, and leaves the same behind. -/
theorem request (forgets : Forgets n s t) (set : ReferenceSet) :
    t.reply set = s.reply set ∧ Forgets n (s.act (.request set)) (t.act (.request set)) := by
  -- The memories differ in their counters, and then the caches in their failures.
  obtain ⟨result, files⟩ := s.cache.blind_request set s.memory t.memory forgets.files
  obtain ⟨answer, memory, cache⟩ := forgets.cache.request Memory.store t.memory set
  refine ⟨answer.trans (congrArg Prod.fst result), ?_, ?_⟩
  · show SameFiles _ ((t.cache.request Memory.store set).run t.memory).2
    rw [memory]
    exact files
  · show FailedMore n ((s.cache.request Memory.store set).run s.memory).1.2 _
    rw [← result]
    exact cache

/-- The same action keeps two sessions the same. -/
theorem act (forgets : Forgets n s t) (action : Action) :
    Forgets n (s.act action) (t.act action) := by
  obtain ⟨files, readOnly⟩ := forgets.files
  cases action with
  | request set => exact (forgets.request set).2
  | lookUp set => exact forgets
  | insert path contents =>
    refine ⟨⟨?_, readOnly⟩, forgets.cache⟩
    show t.memory.resources.insert path contents = s.memory.resources.insert path contents
    rw [files]
  | erase path =>
    refine ⟨⟨?_, readOnly⟩, forgets.cache⟩
    show t.memory.resources.erase path = s.memory.resources.erase path
    rw [files]
  | setReadOnly readOnly => exact ⟨⟨files, rfl⟩, forgets.cache⟩

/-- One more failure in the second session makes no more difference than that. -/
theorem fail (forgets : Forgets n s t) {set : ReferenceSet} (fails : t.Fails set) :
    Forgets (n + 1) s (t.act (.request set)) := by
  obtain ⟨something, e, failed⟩ := fails
  obtain ⟨cache, files, -⟩ := (t.answered_act set).of_error something failed
  exact ⟨forgets.files.trans files, forgets.cache.trans cache⟩

/-- **A history without some of its failed requests comes to the same.** -/
theorem run {actions kept : List Action} (omits : Omits t actions kept) (forgets : Forgets n s t) :
    Forgets (n + (actions.length - kept.length)) (s.run kept) (t.run actions) := by
  induction omits generalizing s n with
  | nil => exact forgets
  | keep later ih =>
    rename_i t action actions kept
    have count : (action :: actions).length - (action :: kept).length =
        actions.length - kept.length := Nat.add_sub_add_right ..
    rw [count]
    exact ih (forgets.act action)
  | drop fails later ih =>
    rename_i t set actions kept
    have rest := ih (forgets.fail fails)
    have shorter := later.length_le
    have count : n + 1 + (actions.length - kept.length) =
        n + ((Action.request set :: actions).length - kept.length) := by
      rw [List.length_cons]
      omega
    exact count ▸ rest

end Forgets

theorem charset_run (s : Session) (actions : List Action) :
    (s.run actions).cache.charset = s.cache.charset := by
  induction actions generalizing s with
  | nil => rfl
  | cons action actions ih =>
    refine (ih (s.act action)).trans ?_
    cases action with
    | request set => exact (s.answered_act set).charset_eq
    | lookUp | insert | erase | setReadOnly => rfl

/-- **Failed builds leave nothing behind.** An artifact cache starts empty over any memory, with any
charset and any tools, and sees any actions. If a request for something fails then, the text cannot
be encoded or the memory refuses writings; the files, the stored paths, their number and the
compressions so far stay as they are, and only the misses and the failed builds grow, by one each.
Any failed requests may be left out of the history: the first request that succeeds for some members
gives the same path and leaves the same files as without them, and it counts as a miss and a
build. -/
theorem failed_builds_leave_nothing (kind : Kind) (mode : BuildMode) (directory : String)
    (charset : Charset) (pipeline : Pipeline) (tools : Tools) (memory : Memory)
    (actions : List Action) :
    let start : Session :=
      { cache := { kind, mode, directory, charset, pipeline, tools }, memory }
    let s := start.run actions
    (∀ set e, set.isEmpty = false → (s.reply set).path = .error e →
      let after := s.act (.request set)
      (e = .encoding (artifactPath directory mode kind set) charset.name ∨
        e = .write (artifactPath directory mode kind set) .readOnly) ∧
      after.memory.resources = s.memory.resources ∧
      (∀ other, after.cache.get? other = s.cache.get? other) ∧
      after.cache.size = s.cache.size ∧
      after.cache.pipeline = s.cache.pipeline ∧
      after.cache.counts =
        { s.cache.counts with
          misses := s.cache.counts.misses + 1
          failedBuilds := s.cache.counts.failedBuilds + 1 }) ∧
    ∀ kept, start.Omits actions kept → ∀ set path,
      set.membership ∉ s.memberships → (s.reply set).path = .ok path →
      let t := start.run kept
      (t.reply set).path = .ok path ∧
      (s.act (.request set)).memory.resources = (t.act (.request set)).memory.resources ∧
      (s.act (.request set)).cache.counts =
        { s.cache.counts with
          misses := s.cache.counts.misses + 1
          builds := s.cache.counts.builds + 1 } := by
  intro start s
  have accounted : Accounted start.cache s :=
    (Accounted.start kind mode directory charset pipeline tools memory).run actions
  constructor
  · intro set e something failed after
    obtain ⟨more, files, cause⟩ := (s.answered_act set).of_error something failed
    have named : s.cache.pathOf set = artifactPath directory mode kind set :=
      congrFun accounted.named set
    have coded : s.cache.charset = charset := charset_run start actions
    rw [named, coded] at cause
    have pipeline := congrArg ArtifactCache.pipeline more.rest
    have counts := congrArg ArtifactCache.counts more.rest
    exact ⟨cause, files.resources, more.stored, more.size_eq, pipeline, counts⟩
  · intro kept omits set path first given t
    obtain ⟨same, files, -⟩ := ((Forgets.refl start).run omits).request set
    refine ⟨same ▸ given, files.resources, ?_⟩
    exact (s.answered_act set).counts_of_missing (accounted.get?_eq_none first) given

/-- The memory refuses two builds for the same member and takes the third. -/
theorem failed_builds_leave_nothing_of_retry :
    let set : ReferenceSet := .ofList ["/js/a.js"]
    let twice : ReferenceSet := .ofList ["/js/a.js", "/js/a.js"]
    let start : Session :=
      { cache :=
          { kind := .script, mode := .static, directory := "/js", charset := .utf8, pipeline := {} }
        memory := { readOnly := true } }
    let script : Action := .insert "/js/a.js" (Utf8.ofString "a()")
    let s := start.run [.request set, script, .request twice, .setReadOnly false]
    let t := start.run [script, .setReadOnly false]
    (start.act (.request set)).memory.resources = start.memory.resources ∧
    (t.reply set).path = (s.reply set).path ∧ (s.reply set).path.isOk = true ∧
    (s.act (.request set)).memory.resources = (t.act (.request set)).memory.resources ∧
    (s.act (.request set)).cache.counts = ⟨0, 3, 1, 2⟩ := by
  intro set twice start script s t
  have refuses (u : Session) (set : ReferenceSet) (something : set.isEmpty = false)
      (failed : (u.reply set).path.isOk = false) : u.Fails set := by
    cases given : (u.reply set).path with
    | ok path => simp [given, Except.isOk, Except.toBool] at failed
    | error e => exact ⟨something, e, given⟩
  have first := refuses start set (by decide +kernel) (by decide +kernel)
  have second := refuses ((start.act (.request set)).act script) twice (by decide +kernel)
    (by decide +kernel)
  obtain ⟨something, e, failed⟩ := first
  obtain ⟨-, unchanged, -⟩ := (failed_builds_leave_nothing .script .static "/js" .utf8 {} .builtIn
    { readOnly := true } []).1 set e something failed
  have succeeds : (s.reply set).path.isOk = true := by decide +kernel
  obtain ⟨path, given⟩ : ∃ path, (s.reply set).path = .ok path := by
    cases given : (s.reply set).path with
    | ok path => exact ⟨path, rfl⟩
    | error e => simp [given, Except.isOk, Except.toBool] at succeeds
  have omits : start.Omits [.request set, script, .request twice, .setReadOnly false]
      [script, .setReadOnly false] :=
    .drop ⟨something, e, failed⟩ (.keep (.drop second (.keep .nil)))
  obtain ⟨same, files, counts⟩ := (failed_builds_leave_nothing .script .static "/js" .utf8 {}
    .builtIn { readOnly := true } _).2 _ omits set path (by decide +kernel) given
  refine ⟨unchanged, same.trans given.symm, succeeds, files, counts.trans ?_⟩
  decide +kernel

end Session

end PageBundle.ArtifactCache
