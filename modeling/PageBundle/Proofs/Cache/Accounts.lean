import PageBundle.Cache.Artifacts
import PageBundle.Proofs.Cache.Stored
import PageBundle.Proofs.Resource.Membership
import PageBundle.Store.Memory
import Mathlib.Data.List.Induction

/-!
# Accounts of an artifact cache

A session is an artifact cache that is used over a memory store while resources come and go and the
store refuses writings or takes them again. It remembers the requests with their answers, and
`Accounted` says how the cache follows from them: the stored paths are those of the requests that
succeeded, and the counts count the answers. Every action keeps this, so it holds after every
session.
-/

namespace PageBundle

open Store (Error)

namespace Request

/-- Whether the answer was stored. -/
def isHit : Request → Bool
  | .cached _ => true
  | .empty => false
  | .ran _ => false

/-- Whether a build was run. -/
def isMiss : Request → Bool
  | .ran _ => true
  | .empty => false
  | .cached _ => false

/-- Whether a build was run that gave an artifact. -/
def isBuild : Request → Bool
  | .ran build => build.path.isOk
  | .empty => false
  | .cached _ => false

/-- Whether a build was run that failed. -/
def isFailure : Request → Bool
  | .ran build => !build.path.isOk
  | .empty => false
  | .cached _ => false

end Request

namespace RequestCounts

/-- The counts after some answers, in the arithmetic of the counters. -/
theorem foldl_record (answers : List Request) :
    answers.foldl record {} =
      { hits := .ofNat (answers.countP Request.isHit)
        misses := .ofNat (answers.countP Request.isMiss)
        builds := .ofNat (answers.countP Request.isBuild)
        failedBuilds := .ofNat (answers.countP Request.isFailure) } := by
  induction answers using List.reverseRecOn with
  | nil => rfl
  | append_singleton answers answer ih =>
    rw [List.foldl_append, ih]
    simp only [List.countP_append, List.countP_singleton]
    cases answer with
    | empty => rfl
    | cached path =>
      simp [record, Request.isHit, Request.isMiss, Request.isBuild, Request.isFailure]
    | ran build =>
      cases built : build.path.isOk <;>
        simp [record, Request.isHit, Request.isMiss, Request.isBuild, Request.isFailure, built]

end RequestCounts

/-- Every build succeeds or fails. -/
theorem countP_isMiss (answers : List Request) :
    answers.countP Request.isMiss =
      answers.countP Request.isBuild + answers.countP Request.isFailure := by
  induction answers with
  | nil => rfl
  | cons answer answers ih =>
    simp only [List.countP_cons, ih]
    cases answer with
    | empty => rfl
    | cached path => rfl
    | ran build =>
      cases built : build.path.isOk <;>
        simp only [Request.isMiss, Request.isBuild, Request.isFailure, built] <;> simp <;> omega

namespace ArtifactCache

/-- A request for nothing does nothing, whatever the store. -/
theorem request_of_isEmpty {m : Type → Type} [Monad m] (store : Store m) {c : ArtifactCache}
    {set : ReferenceSet} (isEmpty : set.isEmpty = true) :
    c.request store set = pure (.empty, c) := by
  rw [request, isEmpty]
  rfl

/-- A request for a stored path is a hit that does nothing to the store, whatever the store. -/
theorem request_of_stored {m : Type → Type} [Monad m] [LawfulMonad m] (store : Store m)
    {c : ArtifactCache} {set : ReferenceSet} {path : String} (nonempty : set.isEmpty = false)
    (stored : c.paths.get? set = some path) :
    c.request store set = pure (.cached path,
      { c with counts := { c.counts with hits := c.counts.hits + 1 } }) := by
  rw [request, nonempty, BuildOnce.request_of_stored _ _ stored]
  simp only [Bool.false_eq_true, if_false, pure_bind]
  rfl

/-- A request for something that is not stored runs a build, whatever the store. -/
theorem request_of_missing {m : Type → Type} [Monad m] [LawfulMonad m] (store : Store m)
    {c : ArtifactCache} {set : ReferenceSet} (nonempty : set.isEmpty = false)
    (missing : c.paths.get? set = none) :
    c.request store set = (do
      let build ← c.build store set
      let paths := (c.paths.enlist set).record set build.path.toOption
      return (.ran build, c.record paths (.ran build))) := by
  rw [request, nonempty, BuildOnce.request_of_missing _ _ missing]
  simp only [Bool.false_eq_true, if_false, bind_assoc, pure_bind]

section Request

variable {σ : Type} (store : Store (StateM σ)) (s : σ)

theorem path_merge (charset : Charset) (set : ReferenceSet) (path : String) :
    ((merge store charset set path).run s).1.path = path := by
  rw [merge, run_bind]
  split
  · rfl
  · rfl

theorem merge_build (c : ArtifactCache) (set : ReferenceSet) :
    ((c.build store set).run s).1.merge =
      ((PageBundle.merge store c.charset set (c.pathOf set)).run s).1 := by
  rw [build, run_bind]
  split
  · rfl
  · rfl

/-- A build that succeeds gives the path that the artifact is to have. -/
theorem path_build (c : ArtifactCache) (set : ReferenceSet) {path : String}
    (built : ((c.build store set).run s).1.path = .ok path) : path = c.pathOf set := by
  rw [Build.path, merge_build, path_merge] at built
  cases written : ((PageBundle.merge store c.charset set (c.pathOf set)).run s).1.written with
  | error e => simp [written, Except.map] at built
  | ok size => simpa [written, Except.map] using built.symm

/-- A build that succeeds adds one artifact, and one that fails adds none. -/
theorem size_record {c : ArtifactCache} {set : ReferenceSet} (missing : c.paths.get? set = none)
    (build : Build) :
    (c.record ((c.paths.enlist set).record set build.path.toOption) (.ran build)).size =
      c.size + if Request.isBuild (.ran build) then 1 else 0 := by
  cases given : build.path with
  | error e =>
    simp [record, size, Request.isBuild, given, Except.toOption, Except.isOk, Except.toBool,
      BuildOnce.record_none]
  | ok path =>
    have larger : ((c.paths.enlist set).record set (some path)).size = c.paths.size + 1 := by
      rw [BuildOnce.size_record_of_missing (by rw [BuildOnce.get?_enlist, missing]),
        BuildOnce.size_enlist]
    simpa [record, size, Request.isBuild, given, Except.toOption, Except.isOk, Except.toBool]
      using larger

/-- How a request is answered, and what it leaves. -/
inductive Answered (c : ArtifactCache) (set : ReferenceSet) : Request → ArtifactCache → σ → Prop
  | empty (isEmpty : set.isEmpty = true) : Answered c set .empty c s
  | cached {path : String} (nonempty : set.isEmpty = false)
      (stored : c.paths.get? set = some path) :
      Answered c set (.cached path) (c.record c.paths (.cached path)) s
  | ran {build : Build} {t : σ} (nonempty : set.isEmpty = false)
      (missing : c.paths.get? set = none) (built : (c.build store set).run s = (build, t)) :
      Answered c set (.ran build)
        (c.record ((c.paths.enlist set).record set build.path.toOption) (.ran build)) t

theorem answered_request (c : ArtifactCache) (set : ReferenceSet) :
    Answered store s c set ((c.request store set).run s).1.1 ((c.request store set).run s).1.2
      ((c.request store set).run s).2 := by
  cases isEmpty : set.isEmpty with
  | true =>
    rw [request, isEmpty]
    exact .empty isEmpty
  | false =>
    cases stored : c.paths.get? set with
    | some path =>
      rw [request_of_stored store isEmpty stored]
      exact .cached isEmpty stored
    | none =>
      rw [request_of_missing store isEmpty stored]
      exact .ran isEmpty stored rfl

end Request

/-- Something that happens to an artifact cache or to the memory under it. -/
inductive Action where
  | request (set : ReferenceSet)
  | lookUp (set : ReferenceSet)
  | insert (path : String) (contents : Bytes)
  | erase (path : String)
  | setReadOnly (readOnly : Bool)

/-- An artifact cache in use over a memory store. -/
structure Session where
  cache : ArtifactCache
  memory : Store.Memory
  /-- The requests so far with their answers, in order. -/
  answers : List (ReferenceSet × Request) := []

namespace Session

/-- The session after an action. Looking a path up leaves everything as it is. -/
def act (s : Session) : Action → Session
  | .request set =>
    let ((answer, cache), memory) := (s.cache.request Store.Memory.store set).run s.memory
    { cache, memory, answers := s.answers ++ [(set, answer)] }
  | .lookUp _ => s
  | .insert path contents => { s with memory := s.memory.insert path contents }
  | .erase path => { s with memory := s.memory.erase path }
  | .setReadOnly readOnly => { s with memory := { s.memory with readOnly } }

/-- The answer to a request that is made now. -/
def reply (s : Session) (set : ReferenceSet) : Request :=
  ((s.cache.request Store.Memory.store set).run s.memory).1.1

theorem answers_act (s : Session) (set : ReferenceSet) :
    (s.act (.request set)).answers = s.answers ++ [(set, s.reply set)] := rfl

/-- A request for something that is not stored runs a build. -/
theorem act_of_missing {s : Session} {set : ReferenceSet} (nonempty : set.isEmpty = false)
    (missing : s.cache.paths.get? set = none) :
    s.act (.request set) =
      let (build, memory) := (s.cache.build Store.Memory.store set).run s.memory
      let paths := (s.cache.paths.enlist set).record set build.path.toOption
      { cache := s.cache.record paths (.ran build), memory
        answers := s.answers ++ [(set, .ran build)] } := by
  rw [act, request_of_missing Store.Memory.store nonempty missing]
  rfl

/-- The session after some actions. -/
def run (s : Session) (actions : List Action) : Session :=
  actions.foldl act s

/-- The sets for which a request succeeded, with the paths it gave. -/
def successes (s : Session) : List (ReferenceSet × String) :=
  s.answers.filterMap fun e => e.2.path.toOption.map (e.1, ·)

/-- The memberships for which a request succeeded. -/
def memberships (s : Session) : Finset (Finset String) :=
  (s.successes.map fun e => e.1.membership).toFinset

theorem successes_append (s : Session) (cache : ArtifactCache) (memory : Store.Memory)
    (set : ReferenceSet) (answer : Request) :
    successes ⟨cache, memory, s.answers ++ [(set, answer)]⟩ =
      s.successes ++ (answer.path.toOption.map (set, ·)).toList := by
  cases given : answer.path.toOption <;> simp [successes, given]

theorem mem_successes {s : Session} {e : ReferenceSet × String} :
    e ∈ s.successes ↔ ∃ answer, (e.1, answer) ∈ s.answers ∧ answer.path = .ok e.2 := by
  simp only [successes, List.mem_filterMap, Option.map_eq_some_iff]
  constructor
  · rintro ⟨⟨set, answer⟩, member, path, given, rfl⟩
    cases given' : answer.path with
    | error e => simp [given', Except.toOption] at given
    | ok p => exact ⟨answer, member, by simpa [given', Except.toOption] using given⟩
  · rintro ⟨answer, member, given⟩
    exact ⟨(e.1, answer), member, e.2, by simp [given, Except.toOption], rfl⟩

/-- How a session follows from its requests, with the artifacts named as by `c`. -/
structure Accounted (c : ArtifactCache) (s : Session) : Prop where
  named : s.cache.pathOf = c.pathOf
  holds : s.cache.paths.Holds s.successes
  counts : s.cache.counts = (s.answers.map (·.2)).foldl RequestCounts.record {}
  size : s.cache.size = s.answers.countP (·.2.isBuild)
  /-- A request for something is a hit or a miss. -/
  answered : ∀ e ∈ s.answers, (e.2.isHit || e.2.isMiss) = !e.1.isEmpty
  paths : ∀ e ∈ s.successes, e.2 = c.pathOf e.1

namespace Accounted

variable {c : ArtifactCache} {s : Session} {set : ReferenceSet}

theorem start (kind : Kind) (mode : BuildMode) (directory : String) (charset : Charset)
    (pipeline : Pipeline) (tools : Tools) (memory : Store.Memory) :
    Accounted { kind, mode, directory, charset, pipeline, tools }
      { cache := { kind, mode, directory, charset, pipeline, tools }, memory } :=
  ⟨rfl, BuildOnce.holds_nil, rfl, rfl, nofun, nofun⟩

/-- The accounts are those of the requests, whatever becomes of the memory. -/
theorem withMemory (accounted : Accounted c s) (memory : Store.Memory) :
    Accounted c { s with memory } :=
  ⟨accounted.named, accounted.holds, accounted.counts, accounted.size, accounted.answered,
    accounted.paths⟩

/-- The path under which a set is stored is the one that its artifact is to have. -/
theorem eq_pathOf (accounted : Accounted c s) {path : String}
    (stored : s.cache.paths.get? set = some path) : path = c.pathOf set := by
  obtain ⟨e, member, same, rfl⟩ := accounted.holds.get?_eq_some_iff.1 stored
  rw [accounted.paths e member]
  exact artifactPath_congr _ _ _ (ReferenceSet.beq_iff_membership.1 (BEq.symm same))

/-- Answering a request keeps the accounts. -/
theorem answer (accounted : Accounted c s) {answer : Request} {cache : ArtifactCache}
    {memory : Store.Memory}
    (answered : Answered Store.Memory.store s.memory s.cache set answer cache memory) :
    Accounted c ⟨cache, memory, s.answers ++ [(set, answer)]⟩ := by
  -- What is added to the log of answers and to that of successes, case by case.
  have counted (r : Request) : ((s.answers ++ [(set, r)]).map (·.2)).foldl RequestCounts.record {} =
      s.cache.counts.record r := by
    rw [accounted.counts, List.map_append, List.foldl_append]
    rfl
  have extended (r : Request) (kept : (r.isHit || r.isMiss) = !set.isEmpty) :
      ∀ e ∈ s.answers ++ [(set, r)], (e.2.isHit || e.2.isMiss) = !e.1.isEmpty := by
    intro e member
    rcases List.mem_append.1 member with old | new
    · exact accounted.answered e old
    · obtain rfl := List.mem_singleton.1 new
      exact kept
  cases answered with
  | empty isEmpty =>
    refine ⟨accounted.named, ?_, ?_, ?_, extended _ (by simp [isEmpty, Request.isHit,
      Request.isMiss]), ?_⟩
    · rw [successes_append]
      simpa [Request.path, Except.toOption] using accounted.holds
    · exact (counted .empty).symm
    · rw [List.countP_append, ← accounted.size]
      rfl
    · rw [successes_append]
      simpa [Request.path, Except.toOption] using accounted.paths
  | @cached path nonempty stored =>
    refine ⟨accounted.named, ?_, ?_, ?_, extended _ (by simp [nonempty, Request.isHit]), ?_⟩
    · rw [successes_append]
      exact accounted.holds.cached stored
    · exact (counted (.cached path)).symm
    · rw [List.countP_append, ← accounted.size]
      rfl
    · rw [successes_append]
      intro e member
      rcases List.mem_append.1 member with old | new
      · exact accounted.paths e old
      · obtain rfl := List.mem_singleton.1 new
        exact accounted.eq_pathOf stored
  | @ran build t nonempty missing built =>
    have path (p : String) (given : build.path = .ok p) : p = c.pathOf set := by
      rw [← accounted.named]
      apply path_build Store.Memory.store s.memory s.cache set
      rw [built]
      exact given
    refine ⟨accounted.named, ?_, ?_, ?_, extended _ (by simp [nonempty, Request.isMiss]), ?_⟩
    · rw [successes_append]
      refine (accounted.holds.congr (BuildOnce.get?_enlist _ set)).record ?_ build.path.toOption
      rw [BuildOnce.get?_enlist, missing]
    · exact (counted (.ran build)).symm
    · rw [List.countP_append, ← accounted.size, List.countP_singleton]
      exact size_record missing build
    · rw [successes_append]
      intro e member
      rcases List.mem_append.1 member with old | new
      · exact accounted.paths e old
      · cases given : build.path with
        | error e => simp [Request.path, given, Except.toOption] at new
        | ok p =>
          obtain rfl : e = (set, p) := by simpa [Request.path, given, Except.toOption] using new
          exact path p given

/-- **Every action keeps the accounts.** -/
theorem act (accounted : Accounted c s) (action : Action) : Accounted c (s.act action) := by
  cases action with
  | request set => exact accounted.answer (answered_request Store.Memory.store s.memory s.cache set)
  | lookUp => exact accounted
  | insert | erase | setReadOnly => exact accounted.withMemory _

theorem run (accounted : Accounted c s) (actions : List Action) : Accounted c (s.run actions) := by
  induction actions generalizing s with
  | nil => exact accounted
  | cons action actions ih => exact ih (accounted.act action)

/-- Nothing is stored for members without a request that succeeded. -/
theorem get?_eq_none (accounted : Accounted c s) (first : set.membership ∉ s.memberships) :
    s.cache.paths.get? set = none := by
  cases stored : s.cache.paths.get? set with
  | none => rfl
  | some path =>
    obtain ⟨e, member, same, -⟩ := accounted.holds.get?_eq_some_iff.1 stored
    rw [ReferenceSet.beq_iff_membership.1 same] at first
    exact absurd (List.mem_toFinset.2 (List.mem_map_of_mem member)) first

/-- A set with the members of one for which a request succeeded has its path stored. -/
theorem get?_of_mem_memberships (accounted : Accounted c s)
    (known : set.membership ∈ s.memberships) :
    s.cache.paths.get? set = some (c.pathOf set) ∧ set.isEmpty = false := by
  obtain ⟨e, member, same⟩ := List.mem_map.1 (List.mem_toFinset.1 known)
  have stored := accounted.holds.stored e member set (ReferenceSet.beq_iff_membership.2 same.symm)
  have path : e.2 = c.pathOf set := accounted.eq_pathOf stored
  refine ⟨path ▸ stored, ?_⟩
  obtain ⟨answer, logged, given⟩ := mem_successes.1 member
  have nonempty : e.1.isEmpty = false := by
    have answered := accounted.answered _ logged
    cases answer with
    | empty => cases given
    | cached path => simpa [Request.isHit] using answered
    | ran build => simpa [Request.isHit, Request.isMiss] using answered
  rw [← Bool.not_eq_true, ReferenceSet.isEmpty_iff_membership] at nonempty ⊢
  rwa [← same]

end Accounted

/-- The sets that are requested, in order. -/
def requests (actions : List Action) : List ReferenceSet :=
  actions.filterMap fun
    | .request set => some set
    | _ => none

/-- Every request is answered. -/
theorem map_fst_answers_run (s : Session) (actions : List Action) :
    (s.run actions).answers.map (·.1) = s.answers.map (·.1) ++ requests actions := by
  induction actions generalizing s with
  | nil => simp [run, requests]
  | cons action actions ih =>
    have step : (s.run (action :: actions)) = (s.act action).run actions := rfl
    rw [step, ih]
    cases action with
    | request set =>
      simp [answers_act, requests]
    | lookUp | insert | erase | setReadOnly => rfl

/-- Hits and misses together are the requests for something. -/
theorem countP_isHit_add (answers : List (ReferenceSet × Request))
    (answered : ∀ e ∈ answers, (e.2.isHit || e.2.isMiss) = !e.1.isEmpty) :
    answers.countP (·.2.isHit) + answers.countP (·.2.isMiss) = answers.countP (!·.1.isEmpty) := by
  induction answers with
  | nil => rfl
  | cons e answers ih =>
    obtain ⟨here, others⟩ := List.forall_mem_cons.1 answered
    have rest := ih others
    have apart : (e.2.isHit && e.2.isMiss) = false := by cases e.2 <;> rfl
    simp only [List.countP_cons, ← here]
    cases hit : e.2.isHit <;> cases miss : e.2.isMiss <;> simp_all <;> omega

/-- **The accounts of an artifact cache**, which starts empty over any memory and sees any actions,
whatever its charset and its tools do.
As long as the counters do not overflow, hits and misses are the requests for something, misses are
builds and failures, and builds are the stored artifacts, one for each membership for which a
request succeeded. A request that succeeds gives the path that the artifact of those members has;
from then on such requests are hits, and these call on nothing that a store can do. A request for
nothing fails and changes nothing. -/
theorem session_accounts (kind : Kind) (mode : BuildMode) (directory : String) (charset : Charset)
    (pipeline : Pipeline) (tools : Tools) (memory : Store.Memory) (actions : List Action) :
    let s := run { cache := { kind, mode, directory, charset, pipeline, tools }, memory } actions
    s.answers.map (·.1) = requests actions ∧
    (s.answers.countP (·.2.isHit) < 2 ^ 64 → s.answers.countP (·.2.isMiss) < 2 ^ 64 →
      s.cache.counts.hits.toNat + s.cache.counts.misses.toNat =
        (requests actions).countP (!·.isEmpty) ∧
      s.cache.counts.misses.toNat =
        s.cache.counts.builds.toNat + s.cache.counts.failedBuilds.toNat ∧
      s.cache.counts.builds.toNat = s.cache.size) ∧
    s.cache.size = s.memberships.card ∧
    (∀ e ∈ s.answers, ∀ path, e.2.path = .ok path →
      ∀ set, set.membership = e.1.membership → path = artifactPath directory mode kind set) ∧
    (∀ set, set.membership ∈ s.memberships →
      let hit := { s.cache with counts := { s.cache.counts with hits := s.cache.counts.hits + 1 } }
      let path := artifactPath directory mode kind set
      (∀ {m : Type → Type} [Monad m] [LawfulMonad m] (store : Store m),
        s.cache.request store set = pure (.cached path, hit)) ∧
      s.act (.request set) =
        { cache := hit, memory := s.memory, answers := s.answers ++ [(set, .cached path)] }) ∧
    (∀ set, set.isEmpty = true →
      s.act (.request set) = { s with answers := s.answers ++ [(set, .empty)] } ∧
      Request.path .empty = .error .emptyReferenceSet) := by
  intro s
  have accounted : Accounted { kind, mode, directory, charset, pipeline, tools } s :=
    (Accounted.start kind mode directory charset pipeline tools memory).run actions
  have answers : s.answers.map (·.1) = requests actions := map_fst_answers_run _ actions
  refine ⟨answers, fun fewHits fewMisses => ?_, ?_, ?_, fun set known => ?_, fun set isEmpty => ?_⟩
  · have misses := countP_isMiss (s.answers.map (·.2))
    have requested := countP_isHit_add s.answers accounted.answered
    rw [List.countP_map, List.countP_map, List.countP_map] at misses
    rw [← answers, accounted.size, accounted.counts, RequestCounts.foldl_record, List.countP_map,
      List.countP_map, List.countP_map, List.countP_map, List.countP_map]
    simp only [Function.comp_def, UInt64.toNat_ofNat'] at fewHits fewMisses misses requested ⊢
    rw [Nat.mod_eq_of_lt fewHits, Nat.mod_eq_of_lt fewMisses]
    omega
  · exact accounted.holds.size_eq fun _ _ => ReferenceSet.beq_iff_membership
  · intro e member path given set same
    have named := accounted.paths (e.1, path) (mem_successes.2 ⟨e.2, member, given⟩)
    exact named.trans (artifactPath_congr _ _ _ same.symm)
  · obtain ⟨stored, nonempty⟩ := accounted.get?_of_mem_memberships known
    refine ⟨fun store => request_of_stored store nonempty stored, ?_⟩
    rw [act, request_of_stored Store.Memory.store nonempty stored]
    rfl
  · rw [act, request_of_isEmpty Store.Memory.store isEmpty]
    exact ⟨rfl, rfl⟩

/-- The store refuses the first artifact and takes the second, which then stands for its members in
either order. -/
theorem session_accounts_of_retry :
    let set : ReferenceSet := .ofList ["/js/b.js", "/js/a.js"]
    let reordered : ReferenceSet := .ofList ["/js/a.js", "/js/b.js"]
    let path := artifactPath "/js" .static .script reordered
    let cache : ArtifactCache :=
      { kind := .script, mode := .static, directory := "/js", charset := .utf8, pipeline := {} }
    let s := run { cache, memory := {} }
      [.setReadOnly true, .request set, .setReadOnly false, .request set]
    (s.cache.counts.hits.toNat + s.cache.counts.misses.toNat = 2 ∧
      s.cache.counts.misses.toNat =
        s.cache.counts.builds.toNat + s.cache.counts.failedBuilds.toNat ∧
      s.cache.counts.builds.toNat = 1) ∧
    (∀ e ∈ s.answers, ∀ given, e.2.path = .ok given → given = path) ∧
    (s.act (.request reordered)).memory = s.memory ∧
    (s.act (.request reordered)).answers = s.answers ++ [(reordered, .cached path)] ∧
    (s.act (.request (.ofList []))).cache = s.cache := by
  intro set reordered path cache s
  obtain ⟨answers, counts, size, paths, again, nothing⟩ :=
    session_accounts .script .static "/js" .utf8 {} .builtIn {}
      [.setReadOnly true, .request set, .setReadOnly false, .request set]
  have nonempty : set.isEmpty = false := by decide +kernel
  -- After the refusal nothing is stored for the set, so that the second request builds as well.
  let refusing : Session := { cache, memory := { readOnly := true } }
  have refused := act_of_missing (s := refusing) nonempty rfl
  have accounted : Accounted cache (refusing.act (.request set)) :=
    (Accounted.start .script .static "/js" .utf8 {} .builtIn { readOnly := true }).act _
  rw [refused] at accounted
  have built := act_of_missing nonempty
    ((accounted.act (.setReadOnly false)).get?_eq_none (by decide +kernel : set.membership ∉ _))
  rw [← refused] at built
  change s = _ at built
  rw [refused] at built
  have members : reordered.membership = set.membership := by decide +kernel
  have known : s.memberships = {set.membership} := by
    rw [built]
    decide +kernel
  have few (p : ReferenceSet × Request → Bool) : s.answers.countP p < 2 ^ 64 := by
    have two : s.answers.length = 2 := by simpa [requests] using congrArg List.length answers
    exact lt_of_le_of_lt List.countP_le_length (two ▸ by decide)
  obtain ⟨requested, misses, builds⟩ := counts (few _) (few _)
  obtain ⟨-, hit⟩ := again reordered (by rw [known, members, Finset.mem_singleton])
  refine ⟨⟨requested, misses, builds.trans ?_⟩, ?_, ?_, ?_, ?_⟩
  · rw [size, known, Finset.card_singleton]
  · intro e member given succeeded
    have requestedSet : e.1 = set := by
      have : e.1 ∈ s.answers.map (·.1) := List.mem_map_of_mem member
      rw [map_fst_answers_run] at this
      simpa [requests] using this
    exact paths e member given succeeded reordered (by rw [members, requestedSet])
  · rw [hit]
  · rw [hit]
  · rw [(nothing (.ofList []) (by decide +kernel)).1]

end Session

end ArtifactCache

end PageBundle
