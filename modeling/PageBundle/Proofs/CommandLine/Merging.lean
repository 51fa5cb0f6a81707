import PageBundle.CommandLine.Run
import PageBundle.File.Disk
import PageBundle.Proofs.Markup.Places
import PageBundle.Proofs.Page.Calls
import Mathlib.Data.List.Induction

/-!
# Merging by command

The command that merges resources and an optimizer with the same settings make the same artifact.
The command does to a store what building the artifact does, and reports the build
(`mergeInto_eq_build`); the first request for the members is that build as well
(`run_request_of_unbuilt`). So they agree on every store, whatever fails.
-/

namespace PageBundle

open Store (Deployment)

namespace Pipeline

theorem statistics_add (p : Pipeline) (step : Step) : (p.add step).statistics = p.statistics := by
  rw [add]
  split
  · rfl
  · rfl

/-- A pipeline begins with empty statistics. -/
theorem statistics_ofPolicy (charset : Charset) (kind : Kind) (policy : Policy)
    (minify compress : Bool) : (ofPolicy charset kind policy minify compress).statistics = {} := by
  rw [ofPolicy, ofSteps]
  generalize (_ ++ _ : List Step) = steps
  induction steps using List.reverseRecOn with
  | nil => rfl
  | append_singleton steps step ih =>
    rw [List.foldl_append, List.foldl_cons, List.foldl_nil, statistics_add, ih]

end Pipeline

theorem ReferenceSet.isEmpty_ofList {ids : List String} (something : ids ≠ []) :
    (ofList ids).isEmpty = false := by
  cases ids with
  | nil => exact absurd rfl something
  | cons id ids => simp [ofList, isEmpty, List.eraseDups_cons]

/-- An attempt that made a request ends as the request does. -/
theorem Attempt.result_requested (request : Request) (rewritten : String → String) :
    (Attempt.requested request rewritten).result =
      match request.path with
      | .error e => .error (.store e)
      | .ok path => .ok (rewritten path) := by
  rw [result]
  cases request.path with
  | error e => rfl
  | ok path => rfl

namespace CommandLine

/-- The report on an artifact that was built, which began with empty statistics. -/
def valueOf (build : Build) (bytes : Nat) : Value :=
  mergeValue build.merge bytes build.run (build.run.addTo .pipeline {})

/-- What the command reports of a build. -/
def reportOf (settings : Settings) (json : Bool) (build : Build) : Report :=
  match build.merge.written with
  | .error e => ⟨Log.ofMerge build.merge, .error (chain e)⟩
  | .ok bytes =>
    let text := if json then Json.pretty (valueOf build bytes)
      else settings.contextPrefix ++ build.merge.path
    ⟨Log.ofMerge build.merge ++ Log.ofRun build.merge.path build.run ++ skippedEvents build.merge,
      .ok (Utf8.ofString (text ++ "\n"))⟩

section Building

variable {m : Type → Type} [Monad m] [LawfulMonad m]

/-- What goes on after a merge may take it that the report names the path. -/
theorem bind_merge_congr {β : Type} (store : Store m) (charset : Charset) (set : ReferenceSet)
    {path : String} {f g : Merge → m β}
    (same : ∀ report, report.path = path → f report = g report) :
    PageBundle.merge store charset set path >>= f =
      PageBundle.merge store charset set path >>= g := by
  simp only [PageBundle.merge, bind_assoc]
  refine bind_congr fun gathering => ?_
  split
  · rw [pure_bind, pure_bind]
    exact same _ rfl
  · simp only [bind_assoc, pure_bind]
    exact bind_congr fun written => same _ rfl

/-- **The command reports what building the artifact comes to**, whatever the store is. -/
theorem mergeInto_eq_build (store : Store m) (tools : Tools) (settings : Settings)
    (charset : Charset) (kind : Kind) (json : Bool) (set : ReferenceSet) :
    mergeInto store tools settings charset kind json set = (do
      let build ← (Optimizer.artifactsFor settings tools charset kind).build store set
      return reportOf settings json build) := by
  simp only [mergeInto, ArtifactCache.build, bind_assoc]
  refine bind_merge_congr store charset set fun report named => ?_
  rw [← named]
  cases written : report.written with
  | error e => simp [reportOf, written]
  | ok bytes =>
    simp only [Pipeline.run, bind_assoc, pure_bind, Pipeline.statistics_ofPolicy]
    refine bind_congr fun run => ?_
    rw [reportOf, written]
    rfl

end Building

section Agreement

variable {σ : Type} (s : σ)

/-- Under a directory, the command merges into the deployment, unless the settings name no
charset. -/
theorem run_merge {files : File.System (StateM σ)} {tools : Tools} {settings : Settings}
    {root : String} {members : List String} (something : members ≠ [])
    (rooted : (files.isDirectory root).run s = (true, s)) (kind : Kind) (json : Bool) :
    (merge files tools settings root kind json members).run s =
      match settings.charset? tools with
      | none => (.failed (Settings.LoadError.unsupportedCharset settings.charsetLabel).message, s)
      | some charset =>
        (mergeInto ((Deployment.of root settings.contextPrefix).store files) tools settings charset
          kind json (.ofList members)).run s := by
  have found : (deploymentAt files settings root).run s =
      (.ok (.of root settings.contextPrefix), s) := by
    rw [deploymentAt, run_bind, rooted]
    rfl
  rw [merge, ReferenceSet.isEmpty_ofList something]
  simp only [Bool.false_eq_true, if_false]
  rw [run_bind, found]
  cases settings.charset? tools with
  | none => rfl
  | some charset => rfl

/-- The first request for something builds it. -/
theorem run_request_of_unbuilt (store : Store (StateM σ)) {c : ArtifactCache}
    (unbuilt : c.paths = {}) {set : ReferenceSet} (something : set.isEmpty = false) :
    let built := (c.build store set).run s
    let requested := (c.request store set).run s
    requested.1.1 = .ran built.1 ∧ requested.2 = built.2 := by
  have missing : c.paths.get? set = none := by
    rw [unbuilt]
    rfl
  rw [ArtifactCache.request_of_missing store something missing]
  exact ⟨rfl, rfl⟩

/-- An attempt on a page with eligible elements does what the request for them does. -/
theorem run_attempt_of_read (store : Store (StateM σ)) {o : Optimizer} {kind : Kind}
    {page : String} {pieces : List Markup.Piece}
    (read : Markup.pieces o.settings.excludeKeywords kind (scrub page).toList = .ok pieces)
    (something : Markup.eligibleIds pieces ≠ []) :
    let requested := ((o.artifacts kind).request store (.ofList (Markup.eligibleIds pieces))).run s
    let attempted := (o.attempt store kind page).run s
    attempted.2 = requested.2 ∧
      attempted.1.1 = .requested requested.1.1 fun path =>
        Markup.rewrite kind (o.settings.contextPrefix ++ path) pieces := by
  rw [Optimizer.attempt]
  simp only [read, ReferenceSet.isEmpty_ofList something, Bool.false_eq_true, if_false]
  exact ⟨rfl, rfl⟩

/-- A report tells how a build ended. -/
theorem result_reportOf (settings : Settings) (json : Bool) (build : Build) :
    match build.path with
    | .error e => (reportOf settings json build).result = .error (chain e)
    | .ok path => ∃ bytes, build.merge.written = .ok bytes ∧
        (reportOf settings json build).result = .ok (Utf8.ofString
          ((if json then Json.pretty (valueOf build bytes) else settings.contextPrefix ++ path) ++
            "\n")) := by
  rw [Build.path, reportOf]
  cases build.merge.written with
  | error e => rfl
  | ok bytes => exact ⟨bytes, rfl, rfl⟩

/-- **The command does to a store what the first request for the members does**, and reports the path
that the request gives or the error that it ends with. -/
theorem run_mergeInto (store : Store (StateM σ)) (tools : Tools) (settings : Settings)
    (charset : Charset) (kind : Kind) (json : Bool) {set : ReferenceSet}
    (something : set.isEmpty = false) :
    let command := (mergeInto store tools settings charset kind json set).run s
    let request := ((Optimizer.artifactsFor settings tools charset kind).request store set).run s
    command.2 = request.2 ∧
      match request.1.1.path with
      | .error e => command.1.result = .error (chain e)
      | .ok path => ∃ build bytes, request.1.1 = .ran build ∧ build.merge.written = .ok bytes ∧
          command.1.result = .ok (Utf8.ofString
            ((if json then Json.pretty (valueOf build bytes) else settings.contextPrefix ++ path) ++
              "\n")) := by
  intro command request
  let built := ((Optimizer.artifactsFor settings tools charset kind).build store set).run s
  have reported : command = (reportOf settings json built.1, built.2) := by
    show (mergeInto store tools settings charset kind json set).run s = _
    rw [mergeInto_eq_build]
    rfl
  obtain ⟨answer, left⟩ := run_request_of_unbuilt s store
    (show (Optimizer.artifactsFor settings tools charset kind).paths = {} from rfl) something
  have ended := result_reportOf settings json built.1
  constructor
  · rw [reported]
    exact left.symm
  · rw [reported, answer, Request.path]
    cases path : built.1.path with
    | error e =>
      rw [path] at ended
      exact ended
    | ok path' =>
      rw [path] at ended
      obtain ⟨bytes, written, printed⟩ := ended
      exact ⟨built.1, bytes, rfl, written, printed⟩

/-- **The command and an optimizer make the same artifact.** Settings that name no charset are
refused by both. With other settings, take the members to be merged, any tools, and any store: the
command and the first request for the members leave the store in the same state, and either both
fail with the same error, or the request gives a path and the command prints it after the context
path, or a report on the artifact that the request built. On a page whose eligible elements tell the
members, the optimizer then puts in just what is printed. -/
theorem merge_agrees_with_optimizer (settings : Settings) (tools : Tools) (kind : Kind)
    (json : Bool) {members : List String} (something : members ≠ []) {σ : Type} (s : σ) :
    (settings.charset? tools = none ∧ Optimizer.ofSettings? settings tools = none ∧
      ∀ (files : File.System (StateM σ)) root, (files.isDirectory root).run s = (true, s) →
        (merge files tools settings root kind json members).run s =
          (.failed (Settings.LoadError.unsupportedCharset settings.charsetLabel).message, s)) ∨
    ∃ charset o, settings.charset? tools = some charset ∧
      Optimizer.ofSettings? settings tools = some o ∧
      (∀ (files : File.System (StateM σ)) root, (files.isDirectory root).run s = (true, s) →
        (merge files tools settings root kind json members).run s =
          (mergeInto ((Deployment.of root settings.contextPrefix).store files) tools settings charset
            kind json (.ofList members)).run s) ∧
      ∀ store : Store (StateM σ),
        let command := (mergeInto store tools settings charset kind json (.ofList members)).run s
        let request := ((o.artifacts kind).request store (.ofList members)).run s
        command.2 = request.2 ∧
        (match request.1.1.path with
          | .error e => command.1.result = .error (chain e)
          | .ok path => ∃ build bytes, request.1.1 = .ran build ∧ build.merge.written = .ok bytes ∧
              command.1.result = .ok (Utf8.ofString
                ((if json then Json.pretty (valueOf build bytes)
                  else settings.contextPrefix ++ path) ++ "\n"))) ∧
        ∀ page pieces,
          Markup.pieces settings.excludeKeywords kind (scrub page).toList = .ok pieces →
          Markup.eligibleIds pieces = members →
          let attempt := (o.attempt store kind page).run s
          attempt.2 = command.2 ∧
          attempt.1.1.result =
            match request.1.1.path with
            | .error e => .error (.store e)
            | .ok path => .ok (Markup.rewrite kind (settings.contextPrefix ++ path) pieces) := by
  cases coded : settings.charset? tools with
  | none =>
    refine .inl ⟨rfl, ?_, fun files root rooted => ?_⟩
    · rw [Optimizer.ofSettings?, coded]
      rfl
    · rw [run_merge s something rooted, coded]
  | some charset =>
    let o : Optimizer :=
      { settings
        scripts := Optimizer.artifactsFor settings tools charset .script
        styles := Optimizer.artifactsFor settings tools charset .style }
    have valid : Optimizer.ofSettings? settings tools = some o := by
      rw [Optimizer.ofSettings?, coded]
      rfl
    have fresh : o.artifacts kind = Optimizer.artifactsFor settings tools charset kind := by
      cases kind with
      | script | style => rfl
    refine .inr ⟨charset, o, rfl, valid, fun files root rooted => ?_, fun store => ?_⟩
    · rw [run_merge s something rooted, coded]
    · obtain ⟨left, ended⟩ := run_mergeInto s store tools settings charset kind json
        (ReferenceSet.isEmpty_ofList something)
      rw [← fresh] at left ended
      refine ⟨left, ended, ?_⟩
      rintro page pieces read rfl attempt
      obtain ⟨state, requested⟩ := run_attempt_of_read s store (o := o) read something
      refine ⟨state.trans left.symm, ?_⟩
      show attempt.1.1.result = _
      rw [requested]
      exact Attempt.result_requested _ _

/-- A script that a page names twice, under the context path, is merged on a disk. -/
theorem merge_agrees_on_disk :
    let settings : Settings := { contextPath := "/app/" }
    let members := ["/app/a.js", "/app/a.js"]
    let page := "<script src=/app/a.js></script><script src=/app/a.js></script>"
    let disk : File.Disk :=
      { nodes := .ofList
          [(["srv"], .directory), (["srv", "a.js"], .file (Utf8.ofString "a()"))] }
    let store := (Deployment.of "/srv" "/app").store File.Disk.system
    let command := (merge File.Disk.system .builtIn settings "/srv" .script false members).run disk
    (File.Disk.system.isDirectory "/srv").run disk = (true, disk) ∧
    ∃ o pieces path, Optimizer.ofSettings? settings = some o ∧
      Markup.pieces settings.excludeKeywords .script (scrub page).toList = .ok pieces ∧
      Markup.eligibleIds pieces = members ∧
      command.1.result = .ok (Utf8.ofString ("/app" ++ path ++ "\n")) ∧
      let attempt := (o.attempt store .script page).run disk
      attempt.2 = command.2 ∧
        attempt.1.1.result = .ok (Markup.rewrite .script ("/app" ++ path) pieces) := by
  intro settings members page disk store command
  have rooted : (File.Disk.system.isDirectory "/srv").run disk = (true, disk) := by
    have found : ((File.Disk.system.isDirectory "/srv").run disk).1 = true := by decide +kernel
    exact Prod.ext found rfl
  have context : settings.contextPrefix = "/app" := by decide +kernel
  have succeeds : command.1.result.isOk = true := by decide +kernel
  obtain ⟨pieces, read, told⟩ := Markup.exists_ok_of_any
    (r := Markup.pieces settings.excludeKeywords .script (scrub page).toList)
    (p := fun pieces => Markup.eligibleIds pieces = members) (by decide +kernel)
  have ids : Markup.eligibleIds pieces = members := of_decide_eq_true told
  have something : members ≠ [] := by decide
  rcases merge_agrees_with_optimizer settings .builtIn .script false something disk with
    ⟨uncoded, -⟩ | ⟨charset, o, -, valid, merged, agree⟩
  · have coded : settings.charset?.isSome = true := by decide +kernel
    simp [uncoded] at coded
  · have same : command =
        (mergeInto store .builtIn settings charset .script false (.ofList members)).run disk :=
      (merged File.Disk.system "/srv" rooted).trans (by rw [context])
    clear_value command disk store settings members page
    obtain ⟨-, ended, pages⟩ := agree store
    rw [← same] at ended pages
    obtain ⟨state, result⟩ := pages page pieces read ids
    generalize ((o.artifacts .script).request store (.ofList members)).run disk = request at *
    cases path : request.1.1.path with
    | error e =>
      rw [path] at ended
      have failed : command.1.result = .error (chain e) := ended
      simp [failed, Except.isOk, Except.toBool] at succeeds
    | ok path' =>
      rw [path] at ended result
      obtain ⟨build, bytes, -, -, shown⟩ := ended
      simp only [Bool.false_eq_true, if_false, context] at shown
      rw [context] at result
      exact ⟨rooted, o, pieces, path', valid, read, ids, shown, state, result⟩

end Agreement

end CommandLine

end PageBundle
