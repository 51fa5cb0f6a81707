import PageBundle.Proofs.Artifact.Writing
import Mathlib.Data.UInt

/-!
# Running a pipeline

However steps are added to a pipeline, those that write bytes come behind the others, and each of
the two groups stays in the order of its adding (`steps_ofSteps`). A run applies the steps one after
another. `Executed` says what each of them does to a memory: it succeeds and replaces the file by
what it makes of it, or it fails and changes no file. So the file that is left is the fold of the
steps over the file that was there (`Executed.get?_path`). The compressions that succeed are added
to the statistics in which they count (`grown_addTo`).
-/

namespace PageBundle

open Store (Error Memory)
open Store.Memory (SameFiles ChangedAt)

/-! ## The order of the steps -/

namespace Pipeline

/-- The steps of a list that write texts, and behind them those that write bytes. -/
def textsFirst (steps : List Step) : List Step :=
  steps.filter (!·.encodesBytes) ++ steps.filter (·.encodesBytes)

theorem takeWhile_textsFirst (steps : List Step) :
    (textsFirst steps).takeWhile (!·.encodesBytes) = steps.filter (!·.encodesBytes) := by
  rw [textsFirst, List.takeWhile_append_of_pos fun _ member => (List.mem_filter.1 member).2]
  have bytes : (steps.filter (·.encodesBytes)).takeWhile (!·.encodesBytes) = [] := by
    cases filtered : steps.filter (·.encodesBytes) with
    | nil => rfl
    | cons step others =>
      have member : step ∈ steps.filter (·.encodesBytes) := filtered ▸ List.mem_cons_self
      exact List.takeWhile_cons_of_neg (by simpa using (List.mem_filter.1 member).2)
  rw [bytes, List.append_nil]

theorem dropWhile_textsFirst (steps : List Step) :
    (textsFirst steps).dropWhile (!·.encodesBytes) = steps.filter (·.encodesBytes) := by
  have whole := List.takeWhile_append_dropWhile (p := (!·.encodesBytes)) (l := textsFirst steps)
  rw [takeWhile_textsFirst] at whole
  exact List.append_cancel_left whole

/-- Adding a step keeps the order. -/
theorem steps_add {p : Pipeline} {steps : List Step} (ordered : p.steps = textsFirst steps)
    (step : Step) : (p.add step).steps = textsFirst (steps ++ [step]) := by
  rw [add, ordered]
  cases encodes : step.encodesBytes with
  | true => simp [textsFirst, encodes]
  | false =>
    simp only [Bool.false_eq_true, if_false, takeWhile_textsFirst, dropWhile_textsFirst]
    simp [textsFirst, encodes]

theorem steps_foldl_add {p : Pipeline} {steps : List Step} (ordered : p.steps = textsFirst steps)
    (added : List Step) : (added.foldl add p).steps = textsFirst (steps ++ added) := by
  induction added generalizing p steps with
  | nil => simpa using ordered
  | cons step added ih => simpa using ih (steps_add ordered step)

/-- **Steps that write bytes come last**, and otherwise steps stay in the order of their adding. -/
theorem steps_ofSteps (added : List Step) : (ofSteps added).steps = textsFirst added :=
  @steps_foldl_add {} [] rfl added

example : (ofSteps [.compress .best .pipeline, .refuse "audit" false, .minify .script .utf8]).names =
    ["audit", "minify", "compress"] := by
  decide

end Pipeline

/-! ## What the steps do -/

/-- What is bound succeeds if both parts do. -/
theorem exists_of_bind_ok {ε α β : Type} {r : Except ε α} {f : α → Except ε β} {b : β}
    (succeeded : r.bind f = .ok b) : ∃ a, r = .ok a ∧ f a = .ok b := by
  cases r with
  | error e => cases succeeded
  | ok a => exact ⟨a, rfl, succeeded⟩

section Execution

variable (tools : Tools) (path : String)

namespace Step

/-- What a step makes of a file and puts in its place, if it does not fail. -/
def attempt (readOnly : Bool) (file : Option Bytes) (step : Step) : Except Error Bytes :=
  match file with
  | none => .error (.notFound path)
  | some contents =>
    match step.transform tools path contents with
    | .error e => .error e
    | .ok (_, made) => if readOnly then .error (.write path .readOnly) else .ok made

/-- The file that a step leaves. -/
def leaves (readOnly : Bool) (file : Option Bytes) (step : Step) : Option Bytes :=
  match step.attempt tools path readOnly file with
  | .ok made => some made
  | .error _ => file

/-- What a step tells when it succeeds: a compression, how many bytes it took and gave. -/
def receipt? (step : Step) (contents made : Bytes) : Option Receipt :=
  match step with
  | .compress _ ledger => some ⟨ledger, contents.length, made.length⟩
  | .minify _ _ | .refuse _ _ => none

theorem receipt?_of_transform {tools : Tools} {path : String} {step : Step}
    {contents made : Bytes} {receipt : Option Receipt}
    (transformed : step.transform tools path contents = .ok (receipt, made)) :
    receipt = step.receipt? contents made := by
  cases step with
  | minify kind charset =>
    obtain ⟨text, -, minified⟩ := exists_of_bind_ok transformed
    obtain ⟨text', -, encoded⟩ := exists_of_bind_ok minified
    obtain ⟨bs, -, same⟩ := exists_of_bind_ok encoded
    cases same
    rfl
  | compress level ledger =>
    obtain ⟨encoded, -, same⟩ := exists_of_bind_ok transformed
    cases same
    rfl
  | refuse name encodesBytes => cases transformed

theorem attempt_eq (s : Memory) (step : Step) :
    step.attempt tools path s.readOnly (s.get? path) =
      match (s.read path).1.bind (step.transform tools path) with
      | .error e => .error e
      | .ok (_, made) => if s.readOnly then .error (.write path .readOnly) else .ok made := by
  rw [Memory.read]
  cases s.get? path <;> rfl

end Step

/-- How steps are applied to a memory one after another, what comes of each, and what is left. -/
inductive Executed : Memory → List Step → Run → Memory → Prop
  | done (s : Memory) : Executed s [] [] s
  | succeeded {s t u : Memory} {step : Step} {steps : List Step} {r : Run} {contents made : Bytes}
      (there : s.get? path = some contents)
      (attempted : step.attempt tools path s.readOnly (s.get? path) = .ok made)
      (replaced : t.get? path = some made) (changed : ChangedAt path s t)
      (later : Executed t steps r u) :
      Executed s (step :: steps) (⟨step, .ok (step.receipt? contents made)⟩ :: r) u
  | failed {s t u : Memory} {step : Step} {steps : List Step} {r : Run} {e : Error}
      (attempted : step.attempt tools path s.readOnly (s.get? path) = .error e)
      (same : SameFiles s t) (later : Executed t steps r u) :
      Executed s (step :: steps) (⟨step, .error e⟩ :: r) u

theorem executed_applyAll (s : Memory) (steps : List Step) :
    Executed tools path s steps ((Pipeline.applyAll Memory.store path steps tools).run s).1
      ((Pipeline.applyAll Memory.store path steps tools).run s).2 := by
  induction steps generalizing s with
  | nil => exact .done s
  | cons step steps ih =>
    rw [Pipeline.applyAll, run_bind, run_bind]
    have applied := Step.applied_apply s tools path step
    have attempted := Step.attempt_eq tools path s step
    generalize ((step.apply Memory.store path tools).run s).1 = result at applied ⊢
    generalize ((step.apply Memory.store path tools).run s).2 = t at applied ⊢
    cases applied with
    | failed made same =>
      rw [made] at attempted
      exact .failed attempted same (ih t)
    | refused made refuses same =>
      rw [made] at attempted
      exact .failed (attempted.trans (if_pos refuses)) same (ih t)
    | replaced made takes changed here =>
      rw [made] at attempted
      obtain ⟨contents, read, transformed⟩ := exists_of_bind_ok made
      rw [Step.receipt?_of_transform transformed]
      exact .succeeded (Memory.get?_of_read read) (attempted.trans (if_neg (by simp [takes]))) here
        changed (ih t)

namespace Executed

variable {tools path} {s t : Memory} {steps : List Step} {r : Run}

/-- Every step has an outcome, in order. -/
theorem map_step (executed : Executed tools path s steps r t) : r.map (·.step) = steps := by
  induction executed with
  | done => rfl
  | succeeded _ _ _ _ _ ih | failed _ _ _ ih => rw [List.map_cons, ih]

theorem changedAt (executed : Executed tools path s steps r t) : ChangedAt path s t := by
  induction executed with
  | done s => exact (SameFiles.refl s).changedAt path
  | succeeded _ _ _ changed _ ih => exact changed.trans ih
  | failed _ same _ ih => exact (same.changedAt path).trans ih

/-- **The file that is left is the fold of the steps** over the file that was there. -/
theorem get?_path (executed : Executed tools path s steps r t) :
    t.get? path = steps.foldl (Step.leaves tools path s.readOnly) (s.get? path) := by
  induction executed with
  | done => rfl
  | succeeded _ attempted replaced changed _ ih =>
    rw [ih, List.foldl_cons, changed.readOnly, replaced, Step.leaves, attempted]
  | failed attempted same _ ih =>
    rw [ih, List.foldl_cons, same.readOnly, same.get?, Step.leaves, attempted]

end Executed

end Execution

/-! ## What is reported -/

namespace Run

variable (r : Run)

theorem applied_eq : r.applied = (r.filter (·.result.isOk)).map (·.step.name) := by
  rw [applied, ← List.filterMap_eq_map, List.filterMap_filter]
  rfl

theorem failed_eq : r.failed = (r.filter (!·.result.isOk)).map (·.step.name) := by
  rw [failed, ← List.filterMap_eq_map, List.filterMap_filter]
  congr 1
  funext o
  cases o.result.isOk <;> rfl

/-- Every step is told once, as one that succeeded or as one that failed. -/
theorem applied_append_failed_perm : (r.applied ++ r.failed).Perm (r.map (·.step.name)) := by
  rw [applied_eq, failed_eq, ← List.map_append]
  exact (List.filter_append_perm _ r).map _

end Run

/-- Some statistics with compressions added. Each counter is counted modulo `2 ^ 64`. -/
structure Gzip.Statistics.Grown (receipts : List Step.Receipt) (s t : Gzip.Statistics) : Prop where
  inputBytes : t.inputBytes.toNat = (s.inputBytes.toNat + (receipts.map (·.input)).sum) % 2 ^ 64
  outputBytes :
    t.outputBytes.toNat = (s.outputBytes.toNat + (receipts.map (·.output)).sum) % 2 ^ 64
  count : t.count.toNat = (s.count.toNat + receipts.length) % 2 ^ 64

namespace Gzip.Statistics

theorem Grown.nil (s : Statistics) : Grown [] s s := by
  constructor <;> simp

theorem Grown.cons {receipt : Step.Receipt} {receipts : List Step.Receipt} {s t : Statistics}
    (grown : Grown receipts
      (s.record (UInt64.ofNat receipt.input) (UInt64.ofNat receipt.output)) t) :
    Grown (receipt :: receipts) s t := by
  obtain ⟨input, output, count⟩ := grown
  constructor
  · simpa [record, Nat.add_assoc] using input
  · simpa [record, Nat.add_assoc] using output
  · simpa [record, Nat.add_assoc, Nat.add_comm 1] using count

end Gzip.Statistics

/-- The compressions of a run are added to the statistics in which they count. -/
theorem Run.grown_addTo (r : Run) (ledger : Ledger) (s : Gzip.Statistics) :
    Gzip.Statistics.Grown (r.receipts ledger) s (r.addTo ledger s) := by
  rw [addTo]
  induction r.receipts ledger generalizing s with
  | nil => exact .nil s
  | cons receipt receipts ih => exact (ih _).cons

/-- **A pipeline is the fold of its steps, those that write texts first.** This holds whatever the
compressor and the minifier of style sheets do, and of every memory, whether it takes writings or
not. Each step replaces the file by what it makes of it, or fails and changes no file; no other file
changes. The report names the steps that succeeded and those that failed, in order and each step
once, and the compressions that succeeded are added to the statistics in which they count. -/
theorem Pipeline.run_ofSteps (tools : Tools) (added : List Step) (statistics : Gzip.Statistics)
    (s : Memory) (path : String) :
    let p : Pipeline := { Pipeline.ofSteps added with statistics }
    ∃ r t, (p.run Memory.store path tools).run s =
        ((r, { p with statistics := r.addTo .pipeline statistics }), t) ∧
      p.steps = added.filter (!·.encodesBytes) ++ added.filter (·.encodesBytes) ∧
      Executed tools path s p.steps r t ∧
      t.get? path = p.steps.foldl (Step.leaves tools path s.readOnly) (s.get? path) ∧
      (∀ other, other ≠ path → t.get? other = s.get? other) ∧
      r.map (·.step) = p.steps ∧
      r.applied = (r.filter (·.result.isOk)).map (·.step.name) ∧
      r.failed = (r.filter (!·.result.isOk)).map (·.step.name) ∧
      (r.applied ++ r.failed).Perm p.names ∧
      ∀ ledger start, Gzip.Statistics.Grown (r.receipts ledger) start (r.addTo ledger start) := by
  intro p
  have executed := executed_applyAll tools path s p.steps
  generalize outcome : (Pipeline.applyAll Memory.store path p.steps tools).run s = made at executed
  obtain ⟨r, t⟩ := made
  have ran : (p.run Memory.store path tools).run s =
      ((r, { p with statistics := r.addTo .pipeline statistics }), t) := by
    rw [Pipeline.run, run_bind, outcome]
    rfl
  have told : (r.applied ++ r.failed).Perm p.names := by
    rw [names, ← executed.map_step, List.map_map]
    exact r.applied_append_failed_perm
  exact ⟨r, t, ran, steps_ofSteps added, executed, executed.get?_path, executed.changedAt.elsewhere,
    executed.map_step, r.applied_eq, r.failed_eq, told, r.grown_addTo⟩

end PageBundle
