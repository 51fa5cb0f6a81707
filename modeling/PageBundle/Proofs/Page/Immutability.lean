import PageBundle.Proofs.Artifact.Naming
import PageBundle.Proofs.Page.History

/-!
# Artifacts stay as they were built

A call changes at most one file, the artifact of its own set, and only if no earlier order for those
members succeeded (`History.Accounted.changed_by_call`). Two kinds or two memberships have no path
in common unless their fingerprints collide, so an artifact that was given once stays as it is
through all later calls (`History.Accounted.get?_run`).
-/

namespace PageBundle

open Store (Memory)

/-- The path of an artifact tells its kind and its fingerprint. -/
theorem Settings.eq_of_pathFor_eq {settings : Settings} {kind kind' : Kind} {a b : ReferenceSet}
    (same : settings.pathFor kind a = settings.pathFor kind' b) :
    kind = kind' ∧ Fingerprint.of a = Fingerprint.of b := by
  obtain ⟨-, -, sameKind, fingerprint⟩ := artifactPath_eq_iff.1 same
  exact ⟨sameKind, fingerprint⟩

namespace Optimizer

/-- Whether the order gave an artifact. -/
def Order.Succeeded (order : Order) : Prop :=
  ∃ path, order.request.path = .ok path

/-- Whether a use leaves the files to the optimizer. -/
def Use.KeepsFiles : Use → Prop
  | .call _ => True
  | .change f => ∀ s, (f s).resources = s.resources

/-- No two ordered sets with different members have the same fingerprint. -/
def NoCollision (orders : List Order) : Prop :=
  ∀ a ∈ orders, ∀ b ∈ orders, Fingerprint.of a.set = Fingerprint.of b.set →
    a.set.membership = b.set.membership

theorem NoCollision.mono {orders more : List Order} (apart : NoCollision more)
    (sub : orders ⊆ more) : NoCollision orders := by
  intro a inA b inB
  exact apart a (sub inA) b (sub inB)

namespace History

theorem orders_subset_act (h : History) (use : Use) : h.orders ⊆ (h.act use).orders := by
  cases use with
  | call call => exact List.subset_append_left _ _
  | change f => exact List.Subset.refl _

theorem orders_subset_run (h : History) (uses : List Use) : h.orders ⊆ (h.run uses).orders := by
  induction uses generalizing h with
  | nil => exact List.Subset.refl _
  | cons use uses ih => exact List.Subset.trans (orders_subset_act h use) (ih (h.act use))

namespace Accounted

variable {settings : Settings} {tools : Tools} {charset : Charset} {h : History}

/-- **A call changes at most the artifact of its own set**, and only if no order for the members
succeeded before. -/
theorem changed_by_call (accounted : Accounted settings tools charset h) {call : Call} {path : String}
    (changed : (h.act (.call call)).memory.get? path ≠ h.memory.get? path) :
    ∃ order ∈ (h.act (.call call)).orders, order.kind = call.kind ∧
      settings.setFor? call.kind call.markup = some order.set ∧
      path = settings.pathFor call.kind order.set ∧
      ∀ earlier ∈ h.orders, earlier.kind = call.kind →
        earlier.set.membership = order.set.membership → ¬ earlier.Succeeded := by
  rcases accounted.act_call call with ⟨-, same⟩ | ⟨set, request, wanted, logged, answered⟩
  · rw [same] at changed
    exact absurd rfl changed
  · refine ⟨⟨call.kind, set, request⟩, by simp [logged], rfl, wanted, ?_, ?_⟩
    · by_contra other
      rw [← accounted.pathOf_eq] at other
      exact changed (answered.changedAt.elsewhere path other)
    · rintro earlier member kind members ⟨given, succeeded⟩
      have stored := accounted.get?_of_order member succeeded members.symm
      rw [kind] at stored
      rw [answered.eq_of_stored stored] at changed
      exact changed rfl

/-- A use that leaves the files to the optimizer leaves the artifacts that were given. -/
theorem get?_act (accounted : Accounted settings tools charset h) {use : Use} (keeps : use.KeepsFiles)
    (apart : NoCollision (h.act use).orders) {order : Order} (member : order ∈ h.orders)
    {path : String} (given : order.request.path = .ok path) :
    (h.act use).memory.get? path = h.memory.get? path := by
  cases use with
  | change f =>
    show (f h.memory).get? path = _
    rw [Memory.get?, keeps h.memory]
    rfl
  | call call =>
    by_contra changed
    obtain ⟨new, ordered, kind, -, named, unbuilt⟩ := accounted.changed_by_call changed
    rw [accounted.path_of_order member given] at named
    obtain ⟨sameKind, fingerprint⟩ := Settings.eq_of_pathFor_eq named
    have members := apart order (orders_subset_act h (.call call) member) new ordered fingerprint
    exact unbuilt order member sameKind members ⟨path, given⟩

theorem get?_run (accounted : Accounted settings tools charset h) {uses : List Use}
    (keeps : ∀ use ∈ uses, use.KeepsFiles) (apart : NoCollision (h.run uses).orders)
    {order : Order} (member : order ∈ h.orders) {path : String}
    (given : order.request.path = .ok path) :
    (h.run uses).memory.get? path = h.memory.get? path := by
  induction uses generalizing h with
  | nil => rfl
  | cons use uses ih =>
    obtain ⟨here, later⟩ := List.forall_mem_cons.1 keeps
    have step := accounted.get?_act here (apart.mono (orders_subset_run (h.act use) uses)) member
      given
    have rest := ih (accounted.act use) later apart (orders_subset_act h use member)
    exact rest.trans step

end Accounted

/-- There is a file wherever an order gave a path. -/
def Present (h : History) : Prop :=
  ∀ order ∈ h.orders, ∀ path, order.request.path = .ok path → (h.memory.get? path).isSome

namespace Present

variable {settings : Settings} {tools : Tools} {charset : Charset} {h : History}

/-- A call keeps what is there, and leaves a file for its own order. -/
theorem act_call (present : Present h) (accounted : Accounted settings tools charset h) (call : Call) :
    Present (h.act (.call call)) := by
  intro order member path given
  rcases accounted.act_call call with ⟨logged, same⟩ | ⟨set, request, -, logged, answered⟩
  · rw [logged] at member
    rw [same]
    exact present order member path given
  · have kept : (h.memory.get? path).isSome → ((h.act (.call call)).memory.get? path).isSome :=
      fun here => answered.changedAt.isSome_get? here
    rw [logged] at member
    rcases List.mem_append.1 member with old | new
    · exact kept (present order old path given)
    · obtain rfl := List.mem_singleton.1 new
      cases stored : (h.optimizer.artifacts call.kind).paths.get? set with
      | none => exact answered.isSome_of_missing stored given
      | some path' =>
        obtain ⟨earlier, old, given'⟩ := accounted.exists_order stored
        rw [answered.path_of_stored stored given] at kept ⊢
        exact kept (present earlier old path' given')

theorem act (present : Present h) (accounted : Accounted settings tools charset h) {use : Use}
    (keeps : use.KeepsFiles) : Present (h.act use) := by
  cases use with
  | call call => exact present.act_call accounted call
  | change f =>
    intro order member path given
    show ((f h.memory).get? path).isSome
    rw [Memory.get?, keeps h.memory]
    exact present order member path given

theorem run (present : Present h) (accounted : Accounted settings tools charset h) {uses : List Use}
    (keeps : ∀ use ∈ uses, use.KeepsFiles) : Present (h.run uses) := by
  induction uses generalizing h with
  | nil => exact present
  | cons use uses ih =>
    obtain ⟨here, later⟩ := List.forall_mem_cons.1 keeps
    exact ih (present.act accounted here) (accounted.act use) later

end Present

/-- **Artifacts stay as they were built, and no other file is touched.** Here an optimizer starts
over any memory, with any tools, and sees any uses. A call then changes at most the artifact of its
kind for the set that the page tells, and only if no order for these members succeeded before; if
its attempt fails, it changes no file. A path that an order gave is the artifact of its set. As long
as the files are left to the optimizer and no fingerprints collide, what is there stays through all
later uses; and something is there if the files were left to the optimizer from the start. -/
theorem artifacts_stay {settings : Settings} {tools : Tools} {start : Optimizer}
    (valid : ofSettings? settings tools = some start) (memory : Memory) (uses : List Use) :
    let h := run { optimizer := start, memory } uses
    (∀ call,
      let called := (h.optimizer.answer Memory.store call).run h.memory
      (∀ path, called.2.get? path ≠ h.memory.get? path →
        ∃ set, settings.setFor? call.kind call.markup = some set ∧
          path = settings.pathFor call.kind set ∧
          ∀ earlier ∈ h.orders, earlier.kind = call.kind →
            earlier.set.membership = set.membership → ¬ earlier.Succeeded) ∧
      ∀ attempt e, called.1.1.attempt? = some attempt → attempt.result = .error e →
        called.2.resources = h.memory.resources) ∧
    ∀ order ∈ h.orders, ∀ path, order.request.path = .ok path →
      path = settings.pathFor order.kind order.set ∧
      (∀ later, (∀ use ∈ later, use.KeepsFiles) → NoCollision (h.run later).orders →
        (h.run later).memory.get? path = h.memory.get? path) ∧
      ((∀ use ∈ uses, use.KeepsFiles) → (h.memory.get? path).isSome) := by
  intro h
  obtain ⟨charset, -, begun⟩ := Accounted.start valid memory
  have accounted : Accounted settings tools charset h := begun.run uses
  refine ⟨fun call => ⟨fun path changed => ?_, fun attempt e reported failed => ?_⟩,
    fun order member path given => ⟨?_, fun later keeps apart => ?_, fun keeps => ?_⟩⟩
  · obtain ⟨order, -, -, wanted, named, unbuilt⟩ := accounted.changed_by_call changed
    exact ⟨order.set, wanted, named, unbuilt⟩
  · have called := called_answer Memory.store h.memory h.optimizer call
    exact (called.sameFiles_of_error reported failed).resources
  · exact accounted.path_of_order member given
  · exact accounted.get?_run keeps apart member given
  · have nothing : Present { optimizer := start, memory } := nofun
    exact nothing.run begun keeps order member path given

/-- The store refuses the first artifact and takes the second. It stays as it is when a page names
the script twice, and when another takes it for a style sheet. -/
theorem artifacts_stay_after_retry :
    let start := (ofSettings? {}).get (by decide +kernel)
    let once := "<script src=/a></script>"
    let twice := "<script src=/a></script><script src=/a></script>"
    let link := "<link rel=stylesheet href=/a>"
    let memory : Memory :=
      { resources := .ofList [("/a", Utf8.ofString "a()")], readOnly := true }
    let refused : List Use :=
      [.call (.attempt .script once), .change fun s => { s with readOnly := false }]
    let uses : List Use := refused ++ [.call (.attempt .script once)]
    let later : List Use := [.call (.page .style "/" link), .call (.attempt .script twice)]
    let h := run { optimizer := start, memory } uses
    let called := (h.optimizer.answer Memory.store (.attempt .script twice)).run h.memory
    (∀ path, called.2.get? path = h.memory.get? path) ∧
      ∃ order ∈ h.orders, ∃ path contents, order.request.path = .ok path ∧
        h.memory.get? path = some contents ∧ (h.run later).memory.get? path = some contents := by
  intro start once twice link memory refused uses later h called
  subst called h
  have valid : ofSettings? {} = some start := (Option.some_get (by decide +kernel)).symm
  have tellOnce : (Settings.setFor? {} .script once).map (·.membership) = some {"/a"} := by
    decide +kernel
  have tellTwice : (Settings.setFor? {} .script twice).map (·.membership) = some {"/a"} := by
    decide +kernel
  have tellLink : (Settings.setFor? {} .style link).map (·.membership) = some {"/a"} := by
    decide +kernel
  obtain ⟨calls, orders⟩ := artifacts_stay valid memory uses
  obtain ⟨charset, coded, begun⟩ := Accounted.start valid memory
  have total : charset.Total := by
    rw [Settings.charset?_of_utf8 (by decide +kernel)] at coded
    obtain rfl : Charset.utf8 = charset := Option.some.inj coded
    exact Charset.total_utf8
  -- The second call is made while the store takes writings.
  have accounted := begun.run refused
  obtain ⟨set, wanted, members⟩ := Option.map_eq_some_iff.1 tellOnce
  obtain ⟨request, logged, answered⟩ := accounted.act_attempt wanted
  have given := accounted.path_of_answered total rfl (Settings.isEmpty_of_setFor? wanted) answered
  have member : ⟨.script, set, request⟩ ∈ (run { optimizer := start, memory } uses).orders := by
    rw [run_append]
    show _ ∈
      ((run { optimizer := start, memory } refused).act (.call (.attempt .script once))).orders
    rw [logged]
    exact List.mem_append_right _ (List.mem_singleton.2 rfl)
  constructor
  · intro other
    by_contra changed
    obtain ⟨set', told, -, unbuilt⟩ := (calls (.attempt .script twice)).1 other changed
    have known : set'.membership = {"/a"} :=
      Option.some.inj ((congrArg _ told).symm.trans tellTwice)
    exact unbuilt _ member rfl (members.trans known.symm) ⟨_, given⟩
  · -- Every order comes from a page that tells the same member.
    have same : ∀ order ∈ (run { optimizer := start, memory } (uses ++ later)).orders,
        order.set.membership = {"/a"} := by
      intro order ordered
      obtain ⟨call, used, told⟩ := (begun.exists_call ordered).resolve_left List.not_mem_nil
      simp only [uses, refused, later, List.cons_append, List.nil_append, List.mem_cons,
        List.not_mem_nil, Use.call.injEq, reduceCtorEq, false_or, or_false] at used
      rcases used with rfl | rfl | rfl | rfl
      · exact Option.some.inj ((congrArg _ told).symm.trans tellOnce)
      · exact Option.some.inj ((congrArg _ told).symm.trans tellOnce)
      · exact Option.some.inj ((congrArg _ told).symm.trans tellLink)
      · exact Option.some.inj ((congrArg _ told).symm.trans tellTwice)
    have apart : NoCollision ((run { optimizer := start, memory } uses).run later).orders := by
      rw [← run_append]
      intro a inA b inB _
      rw [same a inA, same b inB]
    obtain ⟨-, stays, present⟩ := orders _ member _ given
    have keeps : ∀ use ∈ uses, use.KeepsFiles := by simp [uses, refused, Use.KeepsFiles]
    obtain ⟨contents, here⟩ := Option.isSome_iff_exists.1 (present keeps)
    refine ⟨_, member, _, contents, given, here, ?_⟩
    rw [stays later (by simp [later, Use.KeepsFiles]) apart]
    exact here

end History

end Optimizer

end PageBundle
