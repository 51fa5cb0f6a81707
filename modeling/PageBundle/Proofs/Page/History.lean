import PageBundle.Proofs.Page.Calls

/-!
# Histories of an optimizer

A history is an optimizer over a memory that is called in either way, while the memory changes in
any way between the calls. It remembers the artifacts that were ordered, with the answers. Each kind
of artifacts is accounted for by its own orders, whatever the other kind and the memory do
(`History.Accounted`), and so a later order is answered by what the earlier ones gave.
-/

namespace PageBundle.Optimizer

open Store (Memory)

/-- Something that happens to an optimizer or to the memory under it. -/
inductive Use where
  | call (call : Call)
  /-- The memory changes in some way. -/
  | change (f : Memory → Memory)

/-- An optimizer in use over a memory. -/
structure History where
  optimizer : Optimizer
  memory : Memory
  /-- The orders so far. -/
  orders : List Order := []

namespace History

/-- The history after a use. -/
def act (h : History) : Use → History
  | .call call =>
    let ((reply, optimizer), memory) := (h.optimizer.answer Memory.store call).run h.memory
    { optimizer, memory
      orders := h.orders ++ (order? h.optimizer.settings call reply).toList }
  | .change f => { h with memory := f h.memory }

/-- The history after some uses. -/
def run (h : History) (uses : List Use) : History :=
  uses.foldl act h

theorem run_append (h : History) (uses later : List Use) :
    h.run (uses ++ later) = (h.run uses).run later :=
  List.foldl_append

/-- The sets of a kind that were ordered, with the answers. -/
def answers (h : History) (kind : Kind) : List (ReferenceSet × Request) :=
  (h.orders.filter (·.kind = kind)).map fun order => (order.set, order.request)

/-- What happened to the artifacts of a kind. -/
def session (h : History) (kind : Kind) : ArtifactCache.Session :=
  ⟨h.optimizer.artifacts kind, h.memory, h.answers kind⟩

theorem mem_answers {h : History} {kind : Kind} {set : ReferenceSet} {request : Request} :
    (set, request) ∈ h.answers kind ↔ ⟨kind, set, request⟩ ∈ h.orders := by
  simp only [answers, List.mem_map, List.mem_filter, decide_eq_true_eq, Prod.mk.injEq]
  constructor
  · rintro ⟨order, ⟨member, rfl⟩, rfl, rfl⟩
    exact member
  · intro member
    exact ⟨_, ⟨member, rfl⟩, rfl, rfl⟩

section Orders

variable (h : History) (after : Optimizer) (t : Memory) (order : Order)

theorem session_append_self :
    session ⟨after, t, h.orders ++ [order]⟩ order.kind =
      ⟨after.artifacts order.kind, t, h.answers order.kind ++ [(order.set, order.request)]⟩ := by
  simp [session, answers]

theorem session_append_of_ne {kind : Kind} (apart : kind ≠ order.kind) :
    session ⟨after, t, h.orders ++ [order]⟩ kind = ⟨after.artifacts kind, t, h.answers kind⟩ := by
  simp [session, answers, apart.symm]

end Orders

/-- Every kind of artifacts follows from its orders, with what the settings tell and the tools do. -/
structure Accounted (settings : Settings) (tools : Tools) (charset : Charset) (h : History) :
    Prop where
  told : h.optimizer.settings = settings
  coded : ∀ kind, (h.optimizer.artifacts kind).charset = charset
  accounts : ∀ kind, ArtifactCache.Session.Accounted (artifactsFor settings tools charset kind)
    (h.session kind)

namespace Accounted

variable {settings : Settings} {tools : Tools} {charset : Charset} {h : History}

theorem start {o : Optimizer} (valid : ofSettings? settings tools = some o) (memory : Memory) :
    ∃ charset, settings.charset? tools = some charset ∧
      Accounted settings tools charset { optimizer := o, memory } := by
  obtain ⟨charset, told, rfl⟩ := Option.map_eq_some_iff.1 valid
  refine ⟨charset, told, rfl, ?_, ?_⟩
  · intro kind
    cases kind with
    | script | style => rfl
  · intro kind
    cases kind with
    | script | style => exact ArtifactCache.Session.Accounted.start _ _ _ _ _ tools memory

/-- Answering a call keeps the accounts of both kinds. -/
theorem called (accounted : Accounted settings tools charset h) {call : Call} {reply : Reply}
    {after : Optimizer} {t : Memory}
    (called : Called Memory.store h.memory h.optimizer call reply after t) :
    Accounted settings tools charset
      ⟨after, t, h.orders ++ (order? h.optimizer.settings call reply).toList⟩ := by
  cases called with
  | idle unordered same artifacts =>
    rw [unordered, Option.toList_none, List.append_nil]
    refine ⟨same.trans accounted.told, fun kind => ?_, fun kind => ?_⟩
    · rw [artifacts, accounted.coded]
    · rw [session, artifacts]
      exact accounted.accounts kind
  | ordered wanted made same answered others =>
    rw [made, Option.toList_some]
    -- The kind of the call has one more answer, and the other kind only another memory.
    refine ⟨same.trans accounted.told, fun kind => ?_, fun kind => ?_⟩
    · by_cases this : kind = call.kind
      · rw [this, answered.charset_eq, accounted.coded]
      · rw [others kind this, accounted.coded]
    · by_cases this : kind = call.kind
      · subst this
        rw [session_append_self h after t ⟨call.kind, _, _⟩]
        exact (accounted.accounts call.kind).answer answered
      · rw [session_append_of_ne h after t ⟨call.kind, _, _⟩ this, others kind this]
        exact (accounted.accounts kind).withMemory t

theorem act (accounted : Accounted settings tools charset h) (use : Use) :
    Accounted settings tools charset (h.act use) := by
  cases use with
  | call call => exact accounted.called (called_answer Memory.store h.memory h.optimizer call)
  | change f =>
    refine ⟨accounted.told, accounted.coded, fun kind => ?_⟩
    exact (accounted.accounts kind).withMemory (f h.memory)

theorem run (accounted : Accounted settings tools charset h) (uses : List Use) :
    Accounted settings tools charset (h.run uses) := by
  induction uses generalizing h with
  | nil => exact accounted
  | cons use uses ih => exact ih (accounted.act use)

theorem pathOf_eq (accounted : Accounted settings tools charset h) (kind : Kind) :
    (h.optimizer.artifacts kind).pathOf = settings.pathFor kind :=
  (accounted.accounts kind).named

/-- What a call adds to a history: nothing but for the kept bodies, or one order. -/
theorem act_call (accounted : Accounted settings tools charset h) (call : Call) :
    let after := h.act (.call call)
    after.orders = h.orders ∧ after.memory = h.memory ∨
      ∃ set request, settings.setFor? call.kind call.markup = some set ∧
        after.orders = h.orders ++ [⟨call.kind, set, request⟩] ∧
        ArtifactCache.Answered Memory.store h.memory (h.optimizer.artifacts call.kind) set request
          (after.optimizer.artifacts call.kind) after.memory := by
  have logged : (h.act (.call call)).orders = h.orders ++ (order? h.optimizer.settings call
      ((h.optimizer.answer Memory.store call).run h.memory).1.1).toList := rfl
  rcases (called_answer Memory.store h.memory h.optimizer call).order?_cases with
    ⟨none, same⟩ | ⟨set, request, wanted, some, answered⟩
  · refine .inl ⟨?_, same⟩
    rw [logged, none, Option.toList_none, List.append_nil]
  · refine .inr ⟨set, request, accounted.told ▸ wanted, ?_, answered⟩
    rw [logged, some, Option.toList_some]

/-- A call leaves it to others whether the memory takes writings. -/
theorem readOnly_act_call (accounted : Accounted settings tools charset h) (call : Call) :
    (h.act (.call call)).memory.readOnly = h.memory.readOnly := by
  rcases accounted.act_call call with ⟨-, same⟩ | ⟨set, request, -, -, answered⟩
  · rw [same]
  · exact answered.changedAt.readOnly

theorem readOnly_run_calls (accounted : Accounted settings tools charset h) (calls : List Call) :
    (h.run (calls.map .call)).memory.readOnly = h.memory.readOnly := by
  induction calls generalizing h with
  | nil => rfl
  | cons call calls ih =>
    exact (ih (accounted.act (.call call))).trans (accounted.readOnly_act_call call)

/-- An attempt on a page that tells a set orders its artifact. -/
theorem act_attempt (accounted : Accounted settings tools charset h) {kind : Kind} {page : String}
    {set : ReferenceSet} (wanted : settings.setFor? kind page = some set) :
    let after := h.act (.call (.attempt kind page))
    ∃ request, after.orders = h.orders ++ [⟨kind, set, request⟩] ∧
      ArtifactCache.Answered Memory.store h.memory (h.optimizer.artifacts kind) set request
        (after.optimizer.artifacts kind) after.memory := by
  have attempted := attempted_attempt Memory.store h.memory h.optimizer kind page
  have asked : h.optimizer.settings.setFor? kind page = some set := accounted.told ▸ wanted
  obtain ⟨request, made, answered⟩ := attempted.exists_request asked
  have ordered : order? h.optimizer.settings (.attempt kind page)
      (.tried ((h.optimizer.attempt Memory.store kind page).run h.memory).1.1) =
        some ⟨kind, set, request⟩ := order?_eq_some asked made
  refine ⟨request, ?_, answered⟩
  exact congrArg (fun order : Option Order => h.orders ++ order.toList) ordered

/-- Whatever is stored or there to be read, the answer is the path that the settings tell, if the
memory takes writings and the charset has every character. -/
theorem path_of_answered (accounted : Accounted settings tools charset h) (total : charset.Total)
    (takes : h.memory.readOnly = false) {kind : Kind} {set : ReferenceSet}
    (something : set.isEmpty = false) {request : Request} {artifacts : ArtifactCache} {t : Memory}
    (answered : ArtifactCache.Answered Memory.store h.memory (h.optimizer.artifacts kind) set
      request artifacts t) :
    request.path = .ok (settings.pathFor kind set) := by
  rw [← accounted.pathOf_eq]
  apply answered.path_eq something takes
  · rwa [accounted.coded]
  · intro path stored
    rw [accounted.pathOf_eq]
    exact (accounted.accounts kind).eq_pathOf stored

/-- Every order comes from a call, whose page tells its set. -/
theorem exists_call (accounted : Accounted settings tools charset h) {uses : List Use} {order : Order}
    (member : order ∈ (h.run uses).orders) :
    order ∈ h.orders ∨ ∃ call, .call call ∈ uses ∧
      settings.setFor? call.kind call.markup = some order.set := by
  induction uses generalizing h with
  | nil => exact .inl member
  | cons use uses ih =>
    rcases ih (accounted.act use) member with here | ⟨call, used, wanted⟩
    · cases use with
      | change f => exact .inl here
      | call call =>
        rcases accounted.act_call call with ⟨logged, -⟩ | ⟨set, request, wanted, logged, -⟩
        · exact .inl (logged ▸ here)
        · rw [logged] at here
          rcases List.mem_append.1 here with old | new
          · exact .inl old
          · obtain rfl := List.mem_singleton.1 new
            exact .inr ⟨call, List.mem_cons_self, wanted⟩
    · exact .inr ⟨call, List.mem_cons_of_mem _ used, wanted⟩

/-- What an order gave is stored for all sets with its members. -/
theorem get?_of_order (accounted : Accounted settings tools charset h) {order : Order}
    (member : order ∈ h.orders) {path : String} (given : order.request.path = .ok path)
    {set : ReferenceSet} (same : set.membership = order.set.membership) :
    (h.optimizer.artifacts order.kind).paths.get? set = some path := by
  have logged : (order.set, path) ∈ (h.session order.kind).successes := by
    rw [ArtifactCache.Session.mem_successes]
    exact ⟨order.request, mem_answers.2 member, given⟩
  exact (accounted.accounts order.kind).holds.stored _ logged set
    (ReferenceSet.beq_iff_membership.2 same)

/-- What is stored comes from an order. -/
theorem exists_order (accounted : Accounted settings tools charset h) {kind : Kind} {set : ReferenceSet}
    {path : String} (stored : (h.optimizer.artifacts kind).paths.get? set = some path) :
    ∃ order ∈ h.orders, order.request.path = .ok path := by
  obtain ⟨e, logged, -, rfl⟩ := (accounted.accounts kind).holds.get?_eq_some_iff.1 stored
  obtain ⟨request, answered, given⟩ := ArtifactCache.Session.mem_successes.1 logged
  exact ⟨⟨kind, e.1, request⟩, mem_answers.1 answered, given⟩

/-- The path that an order gave is the one that the settings tell. -/
theorem path_of_order (accounted : Accounted settings tools charset h) {order : Order}
    (member : order ∈ h.orders) {path : String} (given : order.request.path = .ok path) :
    path = settings.pathFor order.kind order.set :=
  (accounted.accounts order.kind).eq_pathOf (accounted.get?_of_order member given rfl)

end Accounted

end History

end PageBundle.Optimizer
