import PageBundle.Proofs.File.Names
import PageBundle.Store.Deployment
import Mathlib.Data.List.Basic

/-!
# What identifiers resolve to

An identifier is refused exactly if, without the context path, it names another host, climbs out of
a directory or has no name (`Refused`). Otherwise it resolves to its names, which lead from the root
to a file below it (`resolve_eq_ok_iff`, `foldl_join_eq`). So no identifier leads out of the root,
whatever the context path cuts off (`resolve_below_root`).
-/

namespace PageBundle.Store.Deployment

open File (StandsIn namesIn mem_namesIn_iff)

/-! ## The context path -/

section Context

variable {d : Deployment} {id : String}

theorem withoutContext_of_append {rest : List Char}
    (split : id.toList = d.contextPath.toList ++ rest) : d.withoutContext id = rest := by
  rw [withoutContext, Text.dropPattern?_eq_some_iff.2 split]
  rfl

theorem withoutContext_of_not_prefix (apart : ¬ d.contextPath.toList <+: id.toList) :
    d.withoutContext id = id.toList := by
  have missing : Text.dropPattern? d.contextPath.toList id.toList = none := by
    refine Option.eq_none_iff_forall_ne_some.2 fun rest found => apart ?_
    exact ⟨rest, (Text.dropPattern?_eq_some_iff.1 found).symm⟩
  rw [withoutContext, missing]
  rfl

/-- The context path is taken off identifiers that begin with it, and others stay as they are. -/
theorem withoutContext_cases (d : Deployment) (id : String) :
    id.toList = d.contextPath.toList ++ d.withoutContext id ∨
      ¬ d.contextPath.toList <+: id.toList ∧ d.withoutContext id = id.toList := by
  by_cases start : d.contextPath.toList <+: id.toList
  · obtain ⟨rest, split⟩ := start
    left
    rw [withoutContext_of_append split.symm, split]
  · exact .inr ⟨start, withoutContext_of_not_prefix start⟩

end Context

/-! ## Refusal -/

/-- Why what an identifier has without the context path names no file below the root. -/
inductive Refused (relative : List Char) : Prop
  | scheme (occurs : "://".toList <:+: relative)
  | host (begins : "//".toList <+: relative)
  | ascent (stands : StandsIn "..".toList relative)
  | nameless (dots : ∀ name, StandsIn name relative → name = ".".toList)

theorem isRemote_iff {cs : List Char} :
    isRemote cs = true ↔ "://".toList <:+: cs ∨ "//".toList <+: cs := by
  rw [isRemote, Bool.or_eq_true, Text.contains_iff, List.isPrefixOf_iff_prefix]

/-- The names of a text but for those that stay where they are. -/
def namesBelow (cs : List Char) : List String :=
  (namesIn cs).filter (· != ".")

theorem mem_namesBelow_iff {cs : List Char} {name : String} :
    name ∈ namesBelow cs ↔ StandsIn name.toList cs ∧ name ≠ "." := by
  rw [namesBelow, List.mem_filter, mem_namesIn_iff, bne_iff_ne]

theorem namesBelow_eq_nil_iff {cs : List Char} :
    namesBelow cs = [] ↔ ∀ name, StandsIn name cs → name = ".".toList := by
  rw [List.eq_nil_iff_forall_not_mem]
  constructor
  · intro none name stands
    by_contra other
    apply none (String.ofList name)
    refine mem_namesBelow_iff.2 ⟨by simpa using stands, fun same => other ?_⟩
    rw [← same, String.toList_ofList]
  · intro dots name member
    obtain ⟨stands, other⟩ := mem_namesBelow_iff.1 member
    exact other (String.toList_injective (dots _ stands))

theorem refused_iff {relative : List Char} :
    Refused relative ↔ (isRemote relative || (namesBelow relative).contains ".." ||
      (namesBelow relative).isEmpty) = true := by
  rw [Bool.or_eq_true, Bool.or_eq_true, isRemote_iff, List.contains_iff_mem, List.isEmpty_iff,
    mem_namesBelow_iff, namesBelow_eq_nil_iff]
  constructor
  · intro refused
    cases refused with
    | scheme occurs => exact .inl (.inl (.inl occurs))
    | host begins => exact .inl (.inl (.inr begins))
    | ascent stands => exact .inl (.inr ⟨stands, by decide⟩)
    | nameless dots => exact .inr dots
  · rintro (((occurs | begins) | ⟨stands, -⟩) | dots)
    · exact .scheme occurs
    · exact .host begins
    · exact .ascent stands
    · exact .nameless dots

section Resolve

variable {d : Deployment} {id : String}

theorem resolve_of_refused (refused : Refused (d.withoutContext id)) :
    d.resolve id = .error (.invalidPath id) := by
  have refused := refused_iff.1 refused
  rw [namesBelow, namesIn] at refused
  rw [resolve, File.namesOf_eq_namesIn, String.toList_ofList, namesIn, refused]
  rfl

theorem resolve_of_not_refused (fit : ¬ Refused (d.withoutContext id)) :
    d.resolve id = .ok (namesBelow (d.withoutContext id)) := by
  have fit := mt refused_iff.2 fit
  rw [namesBelow, namesIn, Bool.not_eq_true] at fit
  rw [resolve, File.namesOf_eq_namesIn, String.toList_ofList, namesBelow, namesIn, fit]
  rfl

theorem resolve_eq_ok_iff {names : List String} :
    d.resolve id = .ok names ↔
      ¬ Refused (d.withoutContext id) ∧ namesBelow (d.withoutContext id) = names := by
  by_cases refused : Refused (d.withoutContext id)
  · rw [resolve_of_refused refused]
    simp [refused]
  · rw [resolve_of_not_refused refused]
    simp [refused]

theorem resolve_eq_error_iff {e : Error} :
    d.resolve id = .error e ↔ Refused (d.withoutContext id) ∧ e = .invalidPath id := by
  by_cases refused : Refused (d.withoutContext id)
  · rw [resolve_of_refused refused]
    simp [refused, eq_comm]
  · rw [resolve_of_not_refused refused]
    simp [refused]

end Resolve

/-! ## Places below the root -/

/-- A name that leads from a directory to something in it. -/
structure IsPlainName (name : String) : Prop where
  nonempty : name ≠ ""
  whole : '/' ∉ name.toList
  notHere : name ≠ "."
  notUp : name ≠ ".."

/-- An identifier that writes plain names, each behind a slash, resolves to them. -/
theorem resolve_of_written {d : Deployment} {id : String} {names : List String}
    (nonempty : names ≠ []) (plain : ∀ name ∈ names, IsPlainName name)
    (spelled : d.withoutContext id = File.written names) : d.resolve id = .ok names := by
  have filled : ∀ name ∈ names, name ≠ "" := fun name member => (plain name member).nonempty
  have whole : ∀ name ∈ names, '/' ∉ name.toList := fun name member => (plain name member).whole
  have below : namesBelow (File.written names) = names := by
    rw [namesBelow, File.namesIn_written filled whole, List.filter_eq_self]
    intro name member
    exact bne_iff_ne.2 (plain name member).notHere
  rw [resolve_eq_ok_iff, spelled]
  refine ⟨fun refused => ?_, below⟩
  cases refused with
  | scheme occurs =>
    have slashes : "//".toList <:+: "://".toList := by decide
    exact File.not_infix_written filled whole (slashes.trans occurs)
  | host begins => exact File.not_infix_written filled whole begins.isInfix
  | ascent stands =>
    have member : ".." ∈ namesBelow (File.written names) := mem_namesBelow_iff.2 ⟨stands, by decide⟩
    rw [below] at member
    exact (plain ".." member).notUp rfl
  | nameless dots => exact nonempty (below ▸ namesBelow_eq_nil_iff.2 dots)

/-- What stands between a path and a name that is put after it. -/
def separator (path : String) : String :=
  if path = "" ∨ path.toList.getLast? = some '/' then "" else "/"

theorem join_eq (path name : String) : join path name = path ++ separator path ++ name := by
  rw [join, separator]
  by_cases closed : path = "" ∨ path.toList.getLast? = some '/'
  · simp [closed]
  · simp [closed]

theorem separator_append {path name : String} (plain : IsPlainName name) :
    separator (path ++ name) = "/" := by
  obtain ⟨start, last, split⟩ :=
    (List.eq_nil_or_concat name.toList).resolve_left (by simpa using plain.nonempty)
  have opened : last ≠ '/' := by
    rintro rfl
    apply plain.whole
    simp [split]
  rw [separator, if_neg]
  rintro (blank | closed)
  · exact plain.nonempty (String.append_eq_empty_iff.1 blank).2
  · rw [String.toList_append, split, List.concat_eq_append, ← List.append_assoc,
      List.getLast?_concat] at closed
    exact opened (Option.some.inj closed)

/-- Plain names lead to the place that they write, one after another, behind the root. -/
theorem foldl_join_eq {path : String} {names : List String} (nonempty : names ≠ [])
    (plain : ∀ name ∈ names, IsPlainName name) :
    names.foldl join path = path ++ separator path ++ "/".intercalate names := by
  induction names generalizing path with
  | nil => exact absurd rfl nonempty
  | cons name names ih =>
    obtain ⟨here, later⟩ := List.forall_mem_cons.1 plain
    rw [List.foldl_cons, join_eq]
    by_cases last : names = []
    · simp [last]
    · rw [ih last later, separator_append here, String.intercalate_cons_of_ne_nil last]
      simp only [String.append_assoc]

/-- **Identifiers lead to files below the root, or are refused.** Here `relative` is the identifier
without the context path. Names that it resolves to are plain, there is at least one, and their path
is the root with the names behind it. It is refused, under its own name, exactly if `relative` has a
scheme, begins with a host, has a `..` among its names, or has no name but `.`. -/
theorem resolve_below_root (root contextPath id : String) :
    (∀ names, (Deployment.of root contextPath).resolve id = .ok names →
      names ≠ [] ∧ (∀ name ∈ names, IsPlainName name) ∧
        (Deployment.of root contextPath).pathTo names =
          root ++ separator root ++ "/".intercalate names) ∧
    let d := Deployment.of root contextPath
    let relative := d.withoutContext id
    (id.toList = d.contextPath.toList ++ relative ∨
      ¬ d.contextPath.toList <+: id.toList ∧ relative = id.toList) ∧
    ∀ e, d.resolve id = .error e ↔ Refused relative ∧ e = .invalidPath id := by
  let d := Deployment.of root contextPath
  refine ⟨fun names resolved => ?_, withoutContext_cases d id, fun e => resolve_eq_error_iff⟩
  obtain ⟨fit, rfl⟩ := resolve_eq_ok_iff.1 resolved
  have nonempty : namesBelow (d.withoutContext id) ≠ [] := by
    intro none
    exact fit (.nameless (namesBelow_eq_nil_iff.1 none))
  have plain : ∀ name ∈ namesBelow (d.withoutContext id), IsPlainName name := by
    intro name member
    obtain ⟨stands, notHere⟩ := mem_namesBelow_iff.1 member
    refine ⟨?_, stands.whole, notHere, ?_⟩
    · intro blank
      exact stands.nonempty (by rw [blank]; rfl)
    · intro up
      exact fit (.ascent (up ▸ stands))
  exact ⟨nonempty, plain, foldl_join_eq nonempty plain⟩

/-- Behind the context path, a script leads to its file and `..` or a second slash nowhere. -/
theorem resolve_below_root_of_context :
    let d := Deployment.of "/srv/www" "/app/"
    d.resolve "/app/js/./a.js" = .ok ["js", "a.js"] ∧
      d.pathTo ["js", "a.js"] = "/srv/www/js/a.js" ∧
      d.resolve "/app/../a.js" = .error (.invalidPath "/app/../a.js") ∧
      d.resolve "/app//a.js" = .error (.invalidPath "/app//a.js") := by
  intro d
  obtain ⟨within, -, -⟩ := resolve_below_root "/srv/www" "/app/" "/app/js/./a.js"
  obtain ⟨-, -, up⟩ := resolve_below_root "/srv/www" "/app/" "/app/../a.js"
  obtain ⟨-, -, host⟩ := resolve_below_root "/srv/www" "/app/" "/app//a.js"
  have resolved : d.resolve "/app/js/./a.js" = .ok ["js", "a.js"] := by decide +kernel
  refine ⟨resolved, ?_, (up _).2 ⟨refused_iff.2 (by decide +kernel), rfl⟩,
    (host _).2 ⟨refused_iff.2 (by decide +kernel), rfl⟩⟩
  rw [(within _ resolved).2.2]
  decide +kernel

end PageBundle.Store.Deployment
