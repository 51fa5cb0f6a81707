/-!
# Tables

A table holds at most one value per key. Keys are compared with `==`, which may identify more than
equality does: reference sets, for one, are the same key whenever they have the same members.
-/

namespace PageBundle

variable {κ ν : Type} [BEq κ]

/-- Pairs of a key and its value, no key twice. -/
structure Table (κ ν : Type) [BEq κ] where
  entries : List (κ × ν)
  distinct : entries.Pairwise fun a b => (a.1 == b.1) = false

namespace Table

/-- The table without entries. -/
def empty : Table κ ν := ⟨[], List.Pairwise.nil⟩

instance : Inhabited (Table κ ν) := ⟨empty⟩

/-- The value at a key. -/
def get? (t : Table κ ν) (k : κ) : Option ν :=
  (t.entries.find? fun e => k == e.1).map (·.2)

/-- Whether a key has a value. -/
def contains (t : Table κ ν) (k : κ) : Bool :=
  t.entries.any fun e => k == e.1

/-- How many keys have a value. -/
def size (t : Table κ ν) : Nat :=
  t.entries.length

/-- The table without a key. -/
def erase (t : Table κ ν) (k : κ) : Table κ ν :=
  ⟨t.entries.filter fun e => !(k == e.1), t.distinct.filter _⟩

/-- The table with `v` at `k`, whatever was there. -/
def insert (t : Table κ ν) (k : κ) (v : ν) : Table κ ν :=
  ⟨(k, v) :: (t.erase k).entries, by
    refine List.pairwise_cons.2 ⟨fun e he => ?_, (t.erase k).distinct⟩
    simpa using (List.mem_filter.1 he).2⟩

/-- The table of a list of pairs, in which a later pair counts. -/
def ofList (pairs : List (κ × ν)) : Table κ ν :=
  pairs.foldl (fun t p => t.insert p.1 p.2) empty

@[simp] theorem get?_empty (k : κ) : (empty : Table κ ν).get? k = none := rfl

theorem get?_insert_self [ReflBEq κ] (t : Table κ ν) (k : κ) (v : ν) :
    (t.insert k v).get? k = some v := by
  simp [get?, insert]

theorem get?_insert_of_ne (t : Table κ ν) {k k' : κ} (v : ν) (h : (k' == k) = false)
    (hsame : ∀ x, (k' == x) = true → (k == x) = false) :
    (t.insert k v).get? k' = t.get? k' := by
  have hfind : ∀ l : List (κ × ν),
      (l.filter fun e => !(k == e.1)).find? (fun e => k' == e.1) = l.find? fun e => k' == e.1 := by
    intro l
    induction l with
    | nil => rfl
    | cons e l ih =>
      by_cases hk : (k' == e.1) = true
      · simp [hsame e.1 hk, hk]
      · by_cases hk' : (k == e.1) = true
        · simp [hk', hk, ih]
        · simp [hk', hk, ih]
  simp [get?, insert, erase, h, hfind]

theorem contains_iff_isSome (t : Table κ ν) (k : κ) : t.contains k = (t.get? k).isSome := by
  rw [Bool.eq_iff_iff]
  simp [contains, get?, List.find?_isSome]

end Table

end PageBundle
