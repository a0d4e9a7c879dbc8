/-
# Hash maps

`std::unordered_map` as an association list without double keys, and the maps
whose values are collections: `bucket` is the collection of a key, empty when
the key is absent, and `removeFrom` drops a key with the last element of its
collection, so that no key is left with an empty one (`NoEmpty`).  Such a map
serves as an index of another one: `Indexes` says that the collection of `j`
lists the keys of the values with the feature `j`.

The order in which a hash container is iterated is not determined; a function
that iterates one takes an `IterationOrder`.
-/
import Mathlib.Data.List.AList

/-- `std::unordered_map<K, V>`. -/
abbrev UnorderedMap (K V : Type*) := AList (fun _ : K => V)

/-- The order in which the elements of hash containers are met. -/
structure IterationOrder where
  order : {α : Type} → List α → List α
  perm : ∀ {α : Type} (l : List α), (order l).Perm l

namespace IterationOrder

/-- Elements are met in the order in which the container is listed. -/
def listed : IterationOrder := ⟨fun l => l, List.Perm.refl⟩

variable {α : Type} (i : IterationOrder) {l : List α} {x : α}

@[simp] theorem mem_order : x ∈ i.order l ↔ x ∈ l := (i.perm l).mem_iff

end IterationOrder

namespace UnorderedMap

variable {K V : Type*} [DecidableEq K]

/-- The collection stored for a key. -/
def bucket (m : UnorderedMap K (List V)) (k : K) : List V := (m.lookup k).getD []

theorem bucket_of_lookup_none {m : UnorderedMap K (List V)} {k : K} (h : m.lookup k = none) :
    bucket m k = [] := by
  rw [bucket, h, Option.getD_none]

theorem bucket_of_lookup_some {m : UnorderedMap K (List V)} {k : K} {vs : List V}
    (h : m.lookup k = some vs) : bucket m k = vs := by
  rw [bucket, h, Option.getD_some]

@[simp] theorem bucket_empty (k : K) : bucket (∅ : UnorderedMap K (List V)) k = [] := by
  rw [bucket, AList.lookup_empty, Option.getD_none]

theorem bucket_insert (m : UnorderedMap K (List V)) (k j : K) (vs : List V) :
    bucket (m.insert k vs) j = if j = k then vs else bucket m j := by
  by_cases hj : j = k
  · subst hj
    rw [bucket, AList.lookup_insert, if_pos rfl, Option.getD_some]
  · rw [bucket, AList.lookup_insert_ne hj, if_neg hj, bucket]

theorem bucket_erase (m : UnorderedMap K (List V)) (k j : K) :
    bucket (m.erase k) j = if j = k then [] else bucket m j := by
  by_cases hj : j = k
  · subst hj
    rw [bucket, AList.lookup_erase, if_pos rfl, Option.getD_none]
  · rw [bucket, AList.lookup_erase_ne hj, if_neg hj, bucket]

/-- All elements of all collections. -/
def members (m : UnorderedMap K (List V)) : List V := m.entries.flatMap (fun entry => entry.2)

theorem mem_members {m : UnorderedMap K (List V)} {k : K} {v : V} (h : v ∈ bucket m k) :
    v ∈ members m := by
  rw [bucket] at h
  rcases hk : m.lookup k with _ | vs
  · rw [hk] at h
    exact absurd h List.not_mem_nil
  · rw [hk] at h
    exact List.mem_flatMap.mpr ⟨⟨k, vs⟩, AList.mem_lookup_iff.mp hk, h⟩

theorem mem_of_lookup {m : UnorderedMap K V} {k : K} {v : V} (h : m.lookup k = some v) : k ∈ m :=
  AList.lookup_isSome.mp (Option.isSome_iff_exists.mpr ⟨v, h⟩)

theorem exists_of_mem {m : UnorderedMap K V} {k : K} (h : k ∈ m) : ∃ v, m.lookup k = some v :=
  Option.isSome_iff_exists.mp (AList.lookup_isSome.mpr h)

/-- What a lookup after an insertion found. -/
theorem lookup_insert_cases {m : UnorderedMap K V} {k j : K} {v w : V}
    (h : (m.insert k v).lookup j = some w) : j = k ∧ w = v ∨ j ≠ k ∧ m.lookup j = some w := by
  by_cases hj : j = k
  · subst hj
    rw [AList.lookup_insert] at h
    exact Or.inl ⟨rfl, (Option.some.inj h).symm⟩
  · rw [AList.lookup_insert_ne hj] at h
    exact Or.inr ⟨hj, h⟩

/-- What a lookup after an erasure found. -/
theorem lookup_erase_eq_some {m : UnorderedMap K V} {k j : K} {v : V} :
    (m.erase k).lookup j = some v ↔ j ≠ k ∧ m.lookup j = some v := by
  by_cases hj : j = k
  · subst hj
    rw [AList.lookup_erase]
    simp
  · rw [AList.lookup_erase_ne hj]
    simp [hj]

/-- What an insertion does to a property of the value of a key. -/
theorem exists_lookup_insert_iff {m : UnorderedMap K V} {k j : K} {v : V} {p : V → Prop} :
    (∃ w, (m.insert k v).lookup j = some w ∧ p w) ↔
      if j = k then p v else ∃ w, m.lookup j = some w ∧ p w := by
  split_ifs with hj
  · subst hj
    simp [AList.lookup_insert]
  · rw [AList.lookup_insert_ne hj]

/-- Change every value. -/
def mapValues {W : Type*} (f : V → W) (m : UnorderedMap K V) : UnorderedMap K W :=
  ⟨m.entries.map fun entry => ⟨entry.1, f entry.2⟩, by
    rw [List.NodupKeys, List.keys, List.map_map]
    exact m.nodupKeys⟩

theorem lookup_mapValues {W : Type*} (f : V → W) (m : UnorderedMap K V) (k : K) :
    (mapValues f m).lookup k = (m.lookup k).map f := by
  show List.dlookup k (m.entries.map fun entry => (⟨entry.1, f entry.2⟩ : Sigma fun _ : K => W))
    = (List.dlookup k m.entries).map f
  induction m.entries with
  | nil => rfl
  | cons entry entries ih =>
      obtain ⟨j, v⟩ := entry
      rw [List.map_cons]
      by_cases hj : k = j
      · subst hj
        rw [List.dlookup_cons_eq, List.dlookup_cons_eq]
        rfl
      · rw [List.dlookup_cons_ne _ _ hj, List.dlookup_cons_ne _ _ hj, ih]

/-- Keep the entries with a property. -/
def filterEntries (p : K → V → Bool) (m : UnorderedMap K V) : UnorderedMap K V :=
  ⟨m.entries.filter fun entry => p entry.1 entry.2,
    List.NodupKeys.sublist List.filter_sublist m.nodupKeys⟩

/-- What a lookup among the entries that were kept finds. -/
theorem lookup_filterEntries_eq_some {p : K → V → Bool} {m : UnorderedMap K V} {k : K} {v : V} :
    (filterEntries p m).lookup k = some v ↔ m.lookup k = some v ∧ p k v = true := by
  refine AList.mem_lookup_iff.trans (List.mem_filter.trans ?_)
  exact and_congr_left' AList.mem_lookup_iff.symm

variable [DecidableEq V]

/-- Remove an element from the collection of a key, and the key with the last one. -/
def removeFrom (m : UnorderedMap K (List V)) (k : K) (v : V) : UnorderedMap K (List V) :=
  match m.lookup k with
  | none => m
  | some vs => if vs.filter (· ≠ v) = [] then m.erase k else m.insert k (vs.filter (· ≠ v))

theorem bucket_removeFrom (m : UnorderedMap K (List V)) (k j : K) (v : V) :
    bucket (removeFrom m k v) j = if j = k then (bucket m k).filter (· ≠ v) else bucket m j := by
  rw [removeFrom]
  rcases hk : m.lookup k with _ | vs
  · dsimp only
    have hempty : bucket m k = [] := by rw [bucket, hk, Option.getD_none]
    by_cases hj : j = k
    · rw [if_pos hj, hj, hempty, List.filter_nil]
    · rw [if_neg hj]
  · dsimp only
    have hbucket : bucket m k = vs := by rw [bucket, hk, Option.getD_some]
    rw [hbucket]
    by_cases hnil : vs.filter (· ≠ v) = []
    · rw [if_pos hnil, bucket_erase, hnil]
    · rw [if_neg hnil, bucket_insert]

theorem mem_bucket_removeFrom {m : UnorderedMap K (List V)} {k j : K} {v w : V} :
    w ∈ bucket (removeFrom m k v) j ↔ w ∈ bucket m j ∧ ¬ (j = k ∧ w = v) := by
  rw [bucket_removeFrom]
  by_cases hj : j = k
  · subst hj
    simp
  · simp [hj]

/-! ## Maps without empty collections -/

section

omit [DecidableEq V]

/-- No key is kept with an empty collection. -/
def NoEmpty (m : UnorderedMap K (List V)) : Prop := ∀ k, m.lookup k ≠ some []

theorem noEmpty_empty : NoEmpty (∅ : UnorderedMap K (List V)) := by
  intro k
  rw [AList.lookup_empty]
  exact nofun

theorem NoEmpty.insert {m : UnorderedMap K (List V)} (h : NoEmpty m) {k : K} {vs : List V}
    (hvs : vs ≠ []) : NoEmpty (m.insert k vs) := by
  intro j hj
  rcases lookup_insert_cases hj with ⟨-, hnil⟩ | ⟨-, hold⟩
  · exact hvs hnil.symm
  · exact h j hold

theorem NoEmpty.erase {m : UnorderedMap K (List V)} (h : NoEmpty m) (k : K) :
    NoEmpty (m.erase k) := by
  intro j hj
  exact h j (lookup_erase_eq_some.mp hj).2

end

/-- A key goes with the last element of its collection. -/
theorem NoEmpty.removeFrom {m : UnorderedMap K (List V)} (h : NoEmpty m) (k : K) (v : V) :
    NoEmpty (removeFrom m k v) := by
  rw [UnorderedMap.removeFrom]
  rcases m.lookup k with _ | vs
  · exact h
  · dsimp only
    split_ifs with hnil
    · exact h.erase k
    · exact h.insert hnil

/-! ## Indexes -/

section

variable {J : Type*} [DecidableEq J]

/-- The index lists the keys of the values of `m` by their feature `f`. -/
def Indexes (index : UnorderedMap J (List K)) (m : UnorderedMap K V) (f : V → J) : Prop :=
  ∀ j k, k ∈ bucket index j ↔ ∃ v, m.lookup k = some v ∧ f v = j

omit [DecidableEq V]
variable {index index' : UnorderedMap J (List K)} {m : UnorderedMap K V} {f : V → J} {k : K} {v : V}

theorem indexes_empty : Indexes (∅ : UnorderedMap J (List K)) (∅ : UnorderedMap K V) f := by
  intro j k
  rw [bucket_empty, AList.lookup_empty]
  simp

/-- A new key is added to the collection of its feature. -/
theorem Indexes.insert (h : Indexes index m f) (hnew : m.lookup k = none)
    (hindex : ∀ j k', k' ∈ bucket index' j ↔ j = f v ∧ k' = k ∨ k' ∈ bucket index j) :
    Indexes index' (m.insert k v) f := by
  intro j k'
  rw [hindex, h j k']
  constructor
  · rintro (⟨rfl, rfl⟩ | ⟨w, hw, hj⟩)
    · exact ⟨v, AList.lookup_insert m, rfl⟩
    · have hne : k' ≠ k := by
        rintro rfl
        rw [hnew] at hw
        cases hw
      exact ⟨w, (AList.lookup_insert_ne hne).trans hw, hj⟩
  · rintro ⟨w, hw, hj⟩
    rcases lookup_insert_cases hw with ⟨rfl, rfl⟩ | ⟨-, hold⟩
    · exact Or.inl ⟨hj.symm, rfl⟩
    · exact Or.inr ⟨w, hold, hj⟩

/-- An erased key is removed from the collection of its feature. -/
theorem Indexes.erase (h : Indexes index m f) (hv : m.lookup k = some v) :
    Indexes (removeFrom index (f v) k) (m.erase k) f := by
  intro j k'
  rw [mem_bucket_removeFrom, h j k']
  constructor
  · rintro ⟨⟨w, hw, hj⟩, hnot⟩
    refine ⟨w, lookup_erase_eq_some.mpr ⟨?_, hw⟩, hj⟩
    rintro rfl
    rw [hv] at hw
    cases hw
    exact hnot ⟨hj.symm, rfl⟩
  · rintro ⟨w, hw, hj⟩
    obtain ⟨hne, hw⟩ := lookup_erase_eq_some.mp hw
    exact ⟨⟨w, hw, hj⟩, fun heq => hne heq.2⟩

end

end UnorderedMap
