/-
# Maps kept as strictly sorted association lists

An ordered map in the shape every ordered container iterates over: the list of
its entries in strictly increasing key order.  The order is a field of the
structure, so a map with a repeated or misplaced key cannot be built, and
`find?` is determined by membership (`find?_eq_some_of_mem`,
`mem_of_find?_eq_some`).  `insert` replaces or adds one entry.
-/
import Mathlib.Order.Lattice
import Mathlib.Data.List.Pairwise

/-- A finite map as the list of its entries in strictly increasing key order. -/
structure SortedMap (K V : Type*) [LinearOrder K] where
  entries : List (K × V)
  sorted : entries.Pairwise (fun a b => a.1 < b.1)

namespace SortedMap

variable {K V : Type*} [LinearOrder K]

instance [DecidableEq V] : DecidableEq (SortedMap K V) := fun a b =>
  decidable_of_iff (a.entries = b.entries) (by cases a; cases b; simp)

/-! ## Lookup -/

/-- The map without entries. -/
def empty : SortedMap K V := ⟨[], List.Pairwise.nil⟩

/-- The value stored under `k`. -/
def find? (m : SortedMap K V) (k : K) : Option V :=
  (m.entries.find? (fun e => e.1 = k)).map Prod.snd

/-- The keys, in increasing order. -/
def keys (m : SortedMap K V) : List K := m.entries.map Prod.fst

/-- The number of entries. -/
def size (m : SortedMap K V) : ℕ := m.entries.length

@[simp] theorem find?_empty (k : K) : (empty : SortedMap K V).find? k = none := rfl

@[simp] theorem entries_empty : (empty : SortedMap K V).entries = [] := rfl

/-- The keys are strictly increasing. -/
theorem keys_sorted (m : SortedMap K V) : m.keys.Pairwise (· < ·) := by
  rw [keys, List.pairwise_map]
  exact m.sorted

/-- Two entries with one key are the same entry. -/
theorem eq_of_mem_of_key_eq {l : List (K × V)} (hs : l.Pairwise (fun a b => a.1 < b.1))
    {a b : K × V} (ha : a ∈ l) (hb : b ∈ l) (hk : a.1 = b.1) : a = b := by
  induction l with
  | nil => simp at ha
  | cons c l ih =>
      obtain ⟨hc, hl⟩ := List.pairwise_cons.mp hs
      rcases List.mem_cons.mp ha with rfl | ha' <;> rcases List.mem_cons.mp hb with rfl | hb'
      · rfl
      · exact absurd hk (ne_of_lt (hc b hb'))
      · exact absurd hk.symm (ne_of_lt (hc a ha'))
      · exact ih hl ha' hb'

/-- An entry of the list is what `find?` answers for its key. -/
theorem find?_eq_some_of_mem (m : SortedMap K V) {k : K} {v : V} (h : (k, v) ∈ m.entries) :
    m.find? k = some v := by
  unfold find?
  cases hf : m.entries.find? (fun e => e.1 = k) with
  | none =>
      have := List.find?_eq_none.mp hf (k, v) h
      simp at this
  | some e =>
      have hmem := List.mem_of_find?_eq_some hf
      have hkey : e.1 = k := by simpa using List.find?_some hf
      rw [eq_of_mem_of_key_eq m.sorted hmem h hkey]
      rfl

/-- What `find?` answers is an entry of the list. -/
theorem mem_of_find?_eq_some (m : SortedMap K V) {k : K} {v : V} (h : m.find? k = some v) :
    (k, v) ∈ m.entries := by
  unfold find? at h
  obtain ⟨e, he, rfl⟩ := Option.map_eq_some_iff.mp h
  have hkey : e.1 = k := by simpa using List.find?_some he
  have hmem := List.mem_of_find?_eq_some he
  rwa [← hkey]

/-- A key without an entry is a key `find?` does not answer for. -/
theorem find?_eq_none_iff (m : SortedMap K V) (k : K) :
    m.find? k = none ↔ k ∉ m.keys := by
  constructor
  · intro h hk
    obtain ⟨e, he, rfl⟩ := List.mem_map.mp hk
    rw [m.find?_eq_some_of_mem he] at h
    cases h
  · intro h
    cases hf : m.find? k with
    | none => rfl
    | some v => exact absurd (List.mem_map_of_mem (m.mem_of_find?_eq_some hf)) h

/-! ## Insertion -/

/-- Put `(k, v)` at its place in a sorted list of entries, replacing the entry
under `k` if there is one. -/
def insertEntry (k : K) (v : V) : List (K × V) → List (K × V)
  | [] => [(k, v)]
  | e :: l =>
      if k < e.1 then (k, v) :: e :: l
      else if k = e.1 then (k, v) :: l
      else e :: insertEntry k v l

theorem mem_insertEntry {k : K} {v : V} {l : List (K × V)} {e : K × V}
    (h : e ∈ insertEntry k v l) : e = (k, v) ∨ e ∈ l := by
  induction l with
  | nil => simpa [insertEntry] using h
  | cons c l ih =>
      unfold insertEntry at h
      split_ifs at h with h1 h2
      · simpa using h
      · rcases List.mem_cons.mp h with h | h
        · exact Or.inl h
        · exact Or.inr (List.mem_cons_of_mem _ h)
      · rcases List.mem_cons.mp h with rfl | h
        · exact Or.inr List.mem_cons_self
        · exact (ih h).imp id (List.mem_cons_of_mem _)

theorem length_insertEntry_le (k : K) (v : V) (l : List (K × V)) :
    (insertEntry k v l).length ≤ l.length + 1 := by
  induction l with
  | nil => exact le_rfl
  | cons e l ih =>
      rw [insertEntry]
      split_ifs
      · exact le_rfl
      · exact Nat.le_succ _
      · exact Nat.succ_le_succ ih

theorem pairwise_insertEntry (k : K) (v : V) {l : List (K × V)}
    (hs : l.Pairwise (fun a b => a.1 < b.1)) :
    (insertEntry k v l).Pairwise (fun a b => a.1 < b.1) := by
  induction l with
  | nil => simp [insertEntry]
  | cons c l ih =>
      obtain ⟨hc, hl⟩ := List.pairwise_cons.mp hs
      unfold insertEntry
      split_ifs with h1 h2
      · refine List.pairwise_cons.mpr ⟨?_, hs⟩
        intro e he
        rcases List.mem_cons.mp he with rfl | he
        · exact h1
        · exact lt_trans h1 (hc e he)
      · refine List.pairwise_cons.mpr ⟨?_, hl⟩
        intro e he
        exact h2 ▸ hc e he
      · refine List.pairwise_cons.mpr ⟨?_, ih hl⟩
        intro e he
        rcases mem_insertEntry he with rfl | he
        · exact lt_of_le_of_ne (not_lt.mp h1) (Ne.symm h2)
        · exact hc e he

/-- The map with `k` bound to `v`. -/
def insert (m : SortedMap K V) (k : K) (v : V) : SortedMap K V :=
  ⟨insertEntry k v m.entries, pairwise_insertEntry k v m.sorted⟩

theorem find?_insertEntry (k k' : K) (v : V) (l : List (K × V))
    (hs : l.Pairwise (fun a b => a.1 < b.1)) :
    (insertEntry k v l).find? (fun e => e.1 = k')
      = if k = k' then some (k, v) else l.find? (fun e => e.1 = k') := by
  induction l with
  | nil => by_cases h : k = k' <;> simp [insertEntry, h]
  | cons c l ih =>
      obtain ⟨-, hl⟩ := List.pairwise_cons.mp hs
      by_cases h3 : k = k'
      · subst h3
        rw [if_pos rfl, insertEntry]
        split_ifs with h1 h2
        · simp
        · simp
        · rw [List.find?_cons_of_neg (by simpa using Ne.symm h2), ih hl, if_pos rfl]
      · rw [if_neg h3, insertEntry]
        split_ifs with h1 h2
        · rw [List.find?_cons_of_neg (by simpa using h3)]
        · rw [List.find?_cons_of_neg (by simpa using h3),
            List.find?_cons_of_neg (by simpa [← h2] using h3)]
        · simp only [List.find?_cons, ih hl, if_neg h3]

@[simp] theorem find?_insert_self (m : SortedMap K V) (k : K) (v : V) :
    (m.insert k v).find? k = some v := by
  simp [find?, insert, find?_insertEntry k k v m.entries m.sorted]

theorem find?_insert_ne (m : SortedMap K V) {k k' : K} (v : V) (h : k ≠ k') :
    (m.insert k v).find? k' = m.find? k' := by
  simp [find?, insert, find?_insertEntry k k' v m.entries m.sorted, h]

theorem find?_insert (m : SortedMap K V) (k k' : K) (v : V) :
    (m.insert k v).find? k' = if k = k' then some v else m.find? k' := by
  split_ifs with h
  · subst h; exact m.find?_insert_self k v
  · exact m.find?_insert_ne v h

/-- What holds of every entry and of the new one holds of every entry after the
insertion. -/
theorem forall_find?_insert {P : K → V → Prop} {m : SortedMap K V} {k : K} {v : V}
    (h : ∀ k' v', m.find? k' = some v' → P k' v') (hnew : P k v) :
    ∀ k' v', (m.insert k v).find? k' = some v' → P k' v' := by
  intro k' v' hfind
  rw [find?_insert] at hfind
  split_ifs at hfind with hkey
  · obtain rfl := Option.some.inj hfind
    exact hkey ▸ hnew
  · exact h k' v' hfind

/-! ## Removal -/

/-- The map without the entry under `k`. -/
def erase (m : SortedMap K V) (k : K) : SortedMap K V :=
  ⟨m.entries.filter (fun e => e.1 ≠ k), m.sorted.filter _⟩

/-! ## Extensionality -/

/-- A strictly increasing list is determined by its members. -/
theorem eq_of_mem_iff {l l' : List K} (hl : l.Pairwise (· < ·)) (hl' : l'.Pairwise (· < ·))
    (h : ∀ k, k ∈ l ↔ k ∈ l') : l = l' := by
  have hperm : l.Perm l' :=
    (List.perm_ext_iff_of_nodup (hl.imp ne_of_lt) (hl'.imp ne_of_lt)).mpr h
  exact hperm.eq_of_pairwise (fun _ _ _ _ hab hba => absurd hab (lt_asymm hba)) hl hl'

/-- A map that answers for no key is empty. -/
theorem entries_eq_nil_iff (m : SortedMap K V) : m.entries = [] ↔ ∀ k, m.find? k = none := by
  constructor
  · intro h k
    rw [find?_eq_none_iff, keys, h]
    simp
  · intro h
    by_contra hne
    obtain ⟨⟨k, v⟩, l, hcons⟩ := List.exists_cons_of_ne_nil hne
    have hfind := m.find?_eq_some_of_mem (k := k) (v := v) (by rw [hcons]; exact List.mem_cons_self)
    rw [h k] at hfind
    cases hfind

end SortedMap
