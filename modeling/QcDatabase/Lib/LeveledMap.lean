/-
# Maps kept on levels

A map that takes writes into a `current` level, and stores this level from time
to time under a fresh name.  A lookup asks the current level first and then the
stored ones from the newest to the oldest, and takes the first *live* value: a
dead value, which is how such maps record a deletion, is passed over like an
absent key.

Two facts about whole histories follow:

* `Follows.lookup_eq_last_iff`: a lookup answers the last write unless that write was
  dead and an older live value of the key is stored;
* `AgreeOff.lookup_eq`: two histories that differ in the writes to one key only
  agree on the lookups of all others, also after the stored levels have been
  put in the order of their names (`reload`).
-/
import QcDatabase.Lib.SortedMap

/-- A map on levels: the current one and stored ones by name.  `order` lists the
names from the oldest to the newest. -/
structure LeveledMap (N K V : Type*) [LinearOrder N] [LinearOrder K] where
  current : SortedMap K V
  files : SortedMap N (SortedMap K V)
  order : List N

namespace LeveledMap

variable {N K V : Type*} [LinearOrder N] [LinearOrder K]

/-- The map without entries and without stored levels. -/
def empty : LeveledMap N K V := ⟨SortedMap.empty, SortedMap.empty, []⟩

/-- Put a value into the current level. -/
def write (s : LeveledMap N K V) (k : K) (v : V) : LeveledMap N K V :=
  { s with current := s.current.insert k v }

/-- Store the current level under a name, unless it is empty. -/
def store (s : LeveledMap N K V) (name : N) : LeveledMap N K V :=
  if s.current.entries = [] then s
  else ⟨SortedMap.empty, s.files.insert name s.current, s.order ++ [name]⟩

/-- Drop the current level and order the stored ones by name. -/
def reload (s : LeveledMap N K V) : LeveledMap N K V := ⟨SortedMap.empty, s.files, s.files.keys⟩

/-- Every stored level is in the order, and nothing else. -/
def WellFormed (s : LeveledMap N K V) : Prop := ∀ n, n ∈ s.order ↔ (s.files.find? n).isSome = true

theorem WellFormed.store {s : LeveledMap N K V} (h : s.WellFormed) (name : N) :
    (s.store name).WellFormed := by
  rw [LeveledMap.store]
  split_ifs
  · exact h
  · intro n
    dsimp only
    rw [List.mem_append, List.mem_singleton, SortedMap.find?_insert, h n]
    by_cases hn : name = n
    · simp [hn]
    · simp [hn, Ne.symm hn]

theorem WellFormed.reload (s : LeveledMap N K V) : s.reload.WellFormed := by
  intro n
  show n ∈ s.files.keys ↔ _
  rw [LeveledMap.reload]
  cases h : s.files.find? n with
  | none => simpa using (s.files.find?_eq_none_iff n).mp h
  | some m =>
      have hmem : n ∈ s.files.keys := by
        by_contra hn
        rw [(s.files.find?_eq_none_iff n).mpr hn] at h
        cases h
      simpa using hmem

/-! ## Lookups -/

/-- Searches with answers that agree on the list. -/
theorem findSome?_congr {α β : Type*} {f g : α → Option β} {l : List α}
    (h : ∀ a ∈ l, f a = g a) : l.findSome? f = l.findSome? g := by
  induction l with
  | nil => rfl
  | cons a l ih =>
      rw [List.findSome?_cons, List.findSome?_cons, h a List.mem_cons_self,
        ih fun b hb => h b (List.mem_cons_of_mem _ hb)]

variable (live : V → Bool)

/-- The live value of a level under a key. -/
def liveAt (m : SortedMap K V) (k : K) : Option V := (m.find? k).filter live

/-- The first live value of the stored levels, from the newest to the oldest. -/
def storedLookup (s : LeveledMap N K V) (k : K) : Option V :=
  s.order.reverse.findSome? fun n => (s.files.find? n).bind fun m => liveAt live m k

/-- The first live value of all levels. -/
def lookup (s : LeveledMap N K V) (k : K) : Option V :=
  (liveAt live s.current k).or (s.storedLookup live k)

theorem liveAt_insert (m : SortedMap K V) (k k' : K) (v : V) :
    liveAt live (m.insert k v) k' =
      if k = k' then (if live v then some v else none) else liveAt live m k' := by
  rw [liveAt, SortedMap.find?_insert]
  split_ifs with hk hv
  · rw [Option.filter_some, hv]
    rfl
  · rw [Option.filter_some, if_neg hv]
  · rfl

theorem liveAt_of_find?_eq {m m' : SortedMap K V} {k : K} (h : m.find? k = m'.find? k) :
    liveAt live m k = liveAt live m' k := by
  rw [liveAt, liveAt, h]

variable {live}

/-- Storing hands the live values of the current level on. -/
theorem storedLookup_store {s : LeveledMap N K V} (h : s.WellFormed) {name : N}
    (hfresh : s.current.entries ≠ [] → s.files.find? name = none) (k : K) :
    (s.store name).storedLookup live k = (liveAt live s.current k).or (s.storedLookup live k) := by
  rw [LeveledMap.store]
  split_ifs with hempty
  · rw [liveAt, (s.current.entries_eq_nil_iff).mp hempty k]
    rfl
  · have hold : ∀ n ∈ s.order.reverse, ((s.files.insert name s.current).find? n).bind
        (fun m => liveAt live m k) = (s.files.find? n).bind fun m => liveAt live m k := by
      intro n hn
      have hne : name ≠ n := by
        rintro rfl
        rw [List.mem_reverse, h, hfresh hempty] at hn
        cases hn
      rw [SortedMap.find?_insert_ne _ _ hne]
    rw [storedLookup, List.reverse_append, List.reverse_singleton, List.findSome?_append,
      List.findSome?_singleton, SortedMap.find?_insert_self, Option.bind_some]
    congr 1
    exact findSome?_congr hold

/-! ## Histories of one key -/

/-- What the writes and stores so far mean for one key. -/
structure KeyHistory (V : Type*) where
  /-- the last write, if it was live -/
  last : Option V
  /-- the current level holds that write -/
  inCurrent : Bool
  /-- some stored level holds a live value of the key -/
  storedLive : Bool

namespace KeyHistory

/-- Before the first write. -/
def init : KeyHistory V := ⟨none, false, false⟩

/-- The key is written. -/
def write (live : V → Bool) (h : KeyHistory V) (v : V) : KeyHistory V :=
  if live v then { h with last := some v, inCurrent := true }
  else { h with last := none, inCurrent := false }

/-- The current level is stored. -/
def store (h : KeyHistory V) : KeyHistory V :=
  { h with inCurrent := false, storedLive := h.storedLive || h.inCurrent }

end KeyHistory

/-- The levels hold what the history of key `k` says. -/
structure Follows (live : V → Bool) (s : LeveledMap N K V) (k : K) (h : KeyHistory V) : Prop where
  current : liveAt live s.current k = if h.inCurrent then h.last else none
  isSome : h.inCurrent = true → h.last.isSome = true
  storedLive : (s.storedLookup live k).isSome = h.storedLive
  storedLast : h.last.isSome = true → h.inCurrent = false → s.storedLookup live k = h.last

theorem follows_empty (k : K) :
    Follows live (empty : LeveledMap N K V) k KeyHistory.init where
  current := rfl
  isSome := by intro h; cases h
  storedLive := rfl
  storedLast := by intro h; cases h

theorem Follows.write {s : LeveledMap N K V} {k : K} {h : KeyHistory V} (hf : Follows live s k h)
    (v : V) : Follows live (s.write k v) k (h.write live v) := by
  rw [KeyHistory.write]
  split_ifs with hv
  · exact {
      current := by rw [LeveledMap.write, liveAt_insert, if_pos rfl, if_pos hv]; rfl
      isSome := fun _ => rfl
      storedLive := hf.storedLive
      storedLast := by intro _ h'; cases h' }
  · exact {
      current := by rw [LeveledMap.write, liveAt_insert, if_pos rfl, if_neg hv]; rfl
      isSome := by intro h'; cases h'
      storedLive := hf.storedLive
      storedLast := by intro h'; cases h' }

theorem Follows.write_ne {s : LeveledMap N K V} {k k' : K} {h : KeyHistory V}
    (hf : Follows live s k h) (hne : k' ≠ k) (v : V) : Follows live (s.write k' v) k h :=
  { hf with current := by rw [LeveledMap.write, liveAt_insert, if_neg hne]; exact hf.current }

theorem Follows.store {s : LeveledMap N K V} {k : K} {h : KeyHistory V} (hf : Follows live s k h)
    (hs : s.WellFormed) {name : N}
    (hfresh : s.current.entries ≠ [] → s.files.find? name = none) :
    Follows live (s.store name) k h.store := by
  have hstored : (s.store name).storedLookup live k
      = (liveAt live s.current k).or (s.storedLookup live k) := storedLookup_store hs hfresh k
  have hcurrent : liveAt live (s.store name).current k = none := by
    rw [LeveledMap.store]
    split_ifs with hempty
    · rw [liveAt, (s.current.entries_eq_nil_iff).mp hempty k]
      rfl
    · rfl
  rw [hf.current] at hstored
  cases hin : h.inCurrent with
  | true =>
      obtain ⟨v, hv⟩ := Option.isSome_iff_exists.mp (hf.isSome hin)
      -- the value moves from the current map to the files
      rw [hin, if_pos rfl, hv, Option.some_or] at hstored
      exact {
        current := hcurrent
        isSome := by intro h'; cases h'
        storedLive := by rw [hstored, KeyHistory.store, hin, Bool.or_true]; rfl
        storedLast := by
          intro _ _
          rw [hstored]
          exact hv.symm }
  | false =>
      rw [hin, if_neg (by simp), Option.none_or] at hstored
      exact {
        current := hcurrent
        isSome := by intro h'; cases h'
        storedLive := by rw [hstored, KeyHistory.store, hin, Bool.or_false]; exact hf.storedLive
        storedLast := by
          intro hlast _
          rw [hstored]
          exact hf.storedLast hlast hin }

/-- **A lookup answers the last write iff that write was live or no live value
of the key is stored.** -/
theorem Follows.lookup_eq_last_iff {s : LeveledMap N K V} {k : K} {h : KeyHistory V}
    (hf : Follows live s k h) :
    s.lookup live k = h.last ↔ h.last.isSome = true ∨ h.storedLive = false := by
  rw [lookup, hf.current]
  cases hin : h.inCurrent with
  | true =>
      obtain ⟨v, hv⟩ := Option.isSome_iff_exists.mp (hf.isSome hin)
      rw [if_pos rfl, hv]
      simp
  | false =>
      rw [if_neg (by simp), Option.none_or]
      cases hl : h.last with
      | some v =>
          have hlast := hf.storedLast (by rw [hl]; rfl) hin
          rw [hlast, hl]
          simp
      | none =>
          rw [← hf.storedLive]
          simp

/-! ## Two histories that differ in one key -/

/-- `s'` holds what `s` holds for every key but `k₁`, and at least as many keys
and stored levels. -/
structure AgreeOff (k₁ : K) (s s' : LeveledMap N K V) : Prop where
  current : ∀ k, k ≠ k₁ → s.current.find? k = s'.current.find? k
  current_none : ∀ k, s'.current.find? k = none → s.current.find? k = none
  files : ∀ n m, s.files.find? n = some m →
    ∃ m', s'.files.find? n = some m' ∧ ∀ k, k ≠ k₁ → m.find? k = m'.find? k
  extra : ∀ n m', s'.files.find? n = some m' → s.files.find? n = none →
    ∀ k, k ≠ k₁ → m'.find? k = none
  order : s.order = s'.order.filter fun n => (s.files.find? n).isSome

theorem AgreeOff.refl {s : LeveledMap N K V} (h : s.WellFormed) (k₁ : K) : AgreeOff k₁ s s where
  current _ _ := rfl
  current_none _ hk := hk
  files _ m hm := ⟨m, hm, fun _ _ => rfl⟩
  extra n m' hm' hm := by rw [hm'] at hm; cases hm
  order := (List.filter_eq_self.mpr fun n hn => (h n).mp hn).symm

/-- The same write, except that the value under `k₁` may differ. -/
theorem AgreeOff.write {k₁ : K} {s s' : LeveledMap N K V} (h : AgreeOff k₁ s s') {k : K} {v v' : V}
    (hv : k ≠ k₁ → v = v') : AgreeOff k₁ (s.write k v) (s'.write k v') :=
  { h with
    current := by
      intro k' hk'
      simp only [LeveledMap.write, SortedMap.find?_insert]
      split_ifs with heq
      · rw [hv (heq ▸ hk')]
      · exact h.current k' hk'
    current_none := by
      intro k' hk'
      simp only [LeveledMap.write, SortedMap.find?_insert] at hk' ⊢
      split_ifs at hk' ⊢
      exact h.current_none k' hk' }

/-- A write to `k₁` on one side. -/
theorem AgreeOff.write_right {k₁ : K} {s s' : LeveledMap N K V} (h : AgreeOff k₁ s s') (v : V) :
    AgreeOff k₁ s (s'.write k₁ v) :=
  { h with
    current := by
      intro k hk
      rw [LeveledMap.write, SortedMap.find?_insert_ne _ _ (Ne.symm hk)]
      exact h.current k hk
    current_none := by
      intro k hk
      rw [LeveledMap.write, SortedMap.find?_insert] at hk
      split_ifs at hk
      exact h.current_none k hk }

/-- A name that is fresh on the larger side is fresh on the smaller one. -/
theorem AgreeOff.fresh {k₁ : K} {s s' : LeveledMap N K V} (h : AgreeOff k₁ s s') {name : N}
    (hfresh : s'.files.find? name = none) : s.files.find? name = none := by
  cases hf : s.files.find? name with
  | none => rfl
  | some m =>
      obtain ⟨m', hm', -⟩ := h.files name m hf
      rw [hfresh] at hm'
      cases hm'

/-- Only the larger side stores a level, which holds nothing but `k₁`. -/
theorem AgreeOff.store_larger {k₁ : K} {s s' : LeveledMap N K V} (h : AgreeOff k₁ s s') {name : N}
    (hfresh : s'.files.find? name = none) (hempty : s.current.entries = []) :
    AgreeOff k₁ s ⟨SortedMap.empty, s'.files.insert name s'.current, s'.order ++ [name]⟩ where
  current k _ := by
    rw [(SortedMap.entries_eq_nil_iff _).mp hempty k]
    rfl
  current_none k _ := (SortedMap.entries_eq_nil_iff _).mp hempty k
  files n m hm := by
    have hne : name ≠ n := by
      rintro rfl
      rw [h.fresh hfresh] at hm
      cases hm
    rw [SortedMap.find?_insert_ne _ _ hne]
    exact h.files n m hm
  extra n m' hm' hm := by
    rw [SortedMap.find?_insert] at hm'
    split_ifs at hm' with hn
    · obtain rfl := Option.some.inj hm'
      intro k hk
      rw [← h.current k hk]
      exact (SortedMap.entries_eq_nil_iff _).mp hempty k
    · exact h.extra n m' hm' hm
  order := by
    rw [List.filter_append, ← h.order]
    simp [h.fresh hfresh]

/-- Both sides store a level under a fresh name. -/
theorem AgreeOff.store_both {k₁ : K} {s s' : LeveledMap N K V} (h : AgreeOff k₁ s s')
    (hs' : s'.WellFormed) {name : N} (hfresh : s'.files.find? name = none) :
    AgreeOff k₁ ⟨SortedMap.empty, s.files.insert name s.current, s.order ++ [name]⟩
      ⟨SortedMap.empty, s'.files.insert name s'.current, s'.order ++ [name]⟩ where
  current _ _ := rfl
  current_none _ _ := rfl
  files n m hm := by
    rw [SortedMap.find?_insert] at hm ⊢
    split_ifs at hm ⊢ with hn
    · obtain rfl := Option.some.inj hm
      exact ⟨_, rfl, h.current⟩
    · exact h.files n m hm
  extra n m' hm' hm := by
    rw [SortedMap.find?_insert] at hm hm'
    split_ifs at hm hm'
    exact h.extra n m' hm' hm
  order := by
    have hnot : name ∉ s'.order := by
      rw [hs', hfresh]
      simp
    have hold : s'.order.filter (fun n => ((s.files.insert name s.current).find? n).isSome)
        = s'.order.filter fun n => (s.files.find? n).isSome := by
      refine List.filter_congr ?_
      intro n hn
      have hne : name ≠ n := by
        rintro rfl
        exact hnot hn
      rw [SortedMap.find?_insert_ne _ _ hne]
    rw [List.filter_append, hold, ← h.order]
    simp

/-- Storing under a name that is fresh on the larger side. -/
theorem AgreeOff.store {k₁ : K} {s s' : LeveledMap N K V} (h : AgreeOff k₁ s s')
    (hs' : s'.WellFormed) {name : N}
    (hfresh : s'.current.entries ≠ [] → s'.files.find? name = none) :
    AgreeOff k₁ (s.store name) (s'.store name) := by
  by_cases hempty' : s'.current.entries = []
  · have hempty : s.current.entries = [] := by
      rw [SortedMap.entries_eq_nil_iff] at hempty' ⊢
      exact fun k => h.current_none k (hempty' k)
    rw [LeveledMap.store, LeveledMap.store, if_pos hempty, if_pos hempty']
    exact h
  · rw [LeveledMap.store, LeveledMap.store, if_neg hempty']
    split_ifs with hempty
    · exact h.store_larger (hfresh hempty') hempty
    · exact h.store_both hs' (hfresh hempty')

/-- Ordering the stored levels by name. -/
theorem AgreeOff.reload {k₁ : K} {s s' : LeveledMap N K V} (h : AgreeOff k₁ s s') :
    AgreeOff k₁ s.reload s'.reload where
  current _ _ := rfl
  current_none _ _ := rfl
  files := h.files
  extra := h.extra
  order := by
    refine SortedMap.eq_of_mem_iff s.files.keys_sorted (s'.files.keys_sorted.filter _) ?_
    intro n
    have hmem := WellFormed.reload s n
    have hmem' := WellFormed.reload s' n
    change n ∈ s.files.keys ↔ (s.files.find? n).isSome = true at hmem
    change n ∈ s'.files.keys ↔ (s'.files.find? n).isSome = true at hmem'
    show n ∈ s.files.keys ↔ n ∈ s'.files.keys.filter fun n => (s.files.find? n).isSome
    rw [List.mem_filter, hmem, hmem']
    constructor
    · intro hsome
      obtain ⟨m, hm⟩ := Option.isSome_iff_exists.mp hsome
      obtain ⟨m', hm', -⟩ := h.files n m hm
      exact ⟨by rw [hm']; rfl, hsome⟩
    · exact fun hboth => hboth.2

/-- Elements that answer nothing may be left out of a search. -/
theorem findSome?_filter_of_none {α β : Type*} {f : α → Option β} {p : α → Bool} {l : List α}
    (h : ∀ a ∈ l, p a = false → f a = none) : (l.filter p).findSome? f = l.findSome? f := by
  induction l with
  | nil => rfl
  | cons a l ih =>
      have ih' := ih fun b hb => h b (List.mem_cons_of_mem _ hb)
      cases hp : p a with
      | true => rw [List.filter_cons_of_pos hp, List.findSome?_cons, List.findSome?_cons, ih']
      | false =>
          rw [List.filter_cons_of_neg (by simp [hp]), List.findSome?_cons,
            h a List.mem_cons_self hp, ih']

/-- **Lookups of other keys agree.** -/
theorem AgreeOff.lookup_eq {k₁ : K} {s s' : LeveledMap N K V} (h : AgreeOff k₁ s s') {k : K}
    (hk : k ≠ k₁) : s.lookup live k = s'.lookup live k := by
  have hstored : s.storedLookup live k = s'.storedLookup live k := by
    rw [storedLookup, h.order, ← List.filter_reverse, findSome?_filter_of_none]
    · refine findSome?_congr ?_
      intro n _
      cases hm : s.files.find? n with
      | some m =>
          obtain ⟨m', hm', heq⟩ := h.files n m hm
          rw [hm', Option.bind_some, Option.bind_some, liveAt_of_find?_eq live (heq k hk)]
      | none =>
          cases hm' : s'.files.find? n with
          | none => rfl
          | some m' =>
              rw [Option.bind_some, liveAt, h.extra n m' hm' hm k hk]
              rfl
    · intro n _ hn
      rw [Option.isSome_eq_false_iff, Option.isNone_iff_eq_none] at hn
      rw [hn]
      rfl
  rw [lookup, lookup, liveAt_of_find?_eq live (h.current k hk), hstored]

end LeveledMap
