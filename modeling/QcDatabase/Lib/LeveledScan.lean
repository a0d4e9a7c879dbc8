/-
# Range scans of maps kept on levels

A scan of levels, newest first, goes over each level by itself and merges what
comes back: an entry counts if no newer level has given one of its key.  Dead
entries, which is how such maps record a deletion, are left out level by level.

A limit `n` is applied twice: a level stops after its first `n` entries inside
the range, dead ones included, and of the merge the first `n` are returned.

* `merge_scanLevel_of_size_le`: without a limit in the way the scan has the first
  live value of each key inside the range (`visible`);
* `take_scan_eq_iff`: a limited scan is the beginning of that iff no level stops
  before one of the entries that belong there.
-/
import Mathlib.Algebra.Ring.Nat
import QcDatabase.Lib.LeveledMap

namespace LeveledScan

variable {K V : Type*} [LinearOrder K]

/-! ## Merging -/

/-- The value a list of entries has first for a key. -/
def valueAt (l : List (K × V)) (k : K) : Option V := (l.find? fun e => e.1 = k).map Prod.snd

/-- Add the entries whose keys have none yet. -/
def fillIn (merged : SortedMap K V) (l : List (K × V)) : SortedMap K V :=
  l.foldl (fun m e => if (m.find? e.1).isNone then m.insert e.1 e.2 else m) merged

/-- Merge lists of entries: the first list that has a key counts. -/
def merge (scans : List (List (K × V))) : SortedMap K V := scans.foldl fillIn SortedMap.empty

theorem find?_fillIn (merged : SortedMap K V) (l : List (K × V)) (k : K) :
    (fillIn merged l).find? k = (merged.find? k).or (valueAt l k) := by
  induction l generalizing merged with
  | nil => exact Option.or_none.symm
  | cons e l ih =>
      have hfill : fillIn merged (e :: l)
          = fillIn (if (merged.find? e.1).isNone then merged.insert e.1 e.2 else merged) l := rfl
      rw [hfill, ih, valueAt, valueAt, List.find?_cons]
      -- an entry is added only where its key has none yet
      by_cases hkey : e.1 = k
      · rw [hkey, decide_eq_true rfl]
        cases hold : merged.find? k with
        | none =>
            rw [if_pos Option.isNone_none, SortedMap.find?_insert_self]
            rfl
        | some v =>
            rw [if_neg (by simp), hold]
            rfl
      · rw [decide_eq_false hkey]
        split_ifs
        · rw [SortedMap.find?_insert_ne _ _ hkey]
        · rfl

theorem find?_foldl_fillIn (merged : SortedMap K V) (scans : List (List (K × V))) (k : K) :
    (scans.foldl fillIn merged).find? k
      = (merged.find? k).or (scans.findSome? fun l => valueAt l k) := by
  induction scans generalizing merged with
  | nil => exact Option.or_none.symm
  | cons l scans ih =>
      rw [List.foldl_cons, ih, find?_fillIn, List.findSome?_cons, Option.or_assoc]
      cases valueAt l k <;> rfl

/-- **Of each key the merge has what the first list has.** -/
theorem find?_merge (scans : List (List (K × V))) (k : K) :
    (merge scans).find? k = scans.findSome? fun l => valueAt l k := by
  rw [merge, find?_foldl_fillIn]
  rfl

theorem size_fillIn_le (merged : SortedMap K V) (l : List (K × V)) :
    (fillIn merged l).size ≤ merged.size + l.length := by
  induction l generalizing merged with
  | nil => exact le_rfl
  | cons e l ih =>
      have hfill : fillIn merged (e :: l)
          = fillIn (if (merged.find? e.1).isNone then merged.insert e.1 e.2 else merged) l := rfl
      have hfirst : (if (merged.find? e.1).isNone then merged.insert e.1 e.2 else merged).size
          ≤ merged.size + 1 := by
        split_ifs
        · exact SortedMap.length_insertEntry_le e.1 e.2 merged.entries
        · exact Nat.le_succ _
      rw [hfill, List.length_cons]
      have hrest := ih (if (merged.find? e.1).isNone then merged.insert e.1 e.2 else merged)
      omega

/-- A merge has no more entries than the lists together. -/
theorem size_merge_le (scans : List (List (K × V))) :
    (merge scans).size ≤ (scans.map List.length).sum := by
  have hfold : ∀ merged : SortedMap K V, (scans.foldl fillIn merged).size
      ≤ merged.size + (scans.map List.length).sum := by
    induction scans with
    | nil => exact fun merged => le_rfl
    | cons l scans ih =>
        intro merged
        have hfirst := size_fillIn_le merged l
        have hrest := ih (fillIn merged l)
        rw [List.foldl_cons, List.map_cons, List.sum_cons]
        omega
  exact (hfold SortedMap.empty).trans (le_of_eq (Nat.zero_add _))

/-- In a sorted list every entry is the one of its key. -/
theorem valueAt_eq_some_iff {l : List (K × V)} (hs : l.Pairwise fun a b => a.1 < b.1) {k : K}
    {v : V} : valueAt l k = some v ↔ (k, v) ∈ l := by
  have hfind : valueAt l k = (SortedMap.mk l hs).find? k := rfl
  rw [hfind]
  exact ⟨(SortedMap.mk l hs).mem_of_find?_eq_some, (SortedMap.mk l hs).find?_eq_some_of_mem⟩

/-! ## One level -/

/-- The first `n` entries of a sorted list are those with fewer than `n` before them. -/
theorem mem_take_iff {l : List (K × V)} (hs : l.Pairwise fun a b => a.1 < b.1) {n : ℕ}
    {e : K × V} : e ∈ l.take n ↔ e ∈ l ∧ l.countP (fun x => x.1 < e.1) < n := by
  induction l generalizing n with
  | nil => simp
  | cons a l ih =>
      obtain ⟨ha, hl⟩ := List.pairwise_cons.mp hs
      cases n with
      | zero => simp
      | succ n =>
          rw [List.take_succ_cons, List.mem_cons, ih hl, List.mem_cons, List.countP_cons]
          -- the head is before every entry that follows, and before itself there is none
          constructor
          · rintro (rfl | ⟨hmem, hcount⟩)
            · have hnone : l.countP (fun x => x.1 < e.1) = 0 := by
                rw [List.countP_eq_zero]
                intro x hx
                simpa using le_of_lt (ha x hx)
              rw [hnone]
              simp
            · refine ⟨Or.inr hmem, ?_⟩
              split_ifs <;> omega
          · rintro ⟨rfl | hmem, hcount⟩
            · exact Or.inl rfl
            · have hlt : decide (a.1 < e.1) = true := decide_eq_true (ha e hmem)
              rw [if_pos hlt] at hcount
              exact Or.inr ⟨hmem, by omega⟩

variable (inside : K → Bool) (live : V → Bool)

/-- The entries of a level inside the range. -/
def within (m : SortedMap K V) : List (K × V) := m.entries.filter fun e => inside e.1

/-- What a level gives: the live ones among its first `n` entries inside the range. -/
def scanLevel (n : ℕ) (m : SortedMap K V) : List (K × V) :=
  ((within inside m).take n).filter fun e => live e.2

/-- The number of entries of a level that are inside the range and before a key. -/
def ahead (m : SortedMap K V) (k : K) : ℕ := (within inside m).countP fun e => e.1 < k

/-- The live value of a level under a key, if the level comes to it. -/
def reachedAt (n : ℕ) (m : SortedMap K V) (k : K) : Option V :=
  if ahead inside m k < n then LeveledMap.liveAt live m k else none

variable {inside live}

theorem within_sorted (m : SortedMap K V) :
    (within inside m).Pairwise fun a b => a.1 < b.1 := m.sorted.filter _

theorem scanLevel_sorted (n : ℕ) (m : SortedMap K V) :
    (scanLevel inside live n m).Pairwise fun a b => a.1 < b.1 :=
  ((within_sorted m).sublist (List.take_sublist _ _)).filter _

theorem liveAt_eq_some_iff {m : SortedMap K V} {k : K} {v : V} :
    LeveledMap.liveAt live m k = some v ↔ (k, v) ∈ m.entries ∧ live v = true := by
  rw [LeveledMap.liveAt, Option.filter_eq_some_iff]
  exact and_congr_left' ⟨m.mem_of_find?_eq_some, m.find?_eq_some_of_mem⟩

/-- **A level gives the live values it reaches.** -/
theorem valueAt_scanLevel (n : ℕ) (m : SortedMap K V) (k : K) :
    valueAt (scanLevel inside live n m) k
      = if inside k = true then reachedAt inside live n m k else none := by
  refine Option.ext fun v => ?_
  rw [valueAt_eq_some_iff (scanLevel_sorted n m), scanLevel, List.mem_filter,
    mem_take_iff (within_sorted m), within, List.mem_filter, ← within, ← ahead, reachedAt]
  by_cases hinside : inside k = true
  · rw [if_pos hinside]
    by_cases hahead : ahead inside m k < n
    · rw [if_pos hahead, liveAt_eq_some_iff]
      simp [hinside, hahead]
    · rw [if_neg hahead]
      simp [hahead]
  · rw [if_neg hinside]
    simp [hinside]

theorem length_scanLevel_le (n : ℕ) (m : SortedMap K V) :
    (scanLevel inside live n m).length ≤ m.size :=
  (List.length_filter_le _ _).trans
    ((List.length_take_le' _ _).trans (List.length_filter_le _ _))

/-! ## All levels -/

variable (inside live) in
/-- What can be seen inside the range: of each key the newest live value. -/
def visible (levels : List (SortedMap K V)) : SortedMap K V :=
  merge (levels.map fun m => (within inside m).filter fun e => live e.2)

variable (inside live) in
/-- **Visible are the first live values of the keys inside the range.** -/
theorem find?_visible (levels : List (SortedMap K V)) (k : K) :
    (visible inside live levels).find? k
      = if inside k = true then levels.findSome? (fun m => LeveledMap.liveAt live m k)
        else none := by
  have hlevel : ∀ m : SortedMap K V, valueAt ((within inside m).filter fun e => live e.2) k
      = if inside k = true then LeveledMap.liveAt live m k else none := by
    intro m
    refine Option.ext fun v => ?_
    rw [valueAt_eq_some_iff ((within_sorted m).filter _), List.mem_filter, within, List.mem_filter]
    split_ifs with hinside
    · rw [liveAt_eq_some_iff]
      simp [hinside]
    · simp [hinside]
  rw [visible, find?_merge, List.findSome?_map]
  split_ifs with hinside
  · refine LeveledMap.findSome?_congr fun m _ => ?_
    rw [Function.comp_apply, hlevel, if_pos hinside]
  · refine List.findSome?_eq_none_iff.mpr fun m _ => ?_
    rw [Function.comp_apply, hlevel, if_neg hinside]

/-- **Without a limit in the way a scan has all that is visible.** -/
theorem merge_scanLevel_of_size_le {n : ℕ} {levels : List (SortedMap K V)}
    (hn : ∀ m ∈ levels, m.size ≤ n) :
    merge (levels.map (scanLevel inside live n)) = visible inside live levels := by
  rw [visible]
  refine congrArg merge (List.map_congr_left fun m hm => ?_)
  have hlen : (within inside m).length ≤ n := (List.length_filter_le _ _).trans (hn m hm)
  rw [scanLevel, List.take_of_length_le hlen]

variable (inside live) in
/-- What a limited scan merges. -/
theorem find?_merge_scanLevel (n : ℕ) (levels : List (SortedMap K V)) (k : K) :
    (merge (levels.map (scanLevel inside live n))).find? k
      = if inside k = true then levels.findSome? (fun m => reachedAt inside live n m k)
        else none := by
  rw [find?_merge, List.findSome?_map]
  split_ifs with hinside
  · refine LeveledMap.findSome?_congr fun m _ => ?_
    rw [Function.comp_apply, valueAt_scanLevel, if_pos hinside]
  · refine List.findSome?_eq_none_iff.mpr fun m _ => ?_
    rw [Function.comp_apply, valueAt_scanLevel, if_neg hinside]

theorem mem_merge_scanLevel {n : ℕ} {levels : List (SortedMap K V)} {k : K} {v : V} :
    (k, v) ∈ (merge (levels.map (scanLevel inside live n))).entries ↔
      inside k = true ∧
        levels.findSome? (fun m => reachedAt inside live n m k) = some v := by
  have hfind := find?_merge_scanLevel inside live n levels k
  constructor
  · intro hmem
    rw [SortedMap.find?_eq_some_of_mem _ hmem] at hfind
    split_ifs at hfind with hk
    exact ⟨hk, hfind.symm⟩
  · rintro ⟨hk, hvalue⟩
    rw [if_pos hk, hvalue] at hfind
    exact SortedMap.mem_of_find?_eq_some _ hfind

/-- What is merged is live. -/
theorem live_of_mem_merge {n : ℕ} {levels : List (SortedMap K V)} {e : K × V}
    (he : e ∈ (merge (levels.map (scanLevel inside live n))).entries) : live e.2 = true := by
  obtain ⟨-, hvalue⟩ := mem_merge_scanLevel.mp he
  obtain ⟨m, -, hreached⟩ := List.exists_of_findSome?_eq_some hvalue
  rw [reachedAt] at hreached
  split_ifs at hreached
  exact (liveAt_eq_some_iff.mp hreached).2

theorem size_merge_scanLevel_le (n : ℕ) (levels : List (SortedMap K V)) :
    (merge (levels.map (scanLevel inside live n))).size ≤ (levels.map SortedMap.size).sum := by
  refine (size_merge_le _).trans ?_
  induction levels with
  | nil => exact le_rfl
  | cons m levels ih => exact Nat.add_le_add (length_scanLevel_le n m) ih

/-! ## Limits -/

/-- Two sorted lists, of which the second has all the keys of the first, begin
alike iff the first has the beginning of the second. -/
theorem take_eq_take_iff {l u : List (K × V)} (hl : l.Pairwise fun a b => a.1 < b.1)
    (hu : u.Pairwise fun a b => a.1 < b.1) (hkeys : ∀ e ∈ l, e.1 ∈ u.map Prod.fst) (n : ℕ) :
    l.take n = u.take n ↔ ∀ e ∈ u.take n, e ∈ l := by
  constructor
  · intro heq e he
    rw [← heq] at he
    exact List.mem_of_mem_take he
  · induction u generalizing l n with
    | nil =>
        intro _
        have hnil : l = [] := by
          refine List.eq_nil_iff_forall_not_mem.mpr fun e he => ?_
          exact List.not_mem_nil (hkeys e he)
        rw [hnil]
    | cons e u ih =>
        intro hall
        cases n with
        | zero => rfl
        | succ n =>
            rw [List.take_succ_cons, List.forall_mem_cons] at hall
            obtain ⟨he, hall⟩ := hall
            obtain ⟨heu, hu'⟩ := List.pairwise_cons.mp hu
            rcases l with _ | ⟨a, l⟩
            · cases he
            · obtain ⟨hal, hl'⟩ := List.pairwise_cons.mp hl
              -- both begin with the least key of the second list
              have hae : a.1 = e.1 := by
                refine le_antisymm ?_ ?_
                · rcases List.mem_cons.mp he with rfl | he
                  · exact le_rfl
                  · exact le_of_lt (hal e he)
                · rw [List.forall_mem_cons, List.map_cons, List.mem_cons] at hkeys
                  rcases hkeys.1 with hsame | hmem
                  · exact le_of_eq hsame.symm
                  · obtain ⟨x, hx, hkey⟩ := List.mem_map.mp hmem
                    exact hkey ▸ le_of_lt (heu x hx)
              obtain rfl : a = e := SortedMap.eq_of_mem_of_key_eq hl List.mem_cons_self he hae
              rw [List.take_succ_cons, List.take_succ_cons]
              refine congrArg _ (ih hl' hu' ?_ n ?_)
              · intro x hx
                have hkey := hkeys x (List.mem_cons_of_mem _ hx)
                rw [List.map_cons, List.mem_cons] at hkey
                exact hkey.resolve_left (ne_of_gt (hal x hx))
              · intro x hx
                refine (List.mem_cons.mp (hall x hx)).resolve_left ?_
                rintro rfl
                exact lt_irrefl _ (heu x (List.mem_of_mem_take hx))

/-- **A limited scan is the beginning of all that is visible** iff each entry of
that beginning is the first live one that the levels come to within the limit. -/
theorem take_scan_eq_iff (n : ℕ) (levels : List (SortedMap K V)) :
    (merge (levels.map (scanLevel inside live n))).entries.take n
        = (visible inside live levels).entries.take n ↔
      ∀ e ∈ (visible inside live levels).entries.take n,
        levels.findSome? (fun m => reachedAt inside live n m e.1) = some e.2 := by
  have hvisible : ∀ {e : K × V}, e ∈ (visible inside live levels).entries → inside e.1 = true := by
    intro e he
    have hfind := find?_visible inside live levels e.1
    rw [SortedMap.find?_eq_some_of_mem _ he] at hfind
    split_ifs at hfind with hk
    exact hk
  rw [take_eq_take_iff (SortedMap.sorted _) (SortedMap.sorted _)]
  · refine forall₂_congr fun e he => ?_
    rw [show e = (e.1, e.2) from rfl, mem_merge_scanLevel]
    exact and_iff_right (hvisible (List.mem_of_mem_take he))
  · intro e he
    obtain ⟨hk, hvalue⟩ := mem_merge_scanLevel.mp he
    obtain ⟨m, hm, hreached⟩ := List.exists_of_findSome?_eq_some hvalue
    rw [reachedAt] at hreached
    split_ifs at hreached
    -- a live value that some level comes to is visible, if only as an older one
    by_contra hnone
    have hfind := find?_visible inside live levels e.1
    rw [(SortedMap.find?_eq_none_iff _ _).mpr hnone, if_pos hk, eq_comm,
      List.findSome?_eq_none_iff] at hfind
    rw [hfind m hm] at hreached
    cases hreached

end LeveledScan
