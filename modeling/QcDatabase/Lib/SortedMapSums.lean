/-
# Sums over sorted maps

Each entry of a `SortedMap` has a weight, and `total` is the sum of the weights.  An insertion
adds the weight of the new entry and takes away that of the entry that it replaces
(`total_insert`), so a counter that is kept by these differences holds the sum.
-/
import Mathlib.Algebra.Order.BigOperators.Group.List
import Mathlib.Algebra.Order.Ring.Nat
import QcDatabase.Lib.SortedMap

namespace SortedMap

variable {K V : Type*} [LinearOrder K]

/-- The sum of the weights of the entries. -/
def total (w : K → V → ℕ) (m : SortedMap K V) : ℕ := (m.entries.map fun e => w e.1 e.2).sum

@[simp] theorem total_empty (w : K → V → ℕ) : (empty : SortedMap K V).total w = 0 := rfl

/-- The weight of an entry is part of the sum. -/
theorem le_total (w : K → V → ℕ) (m : SortedMap K V) {k : K} {v : V} (h : m.find? k = some v) :
    w k v ≤ m.total w :=
  List.le_sum_of_mem (List.mem_map_of_mem (m.mem_of_find?_eq_some h))

theorem sum_insertEntry (w : K → V → ℕ) (k : K) (v : V) {l : List (K × V)}
    (hs : l.Pairwise (fun a b => a.1 < b.1)) :
    ((insertEntry k v l).map fun e => w e.1 e.2).sum
        + ((l.find? fun e => e.1 = k).map fun e => w k e.2).getD 0
      = (l.map fun e => w e.1 e.2).sum + w k v := by
  induction l with
  | nil => simp [insertEntry]
  | cons e l ih =>
      obtain ⟨he, hl⟩ := List.pairwise_cons.mp hs
      rw [insertEntry]
      split_ifs with hlt heq
      · -- all keys of the list are larger
        have hnone : (e :: l).find? (fun e => e.1 = k) = none := by
          rw [List.find?_eq_none]
          intro x hx
          rcases List.mem_cons.mp hx with rfl | hx
          · simpa using hlt.ne'
          · simpa using (hlt.trans (he x hx)).ne'
        rw [hnone, List.map_cons, List.sum_cons, Option.map_none, Option.getD_none, Nat.add_zero]
        exact Nat.add_comm _ _
      · subst heq
        simp [Nat.add_comm, Nat.add_left_comm]
      · rw [List.find?_cons_of_neg (by simpa using Ne.symm heq), List.map_cons, List.sum_cons,
          List.map_cons, List.sum_cons, Nat.add_assoc, ih hl, Nat.add_assoc]

/-- **An insertion adds the weight of the new entry and takes away that of the old one.** -/
theorem total_insert (w : K → V → ℕ) (m : SortedMap K V) (k : K) (v : V) :
    (m.insert k v).total w + ((m.find? k).map (w k)).getD 0 = m.total w + w k v := by
  have h := sum_insertEntry w k v m.sorted
  rw [find?, Option.map_map]
  exact h

end SortedMap
