/-
# What `detect_deadlocks` returns

`find_cycle_in_wait_graph` computes where on its path the cycle begins, does not use it,
and returns the whole path.  So a vector that `detect_deadlocks` returns is a cycle only
if the edge that closes it leads to the transaction from which the search began
(`detectsCycles_iff`); otherwise the victim that `resolve_deadlock` picks may be one that
only waits for the cycle.

The order in which the hash containers are iterated is not part of the graph: `SameGraph`
relates the wait graphs that differ in it alone, and `preferring` lays a graph out in
such a way that a given path is searched first.
-/
import QcDatabase.Lib.CyclePaths
import QcDatabase.Transaction.WaitGraph

open CycleSearch Relation UnorderedMap

namespace QcDatabase.DefaultLockManager

variable {m m' : DefaultLockManager} {i : IterationOrder} {c : List TransactionId}

/-! ## The vectors that are returned -/

theorem mem_detectFrom {txs visited : List TransactionId} (h : c ∈ m.detectFrom i txs visited) :
    ∃ tx ∈ txs, c = m.findCycleInWaitGraph i tx ∧ c ≠ [] := by
  induction txs generalizing visited with
  | nil => cases h
  | cons tx txs ih =>
      have hlater {visited : List TransactionId} (h : c ∈ m.detectFrom i txs visited) :
          ∃ t ∈ tx :: txs, c = m.findCycleInWaitGraph i t ∧ c ≠ [] := by
        obtain ⟨t, ht, hc⟩ := ih h
        exact ⟨t, List.mem_cons_of_mem tx ht, hc⟩
      rw [detectFrom] at h
      split_ifs at h with hvisited
      · exact hlater h
      · rcases hfound : m.findCycleInWaitGraph i tx with _ | ⟨node, nodes⟩
        · rw [hfound] at h
          exact hlater h
        · rw [hfound] at h
          rcases List.mem_cons.mp h with rfl | h
          · exact ⟨tx, List.mem_cons_self, hfound.symm, List.cons_ne_nil node nodes⟩
          · exact hlater h

/-- The vectors are paths from transactions of the map back into themselves. -/
theorem lasso_of_mem_detectDeadlocks (h : c ∈ m.detectDeadlocks i) :
    ∃ start ∈ m.waitGraph, c.head? = some start ∧ Lasso m.WaitsFor c := by
  obtain ⟨start, hstart, rfl, hne⟩ := mem_detectFrom h
  obtain ⟨hhead, hlasso⟩ := lasso_of_findCycle hne
  refine ⟨start, AList.mem_keys.mp ((IterationOrder.mem_order i).mp hstart), hhead, ?_⟩
  exact hlasso.congr fun x y => edge_iff_waitsFor

/-- The first vector is what the search from the first transaction finds. -/
theorem mem_detectDeadlocks_of_first {start : TransactionId} {keys : List TransactionId}
    (hkeys : i.order m.waitGraph.keys = start :: keys) (hc : m.findCycleInWaitGraph i start = c)
    (hne : c ≠ []) : c ∈ m.detectDeadlocks i := by
  obtain ⟨node, nodes, rfl⟩ := List.exists_cons_of_ne_nil hne
  rw [detectDeadlocks, hkeys, detectFrom, if_neg List.not_mem_nil, hc]
  exact List.mem_cons_self

/-! ## Layouts of one graph -/

/-- The wait graphs differ only in the order in which they are iterated. -/
structure SameGraph (m m' : DefaultLockManager) : Prop where
  keys : ∀ tx, tx ∈ m'.waitGraph ↔ tx ∈ m.waitGraph
  waitsFor : ∀ tx, (m'.waitsFor tx).Perm (m.waitsFor tx)

theorem SameGraph.waitsFor_iff (h : m.SameGraph m') (x y : TransactionId) :
    m'.WaitsFor x y ↔ m.WaitsFor x y :=
  (h.waitsFor x).mem_iff

section

variable {g : UnorderedMap TransactionId (List TransactionId)} {p : List TransactionId}
  {back x : TransactionId}

/-- Put the transactions of a path in front, and for each of them the next one; the one
next to the last is `back`. -/
def preferring (g : UnorderedMap TransactionId (List TransactionId)) :
    List TransactionId → TransactionId → UnorderedMap TransactionId (List TransactionId)
  | [], _ => g
  | x :: p, back =>
      (preferring g p back).insert x (p.headD back :: (bucket g x).erase (p.headD back))

theorem perm_bucket_preferring (h : Follows (fun x y => y ∈ bucket g x) p back)
    (tx : TransactionId) : (bucket (preferring g p back) tx).Perm (bucket g tx) := by
  induction p with
  | nil => exact List.Perm.refl _
  | cons x p ih =>
      rw [preferring, bucket_insert]
      split_ifs with hx
      · rw [hx]
        exact (List.perm_cons_erase h.1).symm
      · exact ih h.2

theorem mem_preferring (h : Follows (fun x y => y ∈ bucket g x) p back) (tx : TransactionId) :
    tx ∈ preferring g p back ↔ tx ∈ g := by
  induction p with
  | nil => rfl
  | cons x p ih =>
      rw [preferring, AList.mem_insert, ih h.2, or_iff_right_iff_imp]
      rintro rfl
      by_contra hnot
      have hempty : bucket g tx = [] := by
        rw [bucket, AList.lookup_eq_none.mpr hnot, Option.getD_none]
      have hedge : p.headD back ∈ bucket g tx := h.1
      rw [hempty] at hedge
      exact absurd hedge List.not_mem_nil

theorem keys_preferring :
    (preferring g (x :: p) back).keys = x :: (preferring g p back).keys.erase x :=
  AList.keys_insert _

theorem follows_first_preferring (h : p.Nodup) :
    Follows (FirstEdge fun tx => bucket (preferring g p back) tx) p back := by
  induction p with
  | nil => trivial
  | cons x p ih =>
      obtain ⟨hx, hnodup⟩ := List.nodup_cons.mp h
      constructor
      · rw [FirstEdge, preferring, bucket_insert, if_pos rfl]
        rfl
      · refine (ih hnodup).mono fun z hz y hy => ?_
        have hne : z ≠ x := fun he => hx (he ▸ hz)
        rw [FirstEdge, preferring, bucket_insert, if_neg hne]
        exact hy

end

/-! ## When the vectors are cycles -/

/-- The vector is a cycle of the wait graph, and so the victim lies on one. -/
structure ProperDeadlock (m : DefaultLockManager) (c : List TransactionId) : Prop where
  cycle : SimpleCycle m.WaitsFor c
  victim : ∃ victim ∈ c.max?, victim ∈ c ∧ TransGen m.WaitsFor victim victim

theorem properDeadlock_of_simpleCycle (h : SimpleCycle m.WaitsFor c) : m.ProperDeadlock c := by
  refine ⟨h, ?_⟩
  obtain ⟨-, -, first, hfirst, -⟩ := h.closes
  rcases hmax : c.max? with _ | victim
  · rw [List.max?_eq_none_iff.mp hmax] at hfirst
    cases hfirst
  · have hmem := List.max?_mem hmax
    exact ⟨victim, rfl, hmem, h.transGen hmem⟩

/-- Whatever the order of iteration, every vector that is returned is a cycle. -/
def DetectsCycles (m : DefaultLockManager) : Prop :=
  ∀ m', m.SameGraph m' → ∀ i, ∀ c ∈ m'.detectDeadlocks i, m.ProperDeadlock c

/-- A lasso of the graph is returned for some layout of it. -/
theorem exists_mem_detectDeadlocks {start : TransactionId} (hstart : c.head? = some start)
    (h : Lasso m.WaitsFor c) :
    ∃ m', m.SameGraph m' ∧ c ∈ m'.detectDeadlocks IterationOrder.listed := by
  obtain ⟨rest, rfl⟩ := List.head?_eq_some_iff.mp hstart
  obtain ⟨last, hlast, back, hback, hedge⟩ := h.closes
  have hfollows : Follows m.WaitsFor (start :: rest) back := by
    refine follows_of_chain h.chain fun x hx => ?_
    obtain rfl := Option.some.inj (hlast.symm.trans hx)
    exact hedge
  refine ⟨{ m with waitGraph := preferring m.waitGraph (start :: rest) back },
    ⟨mem_preferring hfollows, perm_bucket_preferring hfollows⟩, ?_⟩
  refine mem_detectDeadlocks_of_first keys_preferring ?_ (List.cons_ne_nil start rest)
  refine findCycle_of_follows ?_ (follows_first_preferring h.nodup) hback h.nodup
  intro x hx
  rcases List.mem_cons.mp hx with rfl | hx
  · exact List.mem_cons_self
  · obtain ⟨y, hy⟩ := exists_edge_of_chain h.chain hx
    refine List.mem_cons_of_mem start (mem_members (k := y) ?_)
    exact (perm_bucket_preferring hfollows y).mem_iff.mpr hy

/-- **When `detect_deadlocks` returns cycles**: every path from a transaction of the map
that comes back into itself has to close at its first transaction. -/
theorem detectsCycles_iff (m : DefaultLockManager) :
    m.DetectsCycles ↔ ∀ start ∈ m.waitGraph, ∀ p : List TransactionId, p.head? = some start →
      Lasso m.WaitsFor p → ∃ last ∈ p.getLast?, m.WaitsFor last start := by
  constructor
  · intro hdetects start _ p hstart hlasso
    obtain ⟨m', hsame, hmem⟩ := exists_mem_detectDeadlocks hstart hlasso
    obtain ⟨last, hlast, first, hfirst, hedge⟩ := (hdetects m' hsame _ p hmem).cycle.closes
    obtain rfl := Option.some.inj (hstart.symm.trans hfirst)
    exact ⟨last, hlast, hedge⟩
  · intro hclose m' hsame i c hc
    obtain ⟨start, hstart, hhead, hlasso⟩ := lasso_of_mem_detectDeadlocks hc
    have hlasso := hlasso.congr hsame.waitsFor_iff
    obtain ⟨last, hlast, hedge⟩ := hclose start ((hsame.keys start).mp hstart) c hhead hlasso
    exact properDeadlock_of_simpleCycle
      ⟨hlasso.nodup, hlasso.chain, last, hlast, start, hhead, hedge⟩

/-- 3 waits for 1, and 1 and 2 for each other; the map is iterated from 3 on. -/
def sampleEntered : DefaultLockManager := ((create.addWait 2 1).addWait 1 2).addWait 3 1

/-- The vector that is returned begins in front of the cycle, and the victim is not on it. -/
theorem not_detectsCycles_sampleEntered :
    sampleEntered.detectDeadlocks IterationOrder.listed = [[3, 1, 2]] ∧
      ([3, 1, 2] : List TransactionId).max? = some 3 ∧
      ¬ TransGen sampleEntered.WaitsFor 3 3 ∧ ¬ sampleEntered.DetectsCycles := by
  have hfound : sampleEntered.detectDeadlocks IterationOrder.listed = [[3, 1, 2]] := by
    decide +kernel
  have hmax : ([3, 1, 2] : List TransactionId).max? = some 3 := by decide
  have hoff : ¬ TransGen sampleEntered.WaitsFor 3 3 := by
    intro hcycle
    obtain ⟨x, -, hedge⟩ := TransGen.tail'_iff.mp hcycle
    have hmem : 3 ∈ members sampleEntered.waitGraph := mem_members hedge
    exact absurd hmem (by decide +kernel)
  refine ⟨hfound, hmax, hoff, fun hdetects => ?_⟩
  have hsame : sampleEntered.SameGraph sampleEntered :=
    ⟨fun _ => Iff.rfl, fun _ => List.Perm.refl _⟩
  obtain ⟨victim, hvictim, -, hcycle⟩ :=
    (hdetects _ hsame IterationOrder.listed [3, 1, 2] (hfound ▸ List.mem_cons_self)).victim
  obtain rfl := Option.some.inj (hmax.symm.trans hvictim)
  exact hoff hcycle

end QcDatabase.DefaultLockManager
