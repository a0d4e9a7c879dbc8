/-
# The path of a depth-first search

The search of `CycleSearch` returns the path on which it met a node for the second time.
That path is a `Lasso`: it repeats no node, and its last node has an edge back to some
node of it, which need not be the first one; if it is, the path is a `SimpleCycle`.

`lasso_of_findCycle` says so of every path that is found.  Conversely every lasso is
found, by a search that meets the neighbours in the right order: one in which the next
node comes first at each node (`findCycle_of_follows`).
-/
import Mathlib.Data.List.Chain
import QcDatabase.Lib.CycleSearch

open Relation

namespace CycleSearch

/-! ## Lassos and cycles -/

section

variable {α : Type*} {R S : α → α → Prop} {p : List α} {x y : α}

/-- A path without repetitions whose last node has an edge back into it. -/
structure Lasso (R : α → α → Prop) (p : List α) : Prop where
  nodup : p.Nodup
  chain : p.IsChain R
  closes : ∃ last ∈ p.getLast?, ∃ back ∈ p, R last back

/-- A path without repetitions whose last node has an edge to the first. -/
structure SimpleCycle (R : α → α → Prop) (p : List α) : Prop where
  nodup : p.Nodup
  chain : p.IsChain R
  closes : ∃ last ∈ p.getLast?, ∃ first ∈ p.head?, R last first

theorem Lasso.congr (hRS : ∀ x y, R x y ↔ S x y) (h : Lasso R p) : Lasso S p where
  nodup := h.nodup
  chain := h.chain.imp fun x y => (hRS x y).mp
  closes := by
    obtain ⟨last, hlast, back, hback, hedge⟩ := h.closes
    exact ⟨last, hlast, back, hback, (hRS last back).mp hedge⟩

theorem reflTransGen_of_chain (h : (x :: p).IsChain R) (hy : y ∈ x :: p) : ReflTransGen R x y := by
  induction p generalizing x with
  | nil =>
      rw [List.mem_singleton.mp hy]
  | cons z p ih =>
      obtain ⟨hedge, hchain⟩ := List.isChain_cons_cons.mp h
      rcases List.mem_cons.mp hy with rfl | hy
      · exact ReflTransGen.refl
      · exact ReflTransGen.head hedge (ih hchain hy)

theorem reflTransGen_getLast (h : p.IsChain R) (hx : x ∈ p) (hy : y ∈ p.getLast?) :
    ReflTransGen R x y := by
  induction p with
  | nil => cases hx
  | cons z p ih =>
      rcases List.mem_cons.mp hx with rfl | hx
      · exact reflTransGen_of_chain h (List.mem_of_getLast? hy)
      · refine ih h.tail hx ?_
        rw [List.getLast?_cons_of_ne_nil (List.ne_nil_of_mem hx)] at hy
        exact hy

/-- Every node of the path has an edge to the next one, and the last one to `back`. -/
def Follows (R : α → α → Prop) : List α → α → Prop
  | [], _ => True
  | x :: p, back => R x (p.headD back) ∧ Follows R p back

theorem follows_of_chain {back : α} (h : p.IsChain R) (hback : ∀ last ∈ p.getLast?, R last back) :
    Follows R p back := by
  induction p with
  | nil => trivial
  | cons x p ih =>
      cases p with
      | nil => exact ⟨hback x rfl, trivial⟩
      | cons y p =>
          obtain ⟨hedge, hchain⟩ := List.isChain_cons_cons.mp h
          exact ⟨hedge, ih hchain hback⟩

theorem Follows.mono {back : α} (h : Follows R p back) (hRS : ∀ x ∈ p, ∀ y, R x y → S x y) :
    Follows S p back := by
  induction p with
  | nil => trivial
  | cons x p ih =>
      rw [List.forall_mem_cons] at hRS
      exact ⟨hRS.1 _ h.1, ih h.2 hRS.2⟩

/-- Every node but the first is at the end of an edge. -/
theorem exists_edge_of_chain (h : (x :: p).IsChain R) (hy : y ∈ p) : ∃ z, R z y := by
  induction p generalizing x with
  | nil => cases hy
  | cons z p ih =>
      obtain ⟨hedge, hchain⟩ := List.isChain_cons_cons.mp h
      rcases List.mem_cons.mp hy with rfl | hy
      · exact ⟨x, hedge⟩
      · exact ih hchain hy

/-- **Every node of a cycle lies on it.** -/
theorem SimpleCycle.transGen (h : SimpleCycle R p) (hx : x ∈ p) : TransGen R x x := by
  obtain ⟨last, hlast, first, hfirst, hedge⟩ := h.closes
  obtain ⟨rest, rfl⟩ := List.head?_eq_some_iff.mp hfirst
  have hto := reflTransGen_getLast h.chain hx hlast
  have hfrom := reflTransGen_of_chain h.chain hx
  exact TransGen.trans_left (TransGen.tail' hto hedge) hfrom

end

/-! ## The path that is found -/

variable {α : Type*} [DecidableEq α] {succ : α → List α} {fuel : ℕ} {node start : α}
  {s s' : Search α}

/-- The path of a search goes along edges and its nodes are those on the stack. -/
structure Search.OnPath (succ : α → List α) (s : Search α) : Prop where
  stack : ∀ x, x ∈ s.recStack ↔ x ∈ s.path
  nodup : s.path.Nodup
  chain : s.path.IsChain (Edge succ)

theorem Search.OnPath.enter (h : s.OnPath succ) (hoff : node ∉ s.recStack)
    (hedge : ∀ last ∈ s.path.getLast?, Edge succ last node) : (s.enter node).OnPath succ where
  stack x := by
    show x ∈ s.recStack.insert node ↔ x ∈ s.path ++ [node]
    rw [List.mem_insert_iff, List.mem_append, List.mem_singleton, h.stack, or_comm]
  nodup := by
    refine List.nodup_append'.mpr ⟨h.nodup, List.nodup_singleton node, ?_⟩
    rw [List.disjoint_singleton]
    exact fun hmem => hoff ((h.stack node).mpr hmem)
  chain := by
    refine List.isChain_append.mpr ⟨h.chain, List.isChain_singleton node, ?_⟩
    intro last hlast first hfirst
    rw [List.head?_singleton, Option.mem_some_iff] at hfirst
    rw [← hfirst]
    exact hedge last hlast

omit [DecidableEq α] in
/-- A search that finds nothing gives the path back. -/
theorem Search.OnPath.extends (h : s.OnPath succ) (hext : s.Extends s') : s'.OnPath succ where
  stack x := by rw [hext.recStack, hext.path, h.stack]
  nodup := by
    rw [hext.path]
    exact h.nodup
  chain := by
    rw [hext.path]
    exact h.chain

/-- The loop over neighbours of the last node of the path. -/
theorem scan_lasso
    (hv : ∀ n s s', s.OnPath succ → n ∉ s.recStack → (∀ last ∈ s.path.getLast?, Edge succ last n) →
      visit succ fuel n s = some (true, s') → Lasso (Edge succ) s'.path) {ns : List α}
    (hs : s.OnPath succ) (hlast : s.path.getLast? = some node) (hns : ∀ n ∈ ns, Edge succ node n)
    (h : scan (visit succ fuel) s ns = some (true, s')) : Lasso (Edge succ) s'.path := by
  induction ns generalizing s with
  | nil => cases h
  | cons n ns ih =>
      rw [List.forall_mem_cons] at hns
      have hedge : ∀ last ∈ s.path.getLast?, Edge succ last n := by
        intro last hmem
        rw [hlast, Option.mem_some_iff] at hmem
        rw [← hmem]
        exact hns.1
      rcases scan_cons_true h with ⟨hmem, rfl⟩ | h | ⟨hoff, h⟩ | ⟨hoff, s₁, hfalse, h⟩
      · exact ⟨hs.nodup, hs.chain, node, hlast, n, (hs.stack n).mp hmem, hns.1⟩
      · exact ih hs hlast hns.2 h
      · exact hv n s s' hs hoff hedge h
      · have hext := visit_extends hoff hfalse
        exact ih (hs.extends hext) (hext.path ▸ hlast) hns.2 h

theorem visit_lasso (hs : s.OnPath succ) (hoff : node ∉ s.recStack)
    (hedge : ∀ last ∈ s.path.getLast?, Edge succ last node)
    (h : visit succ fuel node s = some (true, s')) : Lasso (Edge succ) s'.path := by
  induction fuel generalizing node s s' with
  | zero => cases h
  | succ fuel ih =>
      refine scan_lasso (fun n s s' => ih) (hs.enter hoff hedge) ?_ (fun n hn => hn) (visit_true h)
      exact List.getLast?_concat

/-- **What is found is a lasso** from the start. -/
theorem lasso_of_findCycle {nodes : List α} (h : findCycle succ nodes start ≠ []) :
    (findCycle succ nodes start).head? = some start ∧
      Lasso (Edge succ) (findCycle succ nodes start) := by
  rw [findCycle] at h ⊢
  rcases hvisit : visit succ (nodes.length + 1) start Search.start with _ | ⟨_ | _, s⟩
  · rw [hvisit] at h
    exact absurd rfl h
  · rw [hvisit] at h
    exact absurd rfl h
  · constructor
    · obtain ⟨rest, hrest⟩ := visit_path hvisit
      show s.path.head? = some start
      rw [← hrest]
      rfl
    · refine visit_lasso ?_ List.not_mem_nil ?_ hvisit
      · exact ⟨fun x => Iff.rfl, List.nodup_nil, List.isChain_nil⟩
      · intro last hlast
        cases hlast

/-! ## Every lasso can be found -/

/-- The second node is the first neighbour of the first one. -/
def FirstEdge (succ : α → List α) (x y : α) : Prop := (succ x).head? = some y

omit [DecidableEq α] in
theorem firstEdge_iff {x y : α} : FirstEdge succ x y ↔ ∃ others, succ x = y :: others :=
  List.head?_eq_some_iff

/-- A search goes straight along first edges, until it comes back to its path. -/
theorem visit_of_follows {rest : List α} {back : α} (hfuel : rest.length < fuel)
    (hfirst : Follows (FirstEdge succ) (node :: rest) back) (hback : back ∈ s.path ++ node :: rest)
    (hnodup : (s.path ++ node :: rest).Nodup) (hstack : ∀ x, x ∈ s.recStack ↔ x ∈ s.path)
    (hvisited : ∀ x, x ∈ s.visited ↔ x ∈ s.path) :
    ∃ s', visit succ fuel node s = some (true, s') ∧ s'.path = s.path ++ node :: rest := by
  induction fuel generalizing node rest s with
  | zero => omega
  | succ fuel ih =>
      -- both sets and the path gain the node that is entered
      have henter (l : List α) (hl : ∀ x, x ∈ l ↔ x ∈ s.path) (x : α) :
          x ∈ l.insert node ↔ x ∈ s.path ++ [node] := by
        rw [List.mem_insert_iff, List.mem_append, List.mem_singleton, hl, or_comm]
      have hstack' : ∀ x, x ∈ (s.enter node).recStack ↔ x ∈ (s.enter node).path := henter _ hstack
      have hvisited' : ∀ x, x ∈ (s.enter node).visited ↔ x ∈ (s.enter node).path :=
        henter _ hvisited
      obtain ⟨hnext, hrest⟩ := hfirst
      obtain ⟨others, hsucc⟩ := firstEdge_iff.mp hnext
      rw [visit, hsucc, scan]
      cases rest with
      | nil =>
          rw [List.headD_nil, if_pos ((hstack' back).mpr hback)]
          exact ⟨s.enter node, rfl, rfl⟩
      | cons next rest =>
          have hpath : (s.enter node).path ++ next :: rest = s.path ++ node :: next :: rest := by
            show s.path ++ [node] ++ next :: rest = _
            rw [List.append_assoc, List.singleton_append]
          -- the nodes ahead are distinct from those on the path
          have hnew : next ∉ (s.enter node).path := by
            rw [← hpath] at hnodup
            intro hmem
            exact List.disjoint_of_nodup_append hnodup hmem List.mem_cons_self
          obtain ⟨s', hvisit, hs'⟩ := ih (s := s.enter node) (Nat.lt_of_succ_lt_succ hfuel) hrest
            (hpath ▸ hback) (hpath ▸ hnodup) hstack' hvisited'
          rw [List.headD_cons, if_neg fun hmem => hnew ((hstack' next).mp hmem),
            if_neg fun hmem => hnew ((hvisited' next).mp hmem), hvisit]
          exact ⟨s', rfl, hs'.trans hpath⟩

/-- **A lasso that follows first edges is found.** -/
theorem findCycle_of_follows {nodes rest : List α} {back : α}
    (hnodes : ∀ x ∈ start :: rest, x ∈ nodes)
    (hfirst : Follows (FirstEdge succ) (start :: rest) back) (hback : back ∈ start :: rest)
    (hnodup : (start :: rest).Nodup) : findCycle succ nodes start = start :: rest := by
  have hlength : rest.length < nodes.length + 1 := by
    have hle := (hnodup.subperm hnodes).length_le
    rw [List.length_cons] at hle
    omega
  obtain ⟨s', hvisit, hpath⟩ := visit_of_follows (s := Search.start) hlength hfirst hback hnodup
    (fun x => Iff.rfl) (fun x => Iff.rfl)
  rw [findCycle, hvisit]
  exact hpath

end CycleSearch
