/-
# Depth-first search for a cycle

The recursive search that keeps the nodes it has `visited`, the nodes on the
recursion stack and the path from the start: a neighbour on the stack closes a
cycle, a visited one is skipped, any other one is searched in turn.

A graph is given by the list of successors of each node.  Recursion is bounded
by a fuel, one unit for each level; `visit_isSome` says that as many units as
there are nodes are enough.  `findCycle_ne_nil_iff` is the result: a cycle is
found exactly when one can be reached from the start.
-/
import Mathlib.Data.Finset.Card
import Mathlib.Logic.Relation

open Relation

namespace CycleSearch

/-! ## The search -/

/-- The variables of a search. -/
structure Search (α : Type*) where
  visited : List α
  recStack : List α
  path : List α

variable {α : Type*}

/-- The search before its first node. -/
def Search.start : Search α := ⟨[], [], []⟩

/-- There is an edge from the first node to the second. -/
def Edge (succ : α → List α) (x y : α) : Prop := y ∈ succ x

/-- A search that found nothing has only visited more nodes. -/
structure Search.Extends (s s' : Search α) : Prop where
  recStack : s'.recStack = s.recStack
  path : s'.path = s.path
  visited : s.visited ⊆ s'.visited

theorem Search.Extends.refl (s : Search α) : s.Extends s := ⟨rfl, rfl, fun _ h => h⟩

theorem Search.Extends.trans {s₁ s₂ s₃ : Search α} (h₁ : s₁.Extends s₂) (h₂ : s₂.Extends s₃) :
    s₁.Extends s₃ :=
  ⟨h₂.recStack.trans h₁.recStack, h₂.path.trans h₁.path, fun _ hx => h₂.visited (h₁.visited hx)⟩

variable [DecidableEq α]

/-- Put a node on the stack. -/
def Search.enter (s : Search α) (node : α) : Search α :=
  ⟨s.visited.insert node, s.recStack.insert node, s.path ++ [node]⟩

/-- Take a node off the stack. -/
def Search.leave (s : Search α) (node : α) : Search α :=
  ⟨s.visited, s.recStack.erase node, s.path.dropLast⟩

/-- The loop over the neighbours of a node; `visit` searches one of them. -/
def scan (visit : α → Search α → Option (Bool × Search α)) (s : Search α) :
    List α → Option (Bool × Search α)
  | [] => some (false, s)
  | n :: ns =>
      if n ∈ s.recStack then some (true, s)
      else if n ∈ s.visited then scan visit s ns
      else
        match visit n s with
        | some (false, s') => scan visit s' ns
        | result => result

/-- The search from a node; `none` when the fuel runs out. -/
def visit (succ : α → List α) : ℕ → α → Search α → Option (Bool × Search α)
  | 0, _, _ => none
  | fuel + 1, node, s =>
      match scan (visit succ fuel) (s.enter node) (succ node) with
      | some (false, s') => some (false, s'.leave node)
      | result => result

/-- The path on which a cycle was found from `start`, or the empty list. -/
def findCycle (succ : α → List α) (nodes : List α) (start : α) : List α :=
  match visit succ (nodes.length + 1) start Search.start with
  | some (true, s) => s.path
  | _ => []

variable {succ : α → List α} {fuel : ℕ} {node : α} {s s' : Search α}

/-! ## The cases of a search -/

/-- Undoing the entry of a node after a search that found nothing. -/
theorem Search.Extends.leave (hnode : node ∉ s.recStack)
    (h : (s.enter node).Extends s') : s.Extends (s'.leave node) := by
  refine ⟨?_, ?_, ?_⟩
  · show s'.recStack.erase node = s.recStack
    rw [h.recStack]
    show (s.recStack.insert node).erase node = s.recStack
    rw [List.insert_of_not_mem hnode, List.erase_cons_head]
  · show s'.path.dropLast = s.path
    rw [h.path]
    exact List.dropLast_concat
  · intro x hx
    exact h.visited (List.mem_insert_of_mem hx)

theorem scan_cons_false {v : α → Search α → Option (Bool × Search α)} {n : α} {ns : List α}
    (h : scan v s (n :: ns) = some (false, s')) :
    n ∉ s.recStack ∧
      (n ∈ s.visited ∧ scan v s ns = some (false, s') ∨
        ∃ s₁, v n s = some (false, s₁) ∧ n ∉ s.visited ∧ scan v s₁ ns = some (false, s')) := by
  rw [scan] at h
  split_ifs at h with hstack hvisited
  · cases h
  · exact ⟨hstack, Or.inl ⟨hvisited, h⟩⟩
  · rcases hn : v n s with _ | ⟨_ | _, s₁⟩
    · rw [hn] at h
      cases h
    · rw [hn] at h
      exact ⟨hstack, Or.inr ⟨s₁, rfl, hvisited, h⟩⟩
    · rw [hn] at h
      cases h

theorem scan_cons_true {v : α → Search α → Option (Bool × Search α)} {n : α} {ns : List α}
    (h : scan v s (n :: ns) = some (true, s')) :
    n ∈ s.recStack ∧ s' = s ∨
      scan v s ns = some (true, s') ∨
      n ∉ s.recStack ∧ v n s = some (true, s') ∨
      n ∉ s.recStack ∧ ∃ s₁, v n s = some (false, s₁) ∧ scan v s₁ ns = some (true, s') := by
  rw [scan] at h
  split_ifs at h with hstack hvisited
  · cases h
    exact Or.inl ⟨hstack, rfl⟩
  · exact Or.inr (Or.inl h)
  · rcases hn : v n s with _ | ⟨_ | _, s₁⟩
    · rw [hn] at h
      cases h
    · rw [hn] at h
      exact Or.inr (Or.inr (Or.inr ⟨hstack, s₁, rfl, h⟩))
    · rw [hn] at h
      exact Or.inr (Or.inr (Or.inl ⟨hstack, h⟩))

theorem visit_false (h : visit succ (fuel + 1) node s = some (false, s')) :
    ∃ s₁, scan (visit succ fuel) (s.enter node) (succ node) = some (false, s₁) ∧
      s' = s₁.leave node := by
  rw [visit] at h
  rcases hscan : scan (visit succ fuel) (s.enter node) (succ node) with _ | ⟨_ | _, s₁⟩
  · rw [hscan] at h
    cases h
  · rw [hscan] at h
    cases h
    exact ⟨s₁, rfl, rfl⟩
  · rw [hscan] at h
    cases h

theorem visit_true (h : visit succ (fuel + 1) node s = some (true, s')) :
    scan (visit succ fuel) (s.enter node) (succ node) = some (true, s') := by
  rw [visit] at h
  rcases hscan : scan (visit succ fuel) (s.enter node) (succ node) with _ | ⟨_ | _, s₁⟩
  · rw [hscan] at h
    cases h
  · rw [hscan] at h
    cases h
  · rw [hscan] at h
    exact h

/-! ## A search that finds nothing -/

theorem scan_extends {v : α → Search α → Option (Bool × Search α)}
    (hv : ∀ n s s', n ∉ s.recStack → v n s = some (false, s') → s.Extends s') {ns : List α}
    (h : scan v s ns = some (false, s')) : s.Extends s' := by
  induction ns generalizing s with
  | nil =>
      cases h
      exact Search.Extends.refl _
  | cons n ns ih =>
      obtain ⟨hstack, ⟨-, hrest⟩ | ⟨s₁, hn, -, hrest⟩⟩ := scan_cons_false h
      · exact ih hrest
      · exact (hv n s s₁ hstack hn).trans (ih hrest)

theorem visit_extends (hstack : node ∉ s.recStack)
    (h : visit succ fuel node s = some (false, s')) : s.Extends s' := by
  induction fuel generalizing node s s' with
  | zero => cases h
  | succ fuel ih =>
      obtain ⟨s₁, hscan, rfl⟩ := visit_false h
      exact Search.Extends.leave hstack (scan_extends (fun n s s' => ih) hscan)

/-- Every node that was left has only finite paths out of it. -/
structure Settled (succ : α → List α) (s : Search α) : Prop where
  onStack : s.recStack ⊆ s.visited
  acc : ∀ x ∈ s.visited, x ∉ s.recStack → Acc (fun y x => Edge succ x y) x

theorem Settled.enter (h : Settled succ s) (node : α) : Settled succ (s.enter node) := by
  constructor
  · intro x hx
    rcases List.mem_insert_iff.mp hx with rfl | hx
    · exact List.mem_insert_self
    · exact List.mem_insert_of_mem (h.onStack hx)
  · intro x hx hstack
    have hne : x ≠ node := fun he => hstack (he ▸ List.mem_insert_self)
    have hold : x ∉ s.recStack := fun hx => hstack (List.mem_insert_of_mem hx)
    exact h.acc x ((List.mem_insert_iff.mp hx).resolve_left hne) hold

/-- The loop over the neighbours: each of them has been left when it ends. -/
theorem scan_settled
    (hv : ∀ n s s', n ∉ s.recStack → Settled succ s → visit succ fuel n s = some (false, s') →
      Settled succ s' ∧ n ∈ s'.visited) {ns : List α} (hs : Settled succ s)
    (h : scan (visit succ fuel) s ns = some (false, s')) :
    Settled succ s' ∧ ∀ n ∈ ns, n ∈ s'.visited ∧ n ∉ s'.recStack := by
  have hextends {n : α} {s s' : Search α} (hstack : n ∉ s.recStack)
      (h : visit succ fuel n s = some (false, s')) : s.Extends s' := visit_extends hstack h
  induction ns generalizing s with
  | nil =>
      cases h
      exact ⟨hs, fun n hn => absurd hn List.not_mem_nil⟩
  | cons n ns ih =>
      -- after `n` the loop goes on in `s₁`, where `n` is visited and off the stack
      obtain ⟨s₁, hs₁, hvisited, hstack, hrest⟩ : ∃ s₁, Settled succ s₁ ∧ n ∈ s₁.visited ∧
          n ∉ s₁.recStack ∧ scan (visit succ fuel) s₁ ns = some (false, s') := by
        obtain ⟨hstack, ⟨hvisited, hrest⟩ | ⟨s₁, hn, -, hrest⟩⟩ := scan_cons_false h
        · exact ⟨s, hs, hvisited, hstack, hrest⟩
        · obtain ⟨hs₁, hvisited⟩ := hv n s s₁ hstack hs hn
          refine ⟨s₁, hs₁, hvisited, ?_, hrest⟩
          rw [(hextends hstack hn).recStack]
          exact hstack
      obtain ⟨hs', hns⟩ := ih hs₁ hrest
      have hext := scan_extends (fun _ _ _ => hextends) hrest
      refine ⟨hs', ?_⟩
      intro m hm
      rcases List.mem_cons.mp hm with rfl | hm
      · rw [hext.recStack]
        exact ⟨hext.visited hvisited, hstack⟩
      · exact hns m hm

/-- A search that finds nothing settles its node. -/
theorem visit_settled (hstack : node ∉ s.recStack) (hs : Settled succ s)
    (h : visit succ fuel node s = some (false, s')) : Settled succ s' ∧ node ∈ s'.visited := by
  induction fuel generalizing node s s' with
  | zero => cases h
  | succ fuel ih =>
      obtain ⟨s₁, hscan, rfl⟩ := visit_false h
      obtain ⟨hs₁, hnext⟩ := scan_settled (fun n s s' => ih) (hs.enter node) hscan
      have hext := scan_extends (fun n s s' => visit_extends) hscan
      have hvisited : node ∈ s₁.visited := hext.visited List.mem_insert_self
      have hback : (s₁.leave node).recStack = s.recStack := (Search.Extends.leave hstack hext).recStack
      refine ⟨⟨?_, ?_⟩, hvisited⟩
      · rw [hback]
        intro x hx
        exact hext.visited (List.mem_insert_of_mem (hs.onStack hx))
      · intro x hx hoff
        rw [hback] at hoff
        by_cases hne : x = node
        · -- all neighbours of the node are settled, so the node is
          subst hne
          exact Acc.intro x fun y hy => hs₁.acc y (hnext y hy).1 (hnext y hy).2
        · apply hs₁.acc x hx
          rw [hext.recStack]
          intro hmem
          exact (List.mem_insert_iff.mp hmem).elim hne hoff

/-! ## A search that finds a cycle -/

/-- A cycle can be reached from the node. -/
def ReachesCycle (succ : α → List α) (node : α) : Prop :=
  ∃ x, ReflTransGen (Edge succ) node x ∧ TransGen (Edge succ) x x

omit [DecidableEq α] in
theorem ReachesCycle.head {x y : α} (hedge : Edge succ x y) (h : ReachesCycle succ y) :
    ReachesCycle succ x := by
  obtain ⟨z, hreach, hcycle⟩ := h
  exact ⟨z, ReflTransGen.head hedge hreach, hcycle⟩

theorem scan_reachesCycle
    (hv : ∀ n s s', (∀ x ∈ s.recStack, ReflTransGen (Edge succ) x n) →
      visit succ fuel n s = some (true, s') → ReachesCycle succ n) {ns : List α}
    (hns : ∀ n ∈ ns, Edge succ node n)
    (hstack : ∀ x ∈ s.recStack, ReflTransGen (Edge succ) x node)
    (h : scan (visit succ fuel) s ns = some (true, s')) : ReachesCycle succ node := by
  induction ns generalizing s with
  | nil => cases h
  | cons n ns ih =>
      have hn : Edge succ node n := hns n List.mem_cons_self
      have hrest : ∀ m ∈ ns, Edge succ node m := fun m hm => hns m (List.mem_cons_of_mem n hm)
      rcases scan_cons_true h with ⟨hmem, -⟩ | h | ⟨-, h⟩ | ⟨hoff, s₁, hfalse, h⟩
      · exact ⟨node, ReflTransGen.refl, TransGen.head' hn (hstack n hmem)⟩
      · exact ih hrest hstack h
      · exact ReachesCycle.head hn (hv n s s' (fun x hx => (hstack x hx).tail hn) h)
      · apply ih hrest _ h
        rw [(visit_extends hoff hfalse).recStack]
        exact hstack

theorem visit_reachesCycle (hstack : ∀ x ∈ s.recStack, ReflTransGen (Edge succ) x node)
    (h : visit succ fuel node s = some (true, s')) : ReachesCycle succ node := by
  induction fuel generalizing node s s' with
  | zero => cases h
  | succ fuel ih =>
      apply scan_reachesCycle (fun n s s' => ih) (fun n hn => hn) _ (visit_true h)
      intro x hx
      rcases List.mem_insert_iff.mp hx with rfl | hx
      · exact ReflTransGen.refl
      · exact hstack x hx

theorem scan_path (hv : ∀ n s s', visit succ fuel n s = some (true, s') →
      s.path ++ [n] <+: s'.path) {ns : List α}
    (h : scan (visit succ fuel) s ns = some (true, s')) : s.path <+: s'.path := by
  induction ns generalizing s with
  | nil => cases h
  | cons n ns ih =>
      rcases scan_cons_true h with ⟨-, rfl⟩ | h | ⟨-, h⟩ | ⟨hoff, s₁, hfalse, h⟩
      · exact List.prefix_refl s'.path
      · exact ih h
      · exact (List.prefix_append s.path [n]).trans (hv n s s' h)
      · rw [← (visit_extends hoff hfalse).path]
        exact ih h

/-- The path of a search that found a cycle starts on the way to its node. -/
theorem visit_path (h : visit succ fuel node s = some (true, s')) :
    s.path ++ [node] <+: s'.path := by
  induction fuel generalizing node s s' with
  | zero => cases h
  | succ fuel ih => exact scan_path (fun n s s' => ih) (visit_true h)

/-! ## Enough fuel -/

/-- The nodes still to visit. -/
def unvisited (nodes : Finset α) (s : Search α) : Finset α := nodes.filter (· ∉ s.visited)

theorem card_unvisited_enter {nodes : Finset α} (hnode : node ∈ nodes) (hnew : node ∉ s.visited) :
    (unvisited nodes (s.enter node)).card < (unvisited nodes s).card := by
  apply Finset.card_lt_card
  refine Finset.ssubset_iff_subset_ne.mpr ⟨?_, ?_⟩
  · intro x hx
    obtain ⟨hx, hold⟩ := Finset.mem_filter.mp hx
    exact Finset.mem_filter.mpr ⟨hx, fun hv => hold (List.mem_insert_of_mem hv)⟩
  · intro heq
    have hin : node ∈ unvisited nodes s := Finset.mem_filter.mpr ⟨hnode, hnew⟩
    rw [← heq] at hin
    exact (Finset.mem_filter.mp hin).2 List.mem_insert_self

theorem Search.Extends.card_unvisited {nodes : Finset α} (h : s.Extends s') :
    (unvisited nodes s').card ≤ (unvisited nodes s).card := by
  apply Finset.card_le_card
  intro x hx
  obtain ⟨hx, hnew⟩ := Finset.mem_filter.mp hx
  exact Finset.mem_filter.mpr ⟨hx, fun hold => hnew (h.visited hold)⟩

theorem scan_isSome {nodes : Finset α}
    (hv : ∀ n s, n ∈ nodes → n ∉ s.visited → (unvisited nodes s).card < fuel →
      (visit succ fuel n s).isSome) {ns : List α} (hns : ∀ n ∈ ns, n ∈ nodes)
    (hfuel : (unvisited nodes s).card < fuel) : (scan (visit succ fuel) s ns).isSome := by
  induction ns generalizing s with
  | nil => rfl
  | cons n ns ih =>
      have hrest : ∀ m ∈ ns, m ∈ nodes := fun m hm => hns m (List.mem_cons_of_mem n hm)
      rw [scan]
      split_ifs with hstack hvisited
      · rfl
      · exact ih hrest hfuel
      · have hsome := hv n s (hns n List.mem_cons_self) hvisited hfuel
        rcases hn : visit succ fuel n s with _ | ⟨_ | _, s₁⟩
        · rw [hn] at hsome
          cases hsome
        · exact ih hrest (lt_of_le_of_lt (visit_extends hstack hn).card_unvisited hfuel)
        · rfl

/-- The recursion is never deeper than there are nodes to visit. -/
theorem visit_isSome {nodes : Finset α} (hclosed : ∀ x ∈ nodes, ∀ y ∈ succ x, y ∈ nodes)
    (hnode : node ∈ nodes) (hnew : node ∉ s.visited) (hfuel : (unvisited nodes s).card < fuel) :
    (visit succ fuel node s).isSome := by
  induction fuel generalizing node s with
  | zero => omega
  | succ fuel ih =>
      have hless := card_unvisited_enter hnode hnew
      have hscan : (scan (visit succ fuel) (s.enter node) (succ node)).isSome :=
        scan_isSome (fun n s => ih) (hclosed node hnode) (by omega)
      rw [visit]
      rcases hres : scan (visit succ fuel) (s.enter node) (succ node) with _ | ⟨_ | _, s₁⟩
      · rw [hres] at hscan
        cases hscan
      · rfl
      · rfl

/-! ## What the search finds -/

omit [DecidableEq α] in
/-- A node with only finite paths out of it reaches no cycle. -/
theorem not_reachesCycle_of_acc {x : α} (hacc : Acc (fun y x => Edge succ x y) x) :
    ¬ ReachesCycle succ x := by
  induction hacc with
  | intro x _ ih =>
      rintro ⟨z, hreach, hcycle⟩
      rcases ReflTransGen.cases_head hreach with rfl | ⟨y, hedge, hreach⟩
      · obtain ⟨y, hedge, hback⟩ := TransGen.head'_iff.mp hcycle
        exact ih y hedge ⟨y, ReflTransGen.refl, TransGen.tail' hback hedge⟩
      · exact ih y hedge ⟨z, hreach, hcycle⟩

/-- As many levels as nodes are enough for a whole search. -/
theorem visit_start_isSome {nodes : List α} {start : α}
    (hclosed : ∀ x ∈ nodes, ∀ y ∈ succ x, y ∈ nodes) (hstart : start ∈ nodes) :
    (visit succ (nodes.length + 1) start Search.start).isSome := by
  have hfuel : (unvisited nodes.toFinset Search.start).card < nodes.length + 1 := by
    have hfilter : (unvisited nodes.toFinset Search.start).card ≤ nodes.toFinset.card :=
      Finset.card_filter_le _ _
    have hlength := List.toFinset_card_le nodes
    omega
  have hclosed' : ∀ x ∈ nodes.toFinset, ∀ y ∈ succ x, y ∈ nodes.toFinset := by
    intro x hx y hy
    exact List.mem_toFinset.mpr (hclosed x (List.mem_toFinset.mp hx) y hy)
  exact visit_isSome hclosed' (List.mem_toFinset.mpr hstart) List.not_mem_nil hfuel

theorem scan_mono {v v' : α → Search α → Option (Bool × Search α)} {r : Bool × Search α}
    (hv : ∀ n s r, v n s = some r → v' n s = some r) {ns : List α} (h : scan v s ns = some r) :
    scan v' s ns = some r := by
  induction ns generalizing s with
  | nil => exact h
  | cons n ns ih =>
      rw [scan] at h ⊢
      split_ifs at h ⊢ with hstack hvisited
      · exact h
      · exact ih h
      · rcases hn : v n s with _ | ⟨_ | _, s₁⟩
        · rw [hn] at h
          cases h
        · rw [hn] at h
          rw [hv n s _ hn]
          exact ih h
        · rw [hn] at h
          rw [hv n s _ hn]
          exact h

/-- More levels do not change what a search comes to. -/
theorem visit_add {r : Bool × Search α} (h : visit succ fuel node s = some r) (k : ℕ) :
    visit succ (fuel + k) node s = some r := by
  induction fuel generalizing node s r with
  | zero => cases h
  | succ fuel ih =>
      rw [Nat.add_right_comm]
      rw [visit] at h ⊢
      rcases hscan : scan (visit succ fuel) (s.enter node) (succ node) with _ | ⟨_ | _, s₁⟩
      · rw [hscan] at h
        cases h
      · rw [hscan] at h
        rw [scan_mono (fun _ _ _ => ih) hscan]
        exact h
      · rw [hscan] at h
        rw [scan_mono (fun _ _ _ => ih) hscan]
        exact h

/-- **A cycle is found exactly when one can be reached from the start.** -/
theorem findCycle_ne_nil_iff {nodes : List α} {start : α}
    (hclosed : ∀ x ∈ nodes, ∀ y ∈ succ x, y ∈ nodes) (hstart : start ∈ nodes) :
    findCycle succ nodes start ≠ [] ↔ ReachesCycle succ start := by
  have hoff : start ∉ (Search.start : Search α).recStack := List.not_mem_nil
  have hsome := visit_start_isSome hclosed hstart
  rw [findCycle]
  rcases hvisit : visit succ (nodes.length + 1) start Search.start with _ | ⟨_ | _, s⟩
  · rw [hvisit] at hsome
    cases hsome
  · have hempty : Settled succ Search.start :=
      ⟨fun x hx => hx, fun x hx => absurd hx List.not_mem_nil⟩
    obtain ⟨hsettled, hmem⟩ := visit_settled hoff hempty hvisit
    have hacc := hsettled.acc start hmem ((visit_extends hoff hvisit).recStack ▸ hoff)
    exact iff_of_false (fun h => h rfl) (not_reachesCycle_of_acc hacc)
  · have hpath := visit_path hvisit
    refine iff_of_true ?_ (visit_reachesCycle (fun x hx => absurd hx List.not_mem_nil) hvisit)
    intro hnil
    rw [show s.path = [] from hnil] at hpath
    exact absurd (List.prefix_nil.mp hpath) (by simp)

end CycleSearch
