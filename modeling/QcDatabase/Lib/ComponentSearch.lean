/-
# Breadth-first search for connected components

A finite graph is given by the list of its vertices and a Boolean relation.  `search` empties
a queue: it puts the first vertex into the component, and marks and queues those vertices next
to it that are not marked yet.  `componentsFrom` starts a search at every vertex that it finds
unmarked.

The rounds of a search are bounded by a fuel; more rounds than there are unmarked and queued
vertices change nothing (`search_add`).  In a symmetric graph the components are the classes
of the vertices that paths join (`isGrouping_componentsFrom`), and a list of such classes is
unique up to order (`IsGrouping.sameGrouping`).
-/
import Mathlib.Data.List.Nodup
import Mathlib.Data.List.Pairwise
import Mathlib.Data.Multiset.Defs
import Mathlib.Logic.Relation

open Relation

namespace ComponentSearch

variable {α : Type*}

/-! ## Groupings -/

/-- The lists are the classes of the vertices that the relation joins. -/
structure IsGrouping (vertices : List α) (joined : α → α → Prop) (groups : List (List α)) :
    Prop where
  perm : groups.flatten.Perm vertices
  ne_nil : ∀ g ∈ groups, g ≠ []
  together : ∀ a ∈ vertices, ∀ b ∈ vertices, (∃ g ∈ groups, a ∈ g ∧ b ∈ g) ↔ joined a b

/-- The same lists, up to the order of the lists and the order within each. -/
def SameGrouping (groups others : List (List α)) : Prop :=
  (groups.map Multiset.ofList).Perm (others.map Multiset.ofList)

section

variable {vertices others : List α} {joined joined' : α → α → Prop} {groups groups' : List (List α)}

theorem IsGrouping.congr (h : IsGrouping vertices joined groups)
    (hjoined : ∀ a ∈ vertices, ∀ b ∈ vertices, joined a b ↔ joined' a b) :
    IsGrouping vertices joined' groups :=
  ⟨h.perm, h.ne_nil, fun a ha b hb => (h.together a ha b hb).trans (hjoined a ha b hb)⟩

theorem IsGrouping.exists_mem (h : IsGrouping vertices joined groups) {a : α} (ha : a ∈ vertices) :
    ∃ g ∈ groups, a ∈ g :=
  List.mem_flatten.mp (h.perm.mem_iff.mpr ha)

theorem IsGrouping.mem_vertices (h : IsGrouping vertices joined groups) {g : List α}
    (hg : g ∈ groups) {a : α} (ha : a ∈ g) : a ∈ vertices :=
  h.perm.mem_iff.mp (List.mem_flatten.mpr ⟨g, hg, ha⟩)

/-- A grouping of other names for the vertices. -/
theorem IsGrouping.map {β : Type*} {f : α → β} {joined' : β → β → Prop}
    (h : IsGrouping vertices joined groups)
    (hf : ∀ a ∈ vertices, ∀ b ∈ vertices, f a = f b → a = b)
    (hjoined : ∀ a ∈ vertices, ∀ b ∈ vertices, joined a b ↔ joined' (f a) (f b)) :
    IsGrouping (vertices.map f) joined' (groups.map (List.map f)) := by
  have hmem : ∀ g ∈ groups, ∀ a ∈ vertices, f a ∈ g.map f ↔ a ∈ g := by
    intro g hg a ha
    refine ⟨fun hfa => ?_, List.mem_map_of_mem⟩
    obtain ⟨b, hb, heq⟩ := List.mem_map.mp hfa
    exact hf b (h.mem_vertices hg hb) a ha heq ▸ hb
  constructor
  · rw [← List.map_flatten]
    exact h.perm.map f
  · intro g' hg'
    obtain ⟨g, hg, rfl⟩ := List.mem_map.mp hg'
    exact fun hnil => h.ne_nil g hg (List.map_eq_nil_iff.mp hnil)
  · intro a' ha' b' hb'
    obtain ⟨a, ha, rfl⟩ := List.mem_map.mp ha'
    obtain ⟨b, hb, rfl⟩ := List.mem_map.mp hb'
    rw [← hjoined a ha b hb, ← h.together a ha b hb]
    constructor
    · rintro ⟨g', hg', hag, hbg⟩
      obtain ⟨g, hg, rfl⟩ := List.mem_map.mp hg'
      exact ⟨g, hg, (hmem g hg a ha).mp hag, (hmem g hg b hb).mp hbg⟩
    · rintro ⟨g, hg, hag, hbg⟩
      exact ⟨g.map f, List.mem_map_of_mem hg, List.mem_map_of_mem hag, List.mem_map_of_mem hbg⟩

/-- A list of the grouping holds the vertices that are joined to any member of it. -/
theorem IsGrouping.mem_iff (h : IsGrouping vertices joined groups) (hnodup : vertices.Nodup)
    {g : List α} (hg : g ∈ groups) {a b : α} (ha : a ∈ g) (hb : b ∈ vertices) :
    b ∈ g ↔ joined a b := by
  rw [← h.together a (h.mem_vertices hg ha) b hb]
  constructor
  · exact fun hbg => ⟨g, hg, ha, hbg⟩
  · rintro ⟨g', hg', ha', hb'⟩
    have hdisjoint := (List.nodup_flatten.mp (h.perm.nodup_iff.mpr hnodup)).2
    by_contra hbg
    have hne : g ≠ g' := by
      rintro rfl
      exact hbg hb'
    have hsymm : Std.Symm fun l l' : List α => l.Disjoint l' := ⟨fun _ _ hd _ ha hb => hd hb ha⟩
    exact hdisjoint.forall hg hg' hne ha ha'

theorem IsGrouping.nodup_of_mem (h : IsGrouping vertices joined groups) (hnodup : vertices.Nodup)
    {g : List α} (hg : g ∈ groups) : g.Nodup :=
  (List.nodup_flatten.mp (h.perm.nodup_iff.mpr hnodup)).1 g hg

/-- No two lists of a grouping have the same elements. -/
theorem IsGrouping.nodup_map_ofList (h : IsGrouping vertices joined groups)
    (hnodup : vertices.Nodup) : (groups.map Multiset.ofList).Nodup := by
  have hdisjoint := (List.nodup_flatten.mp (h.perm.nodup_iff.mpr hnodup)).2
  refine List.pairwise_map.mpr (hdisjoint.imp_of_mem ?_)
  intro g g' hg _ hd heq
  obtain ⟨a, ha⟩ := List.exists_mem_of_ne_nil g (h.ne_nil g hg)
  exact hd ha ((Multiset.coe_eq_coe.mp heq).mem_iff.mp ha)

theorem IsGrouping.ofList_mem (h : IsGrouping vertices joined groups)
    (h' : IsGrouping others joined' groups') (hperm : vertices.Perm others)
    (hnodup : vertices.Nodup) (hjoined : ∀ a ∈ vertices, ∀ b ∈ vertices, joined a b ↔ joined' a b)
    {g : List α} (hg : g ∈ groups) :
    Multiset.ofList g ∈ groups'.map Multiset.ofList := by
  obtain ⟨a, ha⟩ := List.exists_mem_of_ne_nil g (h.ne_nil g hg)
  have hav := h.mem_vertices hg ha
  obtain ⟨g', hg', ha'⟩ := h'.exists_mem (hperm.mem_iff.mp hav)
  have hnodup' := hperm.nodup_iff.mp hnodup
  have hg'nodup := h'.nodup_of_mem hnodup' hg'
  refine List.mem_map.mpr ⟨g', hg', Multiset.coe_eq_coe.mpr ?_⟩
  refine (List.perm_ext_iff_of_nodup hg'nodup (h.nodup_of_mem hnodup hg)).mpr ?_
  intro b
  constructor
  · intro hb
    have hbv := hperm.mem_iff.mpr (h'.mem_vertices hg' hb)
    rw [h.mem_iff hnodup hg ha hbv, hjoined a hav b hbv]
    exact (h'.mem_iff hnodup' hg' ha' (hperm.mem_iff.mp hbv)).mp hb
  · intro hb
    have hbv := h.mem_vertices hg hb
    rw [h'.mem_iff hnodup' hg' ha' (hperm.mem_iff.mp hbv), ← hjoined a hav b hbv]
    exact (h.mem_iff hnodup hg ha hbv).mp hb

/-- **A grouping of these vertices is determined up to order.** -/
theorem IsGrouping.sameGrouping (h : IsGrouping vertices joined groups)
    (h' : IsGrouping others joined' groups') (hperm : vertices.Perm others)
    (hnodup : vertices.Nodup) (hjoined : ∀ a ∈ vertices, ∀ b ∈ vertices, joined a b ↔ joined' a b) :
    SameGrouping groups groups' := by
  have hnodup' := hperm.nodup_iff.mp hnodup
  refine (List.perm_ext_iff_of_nodup (h.nodup_map_ofList hnodup)
    (h'.nodup_map_ofList hnodup')).mpr ?_
  intro s
  constructor
  · intro hs
    obtain ⟨g, hg, rfl⟩ := List.mem_map.mp hs
    exact h.ofList_mem h' hperm hnodup hjoined hg
  · intro hs
    obtain ⟨g, hg, rfl⟩ := List.mem_map.mp hs
    refine h'.ofList_mem h hperm.symm hnodup' ?_ hg
    intro a ha b hb
    exact (hjoined a (hperm.mem_iff.mpr ha) b (hperm.mem_iff.mpr hb)).symm

end

/-! ## What a search has found so far -/

/-- Both are vertices, and there is an edge from the first to the second. -/
def Edge (vertices : List α) (adj : α → α → Bool) (a b : α) : Prop :=
  a ∈ vertices ∧ b ∈ vertices ∧ adj a b = true

/-- The marked vertices have no edge to one that is not marked. -/
def Closed (vertices : List α) (adj : α → α → Bool) (visited : List α) : Prop :=
  ∀ a ∈ visited, ∀ b ∈ vertices, adj a b = true → b ∈ visited

/-- The state of a search from `start` that began with the vertices of `old` marked: what is
marked since is in the component or in the queue, and the neighbours of the component are
marked. -/
structure Searching (vertices : List α) (adj : α → α → Bool) (old : List α) (start : α)
    (visited queue component : List α) : Prop where
  perm : visited.Perm (old ++ (component ++ queue))
  nodup : visited.Nodup
  subset : visited ⊆ vertices
  started : start ∈ component ++ queue
  reached : ∀ v ∈ component ++ queue, ReflTransGen (Edge vertices adj) start v
  neighbours : ∀ v ∈ component, ∀ w ∈ vertices, adj v w = true → w ∈ visited

variable {vertices old visited queue component : List α} {adj : α → α → Bool}
  {start current a b : α}

theorem Searching.init (hnodup : old.Nodup) (hsubset : old ⊆ vertices) (hstart : start ∈ vertices)
    (hnew : start ∉ old) : Searching vertices adj old start (old ++ [start]) [start] [] where
  perm := List.Perm.refl _
  nodup := by
    rw [List.nodup_append]
    refine ⟨hnodup, List.nodup_singleton start, ?_⟩
    intro a ha b hb heq
    rw [heq, List.mem_singleton.mp hb] at ha
    exact hnew ha
  subset := List.append_subset.mpr ⟨hsubset, List.cons_subset.mpr ⟨hstart, List.nil_subset _⟩⟩
  started := List.mem_singleton_self start
  reached := by
    intro v hv
    rw [List.mem_singleton.mp hv]
  neighbours := by
    intro v hv
    cases hv

theorem Searching.mem_visited (h : Searching vertices adj old start visited queue component)
    (ha : a ∈ component ++ queue) : a ∈ visited :=
  h.perm.mem_iff.mpr (List.mem_append_right old ha)

/-- In the end the vertices that were marked are the component. -/
theorem Searching.perm_append (h : Searching vertices adj old start visited [] component) :
    visited.Perm (old ++ component) := by
  simpa using h.perm

theorem Searching.closed (hold : Closed vertices adj old)
    (h : Searching vertices adj old start visited [] component) : Closed vertices adj visited := by
  have hvisited := h.perm_append
  intro a ha b hb hadj
  rcases List.mem_append.mp (hvisited.mem_iff.mp ha) with ha | ha
  · exact hvisited.mem_iff.mpr (List.mem_append_left _ (hold a ha b hb hadj))
  · exact h.neighbours a ha b hb hadj

section

variable (hsymm : ∀ a ∈ vertices, ∀ b ∈ vertices, adj a b = true → adj b a = true)
include hsymm

theorem reflTransGen_edge_symm (h : ReflTransGen (Edge vertices adj) a b) :
    ReflTransGen (Edge vertices adj) b a :=
  have : Std.Symm (Edge vertices adj) :=
    ⟨fun _ _ hedge => ⟨hedge.2.1, hedge.1, hsymm _ hedge.1 _ hedge.2.1 hedge.2.2⟩⟩
  ReflTransGen.stdSymm.symm _ _ h

/-- A search that is over has collected the class of its start. -/
theorem Searching.mem_iff (hold : Closed vertices adj old)
    (h : Searching vertices adj old start visited [] component) :
    a ∈ component ↔ ReflTransGen (Edge vertices adj) start a := by
  have hvisited := h.perm_append
  have hdisjoint := (List.nodup_append.mp (hvisited.nodup_iff.mp h.nodup)).2.2
  constructor
  · exact fun ha => h.reached a (by simpa using ha)
  · intro hpath
    induction hpath with
    | refl => simpa using h.started
    | tail _ hedge ih =>
        obtain ⟨hv, hw, hadj⟩ := hedge
        have hmarked := hvisited.mem_iff.mp (h.neighbours _ ih _ hw hadj)
        rcases List.mem_append.mp hmarked with hbefore | hnow
        · -- a neighbour that was marked before would have marked this vertex
          exact absurd rfl (hdisjoint _ (hold _ hbefore _ hv (hsymm _ hv _ hw hadj)) _ ih)
        · exact hnow

end

/-! ## The search -/

variable [DecidableEq α]

/-- The vertices that are found from `current`. -/
def found (vertices : List α) (adj : α → α → Bool) (visited : List α) (current : α) : List α :=
  vertices.filter fun v => decide (v ∉ visited) && adj current v

/-- The component that is collected and the vertices that are marked in the end. -/
def search (vertices : List α) (adj : α → α → Bool) :
    ℕ → List α → List α → List α → List α × List α
  | 0, visited, _, component => (component, visited)
  | _ + 1, visited, [], component => (component, visited)
  | fuel + 1, visited, current :: queue, component =>
      let new := found vertices adj visited current
      search vertices adj fuel (visited ++ new) (queue ++ new) (component ++ [current])

/-- One component for each vertex of the first list that is not marked when its turn comes. -/
def componentsFrom (vertices : List α) (adj : α → α → Bool) (fuel : ℕ) :
    List α → List α → List (List α)
  | [], _ => []
  | v :: starts, visited =>
      if v ∉ visited then
        let (component, visited) := search vertices adj fuel (visited ++ [v]) [v] []
        component :: componentsFrom vertices adj fuel starts visited
      else componentsFrom vertices adj fuel starts visited

variable {fuel : ℕ}

theorem mem_found : a ∈ found vertices adj visited current ↔
    a ∈ vertices ∧ a ∉ visited ∧ adj current a = true := by
  rw [found, List.mem_filter, Bool.and_eq_true, decide_eq_true_iff]

/-- How many vertices are not marked. -/
def unvisited (vertices visited : List α) : ℕ := (vertices.filter (· ∉ visited)).length

/-- What is found is marked from then on. -/
theorem unvisited_append_found (vertices : List α) (adj : α → α → Bool) (visited : List α)
    (current : α) :
    unvisited vertices (visited ++ found vertices adj visited current)
      + (found vertices adj visited current).length = unvisited vertices visited := by
  have hfound : found vertices adj visited current
      = (vertices.filter (· ∉ visited)).filter (adj current) := by
    rw [List.filter_filter, found]
    exact List.filter_congr fun v _ => Bool.and_comm _ _
  have hrest : vertices.filter (· ∉ visited ++ found vertices adj visited current)
      = (vertices.filter (· ∉ visited)).filter fun v => !adj current v := by
    rw [List.filter_filter]
    refine List.filter_congr fun v hv => ?_
    rw [Bool.eq_iff_iff, decide_eq_true_iff, Bool.and_eq_true, decide_eq_true_iff,
      Bool.not_eq_true', List.mem_append, mem_found]
    cases adj current v <;> simp [hv]
  rw [unvisited, unvisited, hrest, hfound, Nat.add_comm]
  exact (List.length_eq_length_filter_add (adj current)).symm

/-- **The search ends**: more rounds than vertices that are not marked or wait in the queue
change nothing. -/
theorem search_add (h : unvisited vertices visited + queue.length ≤ fuel) (component : List α)
    (k : ℕ) : search vertices adj (fuel + k) visited queue component
      = search vertices adj fuel visited queue component := by
  induction fuel generalizing visited queue component with
  | zero =>
      obtain rfl : queue = [] := List.eq_nil_of_length_eq_zero (by omega)
      cases k <;> rfl
  | succ fuel ih =>
      rw [Nat.add_right_comm]
      rcases queue with _ | ⟨current, queue⟩
      · rfl
      · rw [search, search]
        refine ih ?_ _
        have hfound := unvisited_append_found vertices adj visited current
        rw [List.length_cons] at h
        rw [List.length_append]
        omega

theorem Searching.step (hvertices : vertices.Nodup)
    (h : Searching vertices adj old start visited (current :: queue) component) :
    Searching vertices adj old start (visited ++ found vertices adj visited current)
      (queue ++ found vertices adj visited current) (component ++ [current]) := by
  have hmoved : component ++ [current] ++ (queue ++ found vertices adj visited current)
      = component ++ current :: queue ++ found vertices adj visited current := by simp
  have hcurrent : current ∈ component ++ current :: queue :=
    List.mem_append_right component List.mem_cons_self
  constructor
  · rw [hmoved, ← List.append_assoc]
    exact h.perm.append_right _
  · rw [List.nodup_append]
    refine ⟨h.nodup, hvertices.filter _, ?_⟩
    rintro a ha b hb rfl
    exact (mem_found.mp hb).2.1 ha
  · exact List.append_subset.mpr ⟨h.subset, fun a ha => (mem_found.mp ha).1⟩
  · rw [hmoved]
    exact List.mem_append_left _ h.started
  · intro v hv
    rw [hmoved] at hv
    rcases List.mem_append.mp hv with hv | hv
    · exact h.reached v hv
    · have hedge : Edge vertices adj current v :=
        ⟨h.subset (h.mem_visited hcurrent), (mem_found.mp hv).1, (mem_found.mp hv).2.2⟩
      exact (h.reached current hcurrent).tail hedge
  · intro v hv w hw hadj
    by_cases hvisited : w ∈ visited
    · exact List.mem_append_left _ hvisited
    · rcases List.mem_append.mp hv with hv | hv
      · exact absurd (h.neighbours v hv w hw hadj) hvisited
      · rw [List.mem_singleton.mp hv] at hadj
        exact List.mem_append_right _ (mem_found.mpr ⟨hw, hvisited, hadj⟩)

/-- The queue is empty in the end. -/
theorem Searching.search (hvertices : vertices.Nodup)
    (h : Searching vertices adj old start visited queue component)
    (hfuel : vertices.length ≤ fuel + (old.length + component.length)) :
    Searching vertices adj old start (search vertices adj fuel visited queue component).2 []
      (search vertices adj fuel visited queue component).1 := by
  induction fuel generalizing visited queue component with
  | zero =>
      -- there are no more marked vertices than vertices
      have hcount : visited.length ≤ vertices.length := (h.nodup.subperm h.subset).length_le
      rw [h.perm.length_eq, List.length_append, List.length_append] at hcount
      obtain rfl : queue = [] := List.eq_nil_of_length_eq_zero (by omega)
      exact h
  | succ fuel ih =>
      rcases queue with _ | ⟨current, queue⟩
      · exact h
      · refine ih (h.step hvertices) ?_
        rw [List.length_append, List.length_singleton]
        omega

/-! ## Components -/

/-- What the outer loop adds where the vertices of `visited` are marked. -/
structure Collected (vertices : List α) (adj : α → α → Bool) (starts visited : List α)
    (groups : List (List α)) : Prop where
  nodup : (visited ++ groups.flatten).Nodup
  subset : groups.flatten ⊆ vertices
  starts : starts ⊆ visited ++ groups.flatten
  classes : ∀ g ∈ groups, ∃ start ∈ vertices,
    ∀ v, v ∈ g ↔ ReflTransGen (Edge vertices adj) start v

section

variable (hsymm : ∀ a ∈ vertices, ∀ b ∈ vertices, adj a b = true → adj b a = true)
include hsymm

omit [DecidableEq α] in
/-- A search that is over collects the class of its start, and the rest is collected after it. -/
theorem Collected.cons {starts visited' : List α} {groups : List (List α)}
    (hstart : start ∈ vertices) (hclosed : Closed vertices adj visited)
    (hsearch : Searching vertices adj visited start visited' [] component)
    (h : Collected vertices adj starts visited' groups) :
    Collected vertices adj (start :: starts) visited (component :: groups) := by
  have happend : (visited' ++ groups.flatten).Perm (visited ++ (component ++ groups.flatten)) := by
    rw [← List.append_assoc]
    exact hsearch.perm_append.append_right _
  constructor
  · exact happend.nodup_iff.mp h.nodup
  · refine List.append_subset.mpr ⟨fun a ha => hsearch.subset ?_, h.subset⟩
    exact hsearch.perm_append.mem_iff.mpr (List.mem_append_right _ ha)
  · refine List.cons_subset.mpr ⟨?_, fun a ha => happend.mem_iff.mp (h.starts ha)⟩
    refine List.mem_append_right _ (List.mem_append_left _ ?_)
    simpa using hsearch.started
  · intro g hg
    rcases List.mem_cons.mp hg with rfl | hg
    · exact ⟨start, hstart, fun v => hsearch.mem_iff hsymm hclosed⟩
    · exact h.classes g hg

theorem collected_componentsFrom (hvertices : vertices.Nodup) (hfuel : vertices.length ≤ fuel)
    {starts : List α} (hstarts : starts ⊆ vertices) (hnodup : visited.Nodup)
    (hsubset : visited ⊆ vertices) (hclosed : Closed vertices adj visited) :
    Collected vertices adj starts visited (componentsFrom vertices adj fuel starts visited) := by
  induction starts generalizing visited with
  | nil =>
      refine ⟨?_, List.nil_subset _, List.nil_subset _, fun g hg => by cases hg⟩
      rwa [componentsFrom, List.flatten_nil, List.append_nil]
  | cons start starts ih =>
      obtain ⟨hstart, hstarts⟩ := List.cons_subset.mp hstarts
      rw [componentsFrom]
      by_cases hnew : start ∈ visited
      · rw [if_neg (not_not.mpr hnew)]
        have h := ih hstarts hnodup hsubset hclosed
        exact ⟨h.nodup, h.subset,
          List.cons_subset.mpr ⟨List.mem_append_left _ hnew, h.starts⟩, h.classes⟩
      · rw [if_pos hnew]
        have hinit : Searching vertices adj visited start (visited ++ [start]) [start] [] :=
          Searching.init hnodup hsubset hstart hnew
        have hsearch := hinit.search hvertices (Nat.le_add_right_of_le hfuel)
        exact (ih hstarts hsearch.nodup hsearch.subset (hsearch.closed hclosed)).cons hsymm hstart
          hclosed hsearch

/-- **The search of a symmetric graph groups the vertices that paths join.** -/
theorem isGrouping_componentsFrom (hvertices : vertices.Nodup) (hfuel : vertices.length ≤ fuel) :
    IsGrouping vertices (ReflTransGen (Edge vertices adj))
      (componentsFrom vertices adj fuel vertices []) := by
  obtain ⟨hnodup, hsubset, hstarts, hclasses⟩ := collected_componentsFrom hsymm hvertices hfuel
    (List.Subset.refl vertices) List.nodup_nil (List.nil_subset _) (fun a ha => by cases ha)
  rw [List.nil_append] at hnodup hstarts
  constructor
  · exact (List.perm_ext_iff_of_nodup hnodup hvertices).mpr fun a => ⟨@hsubset a, @hstarts a⟩
  · rintro g hg rfl
    obtain ⟨start, -, hmem⟩ := hclasses [] hg
    exact List.not_mem_nil ((hmem start).mpr ReflTransGen.refl)
  · intro a ha b hb
    constructor
    · rintro ⟨g, hg, hag, hbg⟩
      obtain ⟨start, -, hmem⟩ := hclasses g hg
      exact (reflTransGen_edge_symm hsymm ((hmem a).mp hag)).trans ((hmem b).mp hbg)
    · intro hpath
      obtain ⟨g, hg, hag⟩ := List.mem_flatten.mp (hstarts ha)
      obtain ⟨start, -, hmem⟩ := hclasses g hg
      exact ⟨g, hg, hag, (hmem b).mpr (((hmem a).mp hag).trans hpath)⟩

end

end ComponentSearch
