/-
# Acyclic relations and precedence graphs

A relation is acyclic when nothing is related to itself through one or more
steps.  Two ways of adding edges are followed: edges out of one point, which
can only close a cycle through that point (`transGen_of_edges_from`), and edges
into a point without edges out of it, which close none
(`Acyclic.of_edges_into_sink`).  Among finitely many points there is one without
edges to the others (`Acyclic.exists_sink`).

The precedence graph of a log of items, each with an owner, has an edge from an
owner to another one when an item of the first comes before a conflicting item
of the second.  `acyclic_precedes_concat` is the step of every argument that
locking until the end makes logs serializable: an owner that precedes somebody
writes no more.
-/
import Mathlib.Logic.Relation
import Mathlib.Data.Fintype.Card
import Mathlib.Data.List.Basic
import Mathlib.Data.Set.Finite.Basic
import Mathlib.Order.WellFounded

open Relation

/-! ## Adding edges to an acyclic relation -/

section

variable {τ : Type*}

/-- No path of one or more steps comes back to where it started. -/
def Acyclic (R : τ → τ → Prop) : Prop := ∀ t, ¬ TransGen R t t

variable {R S : τ → τ → Prop}

theorem Acyclic.mono (hle : ∀ x y, R x y → S x y) (hS : Acyclic S) : Acyclic R :=
  fun t hcycle => hS t (TransGen.mono hle t t hcycle)

/-- Adding edges out of `t` closes cycles through `t` only. -/
theorem transGen_of_edges_from {t : τ} (hnew : ∀ x y, S x y → R x y ∨ x = t) (hR : Acyclic R) {x : τ} (hcycle : TransGen S x x) :
    TransGen S t t := by
  have hpath : ∀ y, TransGen S x y → TransGen R x y ∨ ReflTransGen S x t ∧ TransGen S t y := by
    intro y hxy
    induction hxy with
    | single hedge =>
        rcases hnew _ _ hedge with hold | rfl
        · exact Or.inl (TransGen.single hold)
        · exact Or.inr ⟨ReflTransGen.refl, TransGen.single hedge⟩
    | tail hxb hedge ih =>
        rcases ih with hold | ⟨hxt, htb⟩
        · rcases hnew _ _ hedge with hlast | rfl
          · exact Or.inl (hold.tail hlast)
          · exact Or.inr ⟨hxb.to_reflTransGen, TransGen.single hedge⟩
        · exact Or.inr ⟨hxt, htb.tail hedge⟩
  rcases hpath x hcycle with hold | ⟨hxt, htx⟩
  · exact absurd hold (hR x)
  · exact htx.trans_left hxt

/-- A cycle that the edge from `t` to `u` closes comes back from `u` to `t`. -/
theorem reflTransGen_of_edge {t u : τ} (hnew : ∀ x y, S x y → R x y ∨ x = t ∧ y = u)
    (hR : Acyclic R) (hcycle : TransGen S t t) : ReflTransGen R u t := by
  have hpath : ∀ y, TransGen S t y → TransGen R t y ∨ ReflTransGen R u y := by
    intro y hty
    induction hty with
    | single hedge =>
        rcases hnew _ _ hedge with hold | ⟨-, rfl⟩
        · exact Or.inl (TransGen.single hold)
        · exact Or.inr ReflTransGen.refl
    | tail _ hedge ih =>
        rcases hnew _ _ hedge with hlast | ⟨-, rfl⟩
        · exact ih.imp (fun hpath => hpath.tail hlast) (fun hpath => hpath.tail hlast)
        · exact Or.inr ReflTransGen.refl
  exact (hpath t hcycle).resolve_left (hR t)

/-- Finitely many points cannot all have edges to each other. -/
theorem Acyclic.exists_sink (h : Acyclic R) {points : Set τ} (hfinite : points.Finite)
    (hne : points.Nonempty) : ∃ x ∈ points, ∀ y ∈ points, ¬ R x y := by
  have hfin : Finite points := hfinite
  let behind : points → points → Prop := fun a b => TransGen R b a
  have htrans : IsTrans points behind := ⟨fun a b c hab hbc => hbc.trans hab⟩
  have hirrefl : Std.Irrefl behind := ⟨fun a => h a⟩
  have hwf := Finite.wellFounded_of_trans_of_irrefl behind
  obtain ⟨x, hx⟩ := hne
  obtain ⟨a, -, hlast⟩ := hwf.has_min Set.univ ⟨⟨x, hx⟩, trivial⟩
  refine ⟨a, a.2, ?_⟩
  intro y hy hedge
  exact hlast ⟨y, hy⟩ trivial (TransGen.single hedge)

/-- Adding edges into `u`, which has no edges out of it, closes no cycle. -/
theorem Acyclic.of_edges_into_sink {u : τ} (hnew : ∀ x y, S x y → R x y ∨ y = u)
    (hsink : ∀ y, ¬ S u y) (hR : Acyclic R) : Acyclic S := by
  intro x hcycle
  have hpath : ∀ y, TransGen S x y → y ≠ u → TransGen R x y := by
    intro y hxy
    induction hxy with
    | single hedge =>
        intro hy
        exact TransGen.single ((hnew _ _ hedge).resolve_right hy)
    | @tail b c _ hedge ih =>
        intro hc
        have hb : b ≠ u := by
          rintro rfl
          exact hsink c hedge
        exact (ih hb).tail ((hnew b c hedge).resolve_right hc)
  have hx : x ≠ u := by
    rintro rfl
    obtain ⟨y, hedge, -⟩ := TransGen.head'_iff.mp hcycle
    exact hsink y hedge
  exact hR x (hpath x hcycle hx)

end

/-! ## Precedence graphs -/

section

variable {α τ : Type*} (owner : α → τ) (Conflict : α → α → Prop)

/-- An item of `t` comes before a conflicting item of another owner `u`. -/
def Precedes (log : List α) (t u : τ) : Prop :=
  t ≠ u ∧ ∃ a b, [a, b].Sublist log ∧ owner a = t ∧ owner b = u ∧ Conflict a b

/-- The pairs of a log with one more item. -/
theorem pair_sublist_concat {a b x : α} {log : List α} :
    [a, b].Sublist (log ++ [x]) ↔ [a, b].Sublist log ∨ a ∈ log ∧ b = x := by
  constructor
  · intro h
    obtain ⟨l₁, l₂, heq, h₁, h₂⟩ := List.sublist_append_iff.mp h
    match l₁, heq with
    | [], heq =>
        rw [List.nil_append] at heq
        rw [← heq] at h₂
        exact absurd h₂.length_le (by simp)
    | [c], heq =>
        simp only [List.cons_append, List.nil_append, List.cons.injEq] at heq
        obtain ⟨rfl, rfl⟩ := heq
        have hb : b ∈ [x] := h₂.subset List.mem_cons_self
        exact Or.inr ⟨List.singleton_sublist.mp h₁, List.mem_singleton.mp hb⟩
    | c :: d :: rest, heq =>
        simp only [List.cons_append, List.cons.injEq] at heq
        obtain ⟨rfl, rfl, hrest⟩ := heq
        rw [(List.append_eq_nil_iff.mp hrest.symm).1] at h₁
        exact Or.inl h₁
  · rintro (h | ⟨ha, rfl⟩)
    · exact h.trans (List.sublist_append_left log [x])
    · exact (List.singleton_sublist.mpr ha).append (List.Sublist.refl [b])

variable {owner Conflict}

theorem precedes_concat {x : α} {log : List α} {t u : τ}
    (h : Precedes owner Conflict (log ++ [x]) t u) :
    Precedes owner Conflict log t u ∨
      u = owner x ∧ t ≠ u ∧ ∃ a ∈ log, owner a = t ∧ Conflict a x := by
  obtain ⟨hne, a, b, hpair, rfl, rfl, hconflict⟩ := h
  rcases pair_sublist_concat.mp hpair with hpair | ⟨ha, rfl⟩
  · exact Or.inl ⟨hne, a, b, hpair, rfl, rfl, hconflict⟩
  · exact Or.inr ⟨rfl, hne, a, ha, rfl, hconflict⟩

/-- **One more item by an owner that precedes nobody keeps the graph acyclic.** -/
theorem acyclic_precedes_concat {x : α} {log : List α}
    (hsink : ∀ u, ¬ Precedes owner Conflict log (owner x) u)
    (h : Acyclic (Precedes owner Conflict log)) :
    Acyclic (Precedes owner Conflict (log ++ [x])) := by
  have hnew : ∀ t u, Precedes owner Conflict (log ++ [x]) t u →
      Precedes owner Conflict log t u ∨ u = owner x := by
    intro t u htu
    rcases precedes_concat htu with hold | ⟨rfl, -, -⟩
    · exact Or.inl hold
    · exact Or.inr rfl
  refine Acyclic.of_edges_into_sink hnew ?_ h
  intro u hedge
  rcases precedes_concat hedge with hold | ⟨rfl, hne, -⟩
  · exact hsink u hold
  · exact hne rfl

end
