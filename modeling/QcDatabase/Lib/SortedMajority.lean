/-
# Majorities in sorted lists

An interval that holds more than half of the elements of a sorted list holds the elements
in the middle: if one of these were below it, so would be all before it.
-/
import Mathlib.Data.List.Sort

namespace List

variable {α : Type*} [LinearOrder α] {l : List α} {a b : α} {i : ℕ}

/-- More than half of the elements lie in the interval. -/
def MajorityIn (l : List α) (a b : α) : Prop :=
  l.length < 2 * l.countP fun x => decide (a ≤ x ∧ x ≤ b)

theorem MajorityIn.perm {l' : List α} (h : l.MajorityIn a b) (hperm : l.Perm l') :
    l'.MajorityIn a b := by
  rw [MajorityIn, ← hperm.countP_eq, ← hperm.length_eq]
  exact h

theorem MajorityIn.length_pos (h : l.MajorityIn a b) : 0 < l.length := by
  have hle : l.countP _ ≤ l.length := countP_le_length (p := fun x => decide (a ≤ x ∧ x ≤ b))
  rw [MajorityIn] at h
  omega

/-- A part of the list that leaves at most half of it does not do without the majority. -/
theorem MajorityIn.exists_mem_part {part rest : List α} (h : l.MajorityIn a b)
    (hparts : l.Perm (part ++ rest)) (hrest : 2 * rest.length ≤ l.length) :
    ∃ x ∈ part, a ≤ x ∧ x ≤ b := by
  have hcount : 0 < part.countP fun x => decide (a ≤ x ∧ x ≤ b) := by
    have hle : rest.countP _ ≤ rest.length :=
      countP_le_length (p := fun x => decide (a ≤ x ∧ x ≤ b))
    rw [MajorityIn, hparts.countP_eq, countP_append] at h
    omega
  obtain ⟨x, hx, hin⟩ := countP_pos_iff.mp hcount
  exact ⟨x, hx, of_decide_eq_true hin⟩

theorem MajorityIn.exists_mem_drop (h : l.MajorityIn a b) (hi : 2 * i ≤ l.length) :
    ∃ x ∈ l.drop i, a ≤ x ∧ x ≤ b := by
  have hparts : (l.take i ++ l.drop i).Perm (l.drop i ++ l.take i) := perm_append_comm
  rw [take_append_drop] at hparts
  refine h.exists_mem_part hparts ?_
  rw [length_take]
  omega

theorem MajorityIn.exists_mem_take (h : l.MajorityIn a b) (hi : l.length ≤ 2 * i) :
    ∃ x ∈ l.take i, a ≤ x ∧ x ≤ b := by
  refine h.exists_mem_part (Perm.of_eq (take_append_drop i l).symm) ?_
  rw [length_drop]
  omega

theorem le_getElem_of_mem_take (hs : l.Pairwise (· ≤ ·)) (hi : i < l.length) {x : α}
    (hx : x ∈ l.take (i + 1)) : x ≤ l[i] := by
  obtain ⟨j, hj, rfl⟩ := mem_take_iff_getElem.mp hx
  rcases Nat.lt_or_ge j i with hlt | hge
  · exact pairwise_iff_getElem.mp hs j i _ hi hlt
  · have hji : j = i := by omega
    subst hji
    exact le_refl _

theorem getElem_le_of_mem_drop (hs : l.Pairwise (· ≤ ·)) (hi : i < l.length) {x : α}
    (hx : x ∈ l.drop i) : l[i] ≤ x := by
  obtain ⟨j, hj, rfl⟩ := mem_drop_iff_getElem.mp hx
  rcases Nat.eq_zero_or_pos j with rfl | hpos
  · exact le_refl _
  · exact pairwise_iff_getElem.mp hs i (i + j) hi (by omega) (by omega)

/-- **The elements in the middle** lie in every interval that holds a majority. -/
theorem MajorityIn.getElem_mem (h : l.MajorityIn a b) (hs : l.Pairwise (· ≤ ·))
    (hi : i < l.length) (hlow : 2 * i ≤ l.length) (hhigh : l.length ≤ 2 * (i + 1)) :
    a ≤ l[i] ∧ l[i] ≤ b := by
  obtain ⟨x, hx, hax, -⟩ := h.exists_mem_take hhigh
  obtain ⟨y, hy, -, hyb⟩ := h.exists_mem_drop hlow
  exact ⟨hax.trans (le_getElem_of_mem_take hs hi hx), (getElem_le_of_mem_drop hs hi hy).trans hyb⟩

end List
