/-
# Quorums among the subsets of a finite set

A predicate on the subsets of a set of members says which of them are quorums.  It is
exclusive if no two disjoint subsets are quorums: of two sides that share no member
one at most may act.

* quorums of at least `k` members are exclusive iff there are fewer than `2 * k`
  members (`exclusive_card_iff`);
* if they have to contain a witness as well, also one witness at most among the members
  is enough (`exclusive_witness_iff`).
-/
import Mathlib.Data.Finset.Card
import Mathlib.Tactic.ByContra

namespace QuorumSets

variable {α : Type*} {members s t : Finset α} {k : ℕ}

/-- Of two disjoint subsets one at most is a quorum. -/
def Exclusive (members : Finset α) (Q : Finset α → Prop) : Prop :=
  ∀ s t, s ⊆ members → t ⊆ members → Disjoint s t → ¬ (Q s ∧ Q t)

variable [DecidableEq α]

theorem card_add_card_le (hs : s ⊆ members) (ht : t ⊆ members) (h : Disjoint s t) :
    s.card + t.card ≤ members.card := by
  rw [← Finset.card_union_of_disjoint h]
  exact Finset.card_le_card (Finset.union_subset hs ht)

theorem exclusive_of_card_lt (h : members.card < 2 * k) :
    Exclusive members fun s => k ≤ s.card := by
  rintro s t hs ht hdisjoint ⟨hks, hkt⟩
  have hsum := card_add_card_le hs ht hdisjoint
  omega

/-- **Quorums of a given size exclude each other iff two of them are more than all members.** -/
theorem exclusive_card_iff :
    Exclusive members (fun s => k ≤ s.card) ↔ members.card < 2 * k := by
  refine ⟨fun h => ?_, exclusive_of_card_lt⟩
  by_contra hle
  obtain ⟨s, hs, hcard⟩ := Finset.exists_subset_card_eq (show k ≤ members.card by omega)
  have hrest : (members \ s).card = members.card - k := by
    rw [Finset.card_sdiff_of_subset hs, hcard]
  exact h s (members \ s) hs Finset.sdiff_subset Finset.disjoint_sdiff
    ⟨hcard.ge, show k ≤ (members \ s).card by omega⟩

section

variable {W : α → Prop} [DecidablePred W]

/-- The members can be split into two sides that contain one of two members each and
have `k` members each. -/
theorem exists_split {a b : α} (hab : a ≠ b) (ha : a ∈ members) (hb : b ∈ members)
    (hk : 2 * k ≤ members.card) :
    ∃ s, s ⊆ members ∧ a ∈ s ∧ b ∉ s ∧ k ≤ s.card ∧ k ≤ (members \ s).card := by
  have hpair : ({a, b} : Finset α).card ≤ members.card :=
    Finset.card_le_card (Finset.insert_subset ha (Finset.singleton_subset_iff.mpr hb))
  rw [Finset.card_pair hab] at hpair
  have herase := Finset.card_erase_of_mem hb
  -- one member more if `k = 0`, as `a` is to be among them
  obtain ⟨s, has, hs, hcard⟩ := Finset.exists_subsuperset_card_eq (n := max k 1)
    (Finset.singleton_subset_iff.mpr (Finset.mem_erase.mpr ⟨hab, ha⟩))
    (by rw [Finset.card_singleton]; omega) (by omega)
  have hsub := hs.trans (Finset.erase_subset b members)
  have hrest := Finset.card_sdiff_of_subset hsub
  exact ⟨s, hsub, Finset.singleton_subset_iff.mp has,
    fun hbs => Finset.ne_of_mem_erase (hs hbs) rfl, by omega, by omega⟩

/-- **Quorums with a witness exclude each other iff there are not enough members for two
of them or not enough witnesses.** -/
theorem exclusive_witness_iff :
    Exclusive members (fun s => k ≤ s.card ∧ ∃ w ∈ s, W w) ↔
      members.card < 2 * k ∨ (members.filter W).card ≤ 1 := by
  constructor
  · intro h
    by_contra hnot
    rw [not_or, not_lt, not_le] at hnot
    obtain ⟨hk, hcard⟩ := hnot
    obtain ⟨a, ha, b, hb, hab⟩ := Finset.one_lt_card.mp hcard
    rw [Finset.mem_filter] at ha hb
    obtain ⟨s, hs, has, hbs, hks, hkt⟩ := exists_split hab ha.1 hb.1 hk
    exact h s (members \ s) hs Finset.sdiff_subset Finset.disjoint_sdiff
      ⟨⟨hks, a, has, ha.2⟩, hkt, b, Finset.mem_sdiff.mpr ⟨hb.1, hbs⟩, hb.2⟩
  · rintro (hcard | hcard) s t hs ht hdisjoint ⟨⟨hks, a, ha, hwa⟩, hkt, b, hb, hwb⟩
    · exact exclusive_of_card_lt hcard s t hs ht hdisjoint ⟨hks, hkt⟩
    · -- both sides have the only witness
      have hab : a = b := Finset.card_le_one.mp hcard a (Finset.mem_filter.mpr ⟨hs ha, hwa⟩)
        b (Finset.mem_filter.mpr ⟨ht hb, hwb⟩)
      exact Finset.disjoint_left.mp hdisjoint ha (hab ▸ hb)

end

end QuorumSets
