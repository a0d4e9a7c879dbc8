/-
# The median of the offsets (`src/time/time_sync.cpp`)

`time_utils::calculate_median_offset` sorts the offsets and takes the middle one, or the
mean of the two in the middle; `berkeley_algorithm` does the same with the offsets in
which it has confidence (`berkeleyAlgorithm_eq_ok_iff`).

The offsets in the middle lie wherever a majority of the offsets lies, so a minority of
wrong nodes does not move the clock out of the range of the others
(`medianOfSorted_mem`).  The mean does so too unless the sum overflows, which offsets up to
`2 ^ 62` do only if both of the middle ones are `2 ^ 62`.
-/
import Mathlib.Algebra.Order.Group.Abs
import Mathlib.Data.List.GetD
import QcDatabase.Lib.SortedMajority
import QcDatabase.Time.TimeService

namespace QcDatabase

open DefaultTimeService

/-- `time_utils::calculate_median_offset`. -/
def calculateMedianOffset (offsets : List ClockOffset) : ClockOffset :=
  if offsets.isEmpty then 0 else medianOfSorted (offsets.mergeSort (· ≤ ·))

/-! ## The order of the offsets does not matter -/

/-- Sorting forgets the order. -/
theorem mergeSort_eq_of_perm {offsets offsets' : List ClockOffset} (h : offsets.Perm offsets') :
    offsets.mergeSort (· ≤ ·) = offsets'.mergeSort (· ≤ ·) := by
  refine List.Perm.eq_of_pairwise' (List.pairwise_mergeSort' (· ≤ ·) offsets)
    (List.pairwise_mergeSort' (· ≤ ·) offsets') ?_
  exact (List.mergeSort_perm offsets _).trans (h.trans (List.mergeSort_perm offsets' _).symm)

theorem calculateMedianOffset_perm {offsets offsets' : List ClockOffset}
    (h : offsets.Perm offsets') :
    calculateMedianOffset offsets = calculateMedianOffset offsets' := by
  rw [calculateMedianOffset, calculateMedianOffset, h.isEmpty_eq, mergeSort_eq_of_perm h]

namespace DefaultTimeService

variable {s : DefaultTimeService} {i : IterationOrder} {result : ClockOffset}

/-- The offsets with a confidence above a half. -/
def confidentOffsets (s : DefaultTimeService) : List ClockOffset :=
  (s.nodeOffsets.entries.filter fun entry => decide (1 / 2 < entry.2.confidence)).map
    fun entry => entry.2.offset

/-- **`berkeley_algorithm`** is the median of the offsets with a confidence above a half, in
whatever order the map is iterated. -/
theorem berkeleyAlgorithm_eq_ok_iff :
    s.berkeleyAlgorithm i = .ok result ↔
      s.config.minSamples.toNat ≤ s.nodeOffsets.entries.length ∧ s.confidentOffsets ≠ [] ∧
        result = calculateMedianOffset s.confidentOffsets := by
  have hperm : (((i.order s.nodeOffsets.entries).filter
      fun entry => decide (1 / 2 < entry.2.confidence)).map fun entry => entry.2.offset).Perm
        s.confidentOffsets :=
    ((i.perm _).filter _).map _
  rw [berkeleyAlgorithm]
  split_ifs with hfew
  · refine iff_of_false (fun h => ?_) fun h => absurd h.1 (not_le.mpr hfew)
    cases h
  · dsimp only
    rw [hperm.isEmpty_eq, mergeSort_eq_of_perm hperm]
    split_ifs with hempty
    · refine iff_of_false (fun h => ?_) fun h => h.2.1 (List.isEmpty_iff.mp hempty)
      cases h
    · have hne : s.confidentOffsets ≠ [] := fun hnil => hempty (List.isEmpty_iff.mpr hnil)
      rw [calculateMedianOffset, if_neg hempty, Except.ok.injEq, eq_comm,
        and_iff_right (not_lt.mp hfew), and_iff_right hne]

end DefaultTimeService

/-! ## Where the median lies -/

section

variable {l : List ℤ} {a b : ℤ}

/-- The median of a sorted list lies in every interval that holds a majority, if the sum of
the two in the middle fits. -/
theorem medianOfSorted_mem (hs : l.Pairwise (· ≤ ·)) (h : l.MajorityIn a b)
    (hfits : l.length % 2 = 0 →
      IntType.int64.Fits (l.getD (l.length / 2 - 1) 0 + l.getD (l.length / 2) 0)) :
    a ≤ medianOfSorted l ∧ medianOfSorted l ≤ b := by
  have hpos := h.length_pos
  have hmiddle : a ≤ l.getD (l.length / 2) 0 ∧ l.getD (l.length / 2) 0 ≤ b := by
    have hlt : l.length / 2 < l.length := by omega
    rw [List.getD_eq_getElem _ _ hlt]
    exact h.getElem_mem hs hlt (by omega) (by omega)
  rw [medianOfSorted]
  split_ifs with heven
  · have hleft : a ≤ l.getD (l.length / 2 - 1) 0 ∧ l.getD (l.length / 2 - 1) 0 ≤ b := by
      have hlt : l.length / 2 - 1 < l.length := by omega
      rw [List.getD_eq_getElem _ _ hlt]
      exact h.getElem_mem hs hlt (by omega) (by omega)
    dsimp only
    rw [IntType.wrap_int64 (hfits heven)]
    exact tdiv_two_mem (Int.add_le_add hleft.1 hmiddle.1) (Int.add_le_add hleft.2 hmiddle.2)
  · exact hmiddle

/-- The two in the middle overflow only if both are `2 ^ 62`, and so are all behind them. -/
theorem middle_fits (hs : l.Pairwise (· ≤ ·)) (hbound : ∀ x ∈ l, |x| ≤ 2 ^ 62) (hpos : 0 < l.length)
    (heven : l.length % 2 = 0) (hfew : ¬ l.length < 2 * l.count (2 ^ 62)) :
    IntType.int64.Fits (l.getD (l.length / 2 - 1) 0 + l.getD (l.length / 2) 0) := by
  have hlt : l.length / 2 < l.length := by omega
  have hlt' : l.length / 2 - 1 < l.length := by omega
  have hright := abs_le.mp (hbound _ (List.getElem_mem hlt))
  have hleft := abs_le.mp (hbound _ (List.getElem_mem hlt'))
  rw [List.getD_eq_getElem _ _ hlt, List.getD_eq_getElem _ _ hlt', IntType.fits_int64]
  refine ⟨by omega, ?_⟩
  by_contra hbig
  have hall : ∀ x ∈ l.drop (l.length / 2 - 1), (2 : ℤ) ^ 62 = x := by
    intro x hx
    have hle := List.getElem_le_of_mem_drop hs hlt' hx
    have hmax := (abs_le.mp (hbound x (List.mem_of_mem_drop hx))).2
    omega
  have hcount := (List.drop_sublist (l.length / 2 - 1) l).count_le (2 ^ 62 : ℤ)
  rw [List.count_eq_length.mpr hall, List.length_drop] at hcount
  omega

end

/-- **A minority does not move the median** out of the range of the others, and
`berkeley_algorithm` returns this median. -/
theorem medianOffset_robust :
    (∀ (offsets : List ClockOffset) (a b : ClockOffset), (∀ x ∈ offsets, |x| ≤ 2 ^ 62) →
      (offsets.length % 2 = 0 → 2 * offsets.count (2 ^ 62) ≤ offsets.length) →
      offsets.MajorityIn a b →
        a ≤ calculateMedianOffset offsets ∧ calculateMedianOffset offsets ≤ b) ∧
    ∀ (s : DefaultTimeService) (i : IterationOrder) (result : ClockOffset),
      s.berkeleyAlgorithm i = .ok result →
        ∀ offsets, offsets.Perm s.confidentOffsets → result = calculateMedianOffset offsets := by
  constructor
  · intro offsets a b hbound hfew hmajority
    have hperm := (List.mergeSort_perm offsets (· ≤ ·)).symm
    have hsorted := List.pairwise_mergeSort' (· ≤ ·) offsets
    have hpos := hmajority.length_pos
    rw [calculateMedianOffset, if_neg fun hnil => by simp_all]
    refine medianOfSorted_mem hsorted (hmajority.perm hperm) fun heven => ?_
    refine middle_fits hsorted (fun x hx => hbound x (hperm.mem_iff.mpr hx)) ?_ heven ?_
    · exact hperm.length_eq ▸ hpos
    · rw [← hperm.length_eq] at heven ⊢
      rw [← hperm.count_eq]
      exact not_lt.mpr (hfew heven)
  · intro s i result hok offsets hperm
    rw [calculateMedianOffset_perm hperm]
    exact (berkeleyAlgorithm_eq_ok_iff.mp hok).2.2

/-- A service with one node, which was sampled often. -/
def sampleConfident : DefaultTimeService :=
  let s := create 0
  { s with
    config := { s.config with minSamples := 1 }
    nodeOffsets := AList.singleton [97] ⟨[97], 5, 0, 0, 6, 6 / 10⟩ }

/-- Three of five nodes agree up to a millisecond. -/
theorem medianOffset_robust_sample :
    7 ≤ calculateMedianOffset [-90, 7, 8, 1000, 7] ∧
      calculateMedianOffset [-90, 7, 8, 1000, 7] ≤ 8 ∧
      ∃ result, sampleConfident.berkeleyAlgorithm IterationOrder.listed = .ok result ∧
        result = calculateMedianOffset [5] := by
  have hconfident : sampleConfident.confidentOffsets = [5] := by decide +kernel
  have hok : sampleConfident.berkeleyAlgorithm IterationOrder.listed
      = .ok (calculateMedianOffset [5]) :=
    berkeleyAlgorithm_eq_ok_iff.mpr ⟨by decide, by rw [hconfident]; decide, by rw [hconfident]⟩
  obtain ⟨hlow, hhigh⟩ := medianOffset_robust.1 [-90, 7, 8, 1000, 7] 7 8 (by decide) (by decide)
    (by unfold List.MajorityIn; decide)
  exact ⟨hlow, hhigh, _, hok, medianOffset_robust.2 sampleConfident IterationOrder.listed _ hok [5]
    (hconfident ▸ List.Perm.refl _)⟩

/-- The sum of two offsets of `2 ^ 62` overflows. -/
theorem not_robust_at_bound :
    calculateMedianOffset [2 ^ 62, 2 ^ 62] = -2 ^ 62 ∧
      ¬ ∀ (offsets : List ClockOffset) (a b : ClockOffset), (∀ x ∈ offsets, |x| ≤ 2 ^ 62) →
        offsets.MajorityIn a b →
          a ≤ calculateMedianOffset offsets ∧ calculateMedianOffset offsets ≤ b := by
  have hvalue : calculateMedianOffset [2 ^ 62, 2 ^ 62] = -2 ^ 62 := by
    rw [calculateMedianOffset, List.mergeSort_eq_self (· ≤ ·) (by decide)]
    decide +kernel
  refine ⟨hvalue, fun h => ?_⟩
  have hlow := (h [2 ^ 62, 2 ^ 62] (2 ^ 62) (2 ^ 62) (by decide)
    (by unfold List.MajorityIn; decide)).1
  rw [hvalue] at hlow
  exact absurd hlow (by decide)

end QcDatabase
