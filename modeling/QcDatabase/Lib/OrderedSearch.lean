/-
# Binary search and iterator scans over a list

The halving search behind `std::lower_bound` and `std::upper_bound`
(`partitionPoint`), which finds the border between the elements that satisfy a
predicate and those that do not, and the loop that walks an iterator from one
position to another with a bound on the number of visits (`scanFrom`).

Both are total on every list: on a list that is not partitioned the search
still answers what the halving steps reach, and a walk that would step past the
last element is `none`.
-/
import Mathlib.Order.Lattice
import Mathlib.Data.List.Pairwise
import Mathlib.Data.List.TakeWhile

namespace OrderedSearch

variable {α : Type*}

/-! ## The halving search -/

/-- One call of the halving search on the `len` positions from `first` on: keep
the right half when the middle element satisfies `p`, the left half otherwise.
`fuel` bounds the number of halvings; `len` of them are enough. -/
def searchFrom (p : α → Bool) (l : List α) : ℕ → ℕ → ℕ → ℕ
  | 0, first, _ => first
  | fuel + 1, first, len =>
      if len = 0 then first
      else
        match l[first + len / 2]? with
        | none => first
        | some x =>
            if p x then searchFrom p l fuel (first + len / 2 + 1) (len - len / 2 - 1)
            else searchFrom p l fuel first (len / 2)

/-- The position the halving search over the whole list ends at. -/
def partitionPoint (p : α → Bool) (l : List α) : ℕ :=
  searchFrom p l l.length 0 l.length

/-- `c` separates the elements satisfying `p` from the others. -/
def IsBorder (p : α → Bool) (l : List α) (c : ℕ) : Prop :=
  (∀ i x, i < c → l[i]? = some x → p x = true) ∧
    (∀ i x, c ≤ i → l[i]? = some x → p x = false)

/-- The search narrows to the border: everything left of `first` satisfies `p`,
nothing from `first + len` on does. -/
theorem isBorder_searchFrom (p : α → Bool) (l : List α)
    (hmono : l.Pairwise (fun a b => p b = true → p a = true)) :
    ∀ fuel first len, len ≤ fuel → first + len ≤ l.length →
      (∀ i x, i < first → l[i]? = some x → p x = true) →
      (∀ i x, first + len ≤ i → l[i]? = some x → p x = false) →
      searchFrom p l fuel first len ≤ l.length ∧
        IsBorder p l (searchFrom p l fuel first len) := by
  intro fuel
  induction fuel with
  | zero =>
      intro first len hfuel hle hleft hright
      obtain rfl : len = 0 := by omega
      exact ⟨by simpa [searchFrom] using hle, hleft, hright⟩
  | succ fuel ih =>
      intro first len hfuel hle hleft hright
      unfold searchFrom
      by_cases hlen : len = 0
      · subst hlen
        rw [if_pos rfl]
        exact ⟨by omega, hleft, hright⟩
      rw [if_neg hlen]
      have hmid : first + len / 2 < l.length := by omega
      rw [List.getElem?_eq_getElem hmid]
      rw [List.pairwise_iff_getElem] at hmono
      dsimp only
      split_ifs with hp
      · -- the middle element satisfies `p`, hence so does everything left of it
        refine ih _ _ (by omega) (by omega) ?_ ?_
        · intro i x hi hx
          obtain ⟨hil, rfl⟩ := List.getElem?_eq_some_iff.mp hx
          rcases Nat.lt_or_ge i (first + len / 2) with hlt | hge
          · exact hmono i _ hil hmid hlt hp
          · obtain rfl : i = first + len / 2 := by omega
            exact hp
        · intro i x hi hx
          exact hright i x (by omega) hx
      · -- the middle element fails `p`, hence so does everything right of it
        refine ih _ _ (by omega) (by omega) hleft ?_
        intro i x hi hx
        obtain ⟨hil, rfl⟩ := List.getElem?_eq_some_iff.mp hx
        rcases Nat.lt_or_ge (first + len / 2) i with hlt | hge
        · by_contra hpi
          exact hp (hmono _ i hmid hil hlt (by simpa using hpi))
        · obtain rfl : i = first + len / 2 := by omega
          simpa using hp

/-- On a partitioned list the search finds the border. -/
theorem isBorder_partitionPoint (p : α → Bool) (l : List α)
    (hmono : l.Pairwise (fun a b => p b = true → p a = true)) :
    partitionPoint p l ≤ l.length ∧ IsBorder p l (partitionPoint p l) := by
  refine isBorder_searchFrom p l hmono l.length 0 l.length le_rfl (by omega) ?_ ?_
  · intro i x hi; omega
  · intro i x hi hx
    obtain ⟨hil, -⟩ := List.getElem?_eq_some_iff.mp hx
    omega

/-- A list has one border. -/
theorem IsBorder.eq_length_takeWhile {p : α → Bool} {l : List α} {c : ℕ}
    (hc : c ≤ l.length) (h : IsBorder p l c) : c = (l.takeWhile p).length := by
  induction l generalizing c with
  | nil => simpa using hc
  | cons a l ih =>
      cases c with
      | zero =>
          have ha : p a = false := h.2 0 a le_rfl rfl
          simp [ha]
      | succ c =>
          have ha : p a = true := h.1 0 a (Nat.succ_pos c) rfl
          rw [List.takeWhile_cons, if_pos ha, List.length_cons,
            ih (c := c) (by simpa using hc) ⟨?_, ?_⟩]
          · intro i x hi hx
            exact h.1 (i + 1) x (by omega) (by simpa using hx)
          · intro i x hi hx
            exact h.2 (i + 1) x (by omega) (by simpa using hx)

/-- On a partitioned list the halving search agrees with the linear one. -/
theorem partitionPoint_eq_length_takeWhile (p : α → Bool) (l : List α)
    (hmono : l.Pairwise (fun a b => p b = true → p a = true)) :
    partitionPoint p l = (l.takeWhile p).length := by
  obtain ⟨hle, hb⟩ := isBorder_partitionPoint p l hmono
  exact hb.eq_length_takeWhile hle

/-- On a partitioned list the elements up to the border are those that satisfy `p`. -/
theorem takeWhile_eq_filter {p : α → Bool} {l : List α}
    (hmono : l.Pairwise (fun a b => p b = true → p a = true)) : l.takeWhile p = l.filter p := by
  induction l with
  | nil => rfl
  | cons a l ih =>
      obtain ⟨ha, hl⟩ := List.pairwise_cons.mp hmono
      by_cases hp : p a = true
      · rw [List.takeWhile_cons_of_pos hp, List.filter_cons_of_pos hp, ih hl]
      · rw [List.takeWhile_cons_of_neg hp, eq_comm, List.filter_eq_nil_iff,
          List.forall_mem_cons]
        exact ⟨hp, fun b hb hpb => hp (ha b hb hpb)⟩

/-- The elements from the border on are the others. -/
theorem drop_takeWhile_eq_filter {p : α → Bool} {l : List α}
    (hmono : l.Pairwise (fun a b => p b = true → p a = true)) :
    l.drop (l.takeWhile p).length = l.filter fun a => !p a := by
  induction l with
  | nil => rfl
  | cons a l ih =>
      obtain ⟨ha, hl⟩ := List.pairwise_cons.mp hmono
      by_cases hp : p a = true
      · rw [List.takeWhile_cons_of_pos hp, List.length_cons, List.drop_succ_cons, ih hl,
          List.filter_cons_of_neg (by simp [hp])]
      · rw [List.takeWhile_cons_of_neg hp, List.length_nil, List.drop_zero, eq_comm,
          List.filter_eq_self, List.forall_mem_cons]
        refine ⟨by simpa using hp, ?_⟩
        intro b hb
        have hpb : ¬ p b = true := fun hpb => hp (ha b hb hpb)
        simpa using hpb

/-! ## Borders of a list sorted by a key -/

section Sorted

variable {K : Type*} [LinearOrder K] (key : α → K)

/-- Position of the first element whose key is not below `k`. -/
def lowerBound (l : List α) (k : K) : ℕ := (l.takeWhile (fun a => key a < k)).length

/-- Position of the first element whose key is above `k`. -/
def upperBound (l : List α) (k : K) : ℕ := (l.takeWhile (fun a => key a ≤ k)).length

theorem upperBound_le_length (l : List α) (k : K) : upperBound key l k ≤ l.length :=
  (List.takeWhile_prefix _).length_le

variable {key} in
theorem partitionPoint_lt_eq_lowerBound {l : List α}
    (hs : l.Pairwise (fun a b => key a < key b)) (k : K) :
    partitionPoint (fun a => decide (key a < k)) l = lowerBound key l k :=
  partitionPoint_eq_length_takeWhile _ l <| hs.imp fun hab hb => by
    simp only [decide_eq_true_eq] at hb ⊢
    exact lt_trans hab hb

variable {key} in
theorem partitionPoint_not_lt_eq_upperBound {l : List α}
    (hs : l.Pairwise (fun a b => key a < key b)) (k : K) :
    partitionPoint (fun a => !decide (k < key a)) l = upperBound key l k := by
  have hp : (fun a => !decide (k < key a)) = fun a => decide (key a ≤ k) := by
    funext a
    rw [← decide_not, decide_eq_decide, not_lt]
  rw [hp]
  refine partitionPoint_eq_length_takeWhile _ l (hs.imp fun hab hb => ?_)
  simp only [decide_eq_true_eq] at hb ⊢
  exact le_trans (le_of_lt hab) hb

/-- The element at the lower bound of its own key is that element. -/
theorem getElem?_lowerBound {l : List α} (hs : l.Pairwise (fun a b => key a < key b))
    {a : α} (ha : a ∈ l) : l[lowerBound key l (key a)]? = some a := by
  induction l with
  | nil => simp at ha
  | cons b l ih =>
      obtain ⟨hb, hl⟩ := List.pairwise_cons.mp hs
      rcases List.mem_cons.mp ha with rfl | ha'
      · simp [lowerBound]
      · have hlt := hb a ha'
        simpa [lowerBound, List.takeWhile_cons, hlt] using ih hl ha'

/-- Below the upper bound of `b` lies everything below the lower bound of an
`a ≤ b`. -/
theorem lowerBound_le_upperBound (l : List α) {a b : K} (hab : a ≤ b) :
    lowerBound key l a ≤ upperBound key l b := by
  induction l with
  | nil => simp [lowerBound]
  | cons c l ih =>
      unfold lowerBound upperBound at *
      by_cases hc : key c < a
      · have hcb : key c ≤ b := le_trans (le_of_lt hc) hab
        simpa [List.takeWhile_cons, hc, hcb] using ih
      · simp [List.takeWhile_cons, hc]

/-- A key `a ≤ b` found at its lower bound is strictly below the upper bound of
`b`. -/
theorem lowerBound_lt_upperBound {l : List α} {x : α} {b : K} (hab : key x ≤ b)
    (hx : l[lowerBound key l (key x)]? = some x) :
    lowerBound key l (key x) < upperBound key l b := by
  induction l with
  | nil => simp at hx
  | cons c l ih =>
      unfold lowerBound upperBound at *
      by_cases hc : key c < key x
      · have hcb : key c ≤ b := le_trans (le_of_lt hc) hab
        simp only [List.takeWhile_cons, hc, decide_true, if_true, hcb,
          List.length_cons, List.getElem?_cons_succ] at hx ⊢
        exact Nat.succ_lt_succ (by simpa using ih hx)
      · simp only [List.takeWhile_cons, hc, decide_false, Bool.false_eq_true, if_false,
          List.length_nil, List.getElem?_cons_zero, Option.some.injEq] at hx ⊢
        subst hx
        simp [hab]

theorem lowerBound_eq_length_map (l : List α) (k : K) :
    lowerBound key l k = ((l.map key).takeWhile fun x => decide (x < k)).length := by
  rw [lowerBound, List.takeWhile_map, List.length_map]
  rfl

theorem upperBound_eq_length_map (l : List α) (k : K) :
    upperBound key l k = ((l.map key).takeWhile fun x => decide (x ≤ k)).length := by
  rw [upperBound, List.takeWhile_map, List.length_map]
  rfl

/-- Bounds depend on the keys only. -/
theorem lowerBound_congr {β : Type*} {key' : β → K} {l : List α} {l' : List β}
    (h : l.map key = l'.map key') (k : K) : lowerBound key l k = lowerBound key' l' k := by
  rw [lowerBound_eq_length_map, lowerBound_eq_length_map, h]

theorem upperBound_congr {β : Type*} {key' : β → K} {l : List α} {l' : List β}
    (h : l.map key = l'.map key') (k : K) : upperBound key l k = upperBound key' l' k := by
  rw [upperBound_eq_length_map, upperBound_eq_length_map, h]

/-- What stands at an upper bound lies above it. -/
theorem lt_of_getElem?_upperBound {l : List α} {x : α} {b : K}
    (hx : l[upperBound key l b]? = some x) : b < key x := by
  induction l with
  | nil => simp at hx
  | cons c l ih =>
      unfold upperBound at *
      by_cases hc : key c ≤ b
      · simp only [List.takeWhile_cons, hc, decide_true, if_true, List.length_cons,
          List.getElem?_cons_succ] at hx
        exact ih hx
      · simp only [List.takeWhile_cons, hc, decide_false, Bool.false_eq_true, if_false,
          List.length_nil, List.getElem?_cons_zero, Option.some.injEq] at hx
        rw [← hx]
        exact lt_of_not_ge hc

end Sorted

/-! ## Bounded walks -/

/-- `for (it = i; it != stop && count < limit; ++it, ++count)`: the elements
visited, for `n = limit - count` visits left; `none` when the walk dereferences
a position past the last element. -/
def scanFrom (l : List α) (stop : ℕ) : ℕ → ℕ → Option (List α)
  | _, 0 => some []
  | i, n + 1 =>
      if i = stop then some []
      else
        match l[i]? with
        | none => none
        | some a => (scanFrom l stop (i + 1) n).map (a :: ·)

/-- A walk that starts at or before its end visits the elements in between, up
to its limit. -/
theorem scanFrom_eq_some (l : List α) {stop : ℕ} (hstop : stop ≤ l.length) (i n : ℕ)
    (hi : i ≤ stop) :
    scanFrom l stop i n = some (((l.take stop).drop i).take n) := by
  induction n generalizing i with
  | zero => simp [scanFrom]
  | succ n ih =>
      unfold scanFrom
      by_cases heq : i = stop
      · rw [if_pos heq, heq]
        simp
      · have hlt : i < l.length := by omega
        rw [if_neg heq, List.getElem?_eq_getElem hlt]
        dsimp only
        rw [ih (i + 1) (by omega), Option.map_some]
        congr 1
        have htake : i < (l.take stop).length := by rw [List.length_take]; omega
        rw [List.drop_eq_getElem_cons htake, List.take_succ_cons, List.getElem_take]

/-- A walk that starts behind its end goes on to its limit, if the list is long enough. -/
theorem scanFrom_of_lt (l : List α) {stop i : ℕ} (n : ℕ) (hstop : stop < i) (hi : i ≤ l.length) :
    scanFrom l stop i n = if i + n ≤ l.length then some ((l.drop i).take n) else none := by
  induction n generalizing i with
  | zero => simp [scanFrom, hi]
  | succ n ih =>
      rw [scanFrom, if_neg (by omega)]
      rcases Nat.lt_or_ge i l.length with hlt | hge
      · rw [List.getElem?_eq_getElem hlt]
        dsimp only
        rw [ih (by omega) hlt, show i + 1 + n = i + (n + 1) by omega]
        split_ifs
        · rw [List.drop_eq_getElem_cons hlt]
          rfl
        · rfl
      · rw [List.getElem?_eq_none hge, if_neg (by omega)]

/-- A walk visits elements of the list in order. -/
theorem prefix_of_scanFrom {l visited : List α} {stop i n : ℕ}
    (h : scanFrom l stop i n = some visited) : visited <+: l.drop i := by
  induction n generalizing i visited with
  | zero =>
      obtain rfl := Option.some.inj h
      exact List.nil_prefix
  | succ n ih =>
      rw [scanFrom] at h
      split_ifs at h with heq
      · obtain rfl := Option.some.inj h
        exact List.nil_prefix
      · rcases Nat.lt_or_ge i l.length with hlt | hge
        · rw [List.getElem?_eq_getElem hlt] at h
          obtain ⟨rest, hrest, rfl⟩ := Option.map_eq_some_iff.mp h
          rw [List.drop_eq_getElem_cons hlt]
          exact (List.prefix_cons_inj _).mpr (ih hrest)
        · rw [List.getElem?_eq_none hge] at h
          cases h

/-- Walks over the image of a list visit the images. -/
theorem scanFrom_map {β : Type*} (f : α → β) (l : List α) (stop i n : ℕ) :
    scanFrom (l.map f) stop i n = (scanFrom l stop i n).map (List.map f) := by
  induction n generalizing i with
  | zero => rfl
  | succ n ih =>
      unfold scanFrom
      by_cases heq : i = stop
      · simp [heq]
      · rw [if_neg heq, if_neg heq, List.getElem?_map]
        cases l[i]? with
        | none => rfl
        | some a =>
            simp only [Option.map_some, ih]
            cases scanFrom l stop (i + 1) n <;> rfl

end OrderedSearch
