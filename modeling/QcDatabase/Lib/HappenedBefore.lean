/-
# The causal order of a history

A history lists the events of some processes in an order in which they took place;
an event may receive the message of an earlier one, its source.  An event precedes
the later ones of its process and those that receive its message, and what these
precede (`Precedes`): no clock occurs in this.

Events carry stamps.  `Ordered r` says that the stamps follow the causal order, for
a relation `r` on stamps.  If `r` is transitive, two things are to be checked of a
new event, the latest event of its process and its source (`ordered_append_iff`).
-/
import Mathlib.Algebra.Order.Group.Nat
import Mathlib.Data.List.Induction
import Mathlib.Logic.Relation

namespace HappenedBefore

/-- An event of a process with its stamp, and the position of the event whose message
it receives. -/
structure Event (P T : Type*) where
  process : P
  source : Option ℕ
  stamp : T

/-- The events in the order in which they took place. -/
abbrev History (P T : Type*) := List (Event P T)

variable {P T : Type*} {r : T → T → Prop} {h : History P T} {e a b : Event P T} {i j : ℕ}

/-- The `i`-th event is an earlier event of the process of the `j`-th, or its source. -/
def Direct (h : History P T) (i j : ℕ) : Prop :=
  ∃ a b, h[i]? = some a ∧ h[j]? = some b ∧ i < j ∧ (a.process = b.process ∨ b.source = some i)

/-- The `i`-th event causally precedes the `j`-th. -/
def Precedes (h : History P T) : ℕ → ℕ → Prop := Relation.TransGen (Direct h)

/-- Stamps follow the causal order. -/
def Ordered (r : T → T → Prop) (h : History P T) : Prop :=
  ∀ i j a b, Precedes h i j → h[i]? = some a → h[j]? = some b → r a.stamp b.stamp

/-! ## Positions -/

theorem Direct.lt (hd : Direct h i j) : i < j := by
  obtain ⟨_, _, _, _, hlt, _⟩ := hd
  exact hlt

theorem Precedes.lt (hp : Precedes h i j) : i < j := by
  induction hp with
  | single hd => exact hd.lt
  | tail _ hd ih => exact ih.trans hd.lt

theorem getElem?_append_of_some (hi : h[i]? = some a) (e : Event P T) :
    (h ++ [e])[i]? = some a := by
  rw [List.getElem?_append_left (List.getElem?_eq_some_iff.mp hi).1, hi]

theorem Direct.append (hd : Direct h i j) (e : Event P T) : Direct (h ++ [e]) i j := by
  obtain ⟨a, b, ha, hb, hlt, hcause⟩ := hd
  exact ⟨a, b, getElem?_append_of_some ha e, getElem?_append_of_some hb e, hlt, hcause⟩

theorem Precedes.append (hp : Precedes h i j) (e : Event P T) : Precedes (h ++ [e]) i j :=
  Relation.TransGen.mono (fun _ _ hd => Direct.append hd e) _ _ hp

/-- A new event is no cause of the others. -/
theorem Direct.of_append (hd : Direct (h ++ [e]) i j) (hj : j < h.length) : Direct h i j := by
  obtain ⟨a, b, ha, hb, hlt, hcause⟩ := hd
  rw [List.getElem?_append_left (hlt.trans hj)] at ha
  rw [List.getElem?_append_left hj] at hb
  exact ⟨a, b, ha, hb, hlt, hcause⟩

theorem Precedes.of_append (hp : Precedes (h ++ [e]) i j) (hj : j < h.length) :
    Precedes h i j := by
  induction hp with
  | single hd => exact .single (hd.of_append hj)
  | tail _ hd ih => exact (ih (hd.lt.trans hj)).tail (hd.of_append hj)

/-! ## The latest event of a process -/

section

variable [DecidableEq P]

/-- The latest event of a process. -/
def latest (p : P) (h : History P T) : Option (Event P T) :=
  (h.filter fun a => a.process = p).getLast?

theorem latest_append (p : P) (h : History P T) (e : Event P T) :
    latest p (h ++ [e]) = if e.process = p then some e else latest p h := by
  rw [latest, List.filter_append]
  split_ifs with hp
  · rw [List.filter_cons_of_pos (by simpa using hp), List.filter_nil, List.getLast?_concat]
  · rw [List.filter_cons_of_neg (by simpa using hp), List.filter_nil, List.append_nil, latest]

/-- It has a position, behind those of the other events of the process. -/
theorem exists_position_of_latest {p : P} (ha : latest p h = some a) :
    a.process = p ∧ ∃ m : ℕ, h[m]? = some a ∧
      ∀ k (b : Event P T), h[k]? = some b → b.process = p → k ≤ m := by
  induction h using List.reverseRecOn with
  | nil => cases ha
  | append_singleton h e ih =>
      rw [latest_append] at ha
      split_ifs at ha with hp
      · obtain rfl := Option.some.inj ha
        refine ⟨hp, h.length, List.getElem?_concat_length, ?_⟩
        intro k b hk _
        have hlt := (List.getElem?_eq_some_iff.mp hk).1
        rw [List.length_append, List.length_singleton] at hlt
        omega
      · obtain ⟨hprocess, m, hm, hmax⟩ := ih ha
        refine ⟨hprocess, m, getElem?_append_of_some hm e, ?_⟩
        intro k b hk hb
        by_cases hlt : k < h.length
        · rw [List.getElem?_append_left hlt] at hk
          exact hmax k b hk hb
        · -- the new event is of another process
          have hk' := (List.getElem?_eq_some_iff.mp hk).1
          rw [List.length_append, List.length_singleton] at hk'
          obtain rfl : k = h.length := by omega
          rw [List.getElem?_concat_length] at hk
          obtain rfl := Option.some.inj hk
          exact absurd hb hp

theorem exists_latest {p : P} (hi : h[i]? = some a) (ha : a.process = p) :
    ∃ b, latest p h = some b := by
  have hmem : a ∈ h.filter fun a => a.process = p :=
    List.mem_filter.mpr ⟨List.mem_of_getElem? hi, by simpa using ha⟩
  exact Option.ne_none_iff_exists'.mp fun hnone =>
    absurd (List.getLast?_eq_none_iff.mp hnone) (List.ne_nil_of_mem hmem)

/-! ## One more event -/

/-- A direct cause of the new event is related to it: an earlier event of its process
through the latest one. -/
theorem rel_of_direct_append [IsTrans T r] (hordered : Ordered r h)
    (hlatest : ∀ a, latest e.process h = some a → r a.stamp e.stamp)
    (hsource : ∀ i a, e.source = some i → h[i]? = some a → r a.stamp e.stamp)
    (hd : Direct (h ++ [e]) i h.length) (ha : h[i]? = some a) : r a.stamp e.stamp := by
  obtain ⟨a', b', ha', hb', hlt, hcause⟩ := hd
  rw [getElem?_append_of_some ha] at ha'
  obtain rfl := Option.some.inj ha'
  rw [List.getElem?_concat_length] at hb'
  obtain rfl := Option.some.inj hb'
  rcases hcause with hprocess | hcause
  · obtain ⟨d, hlast⟩ := exists_latest ha hprocess
    obtain ⟨hdprocess, m, hm, hmax⟩ := exists_position_of_latest hlast
    rcases Nat.lt_or_eq_of_le (hmax i a ha hprocess) with him | rfl
    · have hdirect : Direct h i m :=
        ⟨a, d, ha, hm, him, Or.inl (hprocess.trans hdprocess.symm)⟩
      have hbefore : r a.stamp d.stamp := hordered i m a d (.single hdirect) ha hm
      exact IsTrans.trans _ _ _ hbefore (hlatest d hlast)
    · rw [hm] at ha
      obtain rfl := Option.some.inj ha
      exact hlatest _ hlast
  · exact hsource i a hcause ha

/-- **What is to be checked of a new event.** -/
theorem ordered_append_iff [IsTrans T r] :
    Ordered r (h ++ [e]) ↔ Ordered r h ∧
      (∀ a, latest e.process h = some a → r a.stamp e.stamp) ∧
      ∀ i a, e.source = some i → h[i]? = some a → r a.stamp e.stamp := by
  have hlast : (h ++ [e])[h.length]? = some e := List.getElem?_concat_length
  constructor
  · intro hordered
    refine ⟨?_, ?_, ?_⟩
    · intro i j a b hp ha hb
      exact hordered i j a b (hp.append e) (getElem?_append_of_some ha e)
        (getElem?_append_of_some hb e)
    · intro a ha
      obtain ⟨hprocess, m, hm, -⟩ := exists_position_of_latest ha
      refine hordered m h.length a e (.single ?_) (getElem?_append_of_some hm e) hlast
      exact ⟨a, e, getElem?_append_of_some hm e, hlast, (List.getElem?_eq_some_iff.mp hm).1,
        Or.inl hprocess⟩
    · intro i a hsource ha
      refine hordered i h.length a e (.single ?_) (getElem?_append_of_some ha e) hlast
      exact ⟨a, e, getElem?_append_of_some ha e, hlast, (List.getElem?_eq_some_iff.mp ha).1,
        Or.inr hsource⟩
  · rintro ⟨hordered, hlatest, hsource⟩ i j a b hp ha hb
    by_cases hj : j < h.length
    · rw [List.getElem?_append_left hj] at hb
      rw [List.getElem?_append_left (hp.lt.trans hj)] at ha
      exact hordered i j a b (hp.of_append hj) ha hb
    · -- the chain of causes ends with a step to the new event
      have hj' := (List.getElem?_eq_some_iff.mp hb).1
      rw [List.length_append, List.length_singleton] at hj'
      obtain rfl : j = h.length := by omega
      rw [hlast] at hb
      obtain rfl := Option.some.inj hb
      cases hp with
      | single hd =>
          rw [List.getElem?_append_left hd.lt] at ha
          exact rel_of_direct_append hordered hlatest hsource hd ha
      | @tail k _ hik hd =>
          have hk := hd.lt
          rw [List.getElem?_append_left ((Precedes.lt hik).trans hk)] at ha
          have hc : h[k]? = some h[k] := List.getElem?_eq_getElem hk
          exact IsTrans.trans _ _ _ (hordered i k a h[k] (Precedes.of_append hik hk) ha hc)
            (rel_of_direct_append hordered hlatest hsource hd hc)

end

end HappenedBefore
