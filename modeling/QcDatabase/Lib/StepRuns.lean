/-
# Runs of a step function

A system is a step function on states and a run a list of actions.  `Along P`
says that every action of a run satisfies `P` in the state it is taken in.

The rules are the usual ones: an invariant that every step keeps holds at the
end of every run, one that the steps with `P` keep holds at the end of the runs
along `P`, and where `P` says exactly which steps keep a property, the runs
along `P` are exactly those that have it throughout.
-/
import Mathlib.Data.List.Infix

namespace StepRun

variable {σ α : Type*} {step : σ → α → σ} {P Q : σ → α → Prop} {s : σ}

/-- Every action of the run satisfies `P` in the state it is taken in. -/
def Along (step : σ → α → σ) (P : σ → α → Prop) : σ → List α → Prop
  | _, [] => True
  | s, a :: as => P s a ∧ Along step P (step s a) as

instance decidableAlong [∀ s a, Decidable (P s a)] : ∀ (s : σ) (as : List α), Decidable (Along step P s as)
  | _, [] => inferInstanceAs (Decidable True)
  | s, a :: as =>
      have := decidableAlong (step s a) as
      inferInstanceAs (Decidable (P s a ∧ Along step P (step s a) as))

theorem Along.mono (hle : ∀ s a, P s a → Q s a) {as : List α} (h : Along step P s as) :
    Along step Q s as := by
  induction as generalizing s with
  | nil => trivial
  | cons a as ih => exact ⟨hle s a h.1, ih h.2⟩

theorem along_append {as bs : List α} :
    Along step P s (as ++ bs) ↔ Along step P s as ∧ Along step P (as.foldl step s) bs := by
  induction as generalizing s with
  | nil => simp [Along]
  | cons a as ih => rw [List.cons_append, Along, Along, ih, List.foldl_cons, and_assoc]

/-- Every action of a run along `P` is one with `P`. -/
theorem Along.at {before after : List α} {a : α} (h : Along step P s (before ++ a :: after)) :
    P (before.foldl step s) a :=
  (along_append.mp h).2.1

/-- A run is one along `P` if every action in it has `P` where it is taken. -/
theorem along_iff_forall {as : List α} :
    Along step P s as ↔
      ∀ before a after, as = before ++ a :: after → P (before.foldl step s) a := by
  constructor
  · rintro h before a after rfl
    exact h.at
  · intro h
    induction as generalizing s with
    | nil => trivial
    | cons a as ih =>
        refine ⟨h [] a as rfl, ih ?_⟩
        rintro before b after rfl
        exact h (a :: before) b after rfl

theorem Along.append_left {as bs : List α} (h : Along step P s (as ++ bs)) : Along step P s as :=
  (along_append.mp h).1

/-! ## Invariants -/

/-- An invariant that the steps with `P` keep. -/
theorem Along.invariant (Inv : σ → Prop) (hstep : ∀ s a, Inv s → P s a → Inv (step s a))
    (hs : Inv s) {as : List α} (h : Along step P s as) : Inv (as.foldl step s) := by
  induction as generalizing s with
  | nil => exact hs
  | cons a as ih => exact ih (hstep s a hs h.1) h.2

/-- An invariant that every step keeps. -/
theorem invariant (Inv : σ → Prop) (hstep : ∀ s a, Inv s → Inv (step s a)) (hs : Inv s)
    (as : List α) : Inv (as.foldl step s) := by
  induction as generalizing s with
  | nil => exact hs
  | cons a as ih => exact ih (hstep s a hs)

/-- **Where `P` says which steps keep a property, a run has it throughout iff it
is a run along `P`.**  `Inv` is what is known of every state. -/
theorem forall_prefix_iff_along (Inv Good : σ → Prop) (hinv : ∀ s a, Inv s → Inv (step s a))
    (hexact : ∀ s a, Inv s → Good s → (Good (step s a) ↔ P s a)) (hs : Inv s) (hgood : Good s)
    {as : List α} : (∀ before, before <+: as → Good (before.foldl step s)) ↔ Along step P s as := by
  induction as generalizing s with
  | nil =>
      refine iff_of_true ?_ trivial
      intro before hbefore
      rw [List.prefix_nil.mp hbefore]
      exact hgood
  | cons a as ih =>
      constructor
      · intro h
        have hstep : Good (step s a) := h [a] (List.prefix_cons_inj a |>.mpr List.nil_prefix)
        refine ⟨(hexact s a hs hgood).mp hstep, (ih (hinv s a hs) hstep).mp ?_⟩
        intro before hbefore
        exact h (a :: before) ((List.prefix_cons_inj a).mpr hbefore)
      · rintro ⟨ha, has⟩ before hbefore
        have hstep := (hexact s a hs hgood).mpr ha
        rcases List.prefix_cons_iff.mp hbefore with rfl | ⟨rest, rfl, hrest⟩
        · exact hgood
        · exact (ih (hinv s a hs) hstep).mpr has rest hrest

/-! ## What is done first

`Done s i` says of a state that `i` is done in it, and stays true once it is.
-/

section

variable {ι : Type*} {Done : σ → ι → Prop} {as bs : List α} {i j k : ι}

/-- At some moment of the run `i` is done and `j` is not. -/
def DoneBefore (step : σ → α → σ) (Done : σ → ι → Prop) (s : σ) (as : List α) (i j : ι) : Prop :=
  ∃ before, before <+: as ∧ Done (before.foldl step s) i ∧ ¬ Done (before.foldl step s) j

theorem DoneBefore.mono (h : DoneBefore step Done s as i j) (hle : as <+: bs) :
    DoneBefore step Done s bs i j := by
  obtain ⟨before, hbefore, hi, hj⟩ := h
  exact ⟨before, hbefore.trans hle, hi, hj⟩

variable {Inv : σ → Prop} (hinv : ∀ s a, Inv s → Inv (step s a))
  (hstable : ∀ s a i, Inv s → Done s i → Done (step s a) i)

include hinv hstable in
/-- What is done at a moment of the run is done at every later one. -/
theorem done_later (hs : Inv s) (hle : as <+: bs) (h : Done (as.foldl step s) i) :
    Done (bs.foldl step s) i := by
  obtain ⟨rest, rfl⟩ := hle
  rw [List.foldl_append]
  have hboth : Inv (as.foldl step s) ∧ Done (as.foldl step s) i :=
    ⟨invariant Inv hinv hs as, h⟩
  exact (invariant (fun s => Inv s ∧ Done s i)
    (fun s a hs => ⟨hinv s a hs.1, hstable s a i hs.1 hs.2⟩) hboth rest).2

include hinv hstable in
/-- The order in which things are done is transitive. -/
theorem DoneBefore.trans (hs : Inv s) (hij : DoneBefore step Done s as i j)
    (hjk : DoneBefore step Done s as j k) : DoneBefore step Done s as i k := by
  obtain ⟨first, hfirst, hi, hj⟩ := hij
  obtain ⟨second, hsecond, hj', hk⟩ := hjk
  rcases List.prefix_or_prefix_of_prefix hfirst hsecond with hle | hle
  · exact ⟨second, hsecond, done_later hinv hstable hs hle hi, hk⟩
  · exact absurd (done_later hinv hstable hs hle hj') hj

end

end StepRun
