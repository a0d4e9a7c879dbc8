/-
# Ordering timestamps (`src/time/time_sync.cpp`)

`TimestampOrdering` gives out the timestamps of `TimeService::now_logical`, of which it
asks nothing: an answer that is not above the last timestamp that was given out is
replaced by the next one after that.  So the timestamps increase whatever the answers
are, as long as the counter does not overflow (`generateTimestamps_increasing`).
-/
import Mathlib.Data.List.Chain
import QcDatabase.Time.Causality

namespace QcDatabase

namespace HybridLogicalClock

variable {a b c : HybridLogicalClock}

theorem lt_irrefl (a : HybridLogicalClock) : ¬ a < a := by
  rw [lt_iff]
  rintro (h | ⟨-, h⟩)
  · exact Int.lt_irrefl _ h
  · exact UInt64.lt_irrefl _ h

theorem lt_of_not_le (h : ¬ a ≤ b) : b < a := by
  have hnlt : ¬ a < b := fun hlt => h (Or.inl hlt)
  have hne : a ≠ b := fun heq => h (Or.inr heq)
  rw [lt_iff] at hnlt ⊢
  rcases lt_trichotomy a.physicalTime b.physicalTime with hp | hp | hp
  · exact absurd (Or.inl hp) hnlt
  · refine Or.inr ⟨hp.symm, ?_⟩
    rcases lt_trichotomy a.logicalTime.toNat b.logicalTime.toNat with hl | hl | hl
    · exact absurd (Or.inr ⟨hp, UInt64.lt_iff_toNat_lt.mpr hl⟩) hnlt
    · refine absurd ?_ hne
      cases a
      cases b
      exact congrArg₂ HybridLogicalClock.mk hp (UInt64.toNat_inj.mp hl)
    · exact UInt64.lt_iff_toNat_lt.mpr hl
  · exact Or.inl hp

theorem lt_of_le_of_lt (hab : a ≤ b) (hbc : b < c) : a < c := by
  rcases hab with hab | rfl
  · exact IsTrans.trans a b c hab hbc
  · exact hbc

instance : DecidableLE HybridLogicalClock := fun _ _ => inferInstanceAs (Decidable (_ ∨ _))

/-- The next timestamp with the same physical time. -/
def next (t : HybridLogicalClock) : HybridLogicalClock := ⟨t.physicalTime, t.logicalTime + 1⟩

theorem lt_next (h : a.logicalTime.toNat < 2 ^ 64 - 1) : a < a.next :=
  lt_iff.mpr (Or.inr ⟨rfl, UInt64.lt_add_one_of_lt h⟩)

end HybridLogicalClock

/-- `TimestampOrdering`. -/
structure TimestampOrdering where
  latestTimestamp : HybridLogicalClock
  deriving DecidableEq, Repr

namespace TimestampOrdering

/-- `TimestampOrdering::TimestampOrdering`, with the answer of `now_logical`. -/
def create (answer : HybridLogicalClock) : TimestampOrdering := ⟨answer⟩

/-- `TimestampOrdering::generate_timestamp`, with the answer of `now_logical`. -/
def generateTimestamp (o : TimestampOrdering) (answer : HybridLogicalClock) :
    HybridLogicalClock × TimestampOrdering :=
  let newTimestamp :=
    if answer ≤ o.latestTimestamp then
      ⟨o.latestTimestamp.physicalTime, o.latestTimestamp.logicalTime + 1⟩
    else answer
  (newTimestamp, ⟨newTimestamp⟩)

/-- The timestamps that successive calls of `generate_timestamp` return. -/
def generateTimestamps (o : TimestampOrdering) : List HybridLogicalClock → List HybridLogicalClock
  | [] => []
  | answer :: answers =>
      let (timestamp, o) := o.generateTimestamp answer
      timestamp :: o.generateTimestamps answers

/-- What `TimestampOrdering::wait_for_timestamp` waits for. -/
def hasReached (o : TimestampOrdering) (target : HybridLogicalClock) : Bool :=
  !decide (o.latestTimestamp < target)

variable {o : TimestampOrdering} {answer target : HybridLogicalClock}

/-- A call returns what it remembers: a timestamp above the last one, and no less than the
answer. -/
theorem generateTimestamp_spec (h : o.latestTimestamp.logicalTime.toNat < 2 ^ 64 - 1) :
    (o.generateTimestamp answer).2.latestTimestamp = (o.generateTimestamp answer).1 ∧
      o.latestTimestamp < (o.generateTimestamp answer).1 ∧
      answer ≤ (o.generateTimestamp answer).1 := by
  have hnext := HybridLogicalClock.lt_next h
  refine ⟨rfl, ?_⟩
  rw [generateTimestamp]
  dsimp only
  split_ifs with hle
  · exact ⟨hnext, Or.inl (HybridLogicalClock.lt_of_le_of_lt hle hnext)⟩
  · exact ⟨HybridLogicalClock.lt_of_not_le hle, Or.inr rfl⟩

/-- Each timestamp is above the one before, the first one above the latest before the run. -/
theorem isChain_generateTimestamps {answers : List HybridLogicalClock}
    (hcounter : ∀ t ∈ o.latestTimestamp :: o.generateTimestamps answers,
      t.logicalTime.toNat < 2 ^ 64 - 1) :
    (o.latestTimestamp :: o.generateTimestamps answers).IsChain (· < ·) ∧
      List.Forall₂ (· ≤ ·) answers (o.generateTimestamps answers) := by
  induction answers generalizing o with
  | nil => exact ⟨List.isChain_singleton _, List.Forall₂.nil⟩
  | cons answer answers ih =>
      rw [generateTimestamps, List.forall_mem_cons] at hcounter
      obtain ⟨-, hlt, hle⟩ : (o.generateTimestamp answer).2.latestTimestamp = _ ∧ _ :=
        generateTimestamp_spec hcounter.1
      obtain ⟨hchain, hanswers⟩ := ih hcounter.2
      exact ⟨List.isChain_cons_cons.mpr ⟨hlt, hchain⟩, List.Forall₂.cons hle hanswers⟩

/-- **The timestamps increase**, whatever the answers of `now_logical` are. -/
theorem generateTimestamps_increasing (first : HybridLogicalClock)
    (answers : List HybridLogicalClock)
    (hcounter : ∀ t ∈ first :: (create first).generateTimestamps answers,
      t.logicalTime.toNat < 2 ^ 64 - 1) :
    ((create first).generateTimestamps answers).Pairwise (· < ·) ∧
      ((create first).generateTimestamps answers).Pairwise (· ≠ ·) ∧
      List.Forall₂ (· ≤ ·) answers ((create first).generateTimestamps answers) := by
  obtain ⟨hchain, hanswers⟩ := isChain_generateTimestamps (o := create first) hcounter
  have hincreasing := (List.pairwise_cons.mp (List.isChain_iff_pairwise.mp hchain)).2
  refine ⟨hincreasing, hincreasing.imp ?_, hanswers⟩
  rintro a b hlt rfl
  exact HybridLogicalClock.lt_irrefl a hlt

/-- A clock that repeats an answer and then goes back. -/
theorem generateTimestamps_increasing_sample :
    let issued := (create ⟨5, 0⟩).generateTimestamps [⟨5, 0⟩, ⟨3, 9⟩, ⟨8, 1⟩, ⟨8, 0⟩]
    issued = [⟨5, 1⟩, ⟨5, 2⟩, ⟨8, 1⟩, ⟨8, 2⟩] ∧ issued.Pairwise (· < ·) := by
  refine ⟨by decide +kernel, ?_⟩
  exact (generateTimestamps_increasing ⟨5, 0⟩ [⟨5, 0⟩, ⟨3, 9⟩, ⟨8, 1⟩, ⟨8, 0⟩]
    (by decide +kernel)).1

end TimestampOrdering

end QcDatabase
