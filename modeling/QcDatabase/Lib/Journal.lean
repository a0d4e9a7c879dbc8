/-
# Journals behind a stream that stalls

A journal is a list of entries that is appended to and read back through a filter.
Entries are reached through one stream, and a read runs it into the end of the file:
from then on the journal is *stalled*.  A stalled journal accepts entries without
keeping them and reads as empty, until it is opened again.  To shorten a journal is
to read it while it is locked, by a read that locks it too: on an open journal such
a call never comes back (`blocks`).

* `step` and `reply`: what a call that comes back does and what it says;
* `answers`: what a sequence of calls says, up to the first that never comes back;
* `sublist_of_mem_answers`: nothing is invented, doubled or reordered, whatever the
  calls;
* `spares`, `keptIn` and `run_entries`: which entries a run of calls leaves.
-/
import Mathlib.Algebra.Order.Ring.Nat
import Mathlib.Data.List.Basic

/-- A journal of entries of type `α`. -/
structure Journal (α : Type) where
  isOpen : Bool
  /-- the stream has failed, and nothing goes through it -/
  stalled : Bool
  entries : List α
  /-- how many entries were accepted, counted in a machine word -/
  accepted : UInt64

namespace Journal

/-- What becomes of an attempt to open a closed journal. -/
inductive Opening where
  | granted
  | refused
  /-- the entries are wiped before the journal is refused -/
  | wiped
  deriving DecidableEq, Repr

/-- A call on a journal. -/
inductive Call (α : Type) where
  | «open» (opening : Opening)
  | append (a : α)
  | sync
  | read (pass : α → Bool)
  | shorten
  | size
  | count
  | close

/-- What a call answers. -/
inductive Answer (α : Type) where
  | done
  | refused
  | entries (as : List α)
  | number (n : ℕ)
  deriving DecidableEq, Repr

variable {α : Type}

/-- A closed journal with these entries. -/
def closed (entries : List α) : Journal α := ⟨false, false, entries, 0⟩

/-- What reads see of the entries. -/
def visible (j : Journal α) : List α := if j.stalled then [] else j.entries

/-- The call never comes back. -/
def blocks (j : Journal α) : Call α → Bool
  | .shorten => j.isOpen
  | _ => false

/-- The journal after a call. -/
def step (j : Journal α) : Call α → Journal α
  | .open opening =>
      if j.isOpen then j
      else
        match opening with
        | .granted => { j with isOpen := true, stalled := false }
        | .refused => j
        | .wiped => { j with entries := [] }
  | .append a =>
      if j.isOpen then
        { j with
          entries := if j.stalled then j.entries else j.entries ++ [a]
          accepted := j.accepted + 1 }
      else j
  | .sync => j
  | .read _ => if j.isOpen then { j with stalled := true } else j
  | .shorten => j
  | .size => j
  | .count => j
  | .close => { j with isOpen := false }

theorem step_open_granted {j : Journal α} (hclosed : j.isOpen = false) :
    j.step (.open .granted) = { j with isOpen := true, stalled := false } := by
  simp [step, hclosed]

theorem step_open_refused (j : Journal α) : j.step (.open .refused) = j := by
  simp [step]

theorem step_open_wiped {j : Journal α} (hclosed : j.isOpen = false) :
    j.step (.open .wiped) = { j with entries := [] } := by
  simp [step, hclosed]

/-- What a call that comes back answers; `width` is the space an entry takes. -/
def reply (width : α → ℕ) (j : Journal α) : Call α → Answer α
  | .open opening => if j.isOpen || decide (opening = .granted) then .done else .refused
  | .append _ => if j.isOpen then .done else .refused
  | .sync => if j.isOpen then .done else .refused
  | .read pass => if j.isOpen then .entries (j.visible.filter pass) else .refused
  | .shorten => .refused
  | .size => .number (if j.isOpen && !j.stalled then (j.entries.map width).sum else 0)
  | .count => .number j.accepted.toNat
  | .close => .done

/-- The journal after a sequence of calls. -/
def run (j : Journal α) (calls : List (Call α)) : Journal α := calls.foldl step j

/-- The answers of a sequence of calls, in order, up to the first that never comes back. -/
def answers (width : α → ℕ) (j : Journal α) : List (Call α) → List (Answer α)
  | [] => []
  | call :: calls =>
      if j.blocks call then [] else j.reply width call :: (j.step call).answers width calls

/-- The entry a call hands over, where it is answered as done. -/
def acceptedBy (j : Journal α) : Call α → List α
  | .append a => if j.isOpen then [a] else []
  | _ => []

/-- The entries that were answered as done, in order. -/
def acceptedIn (j : Journal α) : List (Call α) → List α
  | [] => []
  | call :: calls =>
      if j.blocks call then [] else j.acceptedBy call ++ (j.step call).acceptedIn calls

theorem visible_sublist (j : Journal α) : j.visible.Sublist j.entries := by
  unfold visible
  split_ifs
  · exact List.nil_sublist _
  · exact List.Sublist.refl _

/-! ## What one call leaves -/

/-- Whether a call leaves the entries that are in the journal: only an opening can wipe
them. -/
def sparedBy (j : Journal α) : Call α → Bool
  | .open opening => j.isOpen || decide (opening ≠ .wiped)
  | _ => true

/-- The entries a call adds at the end. -/
def keptBy (j : Journal α) : Call α → List α
  | .append a => if j.isOpen && !j.stalled then [a] else []
  | _ => []

/-- One call leaves the entries or wipes them, and adds its own. -/
theorem step_entries (j : Journal α) (call : Call α) :
    (j.step call).entries = (if j.sparedBy call then j.entries else []) ++ j.keptBy call := by
  cases call with
  | append a =>
      rw [step, keptBy]
      cases j.isOpen <;> cases hs : j.stalled <;> simp [sparedBy]
  | «open» opening =>
      rw [show j.keptBy (.open opening) = [] from rfl, List.append_nil]
      cases ho : j.isOpen <;> cases opening <;> simp [step, sparedBy, ho]
  | read pass =>
      have hentries : (j.step (.read pass)).entries = j.entries := by
        rw [step]
        split_ifs <;> rfl
      rw [hentries]
      exact (List.append_nil j.entries).symm
  | sync => exact (List.append_nil j.entries).symm
  | shorten => exact (List.append_nil j.entries).symm
  | size => exact (List.append_nil j.entries).symm
  | count => exact (List.append_nil j.entries).symm
  | close => exact (List.append_nil j.entries).symm

/-- What is added was accepted. -/
theorem keptBy_sublist (j : Journal α) (call : Call α) :
    (j.keptBy call).Sublist (j.acceptedBy call) := by
  cases call with
  | append a =>
      rw [keptBy, acceptedBy]
      cases j.isOpen <;> cases j.stalled <;> simp
  | _ => simp [keptBy]

/-- One call leaves, in order, some of the entries and of what it accepts. -/
theorem sublist_step (j : Journal α) (call : Call α) :
    (j.step call).entries.Sublist (j.entries ++ j.acceptedBy call) := by
  rw [step_entries]
  refine List.Sublist.append ?_ (j.keptBy_sublist call)
  split_ifs
  · exact List.Sublist.refl _
  · exact List.nil_sublist _

/-! ## Nothing is invented -/

/-- Only a read answers with entries. -/
theorem reply_eq_entries {width : α → ℕ} {j : Journal α} {call : Call α} {as : List α}
    (h : j.reply width call = .entries as) : ∃ pass, as = j.visible.filter pass := by
  cases call with
  | read pass =>
      rw [reply] at h
      split_ifs at h
      exact ⟨pass, (Answer.entries.inj h).symm⟩
  | «open» opening =>
      rw [reply] at h
      split_ifs at h
  | append a =>
      rw [reply] at h
      split_ifs at h
  | sync =>
      rw [reply] at h
      split_ifs at h
  | shorten => cases h
  | size => cases h
  | count => cases h
  | close => cases h

/-- **Nothing is invented.**  Whatever the calls, every answer that lists entries lists, in
order and each at most as often, entries that were there or were accepted. -/
theorem sublist_of_mem_answers (width : α → ℕ) (j : Journal α) (calls : List (Call α))
    {as : List α} (h : Answer.entries as ∈ j.answers width calls) :
    as.Sublist (j.entries ++ j.acceptedIn calls) := by
  induction calls generalizing j with
  | nil => exact absurd h List.not_mem_nil
  | cons call calls ih =>
      rw [answers] at h
      rw [acceptedIn]
      split_ifs at h ⊢ with hblocks
      · exact absurd h List.not_mem_nil
      · rcases List.mem_cons.mp h with hcall | hlater
        · obtain ⟨pass, rfl⟩ := reply_eq_entries hcall.symm
          exact (List.filter_sublist.trans j.visible_sublist).trans (List.sublist_append_left _ _)
        · have hstep := (j.sublist_step call).append_right ((j.step call).acceptedIn calls)
          rw [List.append_assoc] at hstep
          exact (ih (j.step call) hlater).trans hstep

/-! ## What a run leaves -/

/-- Whether every call of a run leaves the entries. -/
def spares (j : Journal α) : List (Call α) → Bool
  | [] => true
  | call :: calls => j.sparedBy call && (j.step call).spares calls

/-- The entries of a run that were kept when they came and that its later calls leave. -/
def keptIn (j : Journal α) : List (Call α) → List α
  | [] => []
  | call :: calls =>
      (if (j.step call).spares calls then j.keptBy call else []) ++ (j.step call).keptIn calls

/-- **What a run leaves**: the entries unless some call wipes them, and behind them those that
were handed to a journal that was not stalled and that no later call wipes. -/
theorem run_entries (j : Journal α) (calls : List (Call α)) :
    (j.run calls).entries = (if j.spares calls then j.entries else []) ++ j.keptIn calls := by
  induction calls generalizing j with
  | nil => simp [run, spares, keptIn]
  | cons call calls ih =>
      have hlater : (j.run (call :: calls)).entries = ((j.step call).run calls).entries := rfl
      rw [hlater, ih, step_entries, spares, keptIn, ← List.append_assoc]
      congr 1
      cases (j.step call).spares calls <;> simp

end Journal
