/-
# Shared mutexes

A `std::shared_mutex` is owned by one thread in exclusive mode, or by any number
of threads in shared mode; a thread that owns it must not lock it again.

A function is described by the events of its thread and by its result
(`Traced`): `guarded` is a section that locks a mutex and unlocks it at its end,
and a thread that is asleep at the end of its events has no result yet.
`Disciplined` says that no event locks a mutex that the thread owns;
`disciplined_guarded_iff` and `disciplined_bind_iff` take a function apart.

Most functions need not be taken apart: they leave the mutexes as they find them
(`Balanced`), and so do sections and sequences of such functions.
-/
import Mathlib.Logic.Function.Basic
import QcDatabase.Lib.StepRuns

open StepRun

namespace SharedMutex

/-- The mode in which a mutex is owned. -/
inductive Mode where
  | shared
  | exclusive
  deriving DecidableEq

/-- The mutex of an object that has no other. -/
inductive OwnMutex where
  | own
  deriving DecidableEq

/-- What a thread does to the mutexes. -/
inductive Event (μ : Type) where
  | lock (mutex : μ) (mode : Mode)
  | unlock (mutex : μ)

/-- A mutex with these owners can be locked by one more thread. -/
def CanLock (owners : List Mode) : Mode → Prop
  | .shared => ∀ owner ∈ owners, owner = .shared
  | .exclusive => owners = []

/-- Nobody locks a mutex exclusively that somebody owns. -/
theorem not_canLock_exclusive {owners : List Mode} {mode : Mode} (h : mode ∈ owners) :
    ¬ CanLock owners .exclusive := by
  intro hfree
  rw [CanLock] at hfree
  rw [hfree] at h
  exact absurd h List.not_mem_nil

/-! ## What a thread owns -/

section

variable {μ : Type} [DecidableEq μ]

/-- The mutexes that a thread owns, and the modes. -/
abbrev Held (μ : Type) := μ → Option Mode

/-- What the thread owns after an event. -/
def Held.after (held : Held μ) : Event μ → Held μ
  | .lock mutex mode => Function.update held mutex (some mode)
  | .unlock mutex => Function.update held mutex none

/-- The event locks no mutex that the thread owns. -/
def Allowed (held : Held μ) : Event μ → Prop
  | .lock mutex _ => held mutex = none
  | .unlock _ => True

instance (held : Held μ) (event : Event μ) : Decidable (Allowed held event) :=
  match event with
  | .lock mutex _ => inferInstanceAs (Decidable (held mutex = none))
  | .unlock _ => inferInstanceAs (Decidable True)

/-- No event locks a mutex that the thread owns by then. -/
abbrev Disciplined (held : Held μ) (events : List (Event μ)) : Prop :=
  Along Held.after Allowed held events

/-- What the thread owns after the events. -/
def Held.afterAll (held : Held μ) (events : List (Event μ)) : Held μ := events.foldl Held.after held

end

/-! ## Functions with their events -/

/-- The events of a function, and its result unless the thread is asleep at the
end of them. -/
structure Traced (μ α : Type) where
  events : List (Event μ)
  result : Option α

namespace Traced

variable {μ α β : Type}

instance : Monad (Traced μ) where
  pure a := ⟨[], some a⟩
  bind t f :=
    match t.result with
    | none => ⟨t.events, none⟩
    | some a => ⟨t.events ++ (f a).events, (f a).result⟩

/-- Lock a mutex. -/
def lock (mutex : μ) (mode : Mode) : Traced μ Unit := ⟨[.lock mutex mode], some ()⟩

/-- Unlock a mutex. -/
def unlock (mutex : μ) : Traced μ Unit := ⟨[.unlock mutex], some ()⟩

/-- Go to sleep. -/
def asleep : Traced μ α := ⟨[], none⟩

/-- A section under a mutex. -/
def guarded (mutex : μ) (mode : Mode) (body : Traced μ α) : Traced μ α := do
  lock mutex mode
  let a ← body
  unlock mutex
  return a

theorem result_pure (a : α) : (pure a : Traced μ α).result = some a := rfl

theorem result_bind (t : Traced μ α) (f : α → Traced μ β) :
    (t >>= f).result = t.result.bind fun a => (f a).result := by
  show (match t.result with
    | none => (⟨t.events, none⟩ : Traced μ β)
    | some a => ⟨t.events ++ (f a).events, (f a).result⟩).result = _
  rcases t.result with _ | a <;> rfl

theorem events_bind (t : Traced μ α) (f : α → Traced μ β) :
    (t >>= f).events = t.events ++ (t.result.map fun a => (f a).events).getD [] := by
  show (match t.result with
    | none => (⟨t.events, none⟩ : Traced μ β)
    | some a => ⟨t.events ++ (f a).events, (f a).result⟩).events = _
  rcases t.result with _ | a
  · exact (List.append_nil _).symm
  · rfl

theorem result_guarded (mutex : μ) (mode : Mode) (body : Traced μ α) :
    (guarded mutex mode body).result = body.result := by
  rw [guarded, result_bind]
  show (body >>= fun a => unlock mutex >>= fun _ => pure a).result = body.result
  rw [result_bind]
  rcases body.result with _ | a <;> rfl

/-- A section that calls nothing. -/
theorem result_section (mutex : μ) (mode : Mode) (a : α) :
    (guarded mutex mode (pure a)).result = some a := rfl

/-- A section begins with its mutex. -/
theorem head?_events_guarded (mutex : μ) (mode : Mode) (body : Traced μ α) :
    (guarded mutex mode body).events.head? = some (.lock mutex mode) := by
  rw [guarded, events_bind]
  rfl

/-- A section whose body returns. -/
theorem events_guarded_of_returns {mutex : μ} {mode : Mode} {body : Traced μ α}
    (h : body.result ≠ none) :
    (guarded mutex mode body).events = .lock mutex mode :: (body.events ++ [.unlock mutex]) := by
  obtain ⟨a, ha⟩ := Option.ne_none_iff_exists'.mp h
  rw [guarded, events_bind]
  show [Event.lock mutex mode] ++ (body >>= fun a => unlock mutex >>= fun _ => pure a).events = _
  rw [events_bind, ha, List.singleton_append]
  rfl

/-! ## Discipline -/

variable [DecidableEq μ] {held : Held μ}

/-- The function locks no mutex that its thread owns. -/
def Disciplined (held : Held μ) (t : Traced μ α) : Prop := SharedMutex.Disciplined held t.events

instance (t : Traced μ α) : Decidable (Disciplined held t) :=
  inferInstanceAs (Decidable (SharedMutex.Disciplined held t.events))

theorem disciplined_pure (a : α) : Disciplined held (pure a : Traced μ α) := trivial

theorem disciplined_bind_iff {t : Traced μ α} {f : α → Traced μ β} :
    Disciplined held (t >>= f) ↔ Disciplined held t ∧
      ∀ a, t.result = some a → Disciplined (held.afterAll t.events) (f a) := by
  rw [Disciplined, events_bind, SharedMutex.Disciplined, along_append]
  apply and_congr_right
  intro _
  rcases t.result with _ | a
  · exact iff_of_true trivial fun a ha => by cases ha
  · constructor
    · rintro h a ⟨⟩
      exact h
    · exact fun h => h a rfl

theorem disciplined_lock_iff {mutex : μ} {mode : Mode} :
    Disciplined held (lock mutex mode) ↔ held mutex = none :=
  and_iff_left trivial

theorem disciplined_unlock (mutex : μ) : Disciplined held (unlock mutex) := ⟨trivial, trivial⟩

/-- **A section under a mutex** must find it free, and its body must keep off it. -/
theorem disciplined_guarded_iff {mutex : μ} {mode : Mode} {body : Traced μ α} :
    Disciplined held (guarded mutex mode body) ↔
      held mutex = none ∧ Disciplined (Function.update held mutex (some mode)) body := by
  rw [guarded, disciplined_bind_iff, disciplined_lock_iff]
  apply and_congr_right
  intro _
  constructor
  · intro h
    exact (disciplined_bind_iff.mp (h () rfl)).1
  · intro h _ _
    refine disciplined_bind_iff.mpr ⟨h, ?_⟩
    intro a _
    refine disciplined_bind_iff.mpr ⟨disciplined_unlock mutex, ?_⟩
    exact fun _ _ => disciplined_pure a

/-- A section under a mutex that the thread owns. -/
theorem not_disciplined_guarded {mutex : μ} {mode : Mode} {body : Traced μ α}
    (howned : held mutex ≠ none) : ¬ Disciplined held (guarded mutex mode body) :=
  fun h => howned (disciplined_guarded_iff.mp h).1

/-! ## Functions that leave the mutexes as they find them -/

/-- The function locks no mutex that its thread owns, and when it returns the thread
owns what it owned before. -/
structure Balanced (held : Held μ) (t : Traced μ α) : Prop where
  disciplined : t.Disciplined held
  settled : t.result ≠ none → held.afterAll t.events = held

theorem balanced_pure (a : α) : Balanced held (pure a : Traced μ α) :=
  ⟨disciplined_pure a, fun _ => rfl⟩

theorem Balanced.bind {t : Traced μ α} {f : α → Traced μ β} (h : Balanced held t)
    (hf : ∀ a, Balanced held (f a)) : Balanced held (t >>= f) where
  disciplined := by
    refine disciplined_bind_iff.mpr ⟨h.disciplined, ?_⟩
    intro a ha
    rw [h.settled (by rw [ha]; exact Option.some_ne_none a)]
    exact (hf a).disciplined
  settled hreturns := by
    rw [result_bind] at hreturns
    rw [events_bind]
    rcases ha : t.result with _ | a
    · rw [ha] at hreturns
      exact absurd rfl hreturns
    · rw [ha] at hreturns
      have hbefore : held.afterAll t.events = held :=
        h.settled (by rw [ha]; exact Option.some_ne_none a)
      rw [Held.afterAll] at hbefore
      rw [Option.map_some, Option.getD_some, Held.afterAll, List.foldl_append, hbefore]
      exact (hf a).settled hreturns

/-- **A section** leaves its mutex as it finds it: unlocked. -/
theorem Balanced.guarded {mutex : μ} {mode : Mode} {body : Traced μ α}
    (h : Balanced (Function.update held mutex (some mode)) body) (hfree : held mutex = none) :
    Balanced held (Traced.guarded mutex mode body) where
  disciplined := disciplined_guarded_iff.mpr ⟨hfree, h.disciplined⟩
  settled hreturns := by
    rw [result_guarded] at hreturns
    have hbody := h.settled hreturns
    rw [Held.afterAll] at hbody
    rw [events_guarded_of_returns hreturns, Held.afterAll, List.foldl_cons, List.foldl_append,
      Held.after, hbody, List.foldl_cons, List.foldl_nil, Held.after, Function.update_idem,
      ← hfree, Function.update_eq_self]

/-- A section that calls nothing. -/
theorem balanced_section {mutex : μ} (hfree : held mutex = none) (mode : Mode) (a : α) :
    Balanced held (Traced.guarded mutex mode (pure a)) :=
  (balanced_pure a).guarded hfree

/-- A thread may unlock a mutex that it owns and lock it again. -/
theorem Balanced.relocked {mutex : μ} {mode : Mode} {t : Traced μ α} (h : Balanced held t)
    (howned : held mutex = some mode) :
    Balanced held (do
      unlock mutex
      lock mutex mode
      t) := by
  have hback : (held.after (.unlock mutex)).after (.lock mutex mode) = held := by
    rw [Held.after, Held.after, Function.update_idem, ← howned, Function.update_eq_self]
  refine ⟨?_, ?_⟩
  · refine disciplined_bind_iff.mpr ⟨disciplined_unlock mutex, ?_⟩
    intro _ _
    refine disciplined_bind_iff.mpr ⟨?_, ?_⟩
    · rw [disciplined_lock_iff]
      exact Function.update_self mutex none held
    · intro _ _
      show t.Disciplined ((held.after (.unlock mutex)).after (.lock mutex mode))
      rw [hback]
      exact h.disciplined
  · intro hreturns
    show ((held.after (.unlock mutex)).after (.lock mutex mode)).afterAll _ = held
    rw [hback]
    exact h.settled hreturns

end Traced

end SharedMutex
