/-
# Registers with version-checked writes

A register that any number of clients read and write.  A write names the value
its client has read; it takes place only if the version of that value is the
version of what the register holds, and it gives the next version.

Versions may come round.  As long as fewer writes succeed than there are
distinct versions in a row, equal versions mean that nothing was written in
between: every write was computed from what the write before it left
(`Tracks.step`), however the clients interleave.
-/
import Mathlib.Logic.Function.Iterate

namespace CheckedRegister

variable {Client Value Version : Type*}

/-- A register, what each client has read last, and the writes so far: the value
the client had read and the value it wrote. -/
structure Register (Client Value : Type*) where
  current : Value
  reads : Client → Option Value
  writes : List (Value × Value)

/-- What the register holds after some writes. -/
def last : Value → List (Value × Value) → Value
  | value, [] => value
  | _, (_, written) :: writes => last written writes

/-- Every write was computed from what the write before it left, and gave the next version. -/
def Chained (version : Value → Version) (next : Version → Version) :
    Value → List (Value × Value) → Prop
  | _, [] => True
  | value, (used, written) :: writes =>
      used = value ∧ version written = next (version value) ∧ Chained version next written writes

theorem last_concat (value used written : Value) (writes : List (Value × Value)) :
    last value (writes ++ [(used, written)]) = written := by
  induction writes generalizing value with
  | nil => rfl
  | cons write writes ih => exact ih write.2

section

variable {version : Value → Version} {next : Version → Version}

theorem chained_concat {value used written : Value} {writes : List (Value × Value)} :
    Chained version next value (writes ++ [(used, written)]) ↔
      Chained version next value writes ∧ used = last value writes ∧
        version written = next (version (last value writes)) := by
  induction writes generalizing value with
  | nil => simp [Chained, last]
  | cons write writes ih =>
      rw [List.cons_append, Chained, Chained, ih, last, and_assoc, and_assoc]

theorem Chained.take {value : Value} {writes : List (Value × Value)}
    (h : Chained version next value writes) (n : ℕ) :
    Chained version next value (writes.take n) := by
  induction writes generalizing value n with
  | nil =>
      rw [List.take_nil]
      exact h
  | cons write writes ih =>
      cases n with
      | zero => trivial
      | succ n => exact ⟨h.1, h.2.1, ih h.2.2 n⟩

/-- The version counts the writes. -/
theorem Chained.version_last {value : Value} {writes : List (Value × Value)}
    (h : Chained version next value writes) :
    version (last value writes) = next^[writes.length] (version value) := by
  induction writes generalizing value with
  | nil => rfl
  | cons write writes ih =>
      rw [last, ih h.2.2, h.2.1, List.length_cons, Function.iterate_succ_apply]

/-- One step of a client: a read, a write that passed its check, or nothing that
touches the register. -/
inductive Step [DecidableEq Client] (version : Value → Version) (next : Version → Version)
    (r : Register Client Value) : Register Client Value → Prop where
  | read (c : Client) : Step version next r { r with
      reads := Function.update r.reads c (some r.current) }
  | write (c : Client) (used written : Value) (hread : r.reads c = some used)
      (hchecked : version used = version r.current)
      (hnext : version written = next (version used)) : Step version next r { r with
        current := written, writes := r.writes ++ [(used, written)] }
  | stay : Step version next r r

/-- The invariant: the writes form a chain that ends in what the register holds,
and every client has read what it held after some of them. -/
structure Tracks (version : Value → Version) (next : Version → Version) (initial : Value)
    (r : Register Client Value) : Prop where
  chained : Chained version next initial r.writes
  current : r.current = last initial r.writes
  reads : ∀ c value, r.reads c = some value →
    ∃ n ≤ r.writes.length, value = last initial (r.writes.take n)

variable {initial : Value} {r r' : Register Client Value}

/-- Before the first read. -/
theorem tracks_initial (value : Value) :
    Tracks version next value (⟨value, fun _ => none, []⟩ : Register Client Value) :=
  ⟨trivial, rfl, fun _ _ h => nomatch h⟩

/-- A value that was read is the current one if its version is, as fewer writes
took place than there are versions. -/
theorem Tracks.eq_of_version_eq (h : Tracks version next initial r) {bound : ℕ}
    (hdistinct : ∀ v i j, i < bound → j < bound → next^[i] v = next^[j] v → i = j)
    (hfew : r.writes.length < bound) {c : Client} {used : Value} (hread : r.reads c = some used)
    (hchecked : version used = version r.current) : used = r.current := by
  obtain ⟨n, hn, hused⟩ := h.reads c used hread
  have hversion := (h.chained.take n).version_last
  rw [List.length_take_of_le hn, ← hused, hchecked, h.current, h.chained.version_last] at hversion
  have hsame := hdistinct _ _ _ hfew (Nat.lt_of_le_of_lt hn hfew) hversion
  rw [hused, h.current, ← hsame, List.take_length]

/-- **Step lemma.**  However the clients interleave, a write that passes its
check was computed from what the write before it left. -/
theorem Tracks.step [DecidableEq Client] (h : Tracks version next initial r) {bound : ℕ}
    (hdistinct : ∀ v i j, i < bound → j < bound → next^[i] v = next^[j] v → i = j)
    (hstep : Step version next r r') (hfew : r'.writes.length ≤ bound) :
    Tracks version next initial r' := by
  cases hstep with
  | read c =>
      refine ⟨h.chained, h.current, ?_⟩
      intro c' value hread
      dsimp only at hread
      by_cases hc : c' = c
      · subst hc
        rw [Function.update_self, Option.some.injEq] at hread
        exact ⟨r.writes.length, Nat.le_refl _, by rw [← hread, h.current, List.take_length]⟩
      · rw [Function.update_of_ne hc] at hread
        exact h.reads c' value hread
  | write c used written hread hchecked hnext =>
      rw [List.length_append, List.length_singleton] at hfew
      have hused := h.eq_of_version_eq hdistinct hfew hread hchecked
      refine ⟨chained_concat.mpr ⟨h.chained, ?_, ?_⟩, (last_concat _ _ _ _).symm, ?_⟩
      · rw [hused, h.current]
      · rw [hnext, hused, h.current]
      · intro c' value hread'
        obtain ⟨n, hn, hvalue⟩ := h.reads c' value hread'
        refine ⟨n, ?_, ?_⟩
        · rw [List.length_append]
          exact Nat.le_add_right_of_le hn
        · rw [List.take_append_of_le_length hn]
          exact hvalue
  | stay => exact h

end

end CheckedRegister
