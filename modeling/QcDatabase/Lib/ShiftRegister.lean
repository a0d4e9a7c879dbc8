/-
# Shift registers with feedback

A register of `w` bits takes in a message bit by bit.  A bit is added to the
lowest bit of the register, then the register is shifted down by one place, and
if the bit that leaves is set, the polynomial `p` is added (`shift`).  Sums are
exclusive or.

If the highest bit of `p` is set, a shift can be undone (`unshift`).  So two
messages that differ in at most `w` bits in a row leave different registers
(`run_ne_of_burst`): the common beginning leaves the same register, the bits that
differ are a word that is added to it and shifted along (`run_eq_shifts`), and
the common end only shifts the two registers, which differ by then.
-/
import Mathlib.Data.List.GetD
import Mathlib.Logic.Function.Iterate
import Mathlib.Order.Lattice

namespace ShiftRegister

variable {w : ℕ} {p : BitVec w}

/-! ## Shifts -/

/-- One shift of the register. -/
def shift (p r : BitVec w) : BitVec w := if r.getLsbD 0 then (r >>> 1) ^^^ p else r >>> 1

/-- The bits of a register after a shift. -/
theorem getLsbD_shift (p r : BitVec w) (i : ℕ) :
    (shift p r).getLsbD i = (r.getLsbD (i + 1) ^^ (r.getLsbD 0 && p.getLsbD i)) := by
  rw [shift]
  split_ifs with h
  · rw [BitVec.getLsbD_xor, BitVec.getLsbD_ushiftRight, h, Bool.true_and, Nat.add_comm]
  · rw [BitVec.getLsbD_ushiftRight, Bool.eq_false_of_not_eq_true h, Bool.false_and, Bool.xor_false,
      Nat.add_comm]

/-- What is added one place higher before a shift is added after it. -/
theorem shift_xor_shiftLeft (r : BitVec w) {y : BitVec w} (hy : y.getLsbD (w - 1) = false) :
    shift p (r ^^^ y <<< 1) = shift p r ^^^ y := by
  apply BitVec.eq_of_getLsbD_eq
  intro i hi
  have hlow : (y <<< 1).getLsbD 0 = false := by
    rw [BitVec.getLsbD_shiftLeft]
    simp
  have hnext : (y <<< 1).getLsbD (i + 1) = y.getLsbD i := by
    rw [BitVec.getLsbD_shiftLeft]
    by_cases htop : i + 1 < w
    · simp [htop]
    · obtain rfl : i = w - 1 := by omega
      rw [hy]
      simp [htop]
  rw [BitVec.getLsbD_xor, getLsbD_shift, getLsbD_shift, BitVec.getLsbD_xor, BitVec.getLsbD_xor,
    hlow, hnext, Bool.xor_false]
  cases r.getLsbD (i + 1) <;> cases y.getLsbD i <;> cases r.getLsbD 0 && p.getLsbD i <;> rfl

/-- The register before a shift. -/
def unshift (p x : BitVec w) : BitVec w :=
  if x.getLsbD (w - 1) then (x ^^^ p) <<< 1 ||| 1#w else x <<< 1

theorem getLsbD_unshift_zero (hw : 0 < w) (p x : BitVec w) :
    (unshift p x).getLsbD 0 = x.getLsbD (w - 1) := by
  rw [unshift]
  split_ifs with hx
  · rw [BitVec.getLsbD_or, BitVec.getLsbD_one, hx]
    simp [hw]
  · rw [BitVec.getLsbD_shiftLeft, Bool.eq_false_of_not_eq_true hx]
    simp

theorem getLsbD_unshift_succ (p x : BitVec w) {i : ℕ} (hi : i + 1 < w) :
    (unshift p x).getLsbD (i + 1) = (x.getLsbD i ^^ (x.getLsbD (w - 1) && p.getLsbD i)) := by
  rw [unshift]
  split_ifs with hx
  · rw [BitVec.getLsbD_or, BitVec.getLsbD_one, BitVec.getLsbD_shiftLeft, BitVec.getLsbD_xor, hx]
    simp [hi]
  · rw [BitVec.getLsbD_shiftLeft, Bool.eq_false_of_not_eq_true hx, Bool.false_and, Bool.xor_false,
      Nat.add_sub_cancel]
    simp [hi]

/-- **A shift can be undone** if the highest bit of the polynomial is set. -/
theorem shift_unshift (hp : p.getLsbD (w - 1) = true) (x : BitVec w) :
    shift p (unshift p x) = x := by
  have hw : 0 < w := by
    by_contra hzero
    rw [BitVec.getLsbD_of_ge p (w - 1) (by omega)] at hp
    cases hp
  apply BitVec.eq_of_getLsbD_eq
  intro i hi
  rw [getLsbD_shift, getLsbD_unshift_zero hw]
  by_cases htop : i + 1 < w
  · rw [getLsbD_unshift_succ p x htop, Bool.xor_assoc, Bool.xor_self, Bool.xor_false]
  · obtain rfl : i = w - 1 := by omega
    rw [BitVec.getLsbD_of_ge _ (w - 1 + 1) (by omega), hp, Bool.and_true, Bool.false_xor]

theorem shift_injective (hp : p.getLsbD (w - 1) = true) : Function.Injective (shift p) := by
  intro a b h
  have hbits : ∀ i, (a.getLsbD (i + 1) ^^ (a.getLsbD 0 && p.getLsbD i))
      = (b.getLsbD (i + 1) ^^ (b.getLsbD 0 && p.getLsbD i)) := by
    intro i
    rw [← getLsbD_shift, ← getLsbD_shift, h]
  -- the highest bit of the shifted register is the bit that has left
  have hlow : a.getLsbD 0 = b.getLsbD 0 := by
    have htop := hbits (w - 1)
    rw [hp, Bool.and_true, Bool.and_true, BitVec.getLsbD_of_ge a _ (by omega),
      BitVec.getLsbD_of_ge b _ (by omega), Bool.false_xor, Bool.false_xor] at htop
    exact htop
  apply BitVec.eq_of_getLsbD_eq
  intro i hi
  rcases i with _ | i
  · exact hlow
  · have hnext := hbits i
    rw [hlow] at hnext
    exact Bool.xor_left_inj.mp hnext

/-- `n` shifts. -/
def shifts (p : BitVec w) (n : ℕ) : BitVec w → BitVec w := (shift p)^[n]

theorem shifts_injective (hp : p.getLsbD (w - 1) = true) (n : ℕ) :
    Function.Injective (shifts p n) :=
  (shift_injective hp).iterate n

/-- What is added `n` places higher before `n` shifts is added after them. -/
theorem shifts_xor_shiftLeft {n : ℕ} {y : BitVec w}
    (hy : ∀ i, w ≤ i + n → y.getLsbD i = false) (r : BitVec w) :
    shifts p n (r ^^^ y <<< n) = shifts p n r ^^^ y := by
  induction n generalizing r with
  | zero => rw [BitVec.shiftLeft_zero, shifts, Function.iterate_zero, id, id]
  | succ n ih =>
      have htop : (y <<< n).getLsbD (w - 1) = false := by
        rw [BitVec.getLsbD_shiftLeft, hy (w - 1 - n) (by omega), Bool.and_false]
      rw [shifts, Function.iterate_succ_apply, Function.iterate_succ_apply, BitVec.shiftLeft_add,
        shift_xor_shiftLeft r htop]
      exact ih (fun i hi => hy i (by omega)) (shift p r)

/-! ## Messages -/

/-- A bit as the lowest bit of a word. -/
def ofBit (b : Bool) : BitVec w := (BitVec.ofBool b).setWidth w

/-- The word with these bits, lowest first. -/
def ofBits (bs : List Bool) : BitVec w := (BitVec.ofBoolListLE bs).setWidth w

theorem getLsbD_ofBits (bs : List Bool) (i : ℕ) :
    (ofBits bs : BitVec w).getLsbD i = (decide (i < w) && bs.getD i false) := by
  rw [ofBits, BitVec.getLsbD_setWidth, BitVec.getLsbD_ofBoolListLE]

theorem ofBits_cons (b : Bool) (bs : List Bool) :
    (ofBits (b :: bs) : BitVec w) = ofBit b ^^^ ofBits bs <<< 1 := by
  apply BitVec.eq_of_getLsbD_eq
  intro i hi
  rw [BitVec.getLsbD_xor, ofBit, BitVec.getLsbD_setWidth, BitVec.getLsbD_shiftLeft, getLsbD_ofBits,
    getLsbD_ofBits, BitVec.getLsbD_ofBool]
  rcases i with _ | i
  · simp [hi]
  · simp [hi, show i < w by omega]

/-- Words of at most `w` bits are told apart by their values. -/
theorem eq_of_ofBits_eq {bs cs : List Bool} (hlen : bs.length = cs.length) (hw : bs.length ≤ w)
    (h : (ofBits bs : BitVec w) = ofBits cs) : bs = cs := by
  apply List.ext_getElem hlen
  intro i hi hi'
  have hbit := congrArg (fun x : BitVec w => x.getLsbD i) h
  rwa [getLsbD_ofBits, getLsbD_ofBits, decide_eq_true (show i < w by omega), Bool.true_and,
    Bool.true_and, List.getD_eq_getElem _ _ hi, List.getD_eq_getElem _ _ hi'] at hbit

/-- Take in one bit. -/
def feed (p r : BitVec w) (b : Bool) : BitVec w := shift p (r ^^^ ofBit b)

/-- The register after a message. -/
def run (p r : BitVec w) (bs : List Bool) : BitVec w := bs.foldl (feed p) r

theorem run_append (r : BitVec w) (bs cs : List Bool) :
    run p r (bs ++ cs) = run p (run p r bs) cs :=
  List.foldl_append

/-- **A message that fits the register** is added to it and shifted along. -/
theorem run_eq_shifts {bs : List Bool} (hbs : bs.length ≤ w) (r : BitVec w) :
    run p r bs = shifts p bs.length (r ^^^ ofBits bs) := by
  induction bs generalizing r with
  | nil =>
      have hzero : (ofBits [] : BitVec w) = 0#w := by
        apply BitVec.eq_of_getLsbD_eq
        intro i hi
        rw [getLsbD_ofBits, List.getD_nil, Bool.and_false, BitVec.getLsbD_zero]
      rw [hzero, BitVec.xor_zero]
      rfl
  | cons b bs ih =>
      rw [List.length_cons] at hbs
      have htop : (ofBits bs : BitVec w).getLsbD (w - 1) = false := by
        rw [getLsbD_ofBits, List.getD_eq_default _ _ (by omega), Bool.and_false]
      rw [run, List.foldl_cons, ← run, ih (by omega), feed, ← shift_xor_shiftLeft _ htop,
        ofBits_cons, ← BitVec.xor_assoc, List.length_cons, shifts, shifts, Function.iterate_succ_apply]

/-- The same message keeps different registers different. -/
theorem run_injective (hp : p.getLsbD (w - 1) = true) (bs : List Bool) :
    Function.Injective fun r => run p r bs := by
  induction bs with
  | nil => exact Function.injective_id
  | cons b bs ih =>
      intro r r' h
      have hfeed : feed p r b = feed p r' b := ih h
      exact (BitVec.xor_left_inj _).mp (shift_injective hp hfeed)

/-! ## Bursts -/

/-- The messages differ in at most `n` bits in a row, and they differ. -/
structure Burst (n : ℕ) (xs ys : List Bool) : Prop where
  length_eq : xs.length = ys.length
  ne : xs ≠ ys
  window : ∃ start, ∀ i, ¬ (start ≤ i ∧ i < start + n) → xs[i]? = ys[i]?

/-- **A burst that is not longer than the register is detected.** -/
theorem run_ne_of_burst (hp : p.getLsbD (w - 1) = true) {n : ℕ} (hn : n ≤ w) {xs ys : List Bool}
    (h : Burst n xs ys) (r : BitVec w) : run p r xs ≠ run p r ys := by
  obtain ⟨start, hwindow⟩ := h.window
  have hbefore : xs.take start = ys.take start := by
    apply List.ext_getElem?
    intro i
    by_cases hi : i < start
    · rw [List.getElem?_take_of_lt hi, List.getElem?_take_of_lt hi]
      exact hwindow i (by omega)
    · rw [List.getElem?_eq_none (by rw [List.length_take]; omega),
        List.getElem?_eq_none (by rw [List.length_take]; omega)]
  have hafter : (xs.drop start).drop n = (ys.drop start).drop n := by
    apply List.ext_getElem?
    intro i
    rw [List.getElem?_drop, List.getElem?_drop, List.getElem?_drop, List.getElem?_drop]
    exact hwindow _ (by omega)
  have hmiddle : (xs.drop start).take n ≠ (ys.drop start).take n := by
    intro heq
    apply h.ne
    rw [← List.take_append_drop start xs, ← List.take_append_drop start ys, hbefore,
      ← List.take_append_drop n (xs.drop start), ← List.take_append_drop n (ys.drop start), heq,
      hafter]
  have hlen : ((xs.drop start).take n).length = ((ys.drop start).take n).length := by
    rw [List.length_take, List.length_take, List.length_drop, List.length_drop, h.length_eq]
  have hfits : ((xs.drop start).take n).length ≤ w := by
    rw [List.length_take]
    omega
  intro heq
  -- what follows the window can be undone, so the registers differ right behind it or not at all
  rw [← List.take_append_drop start xs, ← List.take_append_drop start ys, run_append, run_append,
    ← List.take_append_drop n (xs.drop start), ← List.take_append_drop n (ys.drop start),
    run_append, run_append, hbefore, hafter] at heq
  have hregisters := run_injective hp _ heq
  rw [run_eq_shifts hfits, run_eq_shifts (hlen.symm.trans_le hfits), hlen] at hregisters
  have hwords := (BitVec.xor_right_inj _).mp (shifts_injective hp _ hregisters)
  exact hmiddle (eq_of_ofBits_eq hlen hfits hwords)

/-! ## Messages that leave a given register -/

/-- The word that takes the register `r` to `x`. -/
def wordTo (p r x : BitVec w) : BitVec w := r ^^^ (unshift p)^[w] x

/-- **Every register can be reached** with `w` bits more. -/
theorem run_wordTo (hp : p.getLsbD (w - 1) = true) (r x : BitVec w) {bs : List Bool}
    (hlen : bs.length = w) (hbs : ofBits bs = wordTo p r x) : run p r bs = x := by
  have hundo : ∀ n, shifts p n ((unshift p)^[n] x) = x := by
    intro n
    induction n with
    | zero => rfl
    | succ n ih =>
        rw [shifts, Function.iterate_succ_apply, Function.iterate_succ_apply', shift_unshift hp]
        exact ih
  rw [run_eq_shifts hlen.le, hbs, wordTo, ← BitVec.xor_assoc, BitVec.xor_self, BitVec.zero_xor,
    hlen, hundo]

end ShiftRegister
