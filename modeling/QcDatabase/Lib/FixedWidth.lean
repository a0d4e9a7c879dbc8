/-
# Numbers written with a fixed width

Strings of one length that are put together from fields compare like the fields
do, from the first on.  So the fixed-width numerals of several numbers, one
behind the other, compare like one number with these as its digits.

`Agrees x x' a a'` says that two strings compare like two numbers; it is kept by
appending a field (`Agrees.append`) and a text that both have
(`Agrees.append_text`), and it holds of numerals (`agrees_numeral`).
-/
import Mathlib.Algebra.Order.Group.Nat
import Mathlib.Data.List.Lex

namespace FixedWidth

variable {α : Type*} [LinearOrder α]

/-- Strings whose first parts are of one length compare by these first. -/
theorem append_lt_append_iff {x x' y y' : List α} (h : x.length = x'.length) :
    x ++ y < x' ++ y' ↔ x < x' ∨ (x = x' ∧ y < y') := by
  induction x generalizing x' with
  | nil =>
      rw [List.length_nil, eq_comm, List.length_eq_zero_iff] at h
      rw [h]
      simp
  | cons c x ih =>
      rcases x' with _ | ⟨c', x'⟩
      · cases h
      · rw [List.cons_append, List.cons_append, List.cons_lt_cons_iff, List.cons_lt_cons_iff,
          ih (Nat.succ.inj h), List.cons.injEq]
        tauto

/-- Two strings of one length compare like two numbers. -/
structure Agrees (x x' : List α) (a a' : ℕ) : Prop where
  length : x.length = x'.length
  lt_iff : x < x' ↔ a < a'
  eq_iff : x = x' ↔ a = a'

variable {x x' y y' : List α} {a a' b b' m : ℕ}

/-- A field behind the string is the next digit of the number. -/
theorem Agrees.append (h : Agrees x x' a a') (h' : Agrees y y' b b') (hb : b < m) (hb' : b' < m) :
    Agrees (x ++ y) (x' ++ y') (a * m + b) (a' * m + b') where
  length := by rw [List.length_append, List.length_append, h.length, h'.length]
  lt_iff := by
    rw [append_lt_append_iff h.length, h.lt_iff, h.eq_iff, h'.lt_iff]
    constructor
    · rintro (hlt | ⟨rfl, hlt⟩)
      · calc a * m + b < (a + 1) * m := by rw [Nat.succ_mul]; omega
          _ ≤ a' * m := Nat.mul_le_mul_right m hlt
          _ ≤ a' * m + b' := Nat.le_add_right _ _
      · omega
    · intro hlt
      rcases Nat.lt_trichotomy a a' with ha | rfl | ha
      · exact Or.inl ha
      · exact Or.inr ⟨rfl, by omega⟩
      · have hle : (a' + 1) * m ≤ a * m := Nat.mul_le_mul_right m ha
        rw [Nat.succ_mul] at hle
        omega
  eq_iff := by
    constructor
    · intro heq
      obtain ⟨hx, hy⟩ := List.append_inj heq h.length
      rw [h.eq_iff.mp hx, h'.eq_iff.mp hy]
    · intro heq
      have hm : 0 < m := Nat.zero_lt_of_lt hb
      have hhigh := congrArg (· / m) heq
      have hlow := congrArg (· % m) heq
      simp only [Nat.mul_comm _ m, Nat.mul_add_div hm, Nat.div_eq_of_lt hb, Nat.div_eq_of_lt hb',
        Nat.mul_add_mod, Nat.mod_eq_of_lt hb, Nat.mod_eq_of_lt hb', Nat.add_zero] at hhigh hlow
      rw [h.eq_iff.mpr hhigh, h'.eq_iff.mpr hlow]

/-- A text behind both strings does not matter. -/
theorem Agrees.append_text (h : Agrees x x' a a') (text : List α) :
    Agrees (x ++ text) (x' ++ text) a a' where
  length := by rw [List.length_append, List.length_append, h.length]
  lt_iff := by
    rw [append_lt_append_iff h.length, ← h.lt_iff]
    simp
  eq_iff := by rw [List.append_left_inj, h.eq_iff]

/-- Nor does one in front of them. -/
theorem Agrees.text_append (h : Agrees x x' a a') (text : List α) :
    Agrees (text ++ x) (text ++ x') a a' where
  length := by rw [List.length_append, List.length_append, h.length]
  lt_iff := by
    rw [append_lt_append_iff rfl, ← h.lt_iff]
    simp
  eq_iff := by rw [List.append_right_inj, h.eq_iff]

theorem agrees_singleton {c c' : α} (hlt : c < c' ↔ a < a') (heq : c = c' ↔ a = a') :
    Agrees [c] [c'] a a' where
  length := rfl
  lt_iff := by simp [List.cons_lt_cons_iff, hlt]
  eq_iff := by rw [List.singleton_inj, heq]

/-! ## Numerals -/

/-- The last `width` digits of a number. -/
def numeral (digit : ℕ → α) (base : ℕ) : ℕ → ℕ → List α
  | 0, _ => []
  | width + 1, n => numeral digit base width (n / base) ++ [digit (n % base)]

/-- **Numerals compare like their numbers**, if the digits do and all fit. -/
theorem agrees_numeral {digit : ℕ → α} {base : ℕ}
    (hlt : ∀ d < base, ∀ d' < base, digit d < digit d' ↔ d < d') {width n n' : ℕ}
    (hn : n < base ^ width) (hn' : n' < base ^ width) :
    Agrees (numeral digit base width n) (numeral digit base width n') n n' := by
  induction width generalizing n n' with
  | zero =>
      rw [pow_zero, Nat.lt_one_iff] at hn hn'
      rw [hn, hn']
      exact ⟨rfl, by simp [numeral], by simp [numeral]⟩
  | succ width ih =>
      have hbase : 0 < base := by
        rcases Nat.eq_zero_or_pos base with rfl | hpos
        · simp at hn
        · exact hpos
      have hd := Nat.mod_lt n hbase
      have hd' := Nat.mod_lt n' hbase
      have heq : digit (n % base) = digit (n' % base) ↔ n % base = n' % base := by
        have h₁ := hlt _ hd _ hd'
        have h₂ := hlt _ hd' _ hd
        constructor
        · intro h
          rw [h] at h₁ h₂
          have := h₁.not.mp (lt_irrefl _)
          have := h₂.not.mp (lt_irrefl _)
          omega
        · intro h
          rw [h]
      have hfront := ih (Nat.div_lt_of_lt_mul (show n < base * base ^ width by rwa [pow_succ'] at hn))
        (Nat.div_lt_of_lt_mul (show n' < base * base ^ width by rwa [pow_succ'] at hn'))
      have hboth := hfront.append (agrees_singleton (hlt _ hd _ hd') heq) hd hd'
      rwa [Nat.mul_comm, Nat.div_add_mod, Nat.mul_comm, Nat.div_add_mod] at hboth

end FixedWidth
