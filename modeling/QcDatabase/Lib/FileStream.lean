/-
# File streams with sticky error flags

The state of a standard file stream and the operations on it: the position in
the file, whether a file is attached, and the flags `eofbit`, `failbit` and
`badbit`, which outlive the call that set them.  The bytes of the file are
passed to each operation, since several streams may be attached to one file.

The rules are those of the standard:

* a read that meets the end of the file sets `eofbit` and `failbit`; a read on
  a stream that is not good takes nothing;
* a write does nothing unless the stream is good;
* `seekg` clears `eofbit` only, and moves nothing on a failed stream;
* a successful `open` clears all flags, a failed one sets `failbit`.

`read_of_drop` is the one fact sequential readers need: a good stream in front
of `bs` reads `bs` and stands behind it.
-/
import Mathlib.Algebra.Order.Group.Int
import Mathlib.Data.List.Basic

/-- A file stream, without the bytes of its file. -/
structure FileStream where
  isOpen : Bool
  pos : ℕ
  eofbit : Bool
  failbit : Bool
  badbit : Bool
  deriving DecidableEq, Repr

namespace FileStream

/-- A stream no file was attached to yet. -/
def init : FileStream := ⟨false, 0, false, false, false⟩

/-- `good()`: no flag is set. -/
def good (s : FileStream) : Bool := !s.eofbit && !s.failbit && !s.badbit

/-- `fail()`: `failbit` or `badbit` is set. -/
def fail (s : FileStream) : Bool := s.failbit || s.badbit

/-- A stream that is open and good. -/
def Ready (s : FileStream) : Prop := s.isOpen = true ∧ s.good = true

/-! ## Attaching and detaching -/

/-- `open`: `available` says whether the system call succeeds. -/
def openFile (s : FileStream) (available : Bool) : FileStream :=
  if !s.isOpen && available then ⟨true, 0, false, false, false⟩
  else { s with failbit := true }

/-- `close`. -/
def close (s : FileStream) : FileStream :=
  if s.isOpen then { s with isOpen := false } else { s with failbit := true }

/-- `flush`: what was written is in the file at once, so there is nothing left
to do. -/
def flush (s : FileStream) : FileStream := s

/-! ## Positioning -/

/-- Move to `target`, which must lie in the file or behind it. -/
def moveTo (s : FileStream) (target : ℤ) : FileStream :=
  if s.isOpen && decide (0 ≤ target) then { s with pos := target.toNat }
  else { s with failbit := true }

/-- `seekg(target)`. -/
def seekg (s : FileStream) (target : ℤ) : FileStream :=
  let s := { s with eofbit := false }
  if s.fail then s else s.moveTo target

/-- `seekg(off, end)` on a file of `size` bytes. -/
def seekgEnd (s : FileStream) (size : ℕ) (off : ℤ) : FileStream := s.seekg (size + off)

/-- `seekg(off, cur)`. -/
def seekgCur (s : FileStream) (off : ℤ) : FileStream := s.seekg (s.pos + off)

/-- `seekp(0, end)` on a file of `size` bytes. -/
def seekpEnd (s : FileStream) (size : ℕ) : FileStream :=
  if s.fail then s else s.moveTo size

/-! ## Reading and writing -/

/-- `read(n)`: the bytes taken from the file, whose number is `gcount()`. -/
def read (file : List UInt8) (s : FileStream) (n : ℕ) : List UInt8 × FileStream :=
  if s.good then
    let got := if s.isOpen then (file.drop s.pos).take n else []
    if got.length < n then
      (got, { s with pos := s.pos + got.length, eofbit := true, failbit := true })
    else (got, { s with pos := s.pos + n })
  else ([], { s with failbit := true })

/-- `read` into a buffer that holds `buf`: the bytes read replace a prefix of
the buffer, the rest of it stays. -/
def readInto (file : List UInt8) (s : FileStream) (buf : List UInt8) :
    List UInt8 × FileStream :=
  let (got, s') := s.read file buf.length
  (got ++ buf.drop got.length, s')

/-- `write(bs)`: the file afterwards. -/
def write (file : List UInt8) (s : FileStream) (bs : List UInt8) :
    List UInt8 × FileStream :=
  if s.good then
    if s.isOpen then
      (file.take s.pos ++ List.replicate (s.pos - file.length) 0 ++ bs
          ++ file.drop (s.pos + bs.length),
        { s with pos := s.pos + bs.length })
    else (file, { s with badbit := true })
  else (file, s)

/-! ## Rules -/

/-- The stream moved forward by `n` bytes. -/
def advance (s : FileStream) (n : ℕ) : FileStream := { s with pos := s.pos + n }

@[simp] theorem advance_pos (s : FileStream) (n : ℕ) : (s.advance n).pos = s.pos + n := rfl

theorem Ready.advance {s : FileStream} (h : s.Ready) (n : ℕ) : (s.advance n).Ready := h

/-- **Sequential reading.**  A ready stream in front of `bs` reads `bs` and
stands behind it. -/
theorem read_of_drop {file : List UInt8} {s : FileStream} (hs : s.Ready) {bs rest : List UInt8}
    (h : file.drop s.pos = bs ++ rest) :
    s.read file bs.length = (bs, s.advance bs.length) := by
  obtain ⟨ho, hg⟩ := hs
  simp [read, hg, ho, h, advance]

/-- A read that delivers `n > 0` bytes has found them behind the position and
moves behind them. -/
theorem read_full {file : List UInt8} {s s' : FileStream} {n : ℕ} {got : List UInt8}
    (hr : s.read file n = (got, s')) (hgot : got.length = n) (hn : 0 < n) :
    s'.pos = s.pos + n ∧ n ≤ (file.drop s.pos).length := by
  rw [read] at hr
  dsimp only at hr
  split_ifs at hr with hg ho hlt hlt
  all_goals obtain ⟨rfl, rfl⟩ := Prod.mk.inj hr
  · omega
  · exact ⟨rfl, by rw [List.length_take] at hgot; omega⟩
  all_goals
    rw [List.length_nil] at hgot
    omega

/-- Reading never moves back. -/
theorem pos_le_read {file : List UInt8} {s s' : FileStream} {n : ℕ} {got : List UInt8}
    (hr : s.read file n = (got, s')) : s.pos ≤ s'.pos := by
  rw [read] at hr
  dsimp only at hr
  split_ifs at hr
  all_goals
    obtain ⟨rfl, rfl⟩ := Prod.mk.inj hr
    simp

/-- Reading at most what is left. -/
theorem read_of_le {file : List UInt8} {s : FileStream} (hs : s.Ready) {n : ℕ}
    (h : n ≤ (file.drop s.pos).length) :
    s.read file n = ((file.drop s.pos).take n, s.advance n) := by
  have hlen : ((file.drop s.pos).take n).length = n := by rw [List.length_take]; omega
  have hread := read_of_drop hs (List.take_append_drop n (file.drop s.pos)).symm
  rwa [hlen] at hread

theorem readInto_of_drop {file : List UInt8} {s : FileStream} (hs : s.Ready)
    {bs rest buf : List UInt8} (h : file.drop s.pos = bs ++ rest) (hlen : buf.length = bs.length) :
    s.readInto file buf = (bs, s.advance bs.length) := by
  simp only [readInto, hlen, read_of_drop hs h]
  simp [hlen]

/-- What lies behind the bytes just read. -/
theorem drop_advance {file : List UInt8} {s : FileStream} {bs rest : List UInt8}
    (h : file.drop s.pos = bs ++ rest) : file.drop (s.advance bs.length).pos = rest := by
  rw [advance_pos, ← List.drop_drop, h, List.drop_left]

/-- A read that finds too little takes it all and fails the stream. -/
theorem read_of_short {file : List UInt8} {s : FileStream} (hs : s.Ready) {n : ℕ}
    (h : (file.drop s.pos).length < n) :
    s.read file n = (file.drop s.pos,
      { s with pos := s.pos + (file.drop s.pos).length, eofbit := true, failbit := true }) := by
  obtain ⟨ho, hg⟩ := hs
  have htake : (file.drop s.pos).take n = file.drop s.pos := List.take_of_length_le (by omega)
  rw [read, if_pos hg, if_pos ho]
  dsimp only
  rw [htake, if_pos h]

/-- A ready stream with `bs` left to read. -/
structure At (file : List UInt8) (s : FileStream) (bs : List UInt8) : Prop where
  ready : s.Ready
  drop_eq : file.drop s.pos = bs

/-- Filling a buffer from what is left. -/
theorem At.readInto {file : List UInt8} {s : FileStream} {bs rest : List UInt8}
    (h : At file s (bs ++ rest)) (buf : List UInt8) (hlen : buf.length = bs.length) :
    ∃ s', s.readInto file buf = (bs, s') ∧ At file s' rest :=
  ⟨s.advance bs.length, readInto_of_drop h.ready h.drop_eq hlen, h.ready.advance _,
    drop_advance h.drop_eq⟩

theorem seekg_of_ready {s : FileStream} (hs : s.Ready) (n : ℕ) :
    s.seekg n = { s with pos := n } := by
  obtain ⟨ho, hg⟩ := hs
  simp only [good, Bool.and_eq_true, Bool.not_eq_eq_eq_not, Bool.not_true] at hg
  simp [seekg, moveTo, fail, ho, hg]

/-- After `seekg(n)` what follows position `n` is left. -/
theorem Ready.at_seekg {s : FileStream} (hs : s.Ready) (file : List UInt8) (n : ℕ) :
    At file (s.seekg n) (file.drop n) := by
  rw [seekg_of_ready hs]
  exact ⟨hs, rfl⟩

/-- A successful `open` of a new stream stands at the beginning. -/
theorem at_openFile (file : List UInt8) : At file (init.openFile true) file :=
  ⟨⟨rfl, rfl⟩, List.drop_zero⟩

theorem seekg_zero_of_ready {s : FileStream} (hs : s.Ready) : s.seekg 0 = { s with pos := 0 } :=
  seekg_of_ready hs 0

/-- `seekg` never revives a failed stream. -/
theorem seekg_of_fail {s : FileStream} (hs : s.fail = true) (target : ℤ) :
    s.seekg target = { s with eofbit := false } := by
  have : ({ s with eofbit := false } : FileStream).fail = true := hs
  simp [seekg, this]

theorem write_of_not_good {s : FileStream} (hs : s.good = false) (file bs : List UInt8) :
    s.write file bs = (file, s) := by
  simp [write, hs]

/-- Writing at the end appends. -/
theorem write_at_end {file : List UInt8} {s : FileStream} (hs : s.Ready)
    (hpos : s.pos = file.length) (bs : List UInt8) :
    s.write file bs = (file ++ bs, s.advance bs.length) := by
  obtain ⟨ho, hg⟩ := hs
  simp [write, hg, ho, hpos, advance]

end FileStream
