import TgCli.Lib.Bytes
import Mathlib.Data.List.TakeDrop

/-!
# Files read and written in pieces

`fread` may deliver less than it is asked for, and nothing but the number of bytes says so.  A
reader that insists on that number has read the file: `fread_of_length` is the fact about one call,
and `flatten_slices` puts the pieces together.

`fwrite` may take less than it is given, and says so.  What it has taken may still be in the
buffer of the stream when the file is closed, and then it is `fclose` that fails.  A writer that
does not look at the result of `fclose` does not know what the file holds; `fclose_eq_iff` says
when it holds everything.
-/

namespace TgCli.Lib

open List

/-- A stream that is open for reading, on a file that does not change.  `yields` is the most that
each `fread` to come delivers, and `seeks` says whether each `fseek` to come works; when a list is
used up, the calls fail. -/
structure InStream where
  content : Bytes
  pos : ℕ
  yields : List ℕ
  seeks : List Bool

namespace InStream

/-- `fread` of `n` bytes. -/
def fread (n : ℕ) (f : InStream) : Bytes × InStream :=
  let b := slice f.content f.pos (min n (f.yields.headD 0))
  (b, { f with pos := f.pos + b.length, yields := f.yields.tail })

def rewind (f : InStream) : Bool × InStream :=
  let ok := f.seeks.headD false
  (ok, { f with pos := if ok then 0 else f.pos, seeks := f.seeks.tail })

@[simp] theorem content_fread (n : ℕ) (f : InStream) : (f.fread n).2.content = f.content := rfl

@[simp] theorem yields_fread (n : ℕ) (f : InStream) : (f.fread n).2.yields = f.yields.tail := rfl

theorem pos_fread (n : ℕ) (f : InStream) : (f.fread n).2.pos = f.pos + (f.fread n).1.length := rfl

theorem pos_rewind {f : InStream} (h : f.rewind.1 = true) : f.rewind.2.pos = 0 :=
  if_pos h

theorem fread_of_length {f : InStream} {n : ℕ} (h : (f.fread n).1.length = n) :
    (f.fread n).1 = slice f.content f.pos n := by
  have hmin : min n (f.yields.headD 0) = n := by
    have hle : (f.fread n).1.length ≤ min n (f.yields.headD 0) := by
      rw [fread, length_slice]
      exact min_le_left _ _
    omega
  rw [fread, hmin]

end InStream

/-! ## Writing -/

/-- A stream that is open for writing.  `accepted` is what `fwrite` has taken, `takes` is the most
that each call to come takes, and `lost` is how many of the last bytes will not make it to the file
when the stream is closed. -/
structure OutStream where
  accepted : Bytes
  takes : List ℕ
  lost : ℕ

namespace OutStream

/-- `fwrite`, with the number of bytes that it took. -/
def fwrite (b : Bytes) (f : OutStream) : ℕ × OutStream :=
  let n := min b.length (f.takes.headD 0)
  (n, { f with accepted := f.accepted ++ b.take n, takes := f.takes.tail })

/-- What the file holds once the stream is closed. -/
def fclose (f : OutStream) : Bytes :=
  f.accepted.take (f.accepted.length - f.lost)

@[simp] theorem lost_fwrite (b : Bytes) (f : OutStream) : (f.fwrite b).2.lost = f.lost := rfl

@[simp] theorem takes_fwrite (b : Bytes) (f : OutStream) : (f.fwrite b).2.takes = f.takes.tail :=
  rfl

theorem fwrite_eq_length_iff (b : Bytes) (f : OutStream) :
    (f.fwrite b).1 = b.length ↔ b.length ≤ f.takes.headD 0 :=
  min_eq_left_iff

theorem accepted_fwrite {b : Bytes} {f : OutStream} (h : b.length ≤ f.takes.headD 0) :
    (f.fwrite b).2.accepted = f.accepted ++ b := by
  show f.accepted ++ b.take (min b.length (f.takes.headD 0)) = f.accepted ++ b
  rw [min_eq_left h, take_length]

theorem length_accepted_fwrite (b : Bytes) (f : OutStream) :
    (f.fwrite b).2.accepted.length = f.accepted.length + min b.length (f.takes.headD 0) := by
  show (f.accepted ++ b.take (min b.length (f.takes.headD 0))).length = _
  rw [length_append, length_take]
  omega

theorem fclose_eq_iff (f : OutStream) :
    f.fclose = f.accepted ↔ f.lost = 0 ∨ f.accepted = [] := by
  rw [fclose, take_eq_self_iff, ← length_eq_zero_iff]
  omega

end OutStream

/-- `fgets` into `cap` bytes, at the front of what is left of a file. -/
def fgets (cap : ℕ) (s : Bytes) : Bytes :=
  (s.takeWhile (· ≠ 0x0a) ++ (s.dropWhile (· ≠ 0x0a)).take 1).take (cap - 1)

/-- What `fgets` returns until the end of the file; every call takes at least one byte. -/
def fgetsAll (cap : ℕ) : ℕ → Bytes → List Bytes
  | 0, _ => []
  | n + 1, s => if s = [] then [] else fgets cap s :: fgetsAll cap n (s.drop (fgets cap s).length)

/-! ## Names of files -/

/-- Files by name.  Two names may stand for one file. -/
structure Disk (P : Type) where
  fileOf : P → ℕ
  data : ℕ → Option Bytes

namespace Disk

variable {P : Type}

def read (d : Disk P) (p : P) : Option Bytes :=
  d.data (d.fileOf p)

def store (d : Disk P) (p : P) (b : Bytes) : Disk P :=
  { d with data := Function.update d.data (d.fileOf p) (some b) }

@[simp] theorem read_store (d : Disk P) (p : P) (b : Bytes) : (d.store p b).read p = some b :=
  Function.update_self ..

theorem read_store_of_eq {d : Disk P} {p q : P} (h : d.fileOf q = d.fileOf p) (b : Bytes) :
    (d.store p b).read q = some b := by
  show Function.update d.data (d.fileOf p) (some b) (d.fileOf q) = some b
  rw [h, Function.update_self]

theorem read_store_of_ne {d : Disk P} {p q : P} (h : d.fileOf q ≠ d.fileOf p) (b : Bytes) :
    (d.store p b).read q = d.read q :=
  Function.update_of_ne h ..

theorem store_store (d : Disk P) (p : P) (b b' : Bytes) : (d.store p b).store p b' = d.store p b' :=
  congrArg (Disk.mk d.fileOf) (Function.update_idem ..)

end Disk

/-! ## Pieces -/

theorem slice_left (b : Bytes) (off n : ℕ) :
    slice b off (min (b.length - off) n) = slice b off n := by
  rw [slice, slice, ← length_drop, ← take_take, take_of_length_le]
  exact length_take_le' n _

/-- A reader that is not at the end of the file after `k` pieces has read `k` whole ones, and one
more takes it to the end of the next. -/
theorem next_piece {k c done total : ℕ} (hc : 0 < c) (hdone : done = min (k * c) total)
    (hlt : done < total) :
    k * c = done ∧ done + min (total - done) c = min ((k + 1) * c) total ∧
      total - (done + min (total - done) c) < total - done := by
  have hk : k * c = done := by omega
  refine ⟨hk, ?_, by omega⟩
  rw [Nat.add_one_mul, hk]
  omega

theorem flatten_slices (b : Bytes) (c k : ℕ) :
    ((range k).map fun i => slice b (i * c) c).flatten = b.take (k * c) := by
  induction k with
  | zero => simp
  | succ k ih =>
    rw [range_succ, map_append, flatten_append, ih, map_singleton,
      flatten_singleton, Nat.succ_mul, take_add]
    rfl

end TgCli.Lib
