import Mathlib.Data.List.Basic
import Mathlib.Tactic.Ring

/-!
# Byte strings and little-endian words

A wire format and a file format are both read with one operation --- copy `n` bytes from
offset `off` --- and both are written by concatenation.  Two facts join them, for fields
(`slice_append_exact`) and for little-endian words (`leNat_leBytes`).

Nothing here knows a format.  The width of a word is a parameter, and so is the type of a record.
-/

namespace TgCli.Lib

open List

abbrev Bytes := List UInt8

/-- A condition on the bytes of a string is decided from byte to byte, not over all bytes. -/
instance decidableForallByte (b : Bytes) (p : UInt8 → Prop) [DecidablePred p] :
    Decidable (∀ c ∈ b, p c) :=
  List.decidableBAll p b

/-- A byte string of a fixed length, the model of an array `uint8_t[n]`. -/
abbrev Block (n : ℕ) := {l : Bytes // l.length = n}

variable {k n w off : ℕ} {b p q : Bytes}

@[simp] theorem length_block (b : Block n) : b.1.length = n :=
  b.2

def ascii (s : String) : Bytes :=
  s.toList.map fun c => UInt8.ofNat c.toNat

/-! ## Up to a byte -/

section UpTo

variable {x : UInt8} {l : Bytes}

theorem forall_decide_ne (h : x ∉ l) : ∀ c ∈ l, decide (c ≠ x) = true :=
  fun _ hc => decide_eq_true fun he => h (he ▸ hc)

theorem takeWhile_ne_append (h : x ∉ l) (t : Bytes) : (l ++ x :: t).takeWhile (· ≠ x) = l := by
  rw [takeWhile_append_of_pos (forall_decide_ne h), takeWhile_cons_of_neg (by simp),
    append_nil]

theorem dropWhile_ne_append (h : x ∉ l) (t : Bytes) :
    (l ++ x :: t).dropWhile (· ≠ x) = x :: t := by
  rw [dropWhile_append_of_pos (forall_decide_ne h), dropWhile_cons_of_neg (by simp)]

end UpTo

/-! ## Slices -/

/-- The `n` bytes from offset `off`; shorter when the string ends first. -/
def slice (b : Bytes) (off n : ℕ) : Bytes :=
  (b.drop off).take n

theorem length_slice (b : Bytes) (off n : ℕ) : (slice b off n).length = min n (b.length - off) := by
  rw [slice, length_take, length_drop]

theorem length_slice_of_le (h : off + n ≤ b.length) :
    (slice b off n).length = n := by
  rw [length_slice]
  omega

/-- **A slice at the place where a field was put** is that field. -/
theorem slice_append_exact (p f q : Bytes) : slice (p ++ (f ++ q)) p.length f.length = f := by
  rw [slice, drop_left, take_left]

theorem slice_field {f : Bytes} (hb : b = p ++ (f ++ q)) (hoff : p.length = off)
    (hn : f.length = n) : slice b off n = f := by
  subst hb hoff hn
  exact slice_append_exact p f q

theorem slice_append_right (p q : Bytes) (off n : ℕ) :
    slice (p ++ q) (p.length + off) n = slice q off n := by
  rw [slice, slice, ← drop_drop, drop_left]

theorem slice_append_left (h : off + n ≤ p.length) :
    slice (p ++ q) off n = slice p off n := by
  rw [slice, slice, drop_append_of_le_length (by omega),
    take_append_of_le_length (by rw [length_drop]; omega)]

theorem slice_take (h : off + n ≤ k) :
    slice (b.take k) off n = slice b off n := by
  rw [slice, slice, drop_take, take_take, min_eq_left (by omega)]

theorem slice_buffer (h : off + n ≤ b.length) (hk : b.length ≤ k)
    (rest : Bytes) : slice ((b ++ rest).take k) off n = slice b off n := by
  rw [slice_take (by omega), slice_append_left h]

theorem slice_zero (b : Bytes) (n : ℕ) : slice b 0 n = b.take n := by
  rw [slice, drop_zero]

/-! ## Fixed blocks -/

/-- The first `n` bytes, zeros where the string is shorter. -/
def toBlock (n : ℕ) (b : Bytes) : Block n :=
  ⟨(b ++ List.replicate n 0).take n, by
    rw [List.length_take, List.length_append, List.length_replicate]; omega⟩

theorem toBlock_of_length (h : b.length = n) : (toBlock n b).1 = b := by
  subst h
  exact take_left

theorem toBlock_append (n : ℕ) (a : Block n) (b : Bytes) : toBlock n (a.1 ++ b) = a := by
  refine Subtype.ext ?_
  show ((a.1 ++ b) ++ replicate n 0).take n = a.1
  rw [append_assoc, take_append_of_le_length (le_of_eq a.2.symm),
    take_of_length_le (le_of_eq a.2)]

/-! ## Records of one width -/

section Records

variable {α : Type*} {f : α → Bytes} {w : ℕ}

theorem length_flatMap_const (hf : ∀ a, (f a).length = w) (l : List α) :
    (l.flatMap f).length = l.length * w := by
  induction l with
  | nil => simp
  | cons a l ih =>
    rw [flatMap_cons, length_append, hf, ih, length_cons]
    ring

theorem drop_flatMap_const (hf : ∀ a, (f a).length = w) (l : List α) (i : ℕ) :
    (l.flatMap f).drop (i * w) = (l.drop i).flatMap f := by
  induction i generalizing l with
  | zero => simp
  | succ i ih =>
    cases l with
    | nil => simp
    | cons a l =>
      rw [flatMap_cons, drop_succ_cons, ← ih l, Nat.succ_mul, Nat.add_comm, ← drop_drop]
      congr 1
      rw [← hf a, drop_left]

/-- In a concatenation of equally wide records the `i`th is found by its number. -/
theorem slice_flatMap (hf : ∀ a, (f a).length = w) {l : List α} {i : ℕ} (hi : i < l.length) :
    slice (l.flatMap f) (i * w) w = f l[i] := by
  rw [slice, drop_flatMap_const hf, drop_eq_getElem_cons hi, flatMap_cons, ← hf l[i],
    take_left]

end Records

/-! ## Little-endian words -/

def leNat : Bytes → ℕ
  | [] => 0
  | b :: bs => b.toNat + 256 * leNat bs

/-- The `w` low bytes of `n`, the lowest first: byte `i` is `n >> (8 * i)`. -/
def leBytes (w n : ℕ) : Bytes :=
  (List.range w).map fun i => UInt8.ofNat (n / 256 ^ i)

@[simp] theorem length_leBytes (w n : ℕ) : (leBytes w n).length = w := by
  rw [leBytes, length_map, length_range]

theorem leBytes_succ (w n : ℕ) : leBytes (w + 1) n = UInt8.ofNat n :: leBytes w (n / 256) := by
  rw [leBytes, range_succ_eq_map, map_cons, map_map, leBytes]
  congr 1
  · rw [pow_zero, Nat.div_one]
  · refine map_congr_left fun i _ => ?_
    rw [Function.comp_apply, Nat.div_div_eq_div_mul, Nat.succ_eq_add_one, pow_succ']

/-- **Reading back a little-endian word** gives the word, up to its width. -/
theorem leNat_leBytes (w n : ℕ) : leNat (leBytes w n) = n % 256 ^ w := by
  induction w generalizing n with
  | zero => rw [pow_zero, Nat.mod_one]; rfl
  | succ w ih =>
    rw [leBytes_succ, leNat, ih, pow_succ', Nat.mod_mul, UInt8.toNat_ofNat']

theorem leNat_leBytes_of_lt (h : n < 256 ^ w) : leNat (leBytes w n) = n := by
  rw [leNat_leBytes, Nat.mod_eq_of_lt h]

theorem leNat_lt (b : Bytes) : leNat b < 256 ^ b.length := by
  induction b with
  | nil => simp [leNat]
  | cons x b ih =>
    have hx : x.toNat < 256 := x.toNat_lt
    rw [leNat, length_cons, pow_succ]
    omega

theorem leNat_append (a b : Bytes) : leNat (a ++ b) = leNat a + 256 ^ a.length * leNat b := by
  induction a with
  | nil => simp [leNat]
  | cons x xs ih =>
    rw [cons_append, leNat, leNat, ih, length_cons, pow_succ]
    ring

theorem leBytes_leNat (h : b.length = w) : leBytes w (leNat b) = b := by
  subst h
  induction b with
  | nil => rfl
  | cons x b ih =>
    have hx : x.toNat < 256 := x.toNat_lt
    have hdiv : (x.toNat + 256 * leNat b) / 256 = leNat b := by omega
    rw [leNat, length_cons, leBytes_succ, hdiv, ih]
    congr 1
    refine UInt8.toNat_inj.mp ?_
    rw [UInt8.toNat_ofNat']
    omega

/-- The `uint32_t` copied from four bytes at `off`. -/
def u32At (b : Bytes) (off : ℕ) : UInt32 :=
  UInt32.ofNat (leNat (slice b off 4))

/-- The `uint64_t` copied from eight bytes at `off`. -/
def u64At (b : Bytes) (off : ℕ) : UInt64 :=
  UInt64.ofNat (leNat (slice b off 8))

def u32Bytes (x : UInt32) : Bytes :=
  leBytes 4 x.toNat

def u64Bytes (x : UInt64) : Bytes :=
  leBytes 8 x.toNat

@[simp] theorem length_u32Bytes (x : UInt32) : (u32Bytes x).length = 4 :=
  length_leBytes 4 _

@[simp] theorem length_u64Bytes (x : UInt64) : (u64Bytes x).length = 8 :=
  length_leBytes 8 _

theorem u32At_of_slice {x : UInt32} (h : slice b off 4 = u32Bytes x) :
    u32At b off = x := by
  rw [u32At, h, u32Bytes, leNat_leBytes_of_lt (UInt32.toNat_lt x), UInt32.ofNat_toNat]

theorem u64At_of_slice {x : UInt64} (h : slice b off 8 = u64Bytes x) :
    u64At b off = x := by
  rw [u64At, h, u64Bytes, leNat_leBytes_of_lt (UInt64.toNat_lt x), UInt64.ofNat_toNat]

theorem toNat_u32At (b : Bytes) (off : ℕ) : (u32At b off).toNat = leNat (slice b off 4) := by
  have hlt := leNat_lt (slice b off 4)
  have hle : (slice b off 4).length ≤ 4 := by rw [length_slice]; exact min_le_left _ _
  rw [u32At, UInt32.toNat_ofNat_of_lt' (hlt.trans_le (Nat.pow_le_pow_right (by decide) hle))]

theorem toNat_u64At (h : off + 8 ≤ b.length) :
    (u64At b off).toNat = (u32At b off).toNat + 2 ^ 32 * (u32At b (off + 4)).toNat := by
  have hcut : slice b off 8 = slice b off 4 ++ slice b (off + 4) 4 := by
    rw [slice, slice, slice, ← drop_drop, ← take_add]
  have hlt := leNat_lt (slice b off 8)
  rw [length_slice_of_le h] at hlt
  rw [u64At, UInt64.toNat_ofNat_of_lt' hlt, hcut, leNat_append,
    length_slice_of_le (by omega : off + 4 ≤ b.length), toNat_u32At, toNat_u32At,
    show 256 ^ 4 = 2 ^ 32 from rfl]

theorem u64Bytes_u64At (h : off + 8 ≤ b.length) :
    u64Bytes (u64At b off) = slice b off 8 := by
  have hlen := length_slice_of_le h
  have hlt := leNat_lt (slice b off 8)
  rw [hlen] at hlt
  rw [u64At, u64Bytes, UInt64.toNat_ofNat_of_lt' hlt, leBytes_leNat hlen]

theorem u32Bytes_u32At (h : off + 4 ≤ b.length) :
    u32Bytes (u32At b off) = slice b off 4 := by
  rw [u32Bytes, toNat_u32At, leBytes_leNat (length_slice_of_le h)]

theorem u32Bytes_append_drop (h : 4 ≤ b.length) :
    u32Bytes (u32At b 0) ++ b.drop 4 = b := by
  rw [u32Bytes_u32At (by omega), slice_zero, take_append_drop]

theorem u64Bytes_append_drop (h : 8 ≤ b.length) :
    u64Bytes (u64At b 0) ++ b.drop 8 = b := by
  rw [u64Bytes_u64At (by omega), slice_zero, take_append_drop]

end TgCli.Lib
