import Mathlib.Data.List.GetD
import TgCli.Core.TlSkip

/-!
# `core/tl_skip.c`: how its functions are written

Every function of the file is a sequence of the same few things: a check that some bytes are there,
reads of fixed width, strings, calls of other functions, loops over a counter, and tests of a flag.
A `Walk` is such a sequence.

The checks are the point.  `r->len - r->pos < n` is computed in `size_t`, so behind the end of the
buffer it wraps around and passes, and a read that does not fit moves the cursor to the end and goes
on with zeros.  What keeps a walker honest is that each read stands behind a check that covers it.
`Guarded n k w` says this of a piece of a walker: `n` bytes are known to be there before it and `k`
after it.  It is a class, so that a definition finds its own proof, and a `Skipper` cannot be built
without one.

What a guarded walker keeps is stated for buffers of whole words.  There it never leaves the buffer,
and whatever it finds it finds again in a longer buffer, and in a shorter one that has it all.  Only
a string can lead out of the buffer: its padding is skipped without a look whether it is there.
-/

namespace TgCli.Core

open TlReader Option Lib

/-- A piece of a walker: a value and the reader behind it, or nothing. -/
abbrev Walk := StateT TlReader Option

namespace Walk

variable {α β : Type}

/-- `return -1;`. -/
def fail : Walk α :=
  fun _ => none

/-- `if (!tl_reader_ok(r) || r->len - r->pos < n) return -1;`. -/
def enter (n : ℕ) : Walk Unit :=
  fun r => if !tlReaderOk r || decide (r.left < n) then none else some ((), r)

/-- `if (r->len - r->pos < n) return -1;`. -/
def need (n : ℕ) : Walk Unit :=
  fun r => if r.left < n then none else some ((), r)

/-- `if (!c) return -1;`. -/
def ensure (c : Prop) [Decidable c] : Walk Unit :=
  if c then pure () else fail

def read (f : TlReader → α × TlReader) : Walk α :=
  fun r => some (f r)

def u32 : Walk UInt32 := read tlReadUint32
def i32 : Walk Int32 := read tlReadInt32
def i64 : Walk Int64 := read tlReadInt64

/-- `tl_read_int32(r);` or `tl_read_uint32(r);` for its effect on the cursor. -/
def drop32 : Walk Unit := read fun r => ((), (tlReadInt32 r).2)

/-- `tl_read_int64(r);` or `tl_read_double(r);` for its effect on the cursor. -/
def drop64 : Walk Unit := read fun r => ((), (tlReadInt64 r).2)

/-- `char *s = tl_read_string(r); if (!s) return -1;`. -/
def str : Walk Bytes :=
  fun r => (tlReadString r).1.map fun s => (s, (tlReadString r).2)

/-- `if (f(r) != 0) return -1;`. -/
def skip (f : TlReader → Option TlReader) : Walk Unit :=
  fun r => (f r).map fun r' => ((), r')

/-- `if (c) { … }`. -/
def opt (c : Bool) (w : Walk Unit) : Walk Unit :=
  if c then w else pure ()

/-- `for (uint32_t i = 0; i < n; i++) { … }`. -/
def rep (w : Walk Unit) : ℕ → Walk Unit
  | 0 => pure ()
  | n + 1 => w >>= fun _ => rep w n

def vector (item : Walk Unit) : Walk Unit := do
  need 8
  let vec ← u32
  ensure (vec = tlVector)
  let n ← u32
  rep item n.toNat

def enterVector (item : Walk Unit) : Walk Unit := do
  enter 8
  let vec ← u32
  ensure (vec = tlVector)
  let n ← u32
  rep item n.toNat

/-- A vector of `int`s, which are checked for all at once. -/
def vector32 : Walk Unit := do
  need 8
  let vec ← u32
  ensure (vec = tlVector)
  let n ← u32
  need (n.toNat * 4)
  rep drop32 n.toNat

/-- A vector of `long`s. -/
def vector64 : Walk Unit := do
  need 8
  let vec ← u32
  ensure (vec = tlVector)
  let n ← u32
  need (n.toNat * 8)
  rep drop64 n.toNat

variable {f : α → Walk β}

theorem bind_eq_some {w : Walk α} {r r' : TlReader} {b : β} :
    (w >>= f) r = some (b, r') ↔ ∃ a r₁, w r = some (a, r₁) ∧ f a r₁ = some (b, r') := by
  show (w r).bind (fun x => f x.1 x.2) = some (b, r') ↔ _
  rw [bind_eq_some_iff]
  exact ⟨fun ⟨x, h1, h2⟩ => ⟨x.1, x.2, h1, h2⟩, fun ⟨a, r₁, h1, h2⟩ => ⟨(a, r₁), h1, h2⟩⟩

theorem bind_of_some {w : Walk α} {r r₁ : TlReader} {a : α}
    (h : w r = some (a, r₁)) : (w >>= f) r = f a r₁ := by
  show (w r).bind (fun x => f x.1 x.2) = f a r₁
  rw [h, bind_some]

theorem bind_of_none {w : Walk α} {r : TlReader} (h : w r = none) :
    (w >>= f) r = none := by
  show (w r).bind (fun x => f x.1 x.2) = none
  rw [h, bind_none]

end Walk

/-! ## Guards -/

/-- **A guarded walk.**  `n` bytes are known to be behind the cursor before it, and `k` after it. -/
class Guarded {α : Type} (n : ℕ) (k : outParam ℕ) (w : Walk α) : Prop where
  /-- The buffer stays the same. -/
  data_eq : ∀ {r a r'}, w r = some (a, r') → r'.data = r.data
  /-- A place inside the buffer that is behind the cursor stays behind it. -/
  past : ∀ {r a r' m}, w r = some (a, r') → m < r.pos → m < r.data.length → m < r'.pos
  /-- A walk that ends inside the buffer has moved by whole words. -/
  words : ∀ {r a r'}, w r = some (a, r') → r'.pos < r.data.length →
    r.pos ≤ r'.pos ∧ 4 ∣ r'.pos - r.pos
  /-- In a buffer of whole words the walk stays inside and does not depend on what follows. -/
  whole : ∀ {b p a r'}, p + n ≤ b.length → 4 ∣ b.length - p → w ⟨b, p⟩ = some (a, r') →
    r'.pos + k ≤ b.length ∧ 4 ∣ b.length - r'.pos ∧
      ∀ s, w ⟨b ++ s, p⟩ = some (a, ⟨b ++ s, r'.pos⟩)
  /-- What is walked over inside the first part of a buffer needs only this part. -/
  back : ∀ {b s p a r'}, s ≠ [] → p ≤ b.length → 4 ∣ b.length - p →
    w ⟨b ++ s, p⟩ = some (a, r') → r'.pos + k ≤ b.length →
    p + n ≤ b.length ∧ w ⟨b, p⟩ = some (a, ⟨b, r'.pos⟩)

theorem length_lt_append {b s : Bytes} (hs : s ≠ []) : b.length < (b ++ s).length := by
  have := List.length_pos_iff.mpr hs
  rw [List.length_append]
  omega

/-- The length prefix at a place: its own width and the length of the data. -/
def BytesSpan (b : Bytes) (p hd n : ℕ) : Prop :=
  (b.getD p 0 < 254 ∧ hd = 1 ∧ n = (b.getD p 0).toNat) ∨
    (254 ≤ b.getD p 0 ∧ hd = 4 ∧ n = leNat (slice b (p + 1) 3))

theorem BytesSpan.pos {b : Bytes} {p hd n : ℕ} (h : BytesSpan b p hd n) : 1 ≤ hd := by
  obtain ⟨-, rfl, -⟩ | ⟨-, rfl, -⟩ := h <;> decide

theorem bytesSpan_append {b s : Bytes} {p hd n : ℕ} (hp : p < b.length) (h : p + hd ≤ b.length) :
    BytesSpan (b ++ s) p hd n ↔ BytesSpan b p hd n := by
  rw [BytesSpan, BytesSpan, List.getD_append _ _ _ _ hp]
  refine or_congr Iff.rfl (and_congr_right fun _ => and_congr_right fun hhd => ?_)
  rw [slice_append_left (by omega)]

theorem tlReadBytes_eq_some {r r' : TlReader} {s : Bytes} :
    tlReadBytes r = (some s, r') ↔ ∃ hd n, BytesSpan r.data r.pos hd n ∧
      r.pos + (hd + n) ≤ r.data.length ∧ s = slice r.data (r.pos + hd) n ∧
      r' = r.advance ((hd + n + 3) / 4 * 4) := by
  by_cases h1 : r.pos + 1 ≤ r.data.length
  · have hhas : r.has 1 = true := has_eq_true.mpr h1
    by_cases hfirst : r.data.getD r.pos 0 < 254
    · have hge : ¬ 254 ≤ r.data.getD r.pos 0 := UInt8.not_le.mpr hfirst
      simp only [tlReadBytes, hhas, hfirst, hge, Bool.not_true, Bool.false_eq_true, if_false,
        if_true, decide_false, Bool.false_and]
      simp only [BytesSpan, hfirst, hge, true_and, false_and, or_false]
      constructor
      · intro h
        split_ifs at h with hno
        · exact absurd h (by simp)
        · obtain ⟨hs, hr⟩ := Prod.mk.inj h
          exact ⟨1, _, ⟨rfl, rfl⟩, by simpa using hno, (some_inj.mp hs).symm, hr.symm⟩
      · rintro ⟨hd, n, ⟨rfl, rfl⟩, hfit, rfl, rfl⟩
        rw [has_eq_true.mpr hfit]
        rfl
    · have hge : 254 ≤ r.data.getD r.pos 0 := UInt8.not_lt.mp hfirst
      simp only [BytesSpan, hfirst, hge, true_and, false_and, false_or]
      by_cases h4 : r.pos + 4 ≤ r.data.length
      · have hhas4 : r.has 4 = true := has_eq_true.mpr h4
        simp only [tlReadBytes, hhas, hhas4, hfirst, Bool.not_true, Bool.false_eq_true, if_false,
          Bool.and_false]
        constructor
        · intro h
          split_ifs at h with hno
          · exact absurd h (by simp)
          · obtain ⟨hs, hr⟩ := Prod.mk.inj h
            exact ⟨4, _, ⟨rfl, rfl⟩, by simpa using hno, (some_inj.mp hs).symm, hr.symm⟩
        · rintro ⟨hd, n, ⟨rfl, rfl⟩, hfit, rfl, rfl⟩
          rw [has_eq_true.mpr hfit]
          rfl
      · have hhas4 : r.has 4 = false := has_eq_false.mpr (by omega)
        simp only [tlReadBytes, hhas, hhas4, hge, Bool.not_true, Bool.false_eq_true, if_false,
          decide_true, Bool.not_false, Bool.and_self, if_true]
        constructor
        · intro h
          exact absurd h (by simp)
        · rintro ⟨hd, n, ⟨rfl, rfl⟩, hfit, -⟩
          omega
  · have hno : r.has 1 = false := has_eq_false.mpr (by omega)
    constructor
    · intro h
      rw [tlReadBytes, hno] at h
      exact absurd h (by simp)
    · rintro ⟨hd, n, hspan, hfit, -, -⟩
      have := hspan.pos
      omega

theorem tlReadBytes_eq_none {r r' : TlReader} (h : tlReadBytes r = (none, r')) : r' = r.toEnd := by
  rw [tlReadBytes] at h
  dsimp only at h
  split_ifs at h
  all_goals
    first
    | exact (Prod.mk.inj h).2.symm
    | exact absurd (Prod.mk.inj h).1 (some_ne_none _)

namespace Guarded

variable {α β : Type} {n k l : ℕ}

open Walk

instance pure (a : α) : Guarded n n (Pure.pure a : Walk α) where
  data_eq h := by obtain ⟨-, rfl⟩ := Prod.mk.inj (Option.some_inj.mp h); rfl
  past h hm _ := by obtain ⟨-, rfl⟩ := Prod.mk.inj (Option.some_inj.mp h); exact hm
  words h _ := by
    obtain ⟨-, rfl⟩ := Prod.mk.inj (Option.some_inj.mp h)
    exact ⟨le_rfl, by rw [Nat.sub_self]; exact dvd_zero 4⟩
  whole hn h4 h := by
    obtain ⟨rfl, rfl⟩ := Prod.mk.inj (Option.some_inj.mp h)
    exact ⟨hn, h4, fun _ => rfl⟩
  back _ _ _ h hk := by
    obtain ⟨rfl, rfl⟩ := Prod.mk.inj (Option.some_inj.mp h)
    exact ⟨hk, rfl⟩

theorem of_fail : Guarded n k (Walk.fail : Walk α) where
  data_eq h := nomatch h
  past h := nomatch h
  words h := nomatch h
  whole _ _ h := nomatch h
  back _ _ _ h := nomatch h

instance fail : Guarded n 0 (Walk.fail : Walk α) :=
  of_fail

/-- **Composition**: what the first part leaves is what the second part has. -/
instance bind {w : Walk α} {f : α → Walk β} [hw : Guarded n k w] [hf : ∀ a, Guarded k l (f a)] :
    Guarded n l (w >>= f) where
  data_eq h := by
    obtain ⟨a, r₁, h1, h2⟩ := bind_eq_some.mp h
    exact ((hf a).data_eq h2).trans (hw.data_eq h1)
  past h hm hlen := by
    obtain ⟨a, r₁, h1, h2⟩ := bind_eq_some.mp h
    exact (hf a).past h2 (hw.past h1 hm hlen) (by rwa [hw.data_eq h1])
  words h hlt := by
    obtain ⟨a, r₁, h1, h2⟩ := bind_eq_some.mp h
    have hd := hw.data_eq h1
    -- a cursor that ends inside the buffer was inside it in between
    have hmid : r₁.pos < r₁.data.length := by
      by_contra hge
      exact lt_irrefl _ ((hf a).past h2 (by rw [hd] at hge; omega) (by rwa [hd]))
    obtain ⟨hle, h4⟩ := hw.words h1 (by rwa [← hd])
    obtain ⟨hle', h4'⟩ := (hf a).words h2 (by rwa [hd])
    exact ⟨by omega, by omega⟩
  whole hn h4 h := by
    obtain ⟨a, r₁, h1, h2⟩ := bind_eq_some.mp h
    obtain ⟨hk, h4', hs⟩ := hw.whole hn h4 h1
    obtain rfl := hw.data_eq h1
    obtain ⟨hl, h4'', hs'⟩ := (hf a).whole hk h4' h2
    exact ⟨hl, h4'', fun s => by rw [bind_of_some (hs s)]; exact hs' s⟩
  back {b s p _ r'} hs hp h4 h hl := by
    obtain ⟨a, ⟨d, q⟩, h1, h2⟩ := bind_eq_some.mp h
    obtain rfl := hw.data_eq h1
    have hlen := length_lt_append (b := b) hs
    -- the first part has not passed the end of `b`, for the second part would not come back
    have hq : q ≤ b.length := by
      by_contra hgt
      have hpast : b.length < r'.pos := (hf a).past h2 (by simpa using hgt) hlen
      omega
    obtain ⟨hle, hdvd⟩ := hw.words h1 (lt_of_le_of_lt hq hlen)
    have hle : p ≤ q := hle
    have hdvd : 4 ∣ q - p := hdvd
    obtain ⟨hk, h2'⟩ := (hf a).back hs hq (by omega) h2 hl
    obtain ⟨hn, h1'⟩ := hw.back hs hp h4 h1 hk
    exact ⟨hn, by rw [bind_of_some h1']; exact h2'⟩

/-! ### Checks -/

variable {r r' : TlReader}

theorem enter_eq_some {n : ℕ} {u : Unit} :
    enter n r = some (u, r') ↔ r.pos < r.data.length ∧ n ≤ r.data.length - r.pos ∧ r' = r := by
  rw [enter, tlReaderOk]
  by_cases hok : r.pos < r.len
  · rw [left_of_le (le_of_lt hok)]
    by_cases hn : r.data.length - r.pos < n
    · simp [hok, hn]
    · have hok' : r.pos < r.data.length := hok
      simp [hok, hn, hok', eq_comm, not_lt.mp hn]
  · have hok' : ¬ r.pos < r.data.length := hok
    simp [hok, hok']

theorem enter_of_end {n : ℕ} (h : r.data.length ≤ r.pos) : enter n r = none := by
  cases he : enter n r with
  | none => rfl
  | some x => exact absurd (enter_eq_some.mp he).1 (not_lt.mpr h)

theorem need_eq_some {n : ℕ} {u : Unit} :
    need n r = some (u, r') ↔ n ≤ r.left ∧ r' = r := by
  rw [need]
  split_ifs with h
  · simp [h]
  · simp [not_lt.mp h, eq_comm]

theorem of_check {w : Walk Unit} (h : ∀ {r u r'}, w r = some (u, r') → r' = r)
    (hwhole : ∀ {b p r'}, p + n ≤ b.length → w ⟨b, p⟩ = some ((), r') →
      p + k ≤ b.length ∧ ∀ s, w ⟨b ++ s, p⟩ = some ((), ⟨b ++ s, p⟩))
    (hback : ∀ {b s p r'}, p ≤ b.length → w ⟨b ++ s, p⟩ = some ((), r') → p + k ≤ b.length →
      p + n ≤ b.length ∧ w ⟨b, p⟩ = some ((), ⟨b, p⟩)) : Guarded n k w where
  data_eq hw := by rw [h hw]
  past hw hm _ := by rwa [h hw]
  words hw _ := by
    rw [h hw]
    exact ⟨le_rfl, by rw [Nat.sub_self]; exact dvd_zero 4⟩
  whole hn h4 hw := by
    obtain rfl := h hw
    exact ⟨(hwhole hn hw).1, h4, (hwhole hn hw).2⟩
  back _ hp _ hw hk := by
    obtain rfl := h hw
    exact hback hp hw hk

instance enter (n : ℕ) : Guarded 0 (n + 1) (Walk.enter (n + 1)) := by
  refine of_check (fun h => (enter_eq_some.mp h).2.2) ?_ ?_
  · intro b p r' _ h
    obtain ⟨hok, hn, -⟩ := enter_eq_some.mp h
    have hn : n + 1 ≤ b.length - p := hn
    refine ⟨by omega, fun s => enter_eq_some.mpr ⟨?_, ?_, rfl⟩⟩
    · show p < (b ++ s).length
      rw [List.length_append]
      omega
    · show n + 1 ≤ (b ++ s).length - p
      rw [List.length_append]
      omega
  · intro b s p r' _ _ hk
    exact ⟨by omega, enter_eq_some.mpr ⟨by show p < b.length; omega,
      by show n + 1 ≤ b.length - p; omega, rfl⟩⟩

instance need (n : ℕ) : Guarded 0 n (Walk.need n) := by
  refine of_check (fun h => (need_eq_some.mp h).2) ?_ ?_
  · intro b p r' hp h
    have hleft := (need_eq_some.mp h).1
    rw [TlReader.left_of_le (by exact hp)] at hleft
    have hleft : n ≤ b.length - p := hleft
    refine ⟨by omega, fun s => need_eq_some.mpr ⟨?_, rfl⟩⟩
    have hp' : p ≤ (b ++ s).length := by rw [List.length_append]; omega
    rw [TlReader.left_of_le hp']
    show n ≤ (b ++ s).length - p
    rw [List.length_append]
    omega
  · intro b s p r' hp _ hk
    refine ⟨by omega, need_eq_some.mpr ⟨?_, rfl⟩⟩
    rw [TlReader.left_of_le (by exact hp)]
    show n ≤ b.length - p
    omega

instance ite {c : Prop} [Decidable c] {w v : Walk α} [hw : Guarded n k w] [hv : Guarded n k v] :
    Guarded n k (if c then w else v) := by
  split_ifs
  · exact hw
  · exact hv

instance ensure (c : Prop) [Decidable c] : Guarded n n (Walk.ensure c) := by
  rw [Walk.ensure]
  split_ifs
  · exact Guarded.pure ()
  · exact of_fail

instance opt {c : Bool} {w : Walk Unit} [hw : Guarded 0 0 w] : Guarded 0 0 (Walk.opt c w) := by
  rw [Walk.opt]
  infer_instance

instance rep {w : Walk Unit} [hw : Guarded 0 0 w] (m : ℕ) : Guarded 0 0 (Walk.rep w m) := by
  induction m with
  | zero => exact Guarded.pure ()
  | succ m ih =>
    rw [Walk.rep]
    infer_instance

/-! ### Reads -/

theorem read_eq_some {f : TlReader → α × TlReader} {j : ℕ} {dec : Bytes → α}
    (hf : ∀ r, f r = (dec (readFixed r j).1, (readFixed r j).2)) {a : α} :
    Walk.read f r = some (a, r') ↔
      (r.pos + j ≤ r.data.length ∧ a = dec (slice r.data r.pos j) ∧ r' = r.advance j) ∨
        (r.data.length < r.pos + j ∧ a = dec (List.replicate j 0) ∧ r' = r.toEnd) := by
  rw [Walk.read, some_inj, hf, Prod.mk.injEq]
  by_cases h : r.pos + j ≤ r.data.length
  · rw [readFixed_of_le h]
    simp [h, eq_comm, not_lt.mpr h]
  · rw [readFixed_of_lt (not_le.mp h)]
    simp [h, eq_comm, not_le.mp h]

theorem of_read {f : TlReader → α × TlReader} {j : ℕ} (dec : Bytes → α) (hj : 4 ∣ j)
    (hf : ∀ r, f r = (dec (readFixed r j).1, (readFixed r j).2)) :
    Guarded (n + j) n (Walk.read f) where
  data_eq h := by
    obtain ⟨-, -, rfl⟩ | ⟨-, -, rfl⟩ := (read_eq_some hf).mp h <;> rfl
  past h hm hlen := by
    obtain ⟨-, -, rfl⟩ | ⟨-, -, rfl⟩ := (read_eq_some hf).mp h
    · exact lt_of_lt_of_le hm (Nat.le_add_right _ _)
    · exact hlen
  words h hlt := by
    obtain ⟨-, -, rfl⟩ | ⟨-, -, rfl⟩ := (read_eq_some hf).mp h
    · exact ⟨Nat.le_add_right _ _, by rwa [pos_advance, Nat.add_sub_cancel_left]⟩
    · exact absurd hlt (lt_irrefl _)
  whole {b p a r'} hn h4 h := by
    obtain ⟨-, rfl, rfl⟩ | ⟨hlt, -, -⟩ := (read_eq_some hf).mp h
    · refine ⟨by show p + j + n ≤ b.length; omega, by show 4 ∣ b.length - (p + j); omega,
        fun s => ?_⟩
      refine (read_eq_some hf).mpr (.inl ⟨?_, ?_, rfl⟩)
      · show p + j ≤ (b ++ s).length
        rw [List.length_append]
        omega
      · show dec (slice b p j) = dec (slice (b ++ s) p j)
        rw [slice_append_left (by omega)]
    · have hlt : b.length < p + j := hlt
      omega
  back {b s p a r'} hs hp h4 h hk := by
    have hlen := length_lt_append (b := b) hs
    obtain ⟨-, rfl, rfl⟩ | ⟨-, -, rfl⟩ := (read_eq_some hf).mp h
    · have hk : p + j + n ≤ b.length := hk
      refine ⟨by omega, (read_eq_some hf).mpr (.inl ⟨by show p + j ≤ b.length; omega, ?_, rfl⟩)⟩
      show dec (slice (b ++ s) p j) = dec (slice b p j)
      rw [slice_append_left (by omega)]
    · have hk : (b ++ s).length + n ≤ b.length := hk
      omega

instance u32 : Guarded (n + 4) n Walk.u32 :=
  of_read (fun b => UInt32.ofNat (leNat b)) (by decide) fun _ => rfl

instance i32 : Guarded (n + 4) n Walk.i32 :=
  of_read (fun b => (UInt32.ofNat (leNat b)).toInt32) (by decide) fun _ => rfl

instance i64 : Guarded (n + 8) n Walk.i64 :=
  of_read (fun b => (UInt64.ofNat (leNat b)).toInt64) (by decide) fun _ => rfl

instance drop32 : Guarded (n + 4) n Walk.drop32 :=
  of_read (fun _ => ()) (by decide) fun _ => rfl

instance drop64 : Guarded (n + 8) n Walk.drop64 :=
  of_read (fun _ => ()) (by decide) fun _ => rfl

/-- A loop over words that one check has covered. -/
instance rep32 (m : ℕ) : Guarded (m * 4) 0 (Walk.rep Walk.drop32 m) := by
  induction m with
  | zero =>
    rw [Nat.zero_mul]
    exact Guarded.pure ()
  | succ m ih =>
    rw [Nat.succ_mul, Walk.rep]
    infer_instance

instance rep64 (m : ℕ) : Guarded (m * 8) 0 (Walk.rep Walk.drop64 m) := by
  induction m with
  | zero =>
    rw [Nat.zero_mul]
    exact Guarded.pure ()
  | succ m ih =>
    rw [Nat.succ_mul, Walk.rep]
    infer_instance

instance vector {w : Walk Unit} [Guarded 0 0 w] : Guarded 0 0 (Walk.vector w) := by
  rw [Walk.vector]
  infer_instance

instance enterVector {w : Walk Unit} [Guarded 0 0 w] : Guarded 0 0 (Walk.enterVector w) := by
  rw [Walk.enterVector]
  infer_instance

instance vector32 : Guarded 0 0 Walk.vector32 := by
  rw [Walk.vector32]
  infer_instance

instance vector64 : Guarded 0 0 Walk.vector64 := by
  rw [Walk.vector64]
  infer_instance

/-! ### Strings -/

theorem of_string {w : Walk α} (dec : Bytes → α)
    (hw : ∀ {r a r'}, w r = some (a, r') ↔ ∃ s, tlReadBytes r = (some s, r') ∧ a = dec s)
    (hn : n ≤ 4) : Guarded n 0 w where
  data_eq h := by
    obtain ⟨s, hs, -⟩ := hw.mp h
    obtain ⟨hd, m, -, -, -, rfl⟩ := tlReadBytes_eq_some.mp hs
    rfl
  past h hm _ := by
    obtain ⟨s, hs, -⟩ := hw.mp h
    obtain ⟨hd, m, -, -, -, rfl⟩ := tlReadBytes_eq_some.mp hs
    exact lt_of_lt_of_le hm (Nat.le_add_right _ _)
  words h _ := by
    obtain ⟨s, hs, -⟩ := hw.mp h
    obtain ⟨hd, m, -, -, -, rfl⟩ := tlReadBytes_eq_some.mp hs
    refine ⟨Nat.le_add_right _ _, ?_⟩
    rw [pos_advance, Nat.add_sub_cancel_left]
    exact Dvd.intro_left _ rfl
  whole {b p a r'} _ h4 h := by
    obtain ⟨s, hs, rfl⟩ := hw.mp h
    obtain ⟨hd, m, hspan, hfit, rfl, rfl⟩ := tlReadBytes_eq_some.mp hs
    have hpos := hspan.pos
    have hfit : p + (hd + m) ≤ b.length := hfit
    refine ⟨?_, ?_, fun t => hw.mpr ⟨slice b (p + hd) m, tlReadBytes_eq_some.mpr ⟨hd, m, ?_, ?_, ?_,
      rfl⟩, rfl⟩⟩
    · show p + (hd + m + 3) / 4 * 4 + 0 ≤ b.length
      omega
    · show 4 ∣ b.length - (p + (hd + m + 3) / 4 * 4)
      omega
    · exact (bytesSpan_append (by show p < b.length; omega) (by show p + hd ≤ b.length; omega)).mpr
        hspan
    · show p + (hd + m) ≤ (b ++ t).length
      rw [List.length_append]
      omega
    · show slice b (p + hd) m = slice (b ++ t) (p + hd) m
      rw [slice_append_left (by omega)]
  back {b t p a r'} _ hp h4 h hk := by
    obtain ⟨s, hs, rfl⟩ := hw.mp h
    obtain ⟨hd, m, hspan, -, rfl, rfl⟩ := tlReadBytes_eq_some.mp hs
    have hpos := hspan.pos
    have hk : p + (hd + m + 3) / 4 * 4 + 0 ≤ b.length := hk
    have hp' : p < b.length := by omega
    have hhd : p + hd ≤ b.length := by omega
    refine ⟨by omega, hw.mpr ⟨slice (b ++ t) (p + hd) m, tlReadBytes_eq_some.mpr ⟨hd, m, ?_, ?_, ?_,
      rfl⟩, rfl⟩⟩
    · exact (bytesSpan_append hp' hhd).mp hspan
    · show p + (hd + m) ≤ b.length
      omega
    · rw [slice_append_left (by omega)]

theorem str_eq_some {a : Bytes} :
    Walk.str r = some (a, r') ↔ ∃ s, tlReadBytes r = (some s, r') ∧ a = cstr s := by
  rw [Walk.str, tlReadString]
  generalize tlReadBytes r = x
  obtain ⟨_ | s, r₁⟩ := x
  · simp
  · simp [eq_comm, and_comm]

/-- The check of `tl_skip_string` that the cursor is inside the buffer is not needed. -/
theorem skip_tlSkipString_eq (r : TlReader) :
    Walk.skip tlSkipString r = (tlReadString r).1.map fun _ => ((), (tlReadString r).2) := by
  rw [Walk.skip, tlSkipString]
  by_cases hok : tlReaderOk r = true
  · rw [hok]
    generalize tlReadString r = x
    obtain ⟨_ | s, r₁⟩ := x <;> rfl
  · rw [Bool.not_eq_true] at hok
    cases hs : (tlReadBytes r).1 with
    | none =>
      rw [hok, tlReadString]
      simp [hs]
    | some s =>
      exact absurd (tlReadBytes_some_pos hs) (of_decide_eq_false hok)

theorem skip_tlSkipString_eq_some {u : Unit} :
    Walk.skip tlSkipString r = some (u, r') ↔ ∃ s, tlReadBytes r = (some s, r') ∧ u = () := by
  rw [skip_tlSkipString_eq, tlReadString]
  generalize tlReadBytes r = x
  obtain ⟨_ | s, r₁⟩ := x
  · simp
  · simp

instance str : Guarded 0 0 Walk.str :=
  of_string cstr str_eq_some (by decide)

instance skipString : Guarded 0 0 (Walk.skip tlSkipString) :=
  of_string (fun _ => ()) skip_tlSkipString_eq_some (by decide)

instance skipString' : Guarded 4 0 (Walk.skip tlSkipString) :=
  of_string (fun _ => ()) skip_tlSkipString_eq_some (by decide)

/-! ### Peers -/

theorem skip_tlSkipPeer_eq :
    Walk.skip tlSkipPeer = (do
      Walk.enter 12
      let crc ← Walk.u32
      Walk.drop64
      Walk.ensure (isPeer crc)) := by
  funext r
  by_cases h : (!tlReaderOk r || decide (r.left < 12)) = true
  · have h' : !tlReaderOk r ∨ r.left < 12 := by simpa using h
    show (tlSkipPeer r).map _ = (Walk.enter 12 r).bind _
    rw [tlSkipPeer, if_pos h', Walk.enter, if_pos h]
    rfl
  · have h' : ¬ (!tlReaderOk r ∨ r.left < 12) := by simpa using h
    show (tlSkipPeer r).map _ = (Walk.enter 12 r).bind _
    rw [tlSkipPeer, if_neg h', Walk.enter, if_neg h]
    show (if isPeer (tlReadUint32 r).1 then some (tlReadInt64 (tlReadUint32 r).2).2
      else none).map _ =
      Walk.ensure (isPeer (tlReadUint32 r).1) (tlReadInt64 (tlReadUint32 r).2).2
    rw [Walk.ensure]
    split_ifs <;> rfl

instance skipPeer : Guarded 0 0 (Walk.skip tlSkipPeer) := by
  rw [skip_tlSkipPeer_eq]
  infer_instance

end Guarded

/-! ## Skippers -/

/-- A function of the file that only moves the cursor. -/
structure Skipper where
  run : TlReader → Option TlReader
  guarded : Guarded 0 0 (Walk.skip run)

namespace Skipper

instance : Coe Skipper (TlReader → Option TlReader) :=
  ⟨Skipper.run⟩

instance (s : Skipper) : Guarded 0 0 (Walk.skip s.run) :=
  s.guarded

theorem skip_map_snd (w : Walk Unit) : Walk.skip (fun r => (w r).map Prod.snd) = w := by
  funext r
  show ((w r).map Prod.snd).map _ = w r
  rw [map_map]
  exact map_id'

theorem guarded_map_snd (w : Walk Unit) [h : Guarded 0 0 w] :
    Guarded 0 0 (Walk.skip fun r => (w r).map Prod.snd) := by
  rwa [skip_map_snd]

def of (w : Walk Unit) [Guarded 0 0 w] : Skipper :=
  ⟨fun r => (w r).map Prod.snd, guarded_map_snd w⟩

theorem skip_of (w : Walk Unit) [Guarded 0 0 w] : Walk.skip (Skipper.of w).run = w :=
  skip_map_snd w

end Skipper

end TgCli.Core
