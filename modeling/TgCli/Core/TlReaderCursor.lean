import TgCli.Core.TlSkip.Walk
import TgCli.Lib.Machine

/-!
# `core/tl_serial.c`: where the cursor of a reader goes

The parsers compute `r->len - r->pos` in `size_t` and so rely on a cursor that is never past the end
of its buffer.  Nearly every call of the reader sees to that: a read that does not fit leaves the
cursor at the end.  There are two exceptions.

* `tl_read_bytes` checks that the length prefix and the data are there, and then skips the padding
  as well.  Where a buffer ends right behind the data, the cursor lands up to three bytes behind the
  end, and the next read that does not fit moves it back to the end.
* `tl_read_skip` adds the length to the cursor before it compares.  A length close to `SIZE_MAX`
  wraps around, and the cursor moves back.

`Covered` says that a call is neither of these, and `cursorLaw_iff` that nothing else goes wrong.
-/

namespace TgCli.Core

open Lib

/-! ## Calls -/

/-- `tl_read_skip` for any `size_t`. -/
def tlReadSkipSize (r : TlReader) (len : UInt64) : TlReader :=
  let sum := (r.pos + len.toNat) % 2 ^ 64
  if sum > r.len then r.toEnd else { r with pos := sum }

/-- `tl_read_bytes` when `malloc` may fail: then the cursor is left where it is. -/
def tlReadBytesAlloc (alloc : Bool) (r : TlReader) : Option Bytes × TlReader :=
  match tlReadBytes r with
  | (some b, r') => if alloc then (some b, r') else (none, r)
  | (none, r') => (none, r')

/-- `tl_read_string`, with its own `realloc`. -/
def tlReadStringAlloc (alloc realloc : Bool) (r : TlReader) : Option Bytes × TlReader :=
  let (b, r') := tlReadBytesAlloc alloc r
  (if realloc then b.map cstr else none, r')

/-- The calls that move the cursor.  The caller of `raw` has `len` bytes of memory for the result,
and so `len` is far from the end of `size_t`. -/
inductive ReaderOp where
  | int32
  | uint32
  | int64
  | uint64
  | int128
  | int256
  | double
  | bool
  | string (alloc realloc : Bool)
  | bytes (alloc : Bool)
  | raw (len : ℕ)
  | skip (len : UInt64)

def ReaderOp.run (r : TlReader) : ReaderOp → TlReader
  | int32 => (tlReadInt32 r).2
  | uint32 => (tlReadUint32 r).2
  | int64 => (tlReadInt64 r).2
  | uint64 => (tlReadUint64 r).2
  | int128 => (tlReadInt128 r).2
  | int256 => (tlReadInt256 r).2
  | double => (tlReadDouble r).2
  | bool => (tlReadBool r).2
  | string alloc realloc => (tlReadStringAlloc alloc realloc r).2
  | bytes alloc => (tlReadBytesAlloc alloc r).2
  | raw len => (tlReadRaw r len).2
  | skip len => tlReadSkipSize r len

structure CursorStep (r : TlReader) (op : ReaderOp) : Prop where
  inside : (op.run r).pos ≤ r.len
  forward : r.pos ≤ (op.run r).pos

/-- **The cursor law of a run**: it is so in every step. -/
def CursorLaw (r : TlReader) (ops : List ReaderOp) : Prop :=
  ∀ x ∈ trace ReaderOp.run r ops, CursorStep x.1 x.2

/-- If a byte string is there at the cursor, its padding is there as well. -/
def PaddingThere (r : TlReader) : Prop :=
  ∀ hd n, BytesSpan r.data r.pos hd n → r.pos + (hd + n) ≤ r.len →
    r.pos + (hd + n + 3) / 4 * 4 ≤ r.len

/-- A byte string is read with its padding, and the length of a skip does not wrap around. -/
def Covered (r : TlReader) : ReaderOp → Prop
  | .string alloc _ => alloc = true → PaddingThere r
  | .bytes alloc => alloc = true → PaddingThere r
  | .skip len => r.pos + len.toNat < 2 ^ 64
  | _ => True

/-! ## One call -/

section Step

variable {r : TlReader}

theorem tlReadSkipSize_eq {len : UInt64} (h : r.pos + len.toNat < 2 ^ 64) :
    tlReadSkipSize r len = tlReadSkip r len.toNat := by
  unfold tlReadSkipSize tlReadSkip
  rw [Nat.mod_eq_of_lt h]
  rfl

theorem data_tlReadBytesAlloc (alloc : Bool) (r : TlReader) :
    (tlReadBytesAlloc alloc r).2.data = r.data := by
  unfold tlReadBytesAlloc
  rcases hb : tlReadBytes r with ⟨_ | b, r'⟩
  · rw [tlReadBytes_eq_none hb]
    rfl
  · obtain ⟨hd, n, -, -, -, rfl⟩ := tlReadBytes_eq_some.mp hb
    split_ifs <;> rfl

theorem data_run (r : TlReader) (op : ReaderOp) : (op.run r).data = r.data := by
  cases op with
  | string alloc realloc => exact data_tlReadBytesAlloc alloc r
  | bytes alloc => exact data_tlReadBytesAlloc alloc r
  | skip len =>
    show (tlReadSkipSize r len).data = r.data
    unfold tlReadSkipSize
    dsimp only
    split_ifs <;> rfl
  | _ => exact data_readFixed r _

theorem cursorStep_readFixed (h : r.pos ≤ r.len) (n : ℕ) :
    (readFixed r n).2.pos ≤ r.len ∧ r.pos ≤ (readFixed r n).2.pos := by
  rw [pos_readFixed_eq_min]
  exact ⟨min_le_right _ _, le_min (Nat.le_add_right _ _) h⟩

theorem cursorStep_tlReadBytesAlloc (h : r.pos ≤ r.len) (alloc : Bool) :
    ((tlReadBytesAlloc alloc r).2.pos ≤ r.len ∧ r.pos ≤ (tlReadBytesAlloc alloc r).2.pos) ↔
      (alloc = true → PaddingThere r) := by
  unfold tlReadBytesAlloc
  rcases hb : tlReadBytes r with ⟨_ | b, r'⟩
  · -- nothing is there, and the cursor is at the end
    rw [tlReadBytes_eq_none hb]
    refine iff_of_true ⟨le_rfl, h⟩ fun _ hd n hspan hfit => ?_
    rw [tlReadBytes_eq_some.mpr ⟨hd, n, hspan, hfit, rfl, rfl⟩] at hb
    exact absurd (Prod.mk.inj hb).1 (Option.some_ne_none _)
  · obtain ⟨hd, n, hspan, hfit, -, rfl⟩ := tlReadBytes_eq_some.mp hb
    cases alloc with
    | false => exact iff_of_true ⟨h, le_rfl⟩ fun hf => absurd hf Bool.false_ne_true
    | true =>
      constructor
      · rintro ⟨hin, -⟩ - hd' n' hspan' hfit'
        have hboth := tlReadBytes_eq_some.mpr ⟨hd', n', hspan', hfit', rfl, rfl⟩
        rw [hb] at hboth
        have hpos := congrArg (fun x => x.2.pos) hboth
        simp only [TlReader.pos_advance, if_true] at hpos hin
        omega
      · intro hpad
        exact ⟨hpad rfl hd n hspan hfit, Nat.le_add_right _ _⟩

theorem cursorStep_tlReadSkipSize (h : r.pos ≤ r.len) (hlen : r.len < 2 ^ 64) (len : UInt64) :
    ((tlReadSkipSize r len).pos ≤ r.len ∧ r.pos ≤ (tlReadSkipSize r len).pos) ↔
      r.pos + len.toNat < 2 ^ 64 := by
  have hn := len.toNat_lt
  constructor
  · rintro ⟨-, hforward⟩
    by_contra hwrap
    -- the sum wraps around to a place before the cursor
    have hsum : (r.pos + len.toNat) % 2 ^ 64 = r.pos + len.toNat - 2 ^ 64 := by omega
    unfold tlReadSkipSize at hforward
    dsimp only at hforward
    rw [hsum, if_neg (by omega)] at hforward
    dsimp only at hforward
    omega
  · intro hfit
    rw [tlReadSkipSize_eq hfit, tlReadSkip]
    split_ifs with hgt
    · exact ⟨le_rfl, h⟩
    · exact ⟨Nat.not_lt.mp hgt, Nat.le_add_right _ _⟩

/-- **One call** keeps the law exactly if it is covered. -/
theorem cursorStep_iff (h : r.pos ≤ r.len) (hlen : r.len < 2 ^ 64) (op : ReaderOp) :
    CursorStep r op ↔ Covered r op := by
  have hstep : CursorStep r op ↔ ((op.run r).pos ≤ r.len ∧ r.pos ≤ (op.run r).pos) :=
    ⟨fun hs => ⟨hs.inside, hs.forward⟩, fun hs => ⟨hs.1, hs.2⟩⟩
  rw [hstep]
  cases op with
  | string alloc realloc => exact cursorStep_tlReadBytesAlloc h alloc
  | bytes alloc => exact cursorStep_tlReadBytesAlloc h alloc
  | skip len => exact cursorStep_tlReadSkipSize h hlen len
  | _ => exact iff_of_true (cursorStep_readFixed h _) trivial

end Step

/-! ## Runs -/

structure Inside (r₀ r : TlReader) : Prop where
  data_eq : r.data = r₀.data
  pos_le : r.pos ≤ r₀.len

theorem Inside.len_eq {r₀ r : TlReader} (h : Inside r₀ r) : r.len = r₀.len :=
  congrArg List.length h.data_eq

/-- **The cursor stays inside the buffer and never moves back** exactly if every byte string is read
with its padding and no length of a skip wraps around. -/
theorem cursorLaw_iff {r : TlReader} (h : r.pos ≤ r.len) (hlen : r.len < 2 ^ 64)
    (ops : List ReaderOp) :
    CursorLaw r ops ↔ ∀ x ∈ trace ReaderOp.run r ops, Covered x.1 x.2 := by
  have hgood : ∀ r' op, Inside r r' → (CursorStep r' op ↔ Covered r' op) := fun r' op hin =>
    cursorStep_iff (hin.len_eq ▸ hin.pos_le) (hin.len_eq ▸ hlen) op
  have hkeep : ∀ r' op, Inside r r' → Covered r' op → Inside r (op.run r') := by
    intro r' op hin hcov
    have hstep := (hgood r' op hin).mpr hcov
    exact ⟨(data_run r' op).trans hin.data_eq, hin.len_eq ▸ hstep.inside⟩
  exact trace_forall_iff hgood hkeep ⟨rfl, h⟩ ops

/-- A string with its padding and a skip to the end and beyond. -/
theorem cursorLaw_hi :
    CursorLaw ⟨[0x02, 0x68, 0x69, 0x00], 0⟩ [.string true true, .int64, .skip 8] := by
  refine (cursorLaw_iff (by decide) (by decide) _).mpr ?_
  intro x hx
  rw [trace, trace, trace, trace] at hx
  simp only [List.mem_cons, List.not_mem_nil, or_false] at hx
  obtain rfl | rfl | rfl := hx
  · intro _ hd n hspan hfit
    obtain ⟨-, rfl, rfl⟩ | ⟨hge, -, -⟩ := hspan
    · decide
    · exact absurd hge (by decide)
  · trivial
  · show 4 + 8 < 2 ^ 64
    decide

/-- A string at the very end whose padding is missing: the cursor is behind the end, and the next
read moves it back. -/
theorem cursor_past_end :
    ¬ ∀ (r : TlReader) (ops : List ReaderOp), r.pos ≤ r.len → CursorLaw r ops := by
  intro hall
  have hlaw := hall ⟨[0x02, 0x68, 0x69], 0⟩ [.string true true] (by decide)
  have hstep := hlaw (⟨[0x02, 0x68, 0x69], 0⟩, .string true true) List.mem_cons_self
  exact absurd hstep.inside (by decide)

end TgCli.Core
