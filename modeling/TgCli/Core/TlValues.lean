import TgCli.Core.TlSerial
import TgCli.Lib.Lines

/-!
# `core/tl_serial.c`: writing and reading a sequence of values

The callers of the TL layer write one value after another into a `TlWriter` and read them back with
the matching calls of a `TlReader`.  A `TlValue` is one such write, a `TlKind` one such read.

Every write appends whole words, whatever is there already, so a value is its own `encoding` and the
round trip of a sequence is the round trip of one value, the cursor moving by its encoding
(`TlKind.read_at_rest`).
-/

namespace TgCli.Core

open List Lib

/-- One write: a value with its type.  The length of a byte string has three bytes on the wire, and
a string ends at its first `NUL`. -/
inductive TlValue
  | int32 (v : Int32)
  | uint32 (v : UInt32)
  | int64 (v : Int64)
  | uint64 (v : UInt64)
  | int128 (v : Block 16)
  | int256 (v : Block 32)
  | double (bits : UInt64)
  | bool (v : Bool)
  | vectorBegin (count : UInt32)
  | bytes (b : {b : Bytes // b.length < 2 ^ 24})
  | string (s : {s : Bytes // s.length < 2 ^ 24 ∧ 0 ∉ s})
  deriving DecidableEq

/-- The type of a value, which says how to read it. -/
inductive TlKind
  | int32 | uint32 | int64 | uint64 | int128 | int256 | double | bool | vectorBegin | bytes | string
  deriving DecidableEq

namespace TlValue

def kind : TlValue → TlKind
  | int32 _ => .int32
  | uint32 _ => .uint32
  | int64 _ => .int64
  | uint64 _ => .uint64
  | int128 _ => .int128
  | int256 _ => .int256
  | double _ => .double
  | bool _ => .bool
  | vectorBegin _ => .vectorBegin
  | bytes _ => .bytes
  | string _ => .string

def write (w : TlWriter) : TlValue → TlWriter
  | int32 v => tlWriteInt32 w v
  | uint32 v => tlWriteUint32 w v
  | int64 v => tlWriteInt64 w v
  | uint64 v => tlWriteUint64 w v
  | int128 v => tlWriteInt128 w v
  | int256 v => tlWriteInt256 w v
  | double bits => tlWriteDouble w bits
  | bool v => tlWriteBool w v
  | vectorBegin count => tlWriteVectorBegin w count
  | bytes b => tlWriteBytes w b.1
  | string s => tlWriteString w s.1

def encoding (v : TlValue) : Bytes :=
  v.write []

end TlValue

/-- The call that reads a value; `none` for a `NULL`, and for a word that is not one of the expected
constructors. -/
def TlKind.read (r : TlReader) : TlKind → Option TlValue × TlReader
  | int32 => (some (.int32 (tlReadInt32 r).1), (tlReadInt32 r).2)
  | uint32 => (some (.uint32 (tlReadUint32 r).1), (tlReadUint32 r).2)
  | int64 => (some (.int64 (tlReadInt64 r).1), (tlReadInt64 r).2)
  | uint64 => (some (.uint64 (tlReadUint64 r).1), (tlReadUint64 r).2)
  | int128 => (some (.int128 (tlReadInt128 r).1), (tlReadInt128 r).2)
  | int256 => (some (.int256 (tlReadInt256 r).1), (tlReadInt256 r).2)
  | double => (some (.double (tlReadDouble r).1), (tlReadDouble r).2)
  | bool =>
    let (b, r') := tlReadBool r
    (if b = 1 then some (.bool true) else if b = 0 then some (.bool false) else none, r')
  | vectorBegin =>
    let (ctor, r1) := tlReadUint32 r
    let (count, r2) := tlReadUint32 r1
    (if ctor = tlVector then some (.vectorBegin count) else none, r2)
  | bytes =>
    let (b, r') := tlReadBytes r
    (b.bind fun b => if h : b.length < 2 ^ 24 then some (.bytes ⟨b, h⟩) else none, r')
  | string =>
    let (s, r') := tlReadString r
    (s.bind fun s => if h : s.length < 2 ^ 24 ∧ 0 ∉ s then some (.string ⟨s, h⟩) else none, r')

def tlWriteValues (w : TlWriter) (vs : List TlValue) : TlWriter :=
  vs.foldl TlValue.write w

def tlReadValues : List TlKind → TlReader → List (Option TlValue) × TlReader
  | [], r => ([], r)
  | k :: ks, r =>
    let (v, r') := k.read r
    let (vs, r'') := tlReadValues ks r'
    (v :: vs, r'')

/-! ## One value -/

theorem TlValue.write_eq (w : TlWriter) (v : TlValue) : v.write w = w ++ v.encoding := by
  cases v <;> simp [TlValue.encoding, TlValue.write, tlWriteInt32, tlWriteUint32, tlWriteInt64,
    tlWriteUint64, tlWriteInt128, tlWriteInt256, tlWriteDouble, tlWriteBool, tlWriteVectorBegin,
    tlWriteBytes, tlWriteString]

theorem TlValue.length_encoding (v : TlValue) : v.encoding.length % 4 = 0 := by
  cases v with
  | bytes b =>
    show (tlBytes b.1).length % 4 = 0
    rw [length_tlBytes, Nat.mul_mod_left]
  | string s =>
    show (tlBytes (cstr s.1)).length % 4 = 0
    rw [length_tlBytes, Nat.mul_mod_left]
  | _ => simp [TlValue.encoding, TlValue.write, tlWriteInt32, tlWriteUint32, tlWriteInt64,
      tlWriteUint64, tlWriteInt128, tlWriteInt256, tlWriteDouble, tlWriteBool, tlWriteVectorBegin]

theorem cstr_eq_self {s : Bytes} (h : 0 ∉ s) : cstr s = s :=
  takeWhile_eq_self_iff.mpr (forall_decide_ne h)

theorem zero_not_mem_cstr (s : Bytes) : 0 ∉ cstr s := by
  intro h
  have h0 := mem_takeWhile_imp h
  simp at h0

theorem cstr_newline (x : Bytes) :
    cstr (x ++ [0x0a]) = cstr x ∨ cstr (x ++ [0x0a]) = cstr x ++ [0x0a] := by
  by_cases hx : 0 ∈ x
  · left
    obtain ⟨a, b, rfl, ha⟩ := eq_append_cons_of_mem hx
    rw [append_assoc, cstr, cons_append, takeWhile_ne_append ha, cstr,
      takeWhile_ne_append ha]
  · right
    have hx' : 0 ∉ x ++ [0x0a] := by simp [hx]
    rw [cstr_eq_self hx, cstr_eq_self hx']

theorem cstr_take (x : Bytes) (m : ℕ) : cstr (x.take m) = (cstr x).take m :=
  take_takeWhile _ x m

/-- **One value is read back**, and the cursor moves by its encoding. -/
theorem TlKind.read_at_rest {v : TlValue} {r : TlReader} {t : Bytes}
    (h : r.rest = v.encoding ++ t) : v.kind.read r = (some v, r.advance v.encoding.length) := by
  cases v with
  | int32 v => simp [TlValue.kind, TlKind.read, tlReadInt32, tlReadUint32_at_rest h,
      TlValue.encoding, TlValue.write, tlWriteInt32, tlWriteUint32]
  | uint32 v => simp [TlValue.kind, TlKind.read, tlReadUint32_at_rest h, TlValue.encoding,
      TlValue.write, tlWriteUint32]
  | int64 v => simp [TlValue.kind, TlKind.read, tlReadInt64, tlReadUint64_at_rest h,
      TlValue.encoding, TlValue.write, tlWriteInt64, tlWriteUint64]
  | uint64 v => simp [TlValue.kind, TlKind.read, tlReadUint64_at_rest h, TlValue.encoding,
      TlValue.write, tlWriteUint64]
  | int128 v => simp [TlValue.kind, TlKind.read, tlReadInt128, readFixed_at_rest v.2 (by decide) h,
      TlValue.encoding, TlValue.write, tlWriteInt128]
  | int256 v => simp [TlValue.kind, TlKind.read, tlReadInt256, readFixed_at_rest v.2 (by decide) h,
      TlValue.encoding, TlValue.write, tlWriteInt256]
  | double bits => simp [TlValue.kind, TlKind.read, tlReadDouble, tlReadUint64_at_rest h,
      TlValue.encoding, TlValue.write, tlWriteDouble]
  | bool v =>
    simp only [TlValue.kind, TlKind.read, tlReadBool, tlReadUint32_at_rest h]
    cases v <;> rfl
  | vectorBegin count =>
    have h1 : r.rest = u32Bytes tlVector ++ (u32Bytes count ++ t) := by
      rw [h, ← append_assoc]
      rfl
    have h2 : (r.advance 4).rest = u32Bytes count ++ t := by
      rw [TlReader.rest_advance, h1, ← length_u32Bytes tlVector, drop_left]
    simp only [TlValue.kind, TlKind.read, tlReadUint32_at_rest h1, tlReadUint32_at_rest h2]
    rfl
  | bytes b =>
    simp only [TlValue.kind, TlKind.read, tlReadBytes_at_rest b.2 h, Option.bind_some, b.2,
      dif_pos]
    rfl
  | string s =>
    have hs : cstr s.1 = s.1 := cstr_eq_self s.2.2
    have henc : (TlValue.string s).encoding = tlBytes s.1 := by
      show tlBytes (cstr s.1) = tlBytes s.1
      rw [hs]
    rw [henc] at h ⊢
    simp only [TlValue.kind, TlKind.read, tlReadString, tlReadBytes_at_rest s.2.1 h,
      Option.map_some, hs, Option.bind_some, s.2, and_self, dif_pos, not_false_eq_true]

/-! ## A sequence -/

theorem tlWriteValues_eq (w : TlWriter) (vs : List TlValue) :
    tlWriteValues w vs = w ++ vs.flatMap TlValue.encoding := by
  induction vs generalizing w with
  | nil => exact (append_nil w).symm
  | cons v vs ih =>
    rw [tlWriteValues, foldl_cons, ← tlWriteValues, ih, TlValue.write_eq, flatMap_cons,
      append_assoc]

theorem length_flatMap_encoding (vs : List TlValue) :
    (vs.flatMap TlValue.encoding).length % 4 = 0 := by
  induction vs with
  | nil => rfl
  | cons v vs ih =>
    have hv := v.length_encoding
    rw [flatMap_cons, length_append]
    omega

theorem tlReadValues_at_rest {vs : List TlValue} {r : TlReader} {t : Bytes}
    (h : r.rest = vs.flatMap TlValue.encoding ++ t) :
    tlReadValues (vs.map TlValue.kind) r =
      (vs.map some, r.advance (vs.flatMap TlValue.encoding).length) := by
  induction vs generalizing r with
  | nil => rfl
  | cons v vs ih =>
    rw [flatMap_cons, append_assoc] at h
    have hrest : (r.advance v.encoding.length).rest = vs.flatMap TlValue.encoding ++ t := by
      rw [TlReader.rest_advance, h, drop_left]
    simp only [map_cons, tlReadValues, TlKind.read_at_rest h, ih hrest, flatMap_cons,
      length_append, TlReader.advance_advance]

/-- **What is written is read back.**  A sequence of values of any types comes back in order, the
last read ends at the end of the buffer, and between two values the writer and the reader are at the
same whole word. -/
theorem tlReadValues_tlWriteValues (vs : List TlValue) :
    let buf := tlWriteValues [] vs
    (tlReadValues (vs.map TlValue.kind) (tlReaderInit buf)).1 = vs.map some ∧
      (tlReadValues (vs.map TlValue.kind) (tlReaderInit buf)).2 = ⟨buf, buf.length⟩ ∧
      ∀ n, (tlWriteValues [] (vs.take n)).length % 4 = 0 ∧
        (tlReadValues ((vs.take n).map TlValue.kind) (tlReaderInit buf)).2.pos =
          (tlWriteValues [] (vs.take n)).length := by
  intro buf
  have hbuf : buf = vs.flatMap TlValue.encoding := tlWriteValues_eq [] vs
  have hall : (tlReaderInit buf).rest = vs.flatMap TlValue.encoding ++ [] := by
    rw [rest_tlReaderInit, hbuf, append_nil]
  refine ⟨?_, ?_, fun n => ⟨?_, ?_⟩⟩
  · rw [tlReadValues_at_rest hall]
  · rw [tlReadValues_at_rest hall, ← hbuf, tlReaderInit, TlReader.advance, Nat.zero_add]
  · rw [tlWriteValues_eq, nil_append]
    exact length_flatMap_encoding _
  · have hpart : (tlReaderInit buf).rest =
        (vs.take n).flatMap TlValue.encoding ++ (vs.drop n).flatMap TlValue.encoding := by
      rw [rest_tlReaderInit, hbuf, ← flatMap_append, take_append_drop]
    rw [tlReadValues_at_rest hpart, tlWriteValues_eq, nil_append, TlReader.pos_advance,
      tlReaderInit, Nat.zero_add]

end TgCli.Core
