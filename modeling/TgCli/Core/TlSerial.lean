import TgCli.Lib.Bytes

/-!
# `core/tl_serial.c`: the TL reader and writer

A `TlWriter` is the byte string written so far; a `TlReader` is a buffer with a cursor.

The reader never reports an error by itself.  A read that does not fit moves the cursor to the
end of the buffer and yields zeros, and `tl_read_bytes`, the one call that can say "no",
returns `NULL`.  Every check of the callers is therefore a check of *values*, and a truncated
message is a message with zeros in it.  This is why the lemmas below come in two kinds: what
a read yields when it fits, and that a read of the byte-string kind succeeds only when
everything before it fitted (`tlReadBytes_some_pos`).
-/

namespace TgCli.Core

open List Lib

/-! ## Writer -/

abbrev TlWriter := Bytes

/-- `strlen`-bounded reading of a C string: the bytes before the first `NUL`. -/
def cstr (s : Bytes) : Bytes :=
  s.takeWhile (· ≠ 0)

def tlWriteRaw (w : TlWriter) (data : Bytes) : TlWriter :=
  w ++ data

def tlWriteUint32 (w : TlWriter) (val : UInt32) : TlWriter :=
  w ++ u32Bytes val

def tlWriteInt32 (w : TlWriter) (val : Int32) : TlWriter :=
  tlWriteUint32 w val.toUInt32

def tlWriteUint64 (w : TlWriter) (val : UInt64) : TlWriter :=
  w ++ u64Bytes val

def tlWriteInt64 (w : TlWriter) (val : Int64) : TlWriter :=
  tlWriteUint64 w val.toUInt64

def tlWriteInt128 (w : TlWriter) (val : Block 16) : TlWriter :=
  w ++ val.1

def tlWriteInt256 (w : TlWriter) (val : Block 32) : TlWriter :=
  w ++ val.1

/-- `tl_write_double`; a `double` is its bit pattern. -/
def tlWriteDouble (w : TlWriter) (bits : UInt64) : TlWriter :=
  w ++ u64Bytes bits

def tlBoolTrue : UInt32 := 0x997275b5

def tlBoolFalse : UInt32 := 0xbc799737

def tlWriteBool (w : TlWriter) (val : Bool) : TlWriter :=
  tlWriteUint32 w (if val then tlBoolTrue else tlBoolFalse)

/-- `TL_VECTOR_CTOR`, which is `TL_vector` in the registry. -/
def tlVector : UInt32 := 0x1cb5c415

def tlWriteVectorBegin (w : TlWriter) (count : UInt32) : TlWriter :=
  tlWriteUint32 (tlWriteUint32 w tlVector) count

/-- `TL_user` and `TL_user2` of the registry, for the layers up to 175 and from 176 on. -/
def tlUser : UInt32 := 0x3ff6ecb0
def tlUser2 : UInt32 := 0x83314fca

def tlMessage : UInt32 := 0x94345242
def tlMessageEmpty : UInt32 := 0x90a6ca84
def tlMessageService : UInt32 := 0x2b085862

/-- The length prefix of a byte string: one byte below 254, else `0xFE` and three bytes. -/
def bytesHeader (len : ℕ) : Bytes :=
  if len < 254 then [UInt8.ofNat len] else 0xFE :: leBytes 3 len

/-- The zeros that bring prefix and data to a multiple of four. -/
def bytesPad (len : ℕ) : Bytes :=
  List.replicate ((4 - ((if len < 254 then 1 else 4) + len) % 4) % 4) 0

def tlWriteBytes (w : TlWriter) (data : Bytes) : TlWriter :=
  w ++ (bytesHeader data.length ++ data ++ bytesPad data.length)

def tlWriteString (w : TlWriter) (s : Bytes) : TlWriter :=
  tlWriteBytes w (cstr s)

/-! ## Reader -/

structure TlReader where
  data : Bytes
  pos : ℕ
  deriving DecidableEq

namespace TlReader

def len (r : TlReader) : ℕ :=
  r.data.length

/-- `reader_has`: `n` more bytes are there. -/
def has (r : TlReader) (n : ℕ) : Bool :=
  r.pos + n ≤ r.len

/-- `r->len - r->pos` as the callers compute it, in `size_t`: a cursor past the end of the
buffer makes it wrap around. -/
def left (r : TlReader) : ℕ :=
  if r.pos ≤ r.len then r.len - r.pos else r.len + 2 ^ 64 - r.pos

def toEnd (r : TlReader) : TlReader :=
  { r with pos := r.len }

def advance (r : TlReader) (n : ℕ) : TlReader :=
  { r with pos := r.pos + n }

@[simp] theorem data_toEnd (r : TlReader) : r.toEnd.data = r.data := rfl

@[simp] theorem data_advance (r : TlReader) (n : ℕ) : (r.advance n).data = r.data := rfl

@[simp] theorem pos_advance (r : TlReader) (n : ℕ) : (r.advance n).pos = r.pos + n := rfl

theorem advance_advance (r : TlReader) (m n : ℕ) :
    (r.advance m).advance n = r.advance (m + n) := by
  rw [advance, advance, advance, Nat.add_assoc]

@[simp] theorem pos_toEnd (r : TlReader) : r.toEnd.pos = r.data.length := rfl

@[simp] theorem has_eq_true {r : TlReader} {n : ℕ} : r.has n = true ↔ r.pos + n ≤ r.data.length :=
  decide_eq_true_iff

@[simp] theorem has_eq_false {r : TlReader} {n : ℕ} :
    r.has n = false ↔ r.data.length < r.pos + n := by
  rw [has, len, decide_eq_false_iff_not, Nat.not_le]

end TlReader

def hasFlag (flags : UInt32) (i : ℕ) : Bool :=
  flags.toNat.testBit i

def tlReaderInit (data : Bytes) : TlReader :=
  ⟨data, 0⟩

def tlReaderOk (r : TlReader) : Bool :=
  r.pos < r.len

/-- Reads `n` bytes; when they are not there, `n` zeros and the cursor at the end.  The common
body of `read_le32`, `read_le64`, `tl_read_int128`, `tl_read_int256` and `tl_read_raw`. -/
def readFixed (r : TlReader) (n : ℕ) : Bytes × TlReader :=
  if r.has n then (slice r.data r.pos n, r.advance n) else (List.replicate n 0, r.toEnd)

theorem length_readFixed (r : TlReader) (n : ℕ) : (readFixed r n).1.length = n := by
  unfold readFixed
  split
  · rename_i h
    exact length_slice_of_le (TlReader.has_eq_true.mp h)
  · exact length_replicate

@[simp] theorem data_readFixed (r : TlReader) (n : ℕ) : (readFixed r n).2.data = r.data := by
  unfold readFixed
  split <;> rfl

variable {n off : ℕ} {r : TlReader} {b buf : Bytes}

theorem readFixed_of_le (h : r.pos + n ≤ r.data.length) :
    readFixed r n = (slice r.data r.pos n, r.advance n) := by
  rw [readFixed, if_pos (TlReader.has_eq_true.mpr h)]

theorem readFixed_of_lt (h : r.data.length < r.pos + n) :
    readFixed r n = (replicate n 0, r.toEnd) := by
  rw [readFixed, if_neg (by rw [TlReader.has_eq_false.mpr h]; exact Bool.false_ne_true)]

def tlReadUint32 (r : TlReader) : UInt32 × TlReader :=
  let (b, r') := readFixed r 4
  (UInt32.ofNat (leNat b), r')

def tlReadInt32 (r : TlReader) : Int32 × TlReader :=
  let (v, r') := tlReadUint32 r
  (v.toInt32, r')

def tlReadUint64 (r : TlReader) : UInt64 × TlReader :=
  let (b, r') := readFixed r 8
  (UInt64.ofNat (leNat b), r')

def tlReadInt64 (r : TlReader) : Int64 × TlReader :=
  let (v, r') := tlReadUint64 r
  (v.toInt64, r')

def tlReadInt128 (r : TlReader) : Block 16 × TlReader :=
  (⟨(readFixed r 16).1, length_readFixed r 16⟩, (readFixed r 16).2)

def tlReadInt256 (r : TlReader) : Block 32 × TlReader :=
  (⟨(readFixed r 32).1, length_readFixed r 32⟩, (readFixed r 32).2)

def tlReadDouble (r : TlReader) : UInt64 × TlReader :=
  tlReadUint64 r

/-- `tl_read_bool`: 1, 0, or -1 for a word that is neither. -/
def tlReadBool (r : TlReader) : ℤ × TlReader :=
  let (magic, r') := tlReadUint32 r
  (if magic = tlBoolTrue then 1 else if magic = tlBoolFalse then 0 else -1, r')

def tlReadRaw (r : TlReader) (n : ℕ) : Bytes × TlReader :=
  readFixed r n

def tlReadSkip (r : TlReader) (n : ℕ) : TlReader :=
  if r.pos + n > r.len then r.toEnd else r.advance n

/-- `tl_read_bytes`: the length prefix, the data, and the cursor moved to the next multiple of
four counted from the prefix --- also when the padding is not in the buffer. -/
def tlReadBytes (r : TlReader) : Option Bytes × TlReader :=
  if !r.has 1 then (none, r.toEnd) else
  let first := r.data.getD r.pos 0
  if first ≥ 254 && !r.has 4 then (none, r.toEnd) else
  let dataLen := if first < 254 then first.toNat else leNat (slice r.data (r.pos + 1) 3)
  let headerSize := if first < 254 then 1 else 4
  let totalRaw := headerSize + dataLen
  if !r.has totalRaw then (none, r.toEnd) else
  (some (slice r.data (r.pos + headerSize) dataLen), r.advance ((totalRaw + 3) / 4 * 4))

/-- `tl_read_string`: the same bytes, seen by the callers up to the first `NUL`. -/
def tlReadString (r : TlReader) : Option Bytes × TlReader :=
  let (b, r') := tlReadBytes r
  (b.map cstr, r')

/-! ## What a read leaves behind -/

theorem snd_tlReadInt32 (r : TlReader) : (tlReadInt32 r).2 = (readFixed r 4).2 :=
  rfl

@[simp] theorem data_tlReadUint32 (r : TlReader) : (tlReadUint32 r).2.data = r.data :=
  data_readFixed r 4

@[simp] theorem data_tlReadUint64 (r : TlReader) : (tlReadUint64 r).2.data = r.data :=
  data_readFixed r 8

@[simp] theorem data_tlReadInt128 (r : TlReader) : (tlReadInt128 r).2.data = r.data :=
  data_readFixed r 16

/-- A byte string is read only if everything before it fitted. -/
theorem tlReadBytes_some_pos (h : (tlReadBytes r).1 = some b) :
    r.pos < r.data.length := by
  by_contra hpos
  have hlt : r.data.length < r.pos + 1 := by omega
  have hhas : r.has 1 = false := TlReader.has_eq_false.mpr hlt
  rw [tlReadBytes, hhas] at h
  exact absurd h (by simp)

theorem pos_readFixed_eq_min (r : TlReader) (n : ℕ) :
    (readFixed r n).2.pos = min (r.pos + n) r.data.length := by
  by_cases hn : r.pos + n ≤ r.data.length
  · rw [readFixed_of_le hn, TlReader.pos_advance, min_eq_left hn]
  · rw [readFixed_of_lt (by omega), TlReader.pos_toEnd, min_eq_right (by omega)]

theorem fits_of_pos_readFixed_lt
    (h : (readFixed r n).2.pos < r.data.length) : r.pos + n ≤ r.data.length := by
  by_contra hn
  rw [readFixed_of_lt (by omega), TlReader.pos_toEnd] at h
  exact lt_irrefl _ h

theorem TlReader.left_of_le (h : r.pos ≤ r.data.length) :
    r.left = r.data.length - r.pos :=
  if_pos h

theorem tlReadSkip_of_le (h : r.pos + n ≤ r.data.length) :
    tlReadSkip r n = r.advance n :=
  if_neg (Nat.not_lt.mpr h)

/-! ## Fixed places -/

theorem readFixed_at (h : off + n ≤ buf.length) :
    readFixed ⟨buf, off⟩ n = (slice buf off n, ⟨buf, off + n⟩) :=
  readFixed_of_le h

theorem tlReadUint64_at (h : off + 8 ≤ buf.length) :
    tlReadUint64 ⟨buf, off⟩ = (u64At buf off, ⟨buf, off + 8⟩) := by
  rw [tlReadUint64, readFixed_at h]
  rfl

theorem tlReadUint32_at (h : off + 4 ≤ buf.length) :
    tlReadUint32 ⟨buf, off⟩ = (u32At buf off, ⟨buf, off + 4⟩) := by
  rw [tlReadUint32, readFixed_at h]
  rfl

theorem tlReadInt64_at (h : off + 8 ≤ buf.length) :
    tlReadInt64 ⟨buf, off⟩ = ((u64At buf off).toInt64, ⟨buf, off + 8⟩) := by
  rw [tlReadInt64, tlReadUint64_at h]

/-! ## Reading back what was written -/

def TlReader.rest (r : TlReader) : Bytes :=
  r.data.drop r.pos

theorem TlReader.rest_append (w b : Bytes) : (⟨w ++ b, w.length⟩ : TlReader).rest = b :=
  drop_left

@[simp] theorem rest_tlReaderInit (data : Bytes) : (tlReaderInit data).rest = data :=
  rfl

theorem TlReader.length_rest (r : TlReader) : r.rest.length = r.data.length - r.pos := by
  rw [rest, length_drop]

theorem TlReader.rest_advance (r : TlReader) (n : ℕ) : (r.advance n).rest = r.rest.drop n := by
  rw [rest, rest, drop_drop, pos_advance, data_advance]

theorem TlReader.fits_of_rest {t : Bytes} (h : r.rest = b ++ t) (hb : b ≠ []) :
    r.pos + b.length ≤ r.data.length := by
  have hlen := congrArg length h
  rw [rest, length_drop, length_append] at hlen
  have := length_pos_iff.mpr hb
  omega

theorem tlReaderOk_of_rest {t : Bytes} (h : r.rest = b ++ t) (hb : b ≠ []) :
    tlReaderOk r = true := by
  have hfit := TlReader.fits_of_rest h hb
  have hpos := length_pos_iff.mpr hb
  exact decide_eq_true (show r.pos < r.data.length by omega)

theorem TlReader.slice_rest (r : TlReader) (o n : ℕ) :
    slice r.data (r.pos + o) n = slice r.rest o n := by
  rw [slice, slice, rest, drop_drop]

theorem TlReader.getD_pos (r : TlReader) : r.data.getD r.pos 0 = r.rest.getD 0 0 := by
  rw [rest, getD_eq_getElem?_getD, getD_eq_getElem?_getD, getElem?_drop,
    Nat.add_zero]

section RoundTrip

variable {r : TlReader} {t : Bytes}

open TlReader

theorem readFixed_at_rest {b : Bytes} {n : ℕ} (hb : b.length = n) (hn : 0 < n)
    (h : r.rest = b ++ t) : readFixed r n = (b, r.advance n) := by
  subst hb
  have hs := r.slice_rest 0 b.length
  rw [Nat.add_zero] at hs
  rw [readFixed_of_le (fits_of_rest h (ne_nil_of_length_pos hn)), hs, h, slice,
    drop_zero, take_left]

theorem tlReadUint32_at_rest {v : UInt32} (h : r.rest = u32Bytes v ++ t) :
    tlReadUint32 r = (v, r.advance 4) := by
  rw [tlReadUint32, readFixed_at_rest (length_u32Bytes v) (by decide) h, u32Bytes]
  dsimp only
  rw [leNat_leBytes_of_lt v.toNat_lt, UInt32.ofNat_toNat]

theorem tlReadUint64_at_rest {v : UInt64} (h : r.rest = u64Bytes v ++ t) :
    tlReadUint64 r = (v, r.advance 8) := by
  rw [tlReadUint64, readFixed_at_rest (length_u64Bytes v) (by decide) h, u64Bytes]
  dsimp only
  rw [leNat_leBytes_of_lt v.toNat_lt, UInt64.ofNat_toNat]

theorem readFixed_of_rest {b : Bytes} {n : ℕ} (hb : b.length = n) (h : r.rest = b ++ t) :
    (readFixed r n).1 = b ∧ (readFixed r n).2.rest = t := by
  subst hb
  by_cases hfit : r.pos + b.length ≤ r.data.length
  · rw [readFixed_of_le hfit]
    refine ⟨?_, ?_⟩
    · have hs := r.slice_rest 0 b.length
      rw [Nat.add_zero] at hs
      rw [hs, h, slice, drop_zero, take_left]
    · rw [rest_advance, h, drop_left]
  · -- only the empty string does not fit, and only behind the end
    have hlen := congrArg length h
    rw [rest, length_drop, length_append] at hlen
    have hb : b = [] := length_eq_zero_iff.mp (by omega)
    have ht : t = [] := length_eq_zero_iff.mp (by omega)
    rw [readFixed_of_lt (by omega), hb, ht, rest, data_toEnd,
      pos_toEnd, drop_length]
    exact ⟨rfl, rfl⟩

theorem tlReadUint32_of_rest {v : UInt32} (h : r.rest = u32Bytes v ++ t) :
    (tlReadUint32 r).1 = v ∧ (tlReadUint32 r).2.rest = t := by
  rw [tlReadUint32_at_rest h]
  exact ⟨rfl, by rw [rest_advance, h, ← length_u32Bytes v, drop_left]⟩

theorem tlReadUint64_of_rest {v : UInt64} (h : r.rest = u64Bytes v ++ t) :
    (tlReadUint64 r).1 = v ∧ (tlReadUint64 r).2.rest = t := by
  rw [tlReadUint64_at_rest h]
  exact ⟨rfl, by rw [rest_advance, h, ← length_u64Bytes v, drop_left]⟩

theorem tlReadInt32_of_rest {v : Int32} (h : r.rest = u32Bytes v.toUInt32 ++ t) :
    (tlReadInt32 r).1 = v ∧ (tlReadInt32 r).2.rest = t := by
  obtain ⟨h1, h2⟩ := tlReadUint32_of_rest h
  exact ⟨congrArg UInt32.toInt32 h1, h2⟩

theorem tlReadInt64_of_rest {v : Int64} (h : r.rest = u64Bytes v.toUInt64 ++ t) :
    (tlReadInt64 r).1 = v ∧ (tlReadInt64 r).2.rest = t := by
  obtain ⟨h1, h2⟩ := tlReadUint64_of_rest h
  exact ⟨congrArg UInt64.toInt64 h1, h2⟩

theorem tlReadInt128_of_rest {v : Block 16} (h : r.rest = v.1 ++ t) :
    (tlReadInt128 r).1 = v ∧ (tlReadInt128 r).2.rest = t := by
  obtain ⟨h1, h2⟩ := readFixed_of_rest v.2 h
  exact ⟨Subtype.ext h1, h2⟩

theorem tlReadInt256_of_rest {v : Block 32} (h : r.rest = v.1 ++ t) :
    (tlReadInt256 r).1 = v ∧ (tlReadInt256 r).2.rest = t := by
  obtain ⟨h1, h2⟩ := readFixed_of_rest v.2 h
  exact ⟨Subtype.ext h1, h2⟩

def tlBytes (b : Bytes) : Bytes :=
  bytesHeader b.length ++ b ++ bytesPad b.length

theorem tlWriteBytes_eq (w : TlWriter) (b : Bytes) : tlWriteBytes w b = w ++ tlBytes b :=
  rfl

theorem length_tlBytes (b : Bytes) :
    (tlBytes b).length = ((if b.length < 254 then 1 else 4) + b.length + 3) / 4 * 4 := by
  rw [tlBytes, length_append, length_append, bytesPad, length_replicate, bytesHeader]
  split_ifs
  · rw [length_singleton]
    omega
  · rw [length_cons, length_leBytes]
    omega

theorem tlBytes_ne_nil (b : Bytes) : tlBytes b ≠ [] := by
  intro h0
  have hlen := length_tlBytes b
  rw [h0, length_nil] at hlen
  split_ifs at hlen <;> omega

theorem tlReadBytes_short {n : ℕ} (hn : n < 254) (hfirst : r.data.getD r.pos 0 = UInt8.ofNat n)
    (hfit : r.pos + (1 + n) ≤ r.data.length) :
    tlReadBytes r = (some (slice r.data (r.pos + 1) n), r.advance ((1 + n + 3) / 4 * 4)) := by
  have hval : (UInt8.ofNat n).toNat = n :=
    UInt8.toNat_ofNat_of_lt' (by show n < 256; omega)
  have hlt : UInt8.ofNat n < 254 := by
    rw [UInt8.lt_iff_toNat_lt, hval]
    exact hn
  have hge : ¬ UInt8.ofNat n ≥ 254 := UInt8.not_le.mpr hlt
  have h1 : r.has 1 = true := has_eq_true.mpr (by omega)
  have h2 : r.has (1 + n) = true := has_eq_true.mpr hfit
  simp only [tlReadBytes, hfirst, h1, hlt, hge, if_true, hval, h2, Bool.not_true, decide_false,
    Bool.false_and, Bool.false_eq_true, if_false]

theorem tlReadBytes_long {n : ℕ} (hfirst : r.data.getD r.pos 0 = 254)
    (hn : leNat (slice r.data (r.pos + 1) 3) = n) (hfit : r.pos + (4 + n) ≤ r.data.length) :
    tlReadBytes r = (some (slice r.data (r.pos + 4) n), r.advance ((4 + n + 3) / 4 * 4)) := by
  have hlt : ¬ (254 : UInt8) < 254 := by decide
  have h1 : r.has 1 = true := has_eq_true.mpr (by omega)
  have h4 : r.has 4 = true := has_eq_true.mpr (by omega)
  have h2 : r.has (4 + n) = true := has_eq_true.mpr hfit
  simp only [tlReadBytes, hfirst, h1, h4, hlt, if_false, hn, h2, Bool.not_true, Bool.and_false,
    Bool.false_eq_true]

theorem tlReadBytes_at_rest {b : Bytes} (hb : b.length < 2 ^ 24) (h : r.rest = tlBytes b ++ t) :
    tlReadBytes r = (some b, r.advance (tlBytes b).length) := by
  have hfit := fits_of_rest h (tlBytes_ne_nil b)
  have hlen := length_tlBytes b
  by_cases hs : b.length < 254
  · have hrest : r.rest = [UInt8.ofNat b.length] ++ (b ++ (bytesPad b.length ++ t)) := by
      rw [h, tlBytes, bytesHeader, if_pos hs, append_assoc, append_assoc]
    have hdata : slice r.rest 1 b.length = b := slice_field hrest rfl rfl
    rw [if_pos hs] at hlen
    rw [tlReadBytes_short hs (by rw [r.getD_pos, hrest]; rfl) (by omega), ← hlen,
      slice_rest, hdata]
  · have hrest : r.rest = [0xFE] ++ (leBytes 3 b.length ++ (b ++ (bytesPad b.length ++ t))) := by
      rw [h, tlBytes, bytesHeader, if_neg hs]
      simp only [cons_append, append_assoc, nil_append]
    have hone : ([0xFE] : Bytes).length = 1 := rfl
    have hn : leNat (slice r.data (r.pos + 1) 3) = b.length := by
      rw [slice_rest, slice_field hrest hone (length_leBytes 3 _),
        leNat_leBytes_of_lt (by omega)]
    have hdata : slice r.rest 4 b.length = b :=
      slice_field (p := 0xFE :: leBytes 3 b.length) hrest
        (by rw [length_cons, length_leBytes]) rfl
    rw [if_neg hs] at hlen
    rw [tlReadBytes_long (by rw [r.getD_pos, hrest]; rfl) hn (by omega), ← hlen,
      slice_rest, hdata]

/-- **A byte string below the limit of its length prefix is read back.** -/
theorem tlReadBytes_of_rest {b : Bytes} (hb : b.length < 2 ^ 24) (h : r.rest = tlBytes b ++ t) :
    (tlReadBytes r).1 = some b ∧ (tlReadBytes r).2.rest = t := by
  rw [tlReadBytes_at_rest hb h]
  exact ⟨rfl, by rw [rest_advance, h, drop_left]⟩

end RoundTrip

end TgCli.Core
