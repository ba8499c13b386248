import TgCli.Core.MtprotoSession

/-!
# `app/session_store.c`: the format of `session.bin`

A file is a header of 16 bytes --- magic, version, home DC, count --- and up to five entries of 276
bytes.  Version 1 had one entry right behind the version; it is lifted into a store with that entry
as home.  A `StoreFile` cannot hold more than five entries.

`readFileLocked_storeBytes` is the round trip, and `readFileLocked_eq_none_of_version` says which
files of other versions are refused.
-/

namespace TgCli.App

open List Lib TgCli.Core

/-! ## Layout -/

def sessionStoreMaxDcs : ℕ := 5

def storeMagic : Bytes := ascii "TGCS"
def storeVersion : Int32 := 2
def storeVersionV1 : Int32 := 1
def storeV1TotalSize : ℕ := 284
def storeHeader : ℕ := 16
def storeEntrySize : ℕ := 276
def storeMaxSize : ℕ := storeHeader + sessionStoreMaxDcs * storeEntrySize

structure StoreEntry where
  dcId : Int32
  serverSalt : UInt64
  sessionId : UInt64
  authKey : AuthKey
  deriving DecidableEq

/-- `StoreFile`; `count` is the length of `entries`. -/
@[ext] structure StoreFile where
  homeDcId : Int32
  entries : List StoreEntry
  count_le : entries.length ≤ sessionStoreMaxDcs
  deriving DecidableEq

/-- The store after `memset`. -/
def StoreFile.empty : StoreFile :=
  ⟨0, [], Nat.zero_le _⟩

/-! ## Writing -/

def entryBytes (e : StoreEntry) : Bytes :=
  u32Bytes e.dcId.toUInt32 ++ (u64Bytes e.serverSalt ++ (u64Bytes e.sessionId ++ e.authKey.1))

/-- The buffer that `write_file_atomic` builds. -/
def storeBytes (st : StoreFile) : Bytes :=
  storeMagic ++ (u32Bytes storeVersion.toUInt32 ++ (u32Bytes st.homeDcId.toUInt32 ++
    (u32Bytes (UInt32.ofNat st.entries.length) ++ st.entries.flatMap entryBytes)))

def storeV1Bytes (e : StoreEntry) : Bytes :=
  storeMagic ++ (u32Bytes storeVersionV1.toUInt32 ++ entryBytes e)

/-! ## Reading -/

def readEntry (b : Bytes) : StoreEntry where
  dcId := (u32At b 0).toInt32
  serverSalt := u64At b 4
  sessionId := u64At b 12
  authKey := toBlock 256 (slice b 20 256)

def readEntries (buf : Bytes) (count : ℕ) : List StoreEntry :=
  (List.range count).map fun i =>
    readEntry (slice buf (storeHeader + i * storeEntrySize) storeEntrySize)

theorem length_readEntries (buf : Bytes) (count : ℕ) : (readEntries buf count).length = count := by
  rw [readEntries, length_map, length_range]

/-- The part of `read_file_locked` for version 1: one entry, right behind the version. -/
def readStoreV1 (buf : Bytes) : Option StoreFile :=
  if buf.length < storeV1TotalSize then none
  else
    let e := readEntry (slice buf 8 storeEntrySize)
    some ⟨e.dcId, [e], Nat.one_le_ofNat⟩

/-- The part of `read_file_locked` for version 2. -/
def readStoreV2 (buf : Bytes) : Option StoreFile :=
  let count := (u32At buf 12).toNat
  if h : count > sessionStoreMaxDcs then none
  else if buf.length < storeHeader + count * storeEntrySize then none
  else some ⟨(u32At buf 8).toInt32, readEntries buf count, by
    rw [length_readEntries]; exact not_lt.mp h⟩

/-- `read_file_locked` on the bytes in its buffer. -/
def readStore (buf : Bytes) : Option StoreFile :=
  if buf.length < storeHeader then none
  else if buf.take 4 ≠ storeMagic then none
  else
    let version := (u32At buf 4).toInt32
    if version = storeVersionV1 then readStoreV1 buf
    else if version ≠ storeVersion then none
    else readStoreV2 buf

/-- `read_file_locked` on the contents of a file that could be opened; `none` is a corrupt or
unsupported file. -/
def readFileLocked (content : Bytes) : Option StoreFile :=
  readStore (content.take storeMaxSize)

/-! ## Round trip -/

theorem length_entryBytes (e : StoreEntry) : (entryBytes e).length = storeEntrySize := by
  simp only [entryBytes, length_append, length_u32Bytes, length_u64Bytes, length_block]
  rfl

theorem readEntry_entryBytes (e : StoreEntry) : readEntry (entryBytes e) = e := by
  have hdc : u32At (entryBytes e) 0 = e.dcId.toUInt32 :=
    u32At_of_slice (slice_field (p := []) rfl rfl (length_u32Bytes _))
  have hsalt : u64At (entryBytes e) 4 = e.serverSalt :=
    u64At_of_slice (slice_field rfl (length_u32Bytes _) (length_u64Bytes _))
  have hsid : u64At (entryBytes e) 12 = e.sessionId := by
    refine u64At_of_slice (slice_field (p := u32Bytes e.dcId.toUInt32 ++ u64Bytes e.serverSalt)
      (q := e.authKey.1) ?_ ?_ (length_u64Bytes _))
    · rw [entryBytes, append_assoc]
    · rw [length_append, length_u32Bytes, length_u64Bytes]
  have hkey : slice (entryBytes e) 20 256 = e.authKey.1 := by
    refine slice_field (q := [])
      (p := u32Bytes e.dcId.toUInt32 ++ (u64Bytes e.serverSalt ++ u64Bytes e.sessionId)) ?_ ?_
      (length_block e.authKey)
    · simp only [entryBytes, append_assoc, append_nil]
    · simp only [length_append, length_u32Bytes, length_u64Bytes]
  rw [readEntry, hdc, hsalt, hsid, hkey]
  have hblock : toBlock 256 e.authKey.1 = e.authKey := Subtype.ext (toBlock_of_length e.authKey.2)
  rw [hblock]
  cases e
  rfl

theorem length_storeBytes (st : StoreFile) :
    (storeBytes st).length = storeHeader + st.entries.length * storeEntrySize := by
  have hmagic : storeMagic.length = 4 := by decide
  simp only [storeBytes, length_append, length_u32Bytes, hmagic,
    length_flatMap_const length_entryBytes]
  show 4 + (4 + (4 + (4 + _))) = 16 + _
  omega

theorem header_storeBytes (st : StoreFile) :
    (storeBytes st).take 4 = storeMagic ∧
      u32At (storeBytes st) 4 = storeVersion.toUInt32 ∧
      u32At (storeBytes st) 8 = st.homeDcId.toUInt32 ∧
      u32At (storeBytes st) 12 = UInt32.ofNat st.entries.length := by
  have hmagic : storeMagic.length = 4 := by decide
  refine ⟨take_left' hmagic, ?_, ?_, ?_⟩
  · exact u32At_of_slice (slice_field rfl hmagic (length_u32Bytes _))
  · refine u32At_of_slice (slice_field (p := storeMagic ++ u32Bytes storeVersion.toUInt32)
      (q := u32Bytes (UInt32.ofNat st.entries.length) ++ st.entries.flatMap entryBytes)
      ?_ ?_ (length_u32Bytes _))
    · rw [storeBytes, append_assoc]
    · rw [length_append, hmagic, length_u32Bytes]
  · refine u32At_of_slice (slice_field (q := st.entries.flatMap entryBytes)
      (p := storeMagic ++ (u32Bytes storeVersion.toUInt32 ++ u32Bytes st.homeDcId.toUInt32))
      ?_ ?_ (length_u32Bytes _))
    · simp only [storeBytes, append_assoc]
    · simp only [length_append, hmagic, length_u32Bytes]

theorem slice_entry_storeBytes (st : StoreFile) {i : ℕ} (hi : i < st.entries.length) :
    slice (storeBytes st) (storeHeader + i * storeEntrySize) storeEntrySize =
      entryBytes st.entries[i] := by
  have hsplit : ∃ h : Bytes, h.length = storeHeader ∧
      storeBytes st = h ++ st.entries.flatMap entryBytes := by
    refine ⟨storeMagic ++ (u32Bytes storeVersion.toUInt32 ++ (u32Bytes st.homeDcId.toUInt32 ++
      u32Bytes (UInt32.ofNat st.entries.length))), ?_, ?_⟩
    · simp only [length_append, length_u32Bytes]
      decide
    · simp only [storeBytes, append_assoc]
  obtain ⟨h, hlen, heq⟩ := hsplit
  rw [heq, ← hlen, slice_append_right, slice_flatMap length_entryBytes hi]

section Buffer

variable (st : StoreFile) (rest : Bytes)

theorem length_storeBytes_le : (storeBytes st).length ≤ storeMaxSize := by
  rw [length_storeBytes]
  exact Nat.add_le_add_left (Nat.mul_le_mul_right _ st.count_le) _

theorem u32At_buffer {b : Bytes} {off : ℕ} (h : off + 4 ≤ b.length) (hk : b.length ≤ storeMaxSize) :
    u32At ((b ++ rest).take storeMaxSize) off = u32At b off := by
  rw [u32At, u32At, slice_buffer h hk]

theorem take_buffer {b : Bytes} (h : 4 ≤ b.length) (hk : b.length ≤ storeMaxSize) :
    ((b ++ rest).take storeMaxSize).take 4 = b.take 4 := by
  have hs := slice_buffer (show 0 + 4 ≤ b.length by omega) hk rest
  rwa [slice_zero, slice_zero] at hs

theorem length_buffer {b : Bytes} (hk : b.length ≤ storeMaxSize) :
    b.length ≤ ((b ++ rest).take storeMaxSize).length := by
  rw [length_take, length_append]
  omega

theorem readEntries_buffer :
    readEntries ((storeBytes st ++ rest).take storeMaxSize) st.entries.length = st.entries := by
  refine ext_getElem (length_readEntries _ _) fun i hi hi' => ?_
  have hend : storeHeader + i * storeEntrySize + storeEntrySize ≤ (storeBytes st).length := by
    rw [length_storeBytes, Nat.add_assoc, ← Nat.succ_mul]
    exact Nat.add_le_add_left (Nat.mul_le_mul_right _ hi') _
  simp only [readEntries, getElem_map, getElem_range]
  rw [slice_buffer hend (length_storeBytes_le st), slice_entry_storeBytes st hi',
    readEntry_entryBytes]

/-- **A store that was written is read back**, also when more bytes follow. -/
theorem readFileLocked_append : readFileLocked (storeBytes st ++ rest) = some st := by
  have hlen := length_storeBytes st
  have hmax := length_storeBytes_le st
  have h16 : 16 ≤ (storeBytes st).length := by
    rw [hlen]
    exact Nat.le_add_right _ _
  obtain ⟨hmagic, hversion, hhome, hcnt⟩ := header_storeBytes st
  set buf := (storeBytes st ++ rest).take storeMaxSize with hbuf
  have hbufLen : (storeBytes st).length ≤ buf.length := length_buffer rest hmax
  have hhead : ¬ buf.length < storeHeader := not_lt.mpr (h16.trans hbufLen)
  have hmagic' : buf.take 4 = storeMagic := (take_buffer rest (by omega) hmax).trans hmagic
  have hn : (UInt32.ofNat st.entries.length).toNat = st.entries.length :=
    UInt32.toNat_ofNat_of_lt' (lt_of_le_of_lt st.count_le (by decide))
  have hv1 : ¬ storeVersion.toUInt32.toInt32 = storeVersionV1 := by decide
  have hv2 : ¬ storeVersion.toUInt32.toInt32 ≠ storeVersion := by decide
  have hread : readStoreV2 buf = some st := by
    have hneed : ¬ buf.length < storeHeader + st.entries.length * storeEntrySize := by
      rw [← hlen]
      exact not_lt.mpr hbufLen
    have hc : u32At buf 12 = UInt32.ofNat st.entries.length :=
      (u32At_buffer rest (by omega) hmax).trans hcnt
    have hh : u32At buf 8 = st.homeDcId.toUInt32 := (u32At_buffer rest (by omega) hmax).trans hhome
    simp only [readStoreV2, hc, hn, hh, gt_iff_lt, not_lt.mpr st.count_le, dite_false, hneed,
      if_false, Option.some_inj]
    exact StoreFile.ext rfl (readEntries_buffer st rest)
  have hv : u32At buf 4 = storeVersion.toUInt32 :=
    (u32At_buffer rest (by omega) hmax).trans hversion
  rw [readFileLocked, ← hbuf, readStore, if_neg hhead, if_neg (not_not.mpr hmagic')]
  simp only [hv, if_neg hv1, if_neg hv2, hread]

theorem readFileLocked_storeBytes : readFileLocked (storeBytes st) = some st := by
  have h := readFileLocked_append st []
  rwa [append_nil] at h

/-- **A version 1 file is read as a store with one entry**, whose DC is home. -/
theorem readFileLocked_v1 (e : StoreEntry) :
    readFileLocked (storeV1Bytes e ++ rest) = some ⟨e.dcId, [e], Nat.one_le_ofNat⟩ := by
  have hmagic : storeMagic.length = 4 := by decide
  have hlen : (storeV1Bytes e).length = storeV1TotalSize := by
    simp only [storeV1Bytes, length_append, length_u32Bytes, hmagic, length_entryBytes]
    rfl
  have h284 : storeV1TotalSize = 284 := rfl
  have hmax : (storeV1Bytes e).length ≤ storeMaxSize := by
    rw [hlen]
    decide
  set buf := (storeV1Bytes e ++ rest).take storeMaxSize with hbuf
  have hbufLen : (storeV1Bytes e).length ≤ buf.length := length_buffer rest hmax
  have hhead : ¬ buf.length < storeHeader := by
    have : storeHeader = 16 := rfl
    omega
  have hmagic' : buf.take 4 = storeMagic :=
    (take_buffer rest (by omega) hmax).trans (take_left' hmagic)
  have hv : u32At buf 4 = storeVersionV1.toUInt32 :=
    (u32At_buffer rest (by omega) hmax).trans
      (u32At_of_slice (slice_field rfl hmagic (length_u32Bytes _)))
  have hentry : slice buf 8 storeEntrySize = entryBytes e := by
    rw [hbuf, slice_buffer (by rw [hlen]; decide) hmax]
    refine slice_field (q := []) (p := storeMagic ++ u32Bytes storeVersionV1.toUInt32) ?_ ?_
      (length_entryBytes e)
    · simp only [storeV1Bytes, append_assoc, append_nil]
    · rw [length_append, hmagic, length_u32Bytes]
  have hfull : ¬ buf.length < storeV1TotalSize := by omega
  have hv1 : storeVersionV1.toUInt32.toInt32 = storeVersionV1 := by decide
  rw [readFileLocked, ← hbuf, readStore, if_neg hhead, if_neg (not_not.mpr hmagic')]
  simp only [hv, if_pos hv1, readStoreV1, if_neg hfull, hentry, readEntry_entryBytes]

end Buffer

theorem readFileLocked_eq_none_of_version {content : Bytes}
    (h1 : (u32At content 4).toInt32 ≠ storeVersionV1)
    (h2 : (u32At content 4).toInt32 ≠ storeVersion) :
    readFileLocked content = none := by
  have hv : u32At (content.take storeMaxSize) 4 = u32At content 4 := by
    rw [u32At, u32At, slice_take (by decide)]
  rw [readFileLocked, readStore]
  simp only [hv, if_neg h1, if_pos h2, ite_self]

end TgCli.App
