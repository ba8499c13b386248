import TgCli.Lib.Stdio
import TgCli.Infrastructure.MtprotoRpc
import Mathlib.Algebra.Order.Floor.Div

/-!
# `domain/write/upload.c`: sending a file in parts

`upload_chunk_phase` sends a file part by part to the home data center.  When a part is answered by
a redirect, it starts over on the data center that the redirect names, from the first part and
under a fresh file id.

A server keeps the parts it has acknowledged under the file id they came with, so what matters at
the end is the list of acknowledged parts under the id that the function returns.  Parts of the
abandoned attempt are in the trace as well, and it is only their id that sets them apart.
`uploadLoop_ok` says what a loop that ends well has added to that list, `uploadLoop_acks` what any
loop can have added, and the main theorem puts the two attempts together.
-/

namespace TgCli.Domain

open List Lib TgCli.Core Infrastructure

def crcUploadSaveFilePart : UInt32 := 0xb304a621
def crcUploadSaveBigFilePart : UInt32 := 0xde7b673d

def uploadChunkSize : ℕ := 512 * 1024
def uploadBigThreshold : ℕ := 10 * 1024 * 1024
def uploadMaxSize : ℕ := 1536 * 1024 * 1024

/-- A part request on the wire: the data center it went to, and what `api_call` made of the
answer. -/
structure SentPart where
  dc : Int32
  query : Bytes
  reply : Option Bytes
  deriving DecidableEq

/-- The state of an upload: the open file, what `api_call` has yet to return, and the trace of part
requests.  When the outcomes are used up, `api_call` fails. -/
structure UploadRun where
  file : InStream
  replies : List (Option Bytes)
  sent : List SentPart

/-- What stays the same for all parts of one attempt. -/
structure PartsCall where
  dc : Int32
  isBig : Bool
  total : ℕ
  fileId : Int64
  totalParts : Int32

namespace PartsCall

def query (c : PartsCall) (partIdx : Int32) (bytes : Bytes) : Bytes :=
  if c.isBig then
    let w := tlWriteUint32 [] crcUploadSaveBigFilePart
    let w := tlWriteInt64 w c.fileId
    let w := tlWriteInt32 w partIdx
    let w := tlWriteInt32 w c.totalParts
    tlWriteBytes w bytes
  else
    let w := tlWriteUint32 [] crcUploadSaveFilePart
    let w := tlWriteInt64 w c.fileId
    let w := tlWriteInt32 w partIdx
    tlWriteBytes w bytes

end PartsCall

/-- `api_call` with a part request. -/
def UploadRun.call (dc : Int32) (query : Bytes) (st : UploadRun) : Option Bytes × UploadRun :=
  let reply := st.replies.headD none
  (reply, { st with replies := st.replies.tail, sent := st.sent ++ [⟨dc, query, reply⟩] })

/-- What `save_part` makes of the outcome of its call.  An error comes with the data center that
the caller is told to try, 0 for none. -/
def partOutcome : Option Bytes → Except Int32 Unit
  | none => .error 0
  | some resp =>
    if resp.length < 4 then .error 0
    else if u32At resp 0 = crcRpcError then
      let migrateDc := (rpcParseError resp).elim 0 RpcError.migrateDc
      .error (if migrateDc > 0 then migrateDc else 0)
    else if u32At resp 0 ≠ tlBoolTrue then .error 0
    else .ok ()

def savePart (c : PartsCall) (partIdx : Int32) (bytes : Bytes) (st : UploadRun) :
    Except Int32 Unit × UploadRun :=
  let (reply, st) := st.call c.dc (c.query partIdx bytes)
  (partOutcome reply, st)

/-- The loop of `upload_all_parts`.  Every turn sends at least one byte, so as many turns as there
are bytes left are enough. -/
def uploadLoop (c : PartsCall) : ℕ → Int32 → ℕ → UploadRun → Except Int32 Int32 × UploadRun
  | 0, partIdx, _, st => (.ok partIdx, st)
  | fuel + 1, partIdx, done, st =>
    if done < c.total then
      let want := min (c.total - done) uploadChunkSize
      let got := st.file.fread want
      let st := { st with file := got.2 }
      if got.1.length ≠ want then (.error 0, st)
      else
        match savePart c partIdx got.1 st with
        | (.error migrate, st) => (.error migrate, st)
        | (.ok _, st) => uploadLoop c fuel (partIdx + 1) (done + got.1.length) st
    else (.ok partIdx, st)

/-- `upload_all_parts`: the number of parts, or the data center to try. -/
def uploadAllParts (c : PartsCall) (st : UploadRun) : Except Int32 Int32 × UploadRun :=
  let (ok, file) := st.file.rewind
  if ok then uploadLoop c c.total 0 0 { st with file } else (.error 0, { st with file })

def basenameOf (path : Bytes) : Bytes :=
  (path.reverse.takeWhile (· ≠ 0x2f)).reverse

/-- `UploadedFile`; `file_name` is the text in its 256-byte array. -/
structure UploadedFile where
  fileId : Int64
  partCount : Int32
  isBig : Bool
  fileName : Bytes
  deriving DecidableEq

/-- What the outside contributes to an upload: the file at `filePath`, whether `stat` finds a
regular file there and `fopen` opens it, what its reads and seeks do, the two draws of
`crypto_rand_bytes`, whether the other data center can be opened and authorized, and what the calls
for the parts return. -/
structure UploadEnv where
  filePath : Bytes
  content : Bytes
  isReg : Bool
  opens : Bool
  yields : List ℕ
  seeks : List Bool
  homeDc : Int32
  fileId : Option Int64
  retryId : Option Int64
  dcOpens : Bool
  dcAuthorized : Bool
  replies : List (Option Bytes)

namespace UploadEnv

variable (env : UploadEnv)

def start : UploadRun :=
  ⟨⟨env.content, 0, env.yields, env.seeks⟩, env.replies, []⟩

def isBig : Bool :=
  env.content.length ≥ uploadBigThreshold

def totalParts : Int32 :=
  Int32.ofNat ((env.content.length + uploadChunkSize - 1) / uploadChunkSize)

def parts (dc : Int32) (fileId : Int64) : PartsCall :=
  ⟨dc, env.isBig, env.content.length, fileId, env.totalParts⟩

def uploaded (fileId : Int64) (partCount : Int32) : UploadedFile :=
  ⟨fileId, partCount, env.isBig, (basenameOf (cstr env.filePath)).take 255⟩

end UploadEnv

/-- The second attempt of `upload_chunk_phase`. -/
def uploadRetry (env : UploadEnv) (migrate : Int32) (st : UploadRun) :
    Option UploadedFile × UploadRun :=
  if migrate ≤ 0 then (none, st)
  else if !env.dcOpens then (none, st)
  else if !env.dcAuthorized then (none, st)
  else
    match env.retryId with
    | none => (none, st)
    | some fileId =>
      match uploadAllParts (env.parts migrate fileId) st with
      | (.ok n, st) => (some (env.uploaded fileId n), st)
      | (.error _, st) => (none, st)

/-- `upload_chunk_phase`, with the trace. -/
def uploadChunkPhase (env : UploadEnv) : Option UploadedFile × UploadRun :=
  if !env.isReg then (none, env.start)
  else if env.content.length = 0 ∨ env.content.length > uploadMaxSize then (none, env.start)
  else if !env.opens then (none, env.start)
  else
    match env.fileId with
    | none => (none, env.start)
    | some fileId =>
      match uploadAllParts (env.parts env.homeDc fileId) env.start with
      | (.ok n, st) => (some (env.uploaded fileId n), st)
      | (.error migrate, st) => uploadRetry env migrate st

/-! ## The server's side -/

/-- A part request as the schema has it; only `upload.saveBigFilePart` has the number of parts. -/
structure PartRequest where
  fileId : Int64
  part : Int32
  totalParts : Option Int32
  bytes : Bytes
  deriving DecidableEq

def readPart (query : Bytes) : Option PartRequest :=
  let (crc, r) := tlReadUint32 (tlReaderInit query)
  let (fileId, r) := tlReadInt64 r
  let (part, r) := tlReadInt32 r
  if crc = crcUploadSaveBigFilePart then
    let (total, r) := tlReadInt32 r
    (tlReadBytes r).1.map fun bytes => ⟨fileId, part, some total, bytes⟩
  else if crc = crcUploadSaveFilePart then
    (tlReadBytes r).1.map fun bytes => ⟨fileId, part, none, bytes⟩
  else none

/-- The server has acknowledged the part: it answered `boolTrue`. -/
def SentPart.acked (s : SentPart) : Bool :=
  s.reply.any fun resp => 4 ≤ resp.length && u32At resp 0 == tlBoolTrue

/-- The part that a server has stored for a request, and which server. -/
def SentPart.stored (s : SentPart) : Option (Int32 × PartRequest) :=
  if s.acked then (readPart s.query).map fun p => (s.dc, p) else none

def storedParts (sent : List SentPart) : List (Int32 × PartRequest) :=
  sent.filterMap SentPart.stored

def storedUnder (fileId : Int64) (sent : List SentPart) : List (Int32 × PartRequest) :=
  (storedParts sent).filter (·.2.fileId = fileId)

/-! ## One part -/

def PartsCall.request (c : PartsCall) (partIdx : Int32) (bytes : Bytes) : PartRequest :=
  ⟨c.fileId, partIdx, if c.isBig then some c.totalParts else none, bytes⟩

variable {st st' : UploadRun} {bytes content : Bytes}

variable (c : PartsCall)

/-- **The server reads what the client wrote.** -/
theorem readPart_query (partIdx : Int32) (hlen : bytes.length < 2 ^ 24) :
    readPart (c.query partIdx bytes) = some (c.request partIdx bytes) := by
  have hword : crcUploadSaveFilePart ≠ crcUploadSaveBigFilePart := by decide
  have hquery : c.query partIdx bytes =
      u32Bytes (if c.isBig then crcUploadSaveBigFilePart else crcUploadSaveFilePart) ++
        (u64Bytes c.fileId.toUInt64 ++ (u32Bytes partIdx.toUInt32 ++
          ((if c.isBig then u32Bytes c.totalParts.toUInt32 else []) ++
            (tlBytes bytes ++ [])))) := by
    cases hbig : c.isBig <;>
      simp [PartsCall.query, hbig, tlWriteBytes_eq, tlWriteUint32, tlWriteInt64, tlWriteUint64,
        tlWriteInt32]
  obtain ⟨hcrc, h0⟩ := tlReadUint32_of_rest ((rest_tlReaderInit _).trans hquery)
  obtain ⟨hid, h1⟩ := tlReadInt64_of_rest h0
  obtain ⟨hpart, h2⟩ := tlReadInt32_of_rest h1
  cases hbig : c.isBig <;> rw [hbig] at hcrc h2
  · have hbytes := (tlReadBytes_of_rest hlen h2).1
    simp [readPart, PartsCall.request, hcrc, hid, hpart, hbytes, hbig, hword]
  · obtain ⟨htotal, h3⟩ := tlReadInt32_of_rest h2
    have hbytes := (tlReadBytes_of_rest hlen h3).1
    simp [readPart, PartsCall.request, hcrc, hid, hpart, htotal, hbytes, hbig]

theorem partOutcome_ok_iff (s : SentPart) : partOutcome s.reply = .ok () ↔ s.acked = true := by
  have hne : tlBoolTrue ≠ crcRpcError := by decide
  rcases s with ⟨dc, query, _ | resp⟩
  · simp [partOutcome, SentPart.acked]
  · simp only [partOutcome, SentPart.acked, Option.any_some, Bool.and_eq_true, decide_eq_true_eq,
      beq_iff_eq]
    split_ifs with hlen herr htrue
    · exact ⟨fun h => absurd h (by simp), fun h => absurd h.1 (by omega)⟩
    · exact ⟨fun h => absurd h (by simp), fun h => absurd (h.2.symm.trans herr) hne⟩
    · exact ⟨fun h => absurd h (by simp), fun h => absurd h.2 htrue⟩
    · exact ⟨fun _ => ⟨by omega, not_not.mp htrue⟩, fun _ => rfl⟩

theorem storedParts_append (l l' : List SentPart) :
    storedParts (l ++ l') = storedParts l ++ storedParts l' :=
  filterMap_append

/-- An attempt at a part leaves the file alone.  If it succeeds, the server has the part; if not,
the server has nothing new. -/
theorem savePart_cases (partIdx : Int32) (hlen : bytes.length < 2 ^ 24) (st : UploadRun) :
    (savePart c partIdx bytes st).2.file = st.file ∧
      (((savePart c partIdx bytes st).1 = .ok () ∧
          storedParts (savePart c partIdx bytes st).2.sent =
            storedParts st.sent ++ [(c.dc, c.request partIdx bytes)]) ∨
        ∃ migrate, (savePart c partIdx bytes st).1 = .error migrate ∧
          storedParts (savePart c partIdx bytes st).2.sent = storedParts st.sent) := by
  set s : SentPart := ⟨c.dc, c.query partIdx bytes, st.replies.headD none⟩ with hs
  have hsent : (savePart c partIdx bytes st).2.sent = st.sent ++ [s] := rfl
  have houtcome : (savePart c partIdx bytes st).1 = partOutcome s.reply := rfl
  refine ⟨rfl, ?_⟩
  rw [hsent, houtcome, storedParts_append]
  cases hres : partOutcome s.reply with
  | ok _ =>
    have hack : s.acked = true := (partOutcome_ok_iff s).mp hres
    have hstored : s.stored = some (c.dc, c.request partIdx bytes) := by
      rw [SentPart.stored, if_pos hack, hs, readPart_query c partIdx hlen, Option.map_some]
    refine .inl ⟨rfl, ?_⟩
    rw [storedParts, storedParts, filterMap_cons_some hstored, filterMap_nil]
  | error migrate =>
    have hack : ¬ s.acked = true := by
      intro h
      rw [(partOutcome_ok_iff s).mpr h] at hres
      cases hres
    refine .inr ⟨migrate, rfl, ?_⟩
    simp [storedParts, SentPart.stored, hack]

/-! ## One attempt -/

/-- **One turn of the loop.**  It ends the loop with an error and nothing new on the server, or the
server gets the part at the cursor and the loop goes on behind it. -/
theorem uploadLoop_turn {c : PartsCall} {done : ℕ} (hdone : done < c.total) (fuel : ℕ)
    (partIdx : Int32) (st : UploadRun) :
    (∃ migrate st', uploadLoop c (fuel + 1) partIdx done st = (.error migrate, st') ∧
        st'.file.content = st.file.content ∧ storedParts st'.sent = storedParts st.sent) ∨
      ∃ st', uploadLoop c (fuel + 1) partIdx done st =
          uploadLoop c fuel (partIdx + 1) (done + min (c.total - done) uploadChunkSize) st' ∧
        st'.file.content = st.file.content ∧
        st'.file.pos = st.file.pos + min (c.total - done) uploadChunkSize ∧
        storedParts st'.sent = storedParts st.sent ++ [(c.dc, c.request partIdx
          (slice st.file.content st.file.pos (min (c.total - done) uploadChunkSize)))] := by
  rw [uploadLoop, if_pos hdone]
  generalize hwant : min (c.total - done) uploadChunkSize = want
  have hsmall : want ≤ uploadChunkSize := hwant ▸ min_le_right _ _
  by_cases hgot : (st.file.fread want).1.length = want
  · rw [if_neg (not_not.mpr hgot)]
    have hlen : (st.file.fread want).1.length < 2 ^ 24 := by
      rw [hgot]
      exact lt_of_le_of_lt hsmall (by decide)
    obtain ⟨hfile, ⟨hok, hstored⟩ | ⟨migrate, herr, hstored⟩⟩ :=
      savePart_cases c partIdx hlen { st with file := (st.file.fread want).2 }
    · generalize savePart c partIdx _ _ = x at hfile hok hstored
      obtain ⟨res, st'⟩ := x
      subst hok
      refine .inr ⟨st', by rw [hgot], by rw [hfile]; rfl, ?_, ?_⟩
      · rw [hfile, InStream.pos_fread, hgot]
      · rw [hstored, InStream.fread_of_length hgot]
    · generalize savePart c partIdx _ _ = x at hfile herr hstored
      obtain ⟨res, st'⟩ := x
      subst herr
      exact .inl ⟨migrate, st', rfl, by rw [hfile]; rfl, hstored⟩
  · rw [if_pos hgot]
    exact .inl ⟨0, _, rfl, rfl, rfl⟩

theorem uploadLoop_acks (fuel : ℕ) (partIdx : Int32) (done : ℕ) (st : UploadRun) :
    (uploadLoop c fuel partIdx done st).2.file.content = st.file.content ∧
      ∃ l, storedParts (uploadLoop c fuel partIdx done st).2.sent = storedParts st.sent ++ l ∧
        ∀ x ∈ l, x.2.fileId = c.fileId := by
  induction fuel generalizing partIdx done st with
  | zero => exact ⟨rfl, [], (append_nil _).symm, fun _ hx => absurd hx not_mem_nil⟩
  | succ fuel ih =>
    by_cases hdone : done < c.total
    · obtain ⟨migrate, st', h, hcontent, hstored⟩ | ⟨st', h, hcontent, -, hstored⟩ :=
        uploadLoop_turn hdone fuel partIdx st
      · rw [h]
        exact ⟨hcontent, [], by rw [hstored, append_nil],
          fun _ hx => absurd hx not_mem_nil⟩
      · obtain ⟨hcontent', l, hl, hid⟩ := ih (partIdx + 1) _ st'
        rw [h]
        refine ⟨hcontent'.trans hcontent, _, by rw [hl, hstored, append_assoc], ?_⟩
        intro x hx
        rcases mem_cons.mp hx with rfl | hx
        · rfl
        · exact hid x hx
    · rw [uploadLoop, if_neg hdone]
      exact ⟨rfl, [], (append_nil _).symm, fun _ hx => absurd hx not_mem_nil⟩

def PartsCall.count (c : PartsCall) : ℕ :=
  c.total ⌈/⌉ uploadChunkSize

def PartsCall.part (c : PartsCall) (content : Bytes) (i : ℕ) : Int32 × PartRequest :=
  (c.dc, c.request (Int32.ofNat i) (slice content (i * uploadChunkSize) uploadChunkSize))

theorem PartsCall.count_le_iff (k : ℕ) :
    c.count ≤ k ↔ c.total ≤ k * uploadChunkSize := by
  rw [PartsCall.count, ceilDiv_le_iff_le_mul (by decide), mul_comm]

theorem uploadLoop_ok_end {n : Int32}
    {fuel k done : ℕ} (hlt : ¬ done < c.total) (hdone : done = min (k * uploadChunkSize) c.total)
    (hk : k ≤ c.count) (h : uploadLoop c fuel (Int32.ofNat k) done st = (.ok n, st')) :
    n = Int32.ofNat c.count ∧ storedParts st'.sent =
      storedParts st.sent ++ (range' k (c.count - k)).map (c.part content) := by
  have hk' : k = c.count := le_antisymm hk ((c.count_le_iff k).mpr (by omega))
  have hend : uploadLoop c fuel (Int32.ofNat k) done st = (.ok (Int32.ofNat k), st) := by
    cases fuel with
    | zero => rfl
    | succ fuel => rw [uploadLoop, if_neg hlt]
  obtain ⟨rfl, rfl⟩ : Int32.ofNat k = n ∧ st = st' := by
    simpa only [Prod.mk.injEq, Except.ok.injEq] using hend.symm.trans h
  exact ⟨by rw [hk'], by rw [hk', Nat.sub_self, range'_zero, map_nil, append_nil]⟩

/-- **A loop that ends well.**  After `k` parts the loop is at the end of the `k`-th piece of the
file, or at the end of the file; from there it sends the pieces from the `k`-th on. -/
theorem uploadLoop_ok (hlen : content.length = c.total)
    {n : Int32} (fuel k done : ℕ) (st : UploadRun)
    (hcontent : st.file.content = content) (hpos : st.file.pos = done)
    (hdone : done = min (k * uploadChunkSize) c.total) (hfuel : c.total - done ≤ fuel)
    (hk : k ≤ c.count) (h : uploadLoop c fuel (Int32.ofNat k) done st = (.ok n, st')) :
    n = Int32.ofNat c.count ∧ storedParts st'.sent =
      storedParts st.sent ++ (range' k (c.count - k)).map (c.part content) := by
  induction fuel generalizing k done st with
  | zero => exact uploadLoop_ok_end c (by omega) hdone hk h
  | succ fuel ih =>
    by_cases hlt : done < c.total
    · obtain ⟨hk', hnext, hless⟩ := next_piece (by decide) hdone hlt
      have hk₁ : k < c.count := by
        rw [← not_le, c.count_le_iff, hk', not_le]
        exact hlt
      obtain ⟨migrate, st₁, herr, -, -⟩ | ⟨st₁, hok, hcontent₁, hpos₁, hstored₁⟩ :=
        uploadLoop_turn hlt fuel (Int32.ofNat k) st
      · rw [herr] at h
        cases h
      · have hidx : Int32.ofNat k + 1 = Int32.ofNat (k + 1) := (Int32.ofNat_add k 1).symm
        rw [hok, hidx] at h
        obtain ⟨hn, hstored⟩ := ih (k + 1) _ st₁ (hcontent₁.trans hcontent)
          (by rw [hpos₁, hpos]) hnext (Nat.le_of_lt_succ (lt_of_lt_of_le hless hfuel)) hk₁ h
        refine ⟨hn, ?_⟩
        -- the piece that was read is the `k`-th one, and the rest are the pieces behind it
        have hpart : (c.dc, c.request (Int32.ofNat k)
            (slice st.file.content st.file.pos (min (c.total - done) uploadChunkSize))) =
            c.part content k := by
          rw [hcontent, hpos, ← hlen, slice_left, ← hk']
          rfl
        have hrest : range' k (c.count - k) = k :: range' (k + 1) (c.count - (k + 1)) := by
          rw [← range'_succ, Nat.sub_add_eq, Nat.sub_add_cancel (Nat.sub_pos_of_lt hk₁)]
        rw [hstored, hstored₁, hpart, hrest, map_cons, append_assoc, singleton_append]
    · exact uploadLoop_ok_end c hlt hdone hk h

/-- **An attempt that ends well** has given the server every piece of the file. -/
theorem uploadAllParts_ok {c : PartsCall} {n : Int32}
    (hlen : st.file.content.length = c.total) (h : uploadAllParts c st = (.ok n, st')) :
    n = Int32.ofNat c.count ∧ storedParts st'.sent =
      storedParts st.sent ++ (range c.count).map (c.part st.file.content) := by
  unfold uploadAllParts at h
  dsimp only at h
  split_ifs at h with hok
  · have := uploadLoop_ok c hlen c.total 0 0 { st with file := st.file.rewind.2 } rfl
      (InStream.pos_rewind hok) (by omega) (by omega) (Nat.zero_le _) h
    rwa [Nat.sub_zero, ← range_eq_range'] at this
  · cases h

theorem uploadAllParts_acks (st : UploadRun) :
    (uploadAllParts c st).2.file.content = st.file.content ∧
      ∃ l, storedParts (uploadAllParts c st).2.sent = storedParts st.sent ++ l ∧
        ∀ x ∈ l, x.2.fileId = c.fileId := by
  unfold uploadAllParts
  dsimp only
  split_ifs
  · exact uploadLoop_acks c c.total 0 0 { st with file := st.file.rewind.2 }
  · exact ⟨rfl, [], (append_nil _).symm, fun _ hx => absurd hx not_mem_nil⟩

/-! ## Both attempts -/

theorem storedUnder_of_append {fileId : Int64} {sent : List SentPart}
    {l l' : List (Int32 × PartRequest)} (h : storedParts sent = l ++ l')
    (hl : ∀ x ∈ l, x.2.fileId ≠ fileId) (hl' : ∀ x ∈ l', x.2.fileId = fileId) :
    storedUnder fileId sent = l' := by
  rw [storedUnder, h, filter_append, filter_eq_nil_iff.mpr, nil_append,
    filter_eq_self.mpr]
  · intro x hx
    exact decide_eq_true (hl' x hx)
  · intro x hx
    simpa using hl x hx

theorem fileId_of_mem_parts {c : PartsCall} {k : ℕ} {x : Int32 × PartRequest}
    (hx : x ∈ (range k).map (c.part content)) : x.2.fileId = c.fileId := by
  obtain ⟨i, -, rfl⟩ := mem_map.mp hx
  rfl

/-- **A successful upload is one complete attempt**: under the id that is returned the servers have
the pieces of the file, all sent to one data center. -/
theorem storedUnder_of_uploadChunkPhase {env : UploadEnv} {uf : UploadedFile}
    (hids : env.fileId ≠ env.retryId) (h : uploadChunkPhase env = (some uf, st)) :
    env.content.length ≤ uploadMaxSize ∧ ∃ dc,
      uf = env.uploaded uf.fileId (Int32.ofNat (env.parts dc uf.fileId).count) ∧
      storedUnder uf.fileId st.sent = (range (env.parts dc uf.fileId).count).map
        ((env.parts dc uf.fileId).part env.content) := by
  unfold uploadChunkPhase at h
  split_ifs at h with hreg hsize hopens
  · cases h
  · cases h
  · cases h
  refine ⟨by omega, ?_⟩
  cases hid : env.fileId with
  | none =>
    rw [hid] at h
    cases h
  | some fileId =>
    rw [hid] at h
    dsimp only at h
    have hacks := uploadAllParts_acks (env.parts env.homeDc fileId) env.start
    rcases hfirst : uploadAllParts (env.parts env.homeDc fileId) env.start with ⟨migrate | n, st₁⟩
    · -- the first attempt was given up
      rw [hfirst] at h hacks
      obtain ⟨hcontent, l, hl, hlid⟩ := hacks
      dsimp only at h hcontent hl
      unfold uploadRetry at h
      split_ifs at h
      · cases h
      · cases h
      · cases h
      cases hid' : env.retryId with
      | none =>
        rw [hid'] at h
        cases h
      | some retryId =>
        rw [hid'] at h
        dsimp only at h
        rcases hsecond : uploadAllParts (env.parts migrate retryId) st₁ with ⟨_ | n, st₂⟩
        · rw [hsecond] at h
          cases h
        · rw [hsecond] at h
          obtain ⟨rfl, rfl⟩ : env.uploaded retryId n = uf ∧ st₂ = st := by
            simpa only [Prod.mk.injEq, Option.some.injEq] using h
          obtain ⟨rfl, hstored⟩ := uploadAllParts_ok (by rw [hcontent]; rfl) hsecond
          refine ⟨migrate, rfl, ?_⟩
          rw [hl, hcontent] at hstored
          refine storedUnder_of_append hstored (fun x hx => ?_) fun x hx => fileId_of_mem_parts hx
          intro heq
          rcases mem_append.mp hx with hx | hx
          · exact absurd hx not_mem_nil
          · exact hids (by rw [hid, hid']; exact congrArg some ((hlid x hx).symm.trans heq))
    · rw [hfirst] at h
      obtain ⟨rfl, rfl⟩ : env.uploaded fileId n = uf ∧ st₁ = st := by
        simpa only [Prod.mk.injEq, Option.some.injEq] using h
      obtain ⟨rfl, hstored⟩ := uploadAllParts_ok rfl hfirst
      exact ⟨env.homeDc, rfl, storedUnder_of_append hstored
        (fun _ hx => absurd hx not_mem_nil) fun x hx => fileId_of_mem_parts hx⟩

/-- **What the servers have after a successful upload.**  The acknowledged parts under the returned
id went to one data center; their numbers are 0, 1, … up to the part count, each once; put together
they are the file; the part count is the size over the chunk size, rounded up; and the parts of a
big file carry it. -/
theorem uploadChunkPhase_complete {env : UploadEnv} {uf : UploadedFile}
    (hids : env.fileId ≠ env.retryId) (h : (uploadChunkPhase env).1 = some uf) :
    let parts := storedUnder uf.fileId (uploadChunkPhase env).2.sent
    (∃ dc, ∀ x ∈ parts, x.1 = dc) ∧
      parts.map (fun x => x.2.part.toInt) = (List.range uf.partCount.toInt.toNat).map Int.ofNat ∧
      (parts.map fun x => x.2.bytes).flatten = env.content ∧
      uf.partCount.toInt = (env.content.length ⌈/⌉ uploadChunkSize : ℕ) ∧
      ∀ x ∈ parts, x.2.totalParts = if uf.isBig then some uf.partCount else none := by
  obtain ⟨hmax, dc, huf, hparts⟩ := storedUnder_of_uploadChunkPhase hids (Prod.ext h rfl)
  generalize hc : env.parts dc uf.fileId = c at huf hparts
  have htotal : c.total = env.content.length := by rw [← hc]; rfl
  have hcount : c.count ≤ 3072 := by
    rw [c.count_le_iff, htotal]
    exact hmax
  have hint : ∀ i ≤ 3072, (Int32.ofNat i).toInt = i := fun i hi =>
    Int32.toInt_ofNat_of_lt (by omega)
  have hpc : uf.partCount = Int32.ofNat c.count := congrArg UploadedFile.partCount huf
  have hbig : uf.isBig = c.isBig := by
    rw [huf, ← hc]
    rfl
  have htotals : c.totalParts = uf.partCount := by
    rw [hpc, PartsCall.count, htotal, Nat.ceilDiv_eq_add_pred_div, ← hc]
    rfl
  rw [hparts]
  refine ⟨⟨c.dc, ?_⟩, ?_, ?_, ?_, ?_⟩
  · intro x hx
    obtain ⟨i, -, rfl⟩ := mem_map.mp hx
    rfl
  · rw [hpc, hint _ hcount, Int.toNat_natCast, map_map]
    refine map_congr_left fun i hi => ?_
    exact hint i ((mem_range.mp hi).le.trans hcount)
  · rw [map_map]
    refine (flatten_slices env.content uploadChunkSize c.count).trans ?_
    rw [take_of_length_le]
    rw [← htotal, ← c.count_le_iff]
  · rw [hpc, hint _ hcount, PartsCall.count, htotal]
  · intro x hx
    obtain ⟨i, -, rfl⟩ := mem_map.mp hx
    rw [hbig, ← htotals]
    rfl

/-- The home data center accepts the first part and refuses the second; the one it names accepts
both. -/
def redirectedUpload (content : Bytes) : UploadEnv where
  filePath := ascii "/tmp/a.txt"
  content := content
  isReg := true
  opens := true
  yields := replicate 4 uploadChunkSize
  seeks := [true, true]
  homeDc := 2
  fileId := some 7
  retryId := some 8
  dcOpens := true
  dcAuthorized := true
  replies := [some (u32Bytes tlBoolTrue),
    some (u32Bytes crcRpcError ++ (u32Bytes 303 ++ tlBytes (ascii "FILE_MIGRATE_4"))),
    some (u32Bytes tlBoolTrue), some (u32Bytes tlBoolTrue)]

theorem fst_uploadChunkPhase_redirected (hlen : content.length = uploadChunkSize + 1) :
    (uploadChunkPhase (redirectedUpload content)).1 = some ⟨8, 2, false, ascii "a.txt"⟩ := by
  have haccepted : partOutcome (some (u32Bytes tlBoolTrue)) = .ok () := by decide +kernel
  have hrefused : partOutcome (some (u32Bytes crcRpcError ++
      (u32Bytes 303 ++ tlBytes (ascii "FILE_MIGRATE_4")))) = .error 4 := by decide +kernel
  have hname : (basenameOf (cstr (ascii "/tmp/a.txt"))).take 255 = ascii "a.txt" := by
    decide +kernel
  -- the file is too long to be evaluated, but only its length matters
  simp [uploadChunkPhase, uploadRetry, redirectedUpload, uploadAllParts, UploadEnv.start,
    UploadEnv.parts, uploadLoop, InStream.rewind, InStream.fread, length_slice, hlen, savePart,
    UploadRun.call, haccepted, hrefused, uploadChunkSize, uploadMaxSize, UploadEnv.uploaded,
    UploadEnv.isBig, uploadBigThreshold, hname]

theorem uploadChunkPhase_redirectedUpload :
    let content := replicate (uploadChunkSize + 1) 0x61
    let parts := storedUnder 8 (uploadChunkPhase (redirectedUpload content)).2.sent
    (∃ dc, ∀ x ∈ parts, x.1 = dc) ∧
      parts.map (fun x => x.2.part.toInt) = [0, 1] ∧
      (parts.map fun x => x.2.bytes).flatten = content := by
  intro content
  have h := @uploadChunkPhase_complete (redirectedUpload content) ⟨8, 2, false, ascii "a.txt"⟩
    (by decide) (fst_uploadChunkPhase_redirected length_replicate)
  exact ⟨h.1, h.2.1, h.2.2.1⟩

end TgCli.Domain
