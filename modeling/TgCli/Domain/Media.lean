import TgCli.Core.TlSkip.Walk
import TgCli.Infrastructure.MediaIndex
import TgCli.Infrastructure.MtprotoRpc

/-!
# `domain/read/media.c`: downloading a photo or a document

`download_loop` asks for a file chunk by chunk, appends each to the output file and stops at the
first chunk that is shorter than what it asked for.  A medium that the index knows is not asked for
again: the file it was saved in is copied.

Three things go wrong without the caller being told.  A reply whose `bytes` cannot be read leaves
`bytes_len` at 0, which is a short chunk.  What `fwrite` took may be lost when the file is closed,
and nobody looks.  And the copy is not checked at all.  The last theorem says exactly when a
download that reports success has put the right bytes at `out_path`.
-/

namespace TgCli.Domain

open Option List Lib TgCli.Core Infrastructure

def crcUploadGetFile : UInt32 := 0xbe5335be
def crcInputPhotoFileLocation : UInt32 := 0x40181ffe
def crcInputDocumentFileLocation : UInt32 := 0xbad07584
def crcUploadFile : UInt32 := 0x096a18d5
def crcUploadFileCdnRedirect : UInt32 := 0xf18cda44

def chunkSize : ℕ := 128 * 1024

/-! ## Fetching -/

/-- `build_getfile_request`, into `cap` bytes. -/
def buildGetfileRequest (info : MediaInfo) (offset : Int64) (limit : Int32) (cap : ℕ) :
    Option Bytes :=
  let w := tlWriteUint32 [] crcUploadGetFile
  let w := tlWriteUint32 w 0
  let w :=
    if info.kind = .document then
      let w := tlWriteUint32 w crcInputDocumentFileLocation
      let w := tlWriteInt64 w info.documentId
      let w := tlWriteInt64 w info.accessHash
      let w := tlWriteBytes w info.fileReference
      tlWriteString w []
    else
      let w := tlWriteUint32 w crcInputPhotoFileLocation
      let w := tlWriteInt64 w info.photoId
      let w := tlWriteInt64 w info.accessHash
      let w := tlWriteBytes w info.fileReference
      tlWriteString w (if info.thumbType.headD 0 ≠ 0 then info.thumbType else ascii "y")
  let w := tlWriteInt64 w offset
  let w := tlWriteInt32 w limit
  if w.length ≤ cap then some w else none

/-- The reader at the `bytes` of an `upload.file`, behind the constructor, the
`storage.FileType` and the `mtime`. -/
def fileField (resp : Bytes) : TlReader :=
  (tlReadInt32 (tlReadUint32 (tlReadUint32 (tlReaderInit resp)).2).2).2

/-- What `download_loop` makes of the outcome of its call: the `bytes` of an `upload.file`, with
their `NULL`, or the data center that the server names, 0 for none. -/
def readFileReply : Option Bytes → Except Int32 (Option Bytes)
  | none => .error 0
  | some resp =>
    if resp.length < 4 then .error 0
    else
      let top := u32At resp 0
      if top = crcRpcError then
        let migrateDc := (rpcParseError resp).elim 0 RpcError.migrateDc
        .error (if migrateDc > 0 then migrateDc else 0)
      else if top = crcUploadFileCdnRedirect then .error 0
      else if top ≠ crcUploadFile then .error 0
      else .ok (tlReadBytes (fileField resp)).1

/-- The state of the loop: the output file, and a trace of the requests. -/
structure DownloadRun where
  out : OutStream
  asked : List Bytes

/-- The loop of `download_loop`.  The list holds what `api_call` has yet to return; when it is used
up, `api_call` fails. -/
def downloadChunks (info : MediaInfo) :
    List (Option Bytes) → Int64 → DownloadRun → Except Int32 Unit × DownloadRun
  | [], offset, st =>
    match buildGetfileRequest info offset (Int32.ofNat chunkSize) 1024 with
    | none => (.error 0, st)
    | some query => (.error 0, { st with asked := st.asked ++ [query] })
  | reply :: replies, offset, st =>
    match buildGetfileRequest info offset (Int32.ofNat chunkSize) 1024 with
    | none => (.error 0, st)
    | some query =>
      let st := { st with asked := st.asked ++ [query] }
      match readFileReply reply with
      | .error wrongDc => (.error wrongDc, st)
      | .ok bytes =>
        -- `bytes_len` is 0 when `tl_read_bytes` returns `NULL`, so the check for both never fires
        let bytes := bytes.getD []
        if bytes.length > 0 then
          let x := st.out.fwrite bytes
          let st := { st with out := x.2 }
          if x.1 ≠ bytes.length then (.error 0, st)
          else if bytes.length < chunkSize then (.ok (), st)
          else downloadChunks info replies (offset + Int64.ofNat bytes.length) st
        else (.ok (), st)

/-! ## The two downloads -/

/-- What a download is given: the medium, within the bounds of the arrays of `MediaInfo`, and
`out_path`; and what the outside contributes: the files, the index, what `api_call` returns,
whether the cached file opens, once for a look and once to be copied, and the output file, and what
their reads, their writes and the closing of the output file do. -/
structure Download where
  info : MediaInfo
  ref_le : info.fileReference.length ≤ mediaFileRefMax
  thumb_lt : info.thumbType.length < 8
  outPath : Bytes
  disk : Disk Bytes
  index : IndexIo
  replies : List (Option Bytes)
  probeOpens : Bool
  srcOpens : Bool
  dstOpens : Bool
  yields : List ℕ
  takes : List ℕ
  lost : ℕ

namespace Download

variable (d : Download)

def dst : OutStream :=
  ⟨[], d.takes, d.lost⟩

def loop : Except Int32 Unit × Disk Bytes :=
  if d.dstOpens then
    let x := downloadChunks d.info d.replies 0 ⟨d.dst, []⟩
    (x.1, d.disk.store d.outPath x.2.out.fclose)
  else (.error 0, d.disk)

/-- The path in the index, when the file there opens. -/
def cacheHit (id : Int64) : Option Bytes :=
  (mediaIndexGet d.index id d.disk).filter fun cached => d.probeOpens && (d.disk.read cached).isSome

end Download

/-- The loop that copies a file; every turn but the last reads at least one byte. -/
def copyLoop : ℕ → InStream → OutStream → OutStream
  | 0, _, dst => dst
  | n + 1, src, dst =>
    let x := src.fread 4096
    if x.1.length > 0 then copyLoop n x.2 (dst.fwrite x.1).2 else dst

namespace Download

variable (d : Download)

/-- What becomes of the files when the medium is cached.  The output file is emptied before the
first byte is read. -/
def copy (cached : Bytes) : Disk Bytes :=
  if cached = d.outPath then d.disk
  else if d.dstOpens then
    let disk := d.disk.store d.outPath []
    if d.srcOpens then
      let src := (disk.read cached).getD []
      disk.store d.outPath (copyLoop (src.length + 1) ⟨src, 0, d.yields, []⟩ d.dst).fclose
    else disk
  else d.disk

def Valid (kind : MediaKind) (id : Int64) : Prop :=
  d.info.kind = kind ∧ id ≠ 0 ∧ d.info.accessHash ≠ 0 ∧ d.info.fileReference.length ≠ 0
  deriving Decidable

/-- The two functions, for the kind and the id that they look at. -/
def run (kind : MediaKind) (id : Int64) : Except Int32 Unit × Disk Bytes :=
  if d.Valid kind id then
    match d.cacheHit id with
    | some cached => (.ok (), d.copy cached)
    | none =>
      match d.loop with
      | (.ok _, disk) => (.ok (), (mediaIndexPut d.index id d.outPath disk).2)
      | (.error wrongDc, disk) => (.error wrongDc, disk)
  else (.error 0, d.disk)

end Download

/-- `domain_download_photo`: 0 and `wrong_dc`, and the files afterwards. -/
def domainDownloadPhoto (d : Download) : Except Int32 Unit × Disk Bytes :=
  d.run .photo d.info.photoId

def domainDownloadDocument (d : Download) : Except Int32 Unit × Disk Bytes :=
  d.run .document d.info.documentId

/-! ## What a download is for -/

def IsFile (resp : Bytes) : Prop :=
  4 ≤ resp.length ∧ u32At resp 0 = crcUploadFile
  deriving Decidable

/-- It is one as the schema has it: the `bytes`, with their padding, are all there. -/
def Whole (resp : Bytes) : Prop :=
  IsFile resp ∧ (tlReadBytes (fileField resp)).1.isSome = true ∧
    (tlReadBytes (fileField resp)).2.pos ≤ resp.length
  deriving Decidable

def chunkBytes (resp : Bytes) : Bytes :=
  (tlReadBytes (fileField resp)).1.getD []

/-- The chunks that the server sent, up to the first that is shorter than requested. -/
def serverChunks : List (Option Bytes) → Option (List Bytes)
  | some resp :: replies =>
    if Whole resp then
      if (chunkBytes resp).length < chunkSize then some [chunkBytes resp]
      else (serverChunks replies).map (chunkBytes resp :: ·)
    else none
  | _ => none

/-- What `out_path` has to hold: the bytes of the cached file, or what the server sent. -/
def Download.expected (d : Download) (id : Int64) : Option Bytes :=
  match d.cacheHit id with
  | some cached => d.disk.read cached
  | none => (serverChunks d.replies).map List.flatten

/-- A result that can be trusted: success means that the file at `out_path` is the right one. -/
def Download.Delivers (d : Download) (id : Int64) (x : Except Int32 Unit × Disk Bytes) : Prop :=
  x.1 = .ok () → ∃ b, d.expected id = some b ∧ x.2.read d.outPath = some b

/-! ## Whole replies -/

def fileReply (fileType mtime : UInt32) (bytes : Bytes) : Bytes :=
  u32Bytes crcUploadFile ++ (u32Bytes fileType ++ (u32Bytes mtime ++ tlBytes bytes))

/-! ## The loop -/

theorem exists_buildGetfileRequest (d : Download) (offset : Int64) (limit : Int32) :
    ∃ query, buildGetfileRequest d.info offset limit 1024 = some query := by
  have href := d.ref_le
  have hthumb := d.thumb_lt
  have hcstr : ∀ s : Bytes, s.length < 8 → (tlBytes (cstr s)).length ≤ 8 := by
    intro s hs
    have hle : (cstr s).length ≤ s.length := (takeWhile_sublist _).length_le
    rw [length_tlBytes, if_pos (by omega)]
    omega
  have hfield : (tlBytes d.info.fileReference).length ≤ 132 := by
    rw [length_tlBytes, if_pos (by unfold mediaFileRefMax at href; omega)]
    unfold mediaFileRefMax at href
    omega
  refine ⟨_, if_pos ?_⟩
  split_ifs
  all_goals
    simp only [tlWriteInt32, tlWriteInt64, tlWriteUint32, tlWriteUint64, tlWriteString,
      tlWriteBytes_eq, length_append, length_u32Bytes, length_u64Bytes, length_nil]
  · have := hcstr [] (by decide)
    omega
  · have := hcstr d.info.thumbType hthumb
    omega
  · have := hcstr (ascii "y") (by decide)
    omega

theorem readFileReply_of_isFile {resp : Bytes} (h : IsFile resp) :
    readFileReply (some resp) = .ok (tlReadBytes (fileField resp)).1 := by
  obtain ⟨hlen, htop⟩ := h
  have h₁ : crcUploadFile ≠ crcRpcError := by decide
  have h₂ : crcUploadFile ≠ crcUploadFileCdnRedirect := by decide
  simp [readFileReply, htop, h₁, h₂, Nat.not_lt.mpr hlen]

theorem isFile_of_readFileReply {reply b : Option Bytes} (h : readFileReply reply = .ok b) :
    ∃ resp, reply = some resp ∧ IsFile resp := by
  cases reply with
  | none => cases h
  | some resp =>
    refine ⟨resp, rfl, ?_⟩
    unfold readFileReply at h
    dsimp only at h
    split_ifs at h with hlen herr hcdn htop
    exact ⟨Nat.not_lt.mp hlen, not_not.mp htop⟩

/-- `Gets replies takes used`: with these outcomes of `api_call` and `fwrite` the loop ends well,
and `used` are the replies it has taken for chunks.  All but the last fill the request, the last
does not, and `fwrite` takes each. -/
inductive Gets : List (Option Bytes) → List ℕ → List Bytes → Prop
  | last {resp : Bytes} {replies : List (Option Bytes)} {takes : List ℕ} (hfile : IsFile resp)
      (hshort : (chunkBytes resp).length < chunkSize)
      (htakes : (chunkBytes resp).length ≤ takes.headD 0) : Gets (some resp :: replies) takes [resp]
  | next {resp : Bytes} {replies : List (Option Bytes)} {takes : List ℕ} {used : List Bytes}
      (hfile : IsFile resp) (hfull : chunkSize ≤ (chunkBytes resp).length)
      (htakes : (chunkBytes resp).length ≤ takes.headD 0) (hrest : Gets replies takes.tail used) :
      Gets (some resp :: replies) takes (resp :: used)

/-- **One turn of the loop** on an `upload.file`: what `fwrite` does not take ends it badly, a short
chunk ends it well, and after a full chunk it goes on. -/
theorem downloadChunks_cons (d : Download) {resp : Bytes} (hfile : IsFile resp)
    (replies : List (Option Bytes)) (offset : Int64) (st : DownloadRun) :
    ∃ st', st'.out.lost = st.out.lost ∧
      (¬ (chunkBytes resp).length ≤ st.out.takes.headD 0 →
        downloadChunks d.info (some resp :: replies) offset st = (.error 0, st')) ∧
      ((chunkBytes resp).length ≤ st.out.takes.headD 0 →
        st'.out.accepted = st.out.accepted ++ chunkBytes resp ∧
        ((chunkBytes resp).length < chunkSize →
          downloadChunks d.info (some resp :: replies) offset st = (.ok (), st')) ∧
        (chunkSize ≤ (chunkBytes resp).length → st'.out.takes = st.out.takes.tail ∧
          downloadChunks d.info (some resp :: replies) offset st = downloadChunks d.info replies
            (offset + Int64.ofNat (chunkBytes resp).length) st')) := by
  obtain ⟨query, hquery⟩ := exists_buildGetfileRequest d offset (Int32.ofNat chunkSize)
  have hpos : 0 < chunkSize := by decide
  rw [downloadChunks, hquery, readFileReply_of_isFile hfile]
  dsimp only
  rw [show (tlReadBytes (fileField resp)).1.getD [] = chunkBytes resp from rfl]
  generalize chunkBytes resp = bytes
  by_cases hlen : bytes.length > 0
  · rw [if_pos hlen]
    refine ⟨⟨(st.out.fwrite bytes).2, st.asked ++ [query]⟩, rfl, fun h => ?_, fun h => ?_⟩
    · rw [if_pos (mt (OutStream.fwrite_eq_length_iff bytes st.out).mp h)]
    · rw [if_neg (not_not.mpr ((OutStream.fwrite_eq_length_iff bytes st.out).mpr h))]
      refine ⟨OutStream.accepted_fwrite h, fun hlt => if_pos hlt, fun hge => ⟨rfl, ?_⟩⟩
      rw [if_neg (Nat.not_lt.mpr hge)]
  · obtain rfl : bytes = [] := length_eq_zero_iff.mp (by omega)
    rw [if_neg hlen]
    refine ⟨⟨st.out, st.asked ++ [query]⟩, rfl, fun h => absurd (Nat.zero_le _) h, fun _ => ?_⟩
    exact ⟨(append_nil _).symm, fun _ => rfl, fun h => absurd hpos (Nat.not_lt.mpr h)⟩

variable {replies : List (Option Bytes)}

theorem downloadChunks_of_gets (d : Download) {takes : List ℕ}
    {used : List Bytes} (h : Gets replies takes used) (offset : Int64) {st : DownloadRun}
    (htakes : st.out.takes = takes) :
    ∃ st', downloadChunks d.info replies offset st = (.ok (), st') ∧
      st'.out.lost = st.out.lost ∧
      st'.out.accepted = st.out.accepted ++ used.flatMap chunkBytes := by
  induction h generalizing offset st with
  | @last resp replies takes hfile hshort hle =>
    obtain ⟨st', hlost, -, hok⟩ := downloadChunks_cons d hfile replies offset st
    obtain ⟨hacc, hend, -⟩ := hok (htakes ▸ hle)
    exact ⟨st', hend hshort, hlost, by rw [hacc, flatMap_singleton]⟩
  | @next resp replies takes used hfile hfull hle _ ih =>
    obtain ⟨st₁, hlost, -, hok⟩ := downloadChunks_cons d hfile replies offset st
    obtain ⟨hacc, -, hnext⟩ := hok (htakes ▸ hle)
    obtain ⟨htakes₁, heq⟩ := hnext hfull
    obtain ⟨st', hrun, hlost', hacc'⟩ := ih _ (htakes₁.trans (congrArg tail htakes))
    refine ⟨st', heq.trans hrun, hlost'.trans hlost, ?_⟩
    rw [hacc', hacc, flatMap_cons, append_assoc]

theorem exists_gets_of_ok (d : Download) {offset : Int64}
    {st : DownloadRun} (h : (downloadChunks d.info replies offset st).1 = .ok ()) :
    ∃ used, Gets replies st.out.takes used := by
  induction replies generalizing offset st with
  | nil =>
    obtain ⟨query, hquery⟩ := exists_buildGetfileRequest d offset (Int32.ofNat chunkSize)
    rw [downloadChunks, hquery] at h
    cases h
  | cons reply replies ih =>
    have hreply : ∃ b, readFileReply reply = .ok b := by
      obtain ⟨query, hquery⟩ := exists_buildGetfileRequest d offset (Int32.ofNat chunkSize)
      rw [downloadChunks, hquery] at h
      cases hb : readFileReply reply with
      | error wrongDc =>
        rw [hb] at h
        cases h
      | ok b => exact ⟨b, rfl⟩
    obtain ⟨b, hb⟩ := hreply
    obtain ⟨resp, rfl, hfile⟩ := isFile_of_readFileReply hb
    obtain ⟨st', -, hbad, hok⟩ := downloadChunks_cons d hfile replies offset st
    by_cases hle : (chunkBytes resp).length ≤ st.out.takes.headD 0
    · obtain ⟨-, -, hnext⟩ := hok hle
      by_cases hshort : (chunkBytes resp).length < chunkSize
      · exact ⟨[resp], .last hfile hshort hle⟩
      · obtain ⟨htakes, heq⟩ := hnext (Nat.not_lt.mp hshort)
        rw [heq] at h
        obtain ⟨used, hused⟩ := ih h
        exact ⟨resp :: used, .next hfile (Nat.not_lt.mp hshort) hle (htakes ▸ hused)⟩
    · rw [hbad hle] at h
      cases h

/-- The replies that the loop uses are what the server sent, if they are all whole; otherwise the
server's file has no end that the loop could have found. -/
theorem serverChunks_of_gets {takes : List ℕ} {used : List Bytes} (h : Gets replies takes used) :
    serverChunks replies =
      if ∀ resp ∈ used, Whole resp then some (used.map chunkBytes) else none := by
  induction h with
  | @last resp replies takes hfile hshort hle =>
    simp only [serverChunks, if_pos hshort, mem_singleton, forall_eq, map_cons,
      map_nil]
  | @next resp replies takes used hfile hfull hle _ ih =>
    simp only [serverChunks, if_neg (Nat.not_lt.mpr hfull), ih, mem_cons, forall_eq_or_imp,
      map_cons]
    by_cases hw : Whole resp
    · by_cases hrest : ∀ resp ∈ used, Whole resp
      · rw [if_pos hw, if_pos hrest, if_pos ⟨hw, hrest⟩, map_some]
      · rw [if_pos hw, if_neg hrest, if_neg fun h => hrest h.2, map_none]
    · rw [if_neg hw, if_neg fun h => hw h.1]

/-! ## The copy -/

/-- Until `left` bytes are copied, every `fread` delivers something and every `fwrite` takes it. -/
def CopiesAll : List ℕ → List ℕ → ℕ → Prop
  | [], _, left => left = 0
  | y :: yields, takes, left =>
    left = 0 ∨ 0 < y ∧ min (min 4096 y) left ≤ takes.headD 0 ∧
      CopiesAll yields takes.tail (left - min (min 4096 y) left)

theorem copiesAll_iff (yields takes : List ℕ) (left : ℕ) :
    CopiesAll yields takes left ↔ left = 0 ∨ 0 < yields.headD 0 ∧
      min (min 4096 (yields.headD 0)) left ≤ takes.headD 0 ∧
      CopiesAll yields.tail takes.tail (left - min (min 4096 (yields.headD 0)) left) := by
  cases yields with
  | nil => simp [CopiesAll]
  | cons y yields => exact Iff.rfl

/-- **The copy loop** copies everything, or less. -/
theorem copyLoop_spec (fuel : ℕ) (src : InStream) (dst : OutStream)
    (hfuel : src.content.length - src.pos < fuel) :
    (copyLoop fuel src dst).lost = dst.lost ∧
      (CopiesAll src.yields dst.takes (src.content.length - src.pos) →
        (copyLoop fuel src dst).accepted = dst.accepted ++ src.content.drop src.pos) ∧
      (¬ CopiesAll src.yields dst.takes (src.content.length - src.pos) →
        (copyLoop fuel src dst).accepted.length <
          dst.accepted.length + (src.content.length - src.pos)) := by
  induction fuel generalizing src dst with
  | zero => omega
  | succ fuel ih =>
    have hlen : (src.fread 4096).1.length =
        min (min 4096 (src.yields.headD 0)) (src.content.length - src.pos) := by
      rw [InStream.fread, length_slice]
    have hpiece : (src.fread 4096).1 ++ src.content.drop (src.pos + (src.fread 4096).1.length) =
        src.content.drop src.pos := by
      rw [← drop_drop]
      refine prefix_iff_eq_append.mp ?_
      exact take_prefix _ _
    have hdrop :
        ∀ n, (src.content.drop (src.pos + n)).length = src.content.length - src.pos - n := by
      intro n
      rw [length_drop, Nat.sub_add_eq]
    have hlen' := OutStream.length_accepted_fwrite (src.fread 4096).1 dst
    have hacc := OutStream.accepted_fwrite (b := (src.fread 4096).1) (f := dst)
    have hrest := ih (src.fread 4096).2 (dst.fwrite (src.fread 4096).1).2
    rw [InStream.content_fread, InStream.pos_fread, InStream.yields_fread, OutStream.takes_fwrite,
      OutStream.lost_fwrite, Nat.sub_add_eq] at hrest
    rw [copyLoop, copiesAll_iff, ← hlen]
    generalize src.fread 4096 = x at hlen hpiece hlen' hacc hrest ⊢
    generalize dst.fwrite x.1 = y at hlen' hacc hrest ⊢
    generalize src.content.length - src.pos = left at hlen hdrop hrest hfuel ⊢
    split_ifs with hgot
    · obtain ⟨hlost, hall, hless⟩ := hrest (by omega)
      refine ⟨hlost, ?_, fun h => ?_⟩
      · rintro (h | ⟨-, hle, h⟩)
        · omega
        · rw [hall h, hacc hle, append_assoc, hpiece]
      · -- the rest adds no more than what is left, so one short write or turn is not made up for
        have hmost : (copyLoop fuel x.2 y.2).accepted.length ≤
            y.2.accepted.length + (left - x.1.length) := by
          by_cases hc : CopiesAll src.yields.tail dst.takes.tail (left - x.1.length)
          · rw [hall hc, length_append, hdrop]
          · exact (hless hc).le
        by_cases hle : x.1.length ≤ dst.takes.headD 0
        · have := hless fun hc => h (.inr ⟨by omega, hle, hc⟩)
          omega
        · omega
    · refine ⟨rfl, fun h => ?_, fun h => by omega⟩
      have hnil : src.content.drop src.pos = [] :=
        length_eq_zero_iff.mp ((hdrop 0).trans (by omega))
      rw [hnil, append_nil]

theorem fclose_copyLoop_iff (content : Bytes) (yields takes : List ℕ) (lost : ℕ) :
    (copyLoop (content.length + 1) ⟨content, 0, yields, []⟩ ⟨[], takes, lost⟩).fclose = content ↔
      content = [] ∨ CopiesAll yields takes content.length ∧ lost = 0 := by
  obtain ⟨hlost, hall, hless⟩ := copyLoop_spec (content.length + 1) ⟨content, 0, yields, []⟩
    ⟨[], takes, lost⟩ (Nat.lt_succ_self _)
  generalize copyLoop _ _ _ = dst at hlost hall hless
  simp only [Nat.sub_zero, nil_append, drop_zero, length_nil, Nat.zero_add]
    at hlost hall hless
  by_cases hc : CopiesAll yields takes content.length
  · have hacc := hall hc
    have hclose := dst.fclose_eq_iff
    rw [hlost, hacc] at hclose
    rw [hclose]
    exact ⟨fun h => h.symm.imp id fun h => ⟨hc, h⟩, fun h => h.symm.imp And.right id⟩
  · have hshort := hless hc
    have hne : content ≠ [] := by
      rintro rfl
      exact hc ((copiesAll_iff yields takes 0).mpr (.inl rfl))
    refine iff_of_false (fun h => ?_) fun h => h.elim hne fun h => hc h.1
    have hle : dst.fclose.length ≤ dst.accepted.length := length_take_le' ..
    rw [h] at hle
    omega

/-! ## When a download can be trusted -/

namespace Download

variable (d : Download)

/-- A cached file is copied faithfully: the output file is the cached one already; or it opens, and
there is nothing to copy, or all goes well with the copy of a file of another name; or it does not
open, and holds the bytes from before. -/
def CopyTrusted (cached content : Bytes) : Prop :=
  cached = d.outPath ∨
    (d.dstOpens = true ∧ (content = [] ∨ d.srcOpens = true ∧
      d.disk.fileOf cached ≠ d.disk.fileOf d.outPath ∧
      CopiesAll d.yields d.takes content.length ∧ d.lost = 0)) ∨
    (d.dstOpens = false ∧ d.disk.read d.outPath = some content)

/-- The bytes stay in the output file: none is lost when it is closed; and if the output file is the
index itself, what `media_index_put` makes of it is those bytes again. -/
def BytesStay (id : Int64) (bytes : Bytes) : Prop :=
  (¬ d.index.Names d.disk d.outPath → d.lost = 0 ∨ bytes = []) ∧
    (d.index.Names d.disk d.outPath →
      (mediaIndexPut d.index id d.outPath
        (d.disk.store d.outPath (OutStream.fclose ⟨bytes, [], d.lost⟩))).2.read d.outPath =
          some bytes)

/-- A fetched file can be trusted: if the loop gets to an end, all the replies it has used are
whole and their bytes stay in the file. -/
def FetchTrusted (id : Int64) : Prop :=
  d.dstOpens = true → ∀ used, Gets d.replies d.takes used →
    (∀ resp ∈ used, Whole resp) ∧ d.BytesStay id (used.flatMap chunkBytes)

def Trusted (kind : MediaKind) (id : Int64) : Prop :=
  d.Valid kind id →
    (∀ cached content, d.cacheHit id = some cached → d.disk.read cached = some content →
      d.CopyTrusted cached content) ∧
    (d.cacheHit id = none → d.FetchTrusted id)

theorem read_copy_iff {cached content : Bytes} (hread : d.disk.read cached = some content) :
    (d.copy cached).read d.outPath = some content ↔ d.CopyTrusted cached content := by
  unfold copy CopyTrusted
  split_ifs with heq hdst hsrc
  · subst heq
    exact iff_of_true hread (.inl rfl)
  · rw [Disk.store_store, Disk.read_store, some_inj]
    by_cases hsame : d.disk.fileOf cached = d.disk.fileOf d.outPath
    · -- the cached file was emptied when the output file was opened
      rw [Disk.read_store_of_eq hsame, getD_some, dst,
        (fclose_copyLoop_iff [] d.yields d.takes d.lost).mpr (.inl rfl)]
      simp only [heq, hdst, hsame, ne_eq, not_true_eq_false, false_and, and_false, or_false,
        true_and, false_or, Bool.true_eq_false]
      exact eq_comm
    · rw [Disk.read_store_of_ne hsame, hread, getD_some, dst, fclose_copyLoop_iff]
      simp [heq, hdst, hsrc, hsame]
  · rw [Disk.read_store, some_inj]
    simp only [heq, hdst, hsrc, false_and, or_false, true_and, false_or, Bool.true_eq_false,
      Bool.false_eq_true]
    exact eq_comm
  · simp [heq, hdst]

theorem bytesStay_iff (id : Int64) (bytes : Bytes) :
    (mediaIndexPut d.index id d.outPath
      (d.disk.store d.outPath (OutStream.fclose ⟨bytes, [], d.lost⟩))).2.read d.outPath =
        some bytes ↔ d.BytesStay id bytes := by
  unfold BytesStay
  by_cases hidx : d.index.Names d.disk d.outPath
  · simp only [hidx, not_true_eq_false, false_imp_iff, true_and, true_imp_iff]
  · have hidx' : ¬ d.index.Names
        (d.disk.store d.outPath (OutStream.fclose ⟨bytes, [], d.lost⟩)) d.outPath := hidx
    rw [read_mediaIndexPut hidx', Disk.read_store, some_inj]
    simp only [hidx, not_false_eq_true, true_imp_iff, false_imp_iff, and_true]
    exact OutStream.fclose_eq_iff ⟨bytes, [], d.lost⟩

theorem loop_of_gets (hdst : d.dstOpens = true) {used : List Bytes}
    (h : Gets d.replies d.takes used) :
    d.loop = (.ok (), d.disk.store d.outPath
      (OutStream.fclose ⟨used.flatMap chunkBytes, [], d.lost⟩)) := by
  obtain ⟨st, hrun, hlost, hacc⟩ := downloadChunks_of_gets d h 0
    (show (⟨d.dst, []⟩ : DownloadRun).out.takes = d.takes from rfl)
  have hclose : st.out.fclose = OutStream.fclose ⟨used.flatMap chunkBytes, [], d.lost⟩ := by
    rw [OutStream.fclose, hlost, hacc]
    rfl
  rw [loop, if_pos hdst, hrun, ← hclose]

theorem delivers_loop_iff {id : Int64} (hmiss : d.cacheHit id = none) :
    (d.loop.1 = .ok () → ∃ b, d.expected id = some b ∧
      (mediaIndexPut d.index id d.outPath d.loop.2).2.read d.outPath = some b) ↔
        d.FetchTrusted id := by
  have hexp : d.expected id = (serverChunks d.replies).map flatten := by
    rw [expected, hmiss]
  rw [hexp]
  constructor
  · intro h hdst used hused
    rw [d.loop_of_gets hdst hused, serverChunks_of_gets hused] at h
    obtain ⟨b, hb, hread⟩ := h rfl
    split_ifs at hb with hwhole
    · obtain rfl : used.flatMap chunkBytes = b := some_inj.mp hb
      exact ⟨hwhole, (d.bytesStay_iff id _).mp hread⟩
    · exact absurd hb (by simp)
  · intro h hok
    by_cases hdst : d.dstOpens = true
    · have hrun : (downloadChunks d.info d.replies 0 ⟨d.dst, []⟩).1 = .ok () := by
        rwa [loop, if_pos hdst] at hok
      obtain ⟨used, hused⟩ := exists_gets_of_ok d hrun
      obtain ⟨hwhole, hstay⟩ := h hdst used hused
      rw [d.loop_of_gets hdst hused, serverChunks_of_gets hused, if_pos hwhole]
      exact ⟨used.flatMap chunkBytes, rfl, (d.bytesStay_iff id _).mpr hstay⟩
    · rw [loop, if_neg hdst] at hok
      cases hok

theorem exists_read_of_cacheHit {id : Int64} {cached : Bytes} (h : d.cacheHit id = some cached) :
    ∃ content, d.disk.read cached = some content := by
  have hopens := (filter_eq_some_iff.mp h).2
  rw [Bool.and_eq_true] at hopens
  exact isSome_iff_exists.mp hopens.2

/-- **Both downloads**, for the kind and the id that they look at. -/
theorem delivers_run_iff (kind : MediaKind) (id : Int64) :
    d.Delivers id (d.run kind id) ↔ d.Trusted kind id := by
  unfold Delivers run Trusted
  by_cases hvalid : d.Valid kind id
  · rw [if_pos hvalid]
    cases hhit : d.cacheHit id with
    | some cached =>
      obtain ⟨content, hcontent⟩ := d.exists_read_of_cacheHit hhit
      have hexp : d.expected id = some content := by rw [expected, hhit, ← hcontent]
      rw [hexp]
      constructor
      · intro h _
        obtain ⟨b, hb, hread⟩ := h rfl
        obtain rfl : content = b := some_inj.mp hb
        refine ⟨fun cached' content' hc hr => ?_, fun hn => absurd hn (some_ne_none _)⟩
        obtain rfl : cached = cached' := some_inj.mp hc
        obtain rfl : content = content' := some_inj.mp (hcontent.symm.trans hr)
        exact (d.read_copy_iff hcontent).mp hread
      · intro h _
        exact ⟨content, rfl,
          (d.read_copy_iff hcontent).mpr ((h hvalid).1 cached content rfl hcontent)⟩
    | none =>
      rw [← d.delivers_loop_iff hhit]
      rcases hloop : d.loop with ⟨_ | _, disk⟩
      · exact iff_of_true (fun h => by cases h) fun _ =>
          ⟨fun _ _ h => absurd h.symm (some_ne_none _), fun _ h => by cases h⟩
      · exact ⟨fun h _ => ⟨fun _ _ h => absurd h.symm (some_ne_none _), fun _ => h⟩,
          fun h => (h hvalid).2 rfl⟩
  · rw [if_neg hvalid]
    exact iff_of_true (fun h => by cases h) fun h => absurd h hvalid

end Download

/-- **When a download that reports success can be trusted.** -/
theorem download_delivers_iff (d : Download) :
    (d.Delivers d.info.photoId (domainDownloadPhoto d) ↔ d.Trusted .photo d.info.photoId) ∧
      (d.Delivers d.info.documentId (domainDownloadDocument d) ↔
        d.Trusted .document d.info.documentId) :=
  ⟨d.delivers_run_iff .photo d.info.photoId, d.delivers_run_iff .document d.info.documentId⟩

/-- A document of which the server has sent the first two of five bytes. -/
def cutDownload : Download where
  info := { MediaInfo.zero with
    kind := .document, documentId := 7, accessHash := 9, fileReference := [1] }
  ref_le := by decide
  thumb_lt := by decide
  outPath := ascii "/tmp/out"
  disk := ⟨fun path => path.length, fun _ => none⟩
  index := ⟨none, false, false, false, false, 0⟩
  replies := [some ((fileReply 0x40bc6f52 0 (ascii "hello")).take 15)]
  probeOpens := true
  srcOpens := true
  dstOpens := true
  yields := []
  takes := [131072]
  lost := 0

/-- A document of five bytes of which the last two are lost when the file is closed. -/
def fullDiskDownload : Download :=
  { cutDownload with replies := [some (fileReply 0x40bc6f52 0 (ascii "hello"))], lost := 2 }

/-- A document that is cached in another file, while the output file cannot be opened. -/
def cachedDownload : Download :=
  { cutDownload with
    disk := ⟨fun path => path.length, fun file =>
      if file = 4 then some (ascii "7\t/tmp/cached\n")
      else if file = 11 then some (ascii "hello") else none⟩
    index := ⟨some (ascii "/idx"), true, true, true, true, 0⟩
    dstOpens := false }

/-- All three report success, and none has the file. -/
theorem download_untrusted :
    ¬ cutDownload.Delivers 7 (domainDownloadDocument cutDownload) ∧
      ¬ fullDiskDownload.Delivers 7 (domainDownloadDocument fullDiskDownload) ∧
      ¬ cachedDownload.Delivers 7 (domainDownloadDocument cachedDownload) := by
  refine ⟨fun h => ?_, fun h => ?_, fun h => ?_⟩
  · obtain ⟨b, hb, -⟩ := h (by decide +kernel)
    rw [show cutDownload.expected 7 = none by decide +kernel] at hb
    cases hb
  · obtain ⟨b, hb, hread⟩ := h (by decide +kernel)
    rw [show fullDiskDownload.expected 7 = some (ascii "hello") by decide +kernel] at hb
    rw [← hb] at hread
    exact absurd hread (by decide +kernel)
  · obtain ⟨b, hb, hread⟩ := h (by decide +kernel)
    rw [show cachedDownload.expected 7 = some (ascii "hello") by decide +kernel] at hb
    rw [← hb] at hread
    exact absurd hread (by decide +kernel)

end TgCli.Domain
