import TgCli.Lib.Paths
import TgCli.Lib.Decimal
import TgCli.Core.TlSkip.Document
import TgCli.Core.TlSkip.UserLayout
import TgCli.Core.TlValues

/-!
# Where the `download` commands save a file

The three programs compose the path in the same way.  Without a path from the user it is the
downloads directory, a slash and a name.  For a photo the name is made of the id; for a document it
is the file name that came with it, as long as there is one.

That name is the sender's.  The parser cuts it off at 127 bytes and at the first `NUL`, and nobody
looks at what is in it.  The theorem at the end says for which names, and for which cache
directories, the file ends up in the downloads directory.
-/

namespace TgCli.Main

open List Lib TgCli.Core

/-! ## The commands -/

def entryName (media : MediaKind) (info : MediaInfo) : Bytes :=
  if media = .document then
    let fn := info.documentFilename
    if fn.headD 0 ≠ 0 then cstr fn
    else ascii "doc-" ++ decimal info.documentId.toInt
  else ascii "photo-" ++ decimal info.photoId.toInt ++ ascii ".jpg"

/-- The path that the programs compose, for the directory they put behind `cache`. -/
def composePath (downloads : Bytes) (cache : Option Bytes) (media : MediaKind) (info : MediaInfo) :
    Bytes :=
  let cache := cache.getD (ascii "/tmp")
  let dirBuf := snprintf 1536 (cache ++ downloads)
  snprintf 2048 (dirBuf ++ 0x2f :: entryName media info)

/-- The output path of `cmd_download` in `tg_cli_ro.c`, with the argument of `--out`. -/
def cmdDownloadRo (outPath cache : Option Bytes) (media : MediaKind) (info : MediaInfo) : Bytes :=
  outPath.getD (composePath (ascii "/downloads") cache media info)

/-- The output path of `cmd_download` in `tg_cli.c`. -/
def cmdDownload (outPath cache : Option Bytes) (media : MediaKind) (info : MediaInfo) : Bytes :=
  outPath.getD (composePath (ascii "/downloads") cache media info)

/-- The output path of `do_download` in `tg_tui.c`. -/
def doDownload (outPath cache : Option Bytes) (media : MediaKind) (info : MediaInfo) : Bytes :=
  outPath.getD (composePath (ascii "/tg-cli/downloads") cache media info)

/-! ## The sender's name -/

def keptName (name : TlString) : Bytes :=
  (cstr name.val).take 127

/-- A file name, or an attribute of which nothing is noted. -/
inductive DocumentAttribute where
  | filename (name : TlString)
  | other (b : Bytes) (passed : ∀ info, Ext.Reads skipDocumentAttribute.run b () info info)

namespace DocumentAttribute

def bytes : DocumentAttribute → Bytes
  | filename name => u32Bytes crcDocumentAttributeFilename ++ name.bytes
  | other b _ => b

def note (info : MediaInfo) : DocumentAttribute → MediaInfo
  | filename name => { info with documentFilename := keptName name }
  | other _ _ => info

/-- **The parser keeps the beginning of a name**, whatever it is. -/
theorem reads (a : DocumentAttribute) (info : MediaInfo) :
    Ext.Reads skipDocumentAttribute.run a.bytes () info (a.note info) := by
  cases a with
  | filename name =>
    refine (Ext.reads_walk (.enter (.u32 crcDocumentAttributeFilename) le_rfl (by decide))).bind ?_
    rw [if_neg (by decide), if_neg (by decide), if_pos rfl]
    exact (Ext.reads_walk name.reads_str).last (Ext.reads_set _)
  | other b passed => exact passed info

theorem documentId_foldl (l : List DocumentAttribute) (info : MediaInfo) :
    (l.foldl note info).documentId = info.documentId := by
  induction l generalizing info with
  | nil => rfl
  | cons a l ih => cases a <;> exact ih _

theorem foldl_eq_self {l : List DocumentAttribute} (hl : ∀ a ∈ l, ∀ info, a.note info = info)
    (info : MediaInfo) : l.foldl note info = info := by
  induction l with
  | nil => rfl
  | cons a l ih =>
    rw [forall_mem_cons] at hl
    rw [foldl_cons, hl.1, ih hl.2]

end DocumentAttribute

/-- A `document` with a file name among its attributes, the last one if there are several. -/
structure NamedDocument where
  flags : UInt32
  id : Int64
  accessHash : Int64
  fileReference : TlString
  date : Int32
  mime : TlString
  size : Int64
  thumbs : hasFlag flags 0 = true → TlObject tlSkipPhotoSizeVector
  videoThumbs : hasFlag flags 1 = true → TlObject skipVideoSizeVector
  dcId : Int32
  before : List DocumentAttribute
  name : TlString
  after : List DocumentAttribute
  last : ∀ a ∈ after, ∀ info, a.note info = info
  few : (before ++ .filename name :: after).length < 2 ^ 32

namespace NamedDocument

variable (d : NamedDocument) (info : MediaInfo)

def attributes : List DocumentAttribute :=
  d.before ++ .filename d.name :: d.after

def bytes : Bytes :=
  u32Bytes crcDocument ++ (u32Bytes d.flags ++ (u64Bytes d.id.toUInt64 ++
    (u64Bytes d.accessHash.toUInt64 ++ ((d.fileReference.bytes ++ u32Bytes d.date.toUInt32) ++
    (d.mime.bytes ++ (u64Bytes d.size.toUInt64 ++
    (whenSet (hasFlag d.flags 0) (fun h => (d.thumbs h).bytes) ++
    (whenSet (hasFlag d.flags 1) (fun h => (d.videoThumbs h).bytes) ++ (u32Bytes d.dcId.toUInt32 ++
    (u32Bytes tlVector ++ (u32Bytes (UInt32.ofNat d.attributes.length) ++
    d.attributes.flatMap DocumentAttribute.bytes)))))))))))

/-- The `MediaInfo` after `document_inner`. -/
def received : MediaInfo :=
  (documentInner.run ⟨tlReaderInit d.bytes, some info⟩).2.out.getD info

theorem reads_readFileReference (s : TlString) (date : Int32) :
    Ext.Reads readFileReference (s.bytes ++ u32Bytes date.toUInt32) () info
      { info with fileReference := s.val.take mediaFileRefMax } :=
  (Ext.reads_walk (.of_read (tlReadBytes_of_rest s.short))).bind
    ((Ext.reads_set _).step (Ext.reads_walk (.need (.drop32 date) le_rfl)))

/-- **What `document_inner` notes of a document.** -/
theorem reads_documentInner : Ext.Reads documentInner.run d.bytes () info
    (d.attributes.foldl DocumentAttribute.note { info with
      documentId := d.id
      accessHash := d.accessHash
      fileReference := d.fileReference.val.take mediaFileRefMax
      documentMime := (cstr d.mime.val).take 63
      documentSize := d.size
      dcId := d.dcId }) := by
  refine (Ext.reads_walk (.enter (.u32 crcDocument) le_rfl (by decide))).bind ?_
  rw [if_neg (by decide)]
  refine (Ext.reads_walk (.pure ())).step ?_
  refine (Ext.reads_walk (.need (.u32 d.flags) le_rfl)).bind ?_
  refine Ext.reads_need ?_ (by simp only [length_append, length_u64Bytes]; omega)
  refine (Ext.reads_walk (.i64 d.id)).bind ((Ext.reads_walk (.i64 d.accessHash)).bind ?_)
  refine (Ext.reads_set _).step ((reads_readFileReference _ _ _).bind ?_)
  refine (Ext.reads_walk d.mime.reads_str).bind ((Ext.reads_set _).step ?_)
  refine (Ext.reads_walk (.need (.i64 d.size) le_rfl)).bind ((Ext.reads_set _).step ?_)
  refine (Ext.reads_opt fun h => Ext.reads_walk (d.thumbs h).known).bind ?_
  refine (Ext.reads_opt fun h => Ext.reads_walk (d.videoThumbs h).known).bind ?_
  refine (Ext.reads_walk (.need (.i32 d.dcId) le_rfl)).bind ((Ext.reads_set _).step ?_)
  refine Ext.reads_need ?_ (by simp only [length_append, length_u32Bytes]; omega)
  refine (Ext.reads_walk (.u32 tlVector)).bind ((Ext.reads_walk (.pure ())).step ?_)
  refine (Ext.reads_walk (.u32 _)).bind ?_
  have hfew : (UInt32.ofNat d.attributes.length).toNat = _ := UInt32.toNat_ofNat_of_lt' d.few
  rw [ite_self, ite_self, hfew]
  exact Ext.reads_rep DocumentAttribute.reads d.attributes _

theorem received_eq : (d.received info).documentId = d.id ∧
    (d.received info).documentFilename = keptName d.name := by
  obtain ⟨st, hrun, -, hout⟩ := d.reads_documentInner info ⟨tlReaderInit d.bytes, some info⟩ []
    (by rw [append_nil]; exact rest_tlReaderInit _) rfl
  rw [received, hrun, hout]
  refine ⟨DocumentAttribute.documentId_foldl .., ?_⟩
  rw [Option.getD_some, attributes, foldl_append, foldl_cons,
    DocumentAttribute.foldl_eq_self d.last]
  rfl

end NamedDocument

/-! ## Where the file ends up -/

theorem isEntryName_docId (id : Int64) : IsEntryName (ascii "doc-" ++ decimal id.toInt) := by
  refine ⟨by simp [ascii], fun h => ?_, fun h => ?_, fun h => ?_⟩
  · rcases mem_append.mp h with h | h
    · exact absurd h (by decide)
    · rcases mem_decimal h with h | h
      · exact absurd h (by decide)
      · exact absurd h (by decide)
  · exact absurd (congrArg (fun l => l.headD 0) h) (by simp [ascii])
  · exact absurd (congrArg (fun l => l.headD 0) h) (by simp [ascii])

section

variable (d : NamedDocument) (info : MediaInfo)

theorem entryName_received : entryName .document (d.received info) =
    if keptName d.name = [] then ascii "doc-" ++ decimal d.id.toInt else keptName d.name := by
  have hzero : 0 ∉ keptName d.name := fun h =>
    absurd (mem_takeWhile_imp (mem_of_mem_take h)) (by decide)
  obtain ⟨hid, hfile⟩ := d.received_eq info
  rw [entryName, if_pos rfl, hid, hfile]
  dsimp only
  cases hkept : keptName d.name with
  | nil => rfl
  | cons b rest =>
    rw [hkept] at hzero
    rw [if_neg (cons_ne_nil b rest), cstr_eq_self hzero]
    refine if_pos fun hb => hzero ?_
    rw [← hb]
    exact mem_cons_self

/-- The sender's name keeps the file in the directory: the path of the directory fits its buffer
and the name is no path; or the path does not fit, and the name makes up for what was cut off. -/
def NameContained (dir : Bytes) (name : TlString) : Prop :=
  (dir.length < 1536 ∧ 0x2f ∉ keptName name ∧ keptName name ≠ [0x2e] ∧
      keptName name ≠ [0x2e, 0x2e]) ∨
    (1536 ≤ dir.length ∧ ∃ rest entry, dir.drop 1535 = 0x2f :: rest ∧
      keptName name = rest ++ 0x2f :: entry ∧ IsEntryName entry)

theorem composePath_received (downloads : Bytes) (cache : Option Bytes) :
    composePath downloads cache .document (d.received info) =
      (cache.getD (ascii "/tmp") ++ downloads).take 1535 ++
        0x2f :: entryName .document (d.received info) := by
  have hentry : (entryName .document (d.received info)).length ≤ 127 := by
    rw [entryName_received]
    split_ifs
    · have hdec := length_decimal_le d.id
      rw [length_append]
      have : (ascii "doc-").length = 4 := by decide
      omega
    · exact (length_take_le _ _)
  have hdir : ((cache.getD (ascii "/tmp") ++ downloads).take 1535).length ≤ 1535 :=
    length_take_le _ _
  refine take_of_length_le ?_
  rw [length_append, length_cons]
  exact le_trans (Nat.add_le_add hdir (Nat.succ_le_succ hentry)) (by decide)

theorem isChild_composePath_iff (downloads : Bytes) (cache : Option Bytes) :
    IsChild (cache.getD (ascii "/tmp") ++ downloads)
        (composePath downloads cache .document (d.received info)) ↔
      NameContained (cache.getD (ascii "/tmp") ++ downloads) d.name := by
  rw [composePath_received, entryName_received, NameContained]
  generalize cache.getD (ascii "/tmp") ++ downloads = dir
  by_cases hfit : dir.length < 1536
  · have hnot : ¬ 1536 ≤ dir.length := by omega
    rw [take_of_length_le (by omega), isChild_join_iff]
    simp only [hfit, hnot, true_and, false_and, or_false]
    split_ifs with hkept
    · exact iff_of_true (isEntryName_docId _) (by rw [hkept]; decide)
    · exact and_iff_right hkept
  · have hge : 1536 ≤ dir.length := by omega
    have hrest : dir.drop 1535 ≠ [] := by
      rw [Ne, drop_eq_nil_iff]
      omega
    simp only [hfit, hge, false_and, false_or, true_and]
    nth_rewrite 1 [← take_append_drop 1535 dir]
    rw [isChild_join_cut_iff _ hrest]
    split_ifs with hkept
    · -- neither the id nor the empty name has a slash in it
      refine iff_of_false ?_ ?_
      · rintro ⟨rest, entry, -, h, -⟩
        exact (isEntryName_docId d.id).2.1 (by rw [h]; simp)
      · rintro ⟨rest, entry, -, h, -⟩
        rw [hkept] at h
        exact absurd h (by simp)
    · exact Iff.rfl

/-- **When a sender's file name stays in the downloads directory**, in the three programs. -/
theorem download_isChild_iff (cache : Option Bytes) :
    (IsChild (cache.getD (ascii "/tmp") ++ ascii "/downloads")
        (cmdDownloadRo none cache .document (d.received info)) ↔
      NameContained (cache.getD (ascii "/tmp") ++ ascii "/downloads") d.name) ∧
    (IsChild (cache.getD (ascii "/tmp") ++ ascii "/downloads")
        (cmdDownload none cache .document (d.received info)) ↔
      NameContained (cache.getD (ascii "/tmp") ++ ascii "/downloads") d.name) ∧
    (IsChild (cache.getD (ascii "/tmp") ++ ascii "/tg-cli/downloads")
        (doDownload none cache .document (d.received info)) ↔
      NameContained (cache.getD (ascii "/tmp") ++ ascii "/tg-cli/downloads") d.name) :=
  ⟨isChild_composePath_iff d info _ cache, isChild_composePath_iff d info _ cache,
    isChild_composePath_iff d info _ cache⟩

end

theorem short_climbingName : (ascii "../../.bashrc").length < 2 ^ 24 := by
  decide

/-- A document with whose name a sender gets out of the directory. -/
def climbingDocument : NamedDocument where
  flags := 0
  id := 7
  accessHash := 0
  fileReference := ⟨[], Nat.two_pow_pos 24⟩
  date := 0
  mime := ⟨[], Nat.two_pow_pos 24⟩
  size := 5
  thumbs := fun h => absurd h Bool.false_ne_true
  videoThumbs := fun h => absurd h Bool.false_ne_true
  dcId := 2
  before := []
  name := ⟨ascii "../../.bashrc", short_climbingName⟩
  after := []
  last := forall_mem_nil _
  few := Nat.one_lt_two_pow (Nat.succ_ne_zero 31)

def userCache : Bytes :=
  ascii "/home/u/.cache"

theorem download_escapes :
    cmdDownloadRo none (some userCache) .document (climbingDocument.received MediaInfo.zero) =
        ascii "/home/u/.cache/downloads/../../.bashrc" ∧
      ¬ IsChild (userCache ++ ascii "/downloads") (cmdDownloadRo none (some userCache) .document
        (climbingDocument.received MediaInfo.zero)) ∧
      ¬ IsChild (userCache ++ ascii "/downloads") (cmdDownload none (some userCache) .document
        (climbingDocument.received MediaInfo.zero)) ∧
      ¬ IsChild (userCache ++ ascii "/tg-cli/downloads") (doDownload none (some userCache) .document
        (climbingDocument.received MediaInfo.zero)) := by
  have hro : cmdDownloadRo none (some userCache) .document
      (climbingDocument.received MediaInfo.zero) =
        userCache ++ ascii "/downloads" ++ 0x2f :: climbingDocument.name.val := by decide +kernel
  have htui : doDownload none (some userCache) .document
      (climbingDocument.received MediaInfo.zero) =
        userCache ++ ascii "/tg-cli/downloads" ++ 0x2f :: climbingDocument.name.val := by
    decide +kernel
  have hname : ¬ IsEntryName climbingDocument.name.val := by decide
  refine ⟨hro.trans (by decide), ?_, ?_, ?_⟩
  · rw [hro, isChild_join_iff]
    exact hname
  · rw [show cmdDownload = cmdDownloadRo from rfl, hro, isChild_join_iff]
    exact hname
  · rw [htui, isChild_join_iff]
    exact hname

end TgCli.Main
