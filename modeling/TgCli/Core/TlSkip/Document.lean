import TgCli.Core.TlSkip.Extract
import TgCli.Core.TlSkip.Fields

/-!
# `core/tl_skip.c`: photos and documents

`photo_full` and `document_inner` walk over a photo or a document, and note its place in the storage
of the server when they are asked to.

Both read the `file_reference` with `tl_read_bytes` and then test `!fr && fr_len != 0`.  A `NULL`
always comes with the length 0, so this test never fails; what catches a reference that is cut off
is the check for the date behind it (`follows_readFileReference`).
-/

namespace TgCli.Core

open Lib Walk

set_option synthInstance.maxSize 1000000

/-! ## Constructors -/

def crcPhotoSizeEmpty : UInt32 := 0x0e17e23c
def crcPhotoSize : UInt32 := 0x75c78e60
def crcPhotoCachedSize : UInt32 := 0x021e1ad6
def crcPhotoStrippedSize : UInt32 := 0xe0b0bc2e
def crcPhotoPathSize : UInt32 := 0xd8214d41
def crcPhotoSizeProgressive : UInt32 := 0xfa3efb95
def crcInputStickerSetEmpty : UInt32 := 0xffb62b95
def crcInputStickerSetAnimatedEmoji : UInt32 := 0x028703c8
def crcInputStickerSetAnimatedEmojiAnimations : UInt32 := 0x0cde3739
def crcInputStickerSetPremiumGifts : UInt32 := 0xc88b3b02
def crcInputStickerSetEmojiGenericAnimations : UInt32 := 0x04c4d4ce
def crcInputStickerSetEmojiDefaultStatuses : UInt32 := 0x29d0f5ee
def crcInputStickerSetEmojiDefaultTopicIcons : UInt32 := 0x44c1f8e9
def crcInputStickerSetEmojiChannelDefaultStatuses : UInt32 := 0x49748553
def crcInputStickerSetID : UInt32 := 0x9de7a269
def crcInputStickerSetShortName : UInt32 := 0x861cc8a0
def crcInputStickerSetDice : UInt32 := 0xe67f520e
def crcMaskCoords : UInt32 := 0xaed6dbb2
def crcVideoSize : UInt32 := 0xde33b094
def crcVideoSizeEmojiMarkup : UInt32 := 0xf85c413c
def crcVideoSizeStickerMarkup : UInt32 := 0x0da082fe
def crcPhotoEmpty : UInt32 := 0x2331b22d
def crcPhoto : UInt32 := 0xfb197a65
def crcDocumentAttributeImageSize : UInt32 := 0x6c37c15c
def crcDocumentAttributeAnimated : UInt32 := 0x11b58939
def crcDocumentAttributeHasStickers : UInt32 := 0x9801d2f7
def crcDocumentAttributeFilename : UInt32 := 0x15590068
def crcDocumentAttributeVideo : UInt32 := 0x43c57c48
def crcDocumentAttributeAudio : UInt32 := 0x9852f9c6
def crcDocumentAttributeSticker : UInt32 := 0x6319d612
def crcDocumentAttributeCustomEmoji : UInt32 := 0xfd149899
def crcDocumentEmpty : UInt32 := 0x36f8c871
def crcDocument : UInt32 := 0x8fd4c4d8

/-! ## Photo sizes -/

def tlSkipPhotoSize : Skipper := .of do
  enter 4
  let crc ← u32
  if crc = crcPhotoSizeEmpty then
    skip tlSkipString
  else if crc = crcPhotoSize then
    skip tlSkipString
    need 12; drop32; drop32; drop32
  else if crc = crcPhotoCachedSize then
    skip tlSkipString
    need 8; drop32; drop32
    skip tlSkipString
  else if crc = crcPhotoStrippedSize ∨ crc = crcPhotoPathSize then
    skip tlSkipString
    skip tlSkipString
  else if crc = crcPhotoSizeProgressive then
    skip tlSkipString
    need 8; drop32; drop32
    vector32
  else fail

def tlSkipPhotoSizeVector : Skipper :=
  .of (enterVector (skip tlSkipPhotoSize))

/-- The `switch` of `walk_photo_size_vector`: the score of an entry with the given constructor. -/
abbrev photoSizeScore (crc : UInt32) : Walk ℤ := do
  if crc = crcPhotoSizeEmpty then pure (-1)
  else if crc = crcPhotoSize then
    need 12
    let w ← i32
    let h ← i32
    drop32
    pure (w.toInt * h.toInt)
  else if crc = crcPhotoCachedSize then
    need 8
    let w ← i32
    let h ← i32
    skip tlSkipString
    pure (w.toInt * h.toInt)
  else if crc = crcPhotoStrippedSize ∨ crc = crcPhotoPathSize then
    skip tlSkipString
    pure 0
  else if crc = crcPhotoSizeProgressive then
    need 8
    let w ← i32
    let h ← i32
    vector32
    pure (w.toInt * h.toInt)
  else fail

/-- One entry in `walk_photo_size_vector`: its score, and its type in an array of eight. -/
abbrev photoSizeEntry : Walk (ℤ × Bytes) := do
  enter 4
  let crc ← u32
  let type ← str
  let score ← photoSizeScore crc
  pure (score, type.take 7)

/-- The loop of `walk_photo_size_vector`, with the best score so far. -/
def walkPhotoSizes : ℕ → ℤ → Prog (Ext MediaInfo) Unit
  | 0, _ => pure ()
  | n + 1, bestScore => do
    let entry ← Ext.walk photoSizeEntry
    if entry.1 > bestScore then
      Ext.set fun o => { o with thumbType := entry.2 }
      walkPhotoSizes n entry.1
    else walkPhotoSizes n bestScore

/-- The scores decide what is noted, not where the walk goes. -/
instance follows_walkPhotoSizes (n : ℕ) (bestScore : ℤ) :
    Ext.Follows (walkPhotoSizes n bestScore) (rep (photoSizeEntry >>= fun _ => pure ()) n) := by
  induction n generalizing bestScore with
  | zero => exact Prog.Follows.pure ()
  | succ n ih =>
    have h : Ext.Follows (walkPhotoSizes (n + 1) bestScore) (photoSizeEntry >>= fun entry =>
        if entry.1 > bestScore then
          pure () >>= fun _ => rep (photoSizeEntry >>= fun _ => pure ()) n
        else rep (photoSizeEntry >>= fun _ => pure ()) n) := by
      rw [walkPhotoSizes]
      infer_instance
    simpa only [rep, bind_assoc, pure_bind, ite_self] using h

/-- `walk_photo_size_vector`, with `out->thumb_type` for the best type. -/
def walkPhotoSizeVector : Extractor MediaInfo := .of do
  Ext.walk (enter 8)
  let vec ← Ext.walk u32
  Ext.walk (ensure (vec = tlVector))
  let count ← Ext.walk u32
  Ext.set fun o => { o with thumbType := [] }
  walkPhotoSizes count.toNat (-1)

/-! ## Video sizes -/

def skipInputStickerSet : Skipper := .of do
  enter 4
  let crc ← u32
  if crc ∈ [crcInputStickerSetEmpty, crcInputStickerSetAnimatedEmoji,
      crcInputStickerSetAnimatedEmojiAnimations, crcInputStickerSetPremiumGifts,
      crcInputStickerSetEmojiGenericAnimations, crcInputStickerSetEmojiDefaultStatuses,
      crcInputStickerSetEmojiDefaultTopicIcons,
      crcInputStickerSetEmojiChannelDefaultStatuses] then pure ()
  else if crc = crcInputStickerSetID then
    need 16; drop64; drop64
  else if crc = crcInputStickerSetShortName then skip tlSkipString
  else if crc = crcInputStickerSetDice then skip tlSkipString
  else fail

def skipMaskCoords : Skipper := .of do
  enter 4
  let crc ← u32
  ensure (crc = crcMaskCoords)
  need (4 + 3 * 8); drop32; drop64; drop64; drop64

def skipVideoSize : Skipper := .of do
  enter 4
  let crc ← u32
  if crc = crcVideoSize then
    need 4
    let flags ← u32
    skip tlSkipString
    need 12; drop32; drop32; drop32
    opt (hasFlag flags 0) do need 8; drop64
  else if crc = crcVideoSizeEmojiMarkup then
    need 8; drop64
    vector32
  else if crc = crcVideoSizeStickerMarkup then
    skip skipInputStickerSet
    need 8; drop64
    vector32
  else fail

def skipVideoSizeVector : Skipper :=
  .of (enterVector (skip skipVideoSize))

/-! ## Photos -/

/-- `file_reference` and `date`, which are read in the same way in a photo and in a document. -/
def readFileReference : Prog (Ext MediaInfo) Unit := do
  let fr ← Ext.walk (read tlReadBytes)
  Ext.set fun o => { o with fileReference := (fr.getD []).take mediaFileRefMax }
  Ext.walk do need 4; drop32

theorem need_toEnd (r : TlReader) (n : ℕ) : need (n + 1) r.toEnd = none := by
  rw [need, TlReader.left_of_le le_rfl, TlReader.pos_toEnd, TlReader.data_toEnd, Nat.sub_self,
    if_pos (Nat.succ_pos n)]

theorem read_tlReadBytes_date :
    (read tlReadBytes >>= fun _ => pure () >>= fun _ => (do need 4; drop32)) =
      (do skip tlSkipString; need 4; drop32) := by
  funext r
  show (do need 4; drop32 : Walk Unit) (tlReadBytes r).2 = (skip tlSkipString r).bind _
  rw [Guarded.skip_tlSkipString_eq, tlReadString]
  rcases hx : tlReadBytes r with ⟨_ | s, r'⟩
  · obtain rfl := tlReadBytes_eq_none hx
    show (need 4 r.toEnd).bind _ = none
    rw [need_toEnd]
    rfl
  · rfl

instance follows_readFileReference :
    Ext.Follows readFileReference (do skip tlSkipString; need 4; drop32) := by
  rw [← read_tlReadBytes_date, readFileReference]
  infer_instance

def photoFull : Extractor MediaInfo := .of do
  let crc ← Ext.walk do enter 4; u32
  if crc = crcPhotoEmpty then
    let id ← Ext.walk do need 8; i64
    Ext.set fun o => { o with photoId := id }
  else
    Ext.walk (ensure (crc = crcPhoto))
    let flags ← Ext.walk do need 4; u32
    Ext.walk (need 16)
    let id ← Ext.walk i64
    let access ← Ext.walk i64
    Ext.set fun o => { o with photoId := id, accessHash := access }
    readFileReference
    walkPhotoSizeVector.run
    Ext.opt (hasFlag flags 1) (Ext.walk (skip skipVideoSizeVector))
    let dc ← Ext.walk do need 4; i32
    Ext.set fun o => { o with dcId := dc }

def tlSkipPhoto : Skipper :=
  photoFull.skipper none

/-! ## Documents -/

/-- `skip_document_attribute`, with `out->document_filename` for the file name. -/
def skipDocumentAttribute : Extractor MediaInfo := .of do
  let crc ← Ext.walk do enter 4; u32
  if crc = crcDocumentAttributeImageSize then
    Ext.walk do need 8; drop32; drop32
  else if crc = crcDocumentAttributeAnimated ∨ crc = crcDocumentAttributeHasStickers then pure ()
  else if crc = crcDocumentAttributeFilename then
    let s ← Ext.walk str
    Ext.set fun o => { o with documentFilename := s.take 127 }
  else if crc = crcDocumentAttributeVideo then
    Ext.walk do
      need 4
      let flags ← u32
      need (8 + 4 + 4); drop64; drop32; drop32
      opt (hasFlag flags 2) do need 4; drop32
      opt (hasFlag flags 4) do need 8; drop64
      opt (hasFlag flags 5) (skip tlSkipString)
  else if crc = crcDocumentAttributeAudio then
    Ext.walk do
      need 8
      let flags ← u32
      drop32
      opt (hasFlag flags 0) (skip tlSkipString)
      opt (hasFlag flags 1) (skip tlSkipString)
      opt (hasFlag flags 2) (skip tlSkipString)
  else if crc = crcDocumentAttributeSticker then
    Ext.walk do
      need 4
      let flags ← u32
      skip tlSkipString
      skip skipInputStickerSet
      opt (hasFlag flags 0) (skip skipMaskCoords)
  else if crc = crcDocumentAttributeCustomEmoji then
    Ext.walk do
      need 4; drop32
      skip tlSkipString
      skip skipInputStickerSet
  else Ext.walk fail

def documentInner : Extractor MediaInfo := .of do
  let crc ← Ext.walk do enter 4; u32
  if crc = crcDocumentEmpty then
    let id ← Ext.walk do need 8; i64
    Ext.set fun o => { o with documentId := id }
  else
    Ext.walk (ensure (crc = crcDocument))
    let flags ← Ext.walk do need 4; u32
    Ext.walk (need 16)
    let id ← Ext.walk i64
    let access ← Ext.walk i64
    Ext.set fun o => { o with documentId := id, accessHash := access }
    readFileReference
    let mime ← Ext.walk str
    Ext.set fun o => { o with documentMime := mime.take 63 }
    let size ← Ext.walk do need 8; i64
    Ext.set fun o => { o with documentSize := size }
    Ext.opt (hasFlag flags 0) (Ext.walk (skip tlSkipPhotoSizeVector))
    Ext.opt (hasFlag flags 1) (Ext.walk (skip skipVideoSizeVector))
    let dc ← Ext.walk do need 4; i32
    Ext.set fun o => { o with dcId := dc }
    Ext.vector skipDocumentAttribute.run

def tlSkipDocument : Skipper :=
  documentInner.skipper none

end TgCli.Core
