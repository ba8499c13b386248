import TgCli.Core.TlSkip.Recursion
import TgCli.Core.TlSkip.Document
import TgCli.Core.TlSkip.Chat

/-!
# `core/tl_skip.c`: instant-view pages

A page is a tree of blocks, and a block holds rich text, which is a tree of its own.  Both functions
call themselves, so both are a `Skipper.fix`.  What a block calls on the way back to itself (a
vector of blocks, the items of a list) has the function for blocks as a parameter.
-/

namespace TgCli.Core

open Lib Walk

set_option synthInstance.maxSize 1000000

/-! ## Constructors -/

def crcGeoPointEmpty : UInt32 := 0x1117dd5f
def crcGeoPoint : UInt32 := 0xb2a2f663
def crcTextEmpty : UInt32 := 0xdc3d824f
def crcTextPlain : UInt32 := 0x744694e0
def crcTextBold : UInt32 := 0x6724abc4
def crcTextItalic : UInt32 := 0xd912a59c
def crcTextUnderline : UInt32 := 0xc12622c4
def crcTextStrike : UInt32 := 0x9bf8bb95
def crcTextFixed : UInt32 := 0x6c3f19b9
def crcTextSubscript : UInt32 := 0xed6a8504
def crcTextSuperscript : UInt32 := 0xc7fb5e01
def crcTextMarked : UInt32 := 0x034b27f6
def crcTextUrl : UInt32 := 0x3c2884c1
def crcTextEmail : UInt32 := 0xde5a0dd6
def crcTextPhone : UInt32 := 0x1ccb966a
def crcTextConcat : UInt32 := 0x7e6260d7
def crcTextImage : UInt32 := 0x081ccf4f
def crcTextAnchor : UInt32 := 0x35553762
def crcPageCaption : UInt32 := 0x6f747657
def crcPageListItemText : UInt32 := 0xb92fb6cd
def crcPageListItemBlocks : UInt32 := 0x25e073fc
def crcPageListOrderedItemText : UInt32 := 0x5e068047
def crcPageListOrderedItemBlocks : UInt32 := 0x98dd8936
def crcPageTableCell : UInt32 := 0x34566b6a
def crcPageTableRow : UInt32 := 0xe0c0c5e5
def crcPageRelatedArticle : UInt32 := 0xb390dc08
def crcPageBlockUnsupported : UInt32 := 0x13567e8a
def crcPageBlockDivider : UInt32 := 0xdb20b188
def crcPageBlockTitle : UInt32 := 0x70abc3fd
def crcPageBlockSubtitle : UInt32 := 0x8ffa9a1f
def crcPageBlockHeader : UInt32 := 0xbfd064ec
def crcPageBlockSubheader : UInt32 := 0xf12bb6e1
def crcPageBlockKicker : UInt32 := 0x1e148390
def crcPageBlockParagraph : UInt32 := 0x467a0766
def crcPageBlockFooter : UInt32 := 0x48870999
def crcPageBlockAnchor : UInt32 := 0xce0d37b0
def crcPageBlockPreformatted : UInt32 := 0xc070d93e
def crcPageBlockAuthorDate : UInt32 := 0xbaafe5e0
def crcPageBlockBlockquote : UInt32 := 0x263d7c26
def crcPageBlockPullquote : UInt32 := 0x4f4456d5
def crcPageBlockPhoto : UInt32 := 0x1759c560
def crcPageBlockVideo : UInt32 := 0x7c8fe7b6
def crcPageBlockAudio : UInt32 := 0x804361ea
def crcPageBlockChannel : UInt32 := 0xef1751b5
def crcPageBlockMap : UInt32 := 0xa44f3ef6
def crcPageBlockRelatedArticles : UInt32 := 0x16115a96
def crcPageBlockTable : UInt32 := 0xbf4dea82
def crcPageBlockEmbed : UInt32 := 0xa8718dc5
def crcPageBlockCover : UInt32 := 0x39f23300
def crcPageBlockList : UInt32 := 0xe4e88011
def crcPageBlockOrderedList : UInt32 := 0x9a8ae1e1
def crcPageBlockCollage : UInt32 := 0x65a0fa4d
def crcPageBlockSlideshow : UInt32 := 0x031f9590
def crcPageBlockDetails : UInt32 := 0x76768bed
def crcPageBlockEmbedPost : UInt32 := 0xf259a80b
def crcPage : UInt32 := 0x98657f0d

/-! ## Rich text -/

def skipGeoPoint : Skipper := .of do
  enter 4
  let crc ← u32
  if crc = crcGeoPointEmpty then pure ()
  else
    ensure (crc = crcGeoPoint)
    need 28
    let flags ← u32
    drop64; drop64; drop64
    opt (hasFlag flags 0) do need 4; drop32

/-- What `skip_rich_text` does behind the constructor. -/
abbrev richTextRun (skipRichText : Skipper) (crc : UInt32) : Walk Unit :=
  if crc = crcTextEmpty then pure ()
  else if crc = crcTextPlain then skip tlSkipString
  else if crc ∈ [crcTextBold, crcTextItalic, crcTextUnderline, crcTextStrike, crcTextFixed,
      crcTextSubscript, crcTextSuperscript, crcTextMarked] then
    skip skipRichText
  else if crc = crcTextUrl then do
    skip skipRichText
    skip tlSkipString
    need 8; drop64
  else if crc = crcTextEmail ∨ crc = crcTextPhone then do
    skip skipRichText
    skip tlSkipString
  else if crc = crcTextConcat then vector (skip skipRichText)
  else if crc = crcTextImage then do
    need 16; drop64; drop32; drop32
  else if crc = crcTextAnchor then do
    skip skipRichText
    skip tlSkipString
  else fail

theorem guarded_richTextRun (s : Skipper) (crc : UInt32) : Guarded 0 0 (richTextRun s crc) := by
  rw [richTextRun]
  infer_instance

theorem same_richTextRun {s t : Skipper} {d : Bytes} {m : ℕ}
    (h : Same d m (skip s.run) (skip t.run)) (crc : UInt32) :
    Same d m (richTextRun s crc) (richTextRun t crc) := by
  rw [richTextRun, richTextRun]
  infer_instance

def skipRichText : Skipper :=
  .fix ⟨richTextRun, guarded_richTextRun, same_richTextRun⟩

def skipPageCaption : Skipper := .of do
  enter 4
  let crc ← u32
  ensure (crc = crcPageCaption)
  skip skipRichText
  skip skipRichText

/-! ## Parts of a block -/

def skipPageBlockVector (skipPageBlock : Skipper) : Skipper := .of <|
  enterVector (skip skipPageBlock)

def skipPageListItem (skipPageBlock : Skipper) : Skipper := .of do
  enter 4
  let crc ← u32
  if crc = crcPageListItemText then skip skipRichText
  else if crc = crcPageListItemBlocks then skip (skipPageBlockVector skipPageBlock)
  else fail

def skipPageListOrderedItem (skipPageBlock : Skipper) : Skipper := .of do
  enter 4
  let crc ← u32
  if crc = crcPageListOrderedItemText then
    skip tlSkipString
    skip skipRichText
  else if crc = crcPageListOrderedItemBlocks then
    skip tlSkipString
    skip (skipPageBlockVector skipPageBlock)
  else fail

def skipPageTableCell : Skipper := .of do
  enter 4
  let crc ← u32
  ensure (crc = crcPageTableCell)
  need 4
  let flags ← u32
  opt (hasFlag flags 7) (skip skipRichText)
  opt (hasFlag flags 1) do need 4; drop32
  opt (hasFlag flags 2) do need 4; drop32

def skipPageTableRow : Skipper := .of do
  enter 4
  let crc ← u32
  ensure (crc = crcPageTableRow)
  vector (skip skipPageTableCell)

def skipPageRelatedArticle : Skipper := .of do
  enter 4
  let crc ← u32
  ensure (crc = crcPageRelatedArticle)
  need 4
  let flags ← u32
  skip tlSkipString
  need 8; drop64
  opt (hasFlag flags 0) (skip tlSkipString)
  opt (hasFlag flags 1) (skip tlSkipString)
  opt (hasFlag flags 2) do need 8; drop64
  opt (hasFlag flags 3) (skip tlSkipString)
  opt (hasFlag flags 4) do need 4; drop32

/-! ## Blocks -/

/-- The blocks of `skip_page_block` that hold no other blocks. -/
abbrev leafBlockRun (crc : UInt32) : Walk Unit :=
  if crc = crcPageBlockUnsupported ∨ crc = crcPageBlockDivider then pure ()
  else if crc ∈ [crcPageBlockTitle, crcPageBlockSubtitle, crcPageBlockHeader,
      crcPageBlockSubheader, crcPageBlockKicker, crcPageBlockParagraph, crcPageBlockFooter] then
    skip skipRichText
  else if crc = crcPageBlockAnchor then skip tlSkipString
  else if crc = crcPageBlockPreformatted then do
    skip skipRichText
    skip tlSkipString
  else if crc = crcPageBlockAuthorDate then do
    skip skipRichText
    need 4; drop32
  else if crc = crcPageBlockBlockquote ∨ crc = crcPageBlockPullquote then do
    skip skipRichText
    skip skipRichText
  else if crc = crcPageBlockPhoto then do
    need 4
    let flags ← u32
    need 8; drop64
    skip skipPageCaption
    opt (hasFlag flags 0) do
      skip tlSkipString
      need 8; drop64
  else if crc = crcPageBlockVideo then do
    need 12; drop32; drop64
    skip skipPageCaption
  else if crc = crcPageBlockAudio then do
    need 8; drop64
    skip skipPageCaption
  else if crc = crcPageBlockChannel then skip tlSkipChat
  else if crc = crcPageBlockMap then do
    skip skipGeoPoint
    need 12; drop32; drop32; drop32
    skip skipPageCaption
  else if crc = crcPageBlockRelatedArticles then do
    skip skipRichText
    vector (skip skipPageRelatedArticle)
  else if crc = crcPageBlockTable then do
    need 4; drop32
    skip skipRichText
    vector (skip skipPageTableRow)
  else if crc = crcPageBlockEmbed then do
    need 4
    let flags ← u32
    opt (hasFlag flags 1) (skip tlSkipString)
    opt (hasFlag flags 2) (skip tlSkipString)
    opt (hasFlag flags 4) do need 8; drop64
    opt (hasFlag flags 5) do need 8; drop32; drop32
    skip skipPageCaption
  else fail

/-- What `skip_page_block` does behind the constructor. -/
abbrev pageBlockRun (skipPageBlock : Skipper) (crc : UInt32) : Walk Unit :=
  if crc = crcPageBlockCover then skip skipPageBlock
  else if crc = crcPageBlockList then vector (skip (skipPageListItem skipPageBlock))
  else if crc = crcPageBlockOrderedList then
    vector (skip (skipPageListOrderedItem skipPageBlock))
  else if crc = crcPageBlockCollage ∨ crc = crcPageBlockSlideshow then do
    skip (skipPageBlockVector skipPageBlock)
    skip skipPageCaption
  else if crc = crcPageBlockDetails then do
    need 4; drop32
    skip (skipPageBlockVector skipPageBlock)
    skip skipRichText
  else if crc = crcPageBlockEmbedPost then do
    skip tlSkipString
    need 16; drop64; drop64
    skip tlSkipString
    need 4; drop32
    skip (skipPageBlockVector skipPageBlock)
    skip skipPageCaption
  else leafBlockRun crc

theorem guarded_pageBlockRun (s : Skipper) (crc : UInt32) : Guarded 0 0 (pageBlockRun s crc) := by
  rw [pageBlockRun]
  infer_instance

section Same

variable {s t : Skipper} {d : Bytes} {m : ℕ} [h : Same d m (skip s.run) (skip t.run)]

instance same_skipPageBlockVector :
    Same d m (skip (skipPageBlockVector s).run) (skip (skipPageBlockVector t).run) := by
  rw [skipPageBlockVector, skipPageBlockVector, Skipper.skip_of, Skipper.skip_of]
  infer_instance

instance same_skipPageListItem :
    Same d m (skip (skipPageListItem s).run) (skip (skipPageListItem t).run) := by
  rw [skipPageListItem, skipPageListItem, Skipper.skip_of, Skipper.skip_of]
  infer_instance

instance same_skipPageListOrderedItem :
    Same d m (skip (skipPageListOrderedItem s).run) (skip (skipPageListOrderedItem t).run) := by
  rw [skipPageListOrderedItem, skipPageListOrderedItem, Skipper.skip_of, Skipper.skip_of]
  infer_instance

end Same

theorem same_pageBlockRun {s t : Skipper} {d : Bytes} {m : ℕ}
    (h : Same d m (skip s.run) (skip t.run)) (crc : UInt32) :
    Same d m (pageBlockRun s crc) (pageBlockRun t crc) := by
  rw [pageBlockRun, pageBlockRun]
  infer_instance

def skipPageBlock : Skipper :=
  .fix ⟨pageBlockRun, guarded_pageBlockRun, same_pageBlockRun⟩

def skipPage : Skipper := .of do
  enter 4
  let crc ← u32
  ensure (crc = crcPage)
  need 4
  let flags ← u32
  skip tlSkipString
  vector (skip skipPageBlock)
  vector (skip tlSkipPhoto)
  vector (skip tlSkipDocument)
  opt (hasFlag flags 3) do need 4; drop32

end TgCli.Core
