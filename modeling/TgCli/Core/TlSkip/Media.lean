import TgCli.Core.TlSkip.Page

/-!
# `core/tl_skip.c`: the media of a message

`tl_skip_message_media_ex` comes back to itself by way of a story, a web page with a story, or paid
media.  A counter stops it at `MEDIA_RECURSION_MAX`; the model has what is left of it as an
argument, and the functions on the way back have the inner call as a parameter.  An inner call never
notes anything down: its `out` is `NULL`.
-/

namespace TgCli.Core

open Lib Walk

set_option synthInstance.maxSize 1000000

/-! ## Constructors -/

def crcWallPaperSettings : UInt32 := 0x372efcd0
def crcWallPaper : UInt32 := 0xa437c3ed
def crcWallPaperNoFile : UInt32 := 0xe0804116
def crcThemeSettings : UInt32 := 0xfa58b6d4
def crcBaseThemeClassic : UInt32 := 0xc3a12462
def crcBaseThemeDay : UInt32 := 0xfbd81688
def crcBaseThemeDark : UInt32 := 0xb7b31ea8
def crcBaseThemeTinted : UInt32 := 0x6d5f77ee
def crcBaseThemeArctic : UInt32 := 0x5b11125a
def crcTextWithEntitiesPoll : UInt32 := 0x751f3146
def crcPoll : UInt32 := 0x58747131
def crcPollAnswer : UInt32 := 0x6ca9c2e9
def crcPollAnswerVoters : UInt32 := 0x3b6ddad2
def crcPollResults : UInt32 := 0x7adc669d
def crcGame : UInt32 := 0xbdf9653b
def crcWebDocument : UInt32 := 0x1c570ed1
def crcWebDocumentNoProxy : UInt32 := 0xf9c8bcc6
def crcStoryFwdHeader : UInt32 := 0xb826e150
def crcMediaAreaCoordinates : UInt32 := 0x03d1ea4e
def crcGeoPointAddress : UInt32 := 0xde4c5d93
def crcMediaAreaVenue : UInt32 := 0xbe82db9c
def crcMediaAreaGeoPoint : UInt32 := 0xdf8b3b22
def crcMediaAreaSuggestedReaction : UInt32 := 0x14455871
def crcMediaAreaChannelPost : UInt32 := 0x770416af
def crcMediaAreaUrl : UInt32 := 0x37381085
def crcMediaAreaWeather : UInt32 := 0x49a6549c
def crcMediaAreaStarGift : UInt32 := 0x5787686d
def crcPrivacyValueAllowContacts : UInt32 := 0xfffe1bac
def crcPrivacyValueAllowAll : UInt32 := 0x65427b82
def crcPrivacyValueDisallowContacts : UInt32 := 0xf888fa1a
def crcPrivacyValueDisallowAll : UInt32 := 0x8b73e763
def crcPrivacyValueAllowCloseFriends : UInt32 := 0xf7e8d89b
def crcPrivacyValueAllowPremium : UInt32 := 0xece9814b
def crcPrivacyValueAllowBots : UInt32 := 0x21461b5d
def crcPrivacyValueDisallowBots : UInt32 := 0xf6a5f82f
def crcPrivacyValueAllowUsers : UInt32 := 0xb8905fb2
def crcPrivacyValueDisallowUsers : UInt32 := 0xe4621141
def crcPrivacyValueAllowChatParticipants : UInt32 := 0x6b134e8e
def crcPrivacyValueDisallowChatParticipants : UInt32 := 0x41c87565
def crcStoryViews : UInt32 := 0x8d595cd6
def crcMessageExtendedMediaPreview : UInt32 := 0xad628cc8
def crcMessageExtendedMedia : UInt32 := 0xee479c64
def crcStoryItemDeleted : UInt32 := 0x51e6ee4f
def crcStoryItemSkipped : UInt32 := 0xffadc913
def crcStoryItem : UInt32 := 0x79b26a24
def crcWebPageAttributeTheme : UInt32 := 0x54b56617
def crcWebPageAttributeStory : UInt32 := 0x2e94c3e7
def crcWebPageAttributeStickerSet : UInt32 := 0x50cc03d3
def crcWebPageEmpty : UInt32 := 0xeb1477e8
def crcWebPagePending : UInt32 := 0xb0d13e47
def crcWebPageNotModified : UInt32 := 0x7311ca11
def crcWebPage : UInt32 := 0xe89c45b2
def crcMessageMediaEmpty : UInt32 := 0x3ded6320
def crcMessageMediaUnsupported : UInt32 := 0x9f84f49e
def crcMessageMediaGeo : UInt32 := 0x56e0d474
def crcMessageMediaContact : UInt32 := 0x70322949
def crcMessageMediaVenue : UInt32 := 0x2ec0533f
def crcMessageMediaGeoLive : UInt32 := 0xb940c666
def crcMessageMediaDice : UInt32 := 0x3f7ee58b
def crcMessageMediaWebPage : UInt32 := 0xddf8c26e
def crcMessageMediaPoll : UInt32 := 0x4bd6e798
def crcMessageMediaInvoice : UInt32 := 0xf6a548d3
def crcMessageMediaStory : UInt32 := 0x68cb6283
def crcMessageMediaGiveaway : UInt32 := 0xaa073bee
def crcMessageMediaGame : UInt32 := 0xfdb19008
def crcMessageMediaPaidMedia : UInt32 := 0xa8852491
def crcMessageMediaPhoto : UInt32 := 0x695150d7
def crcMessageMediaDocument : UInt32 := 0x4cf4d72d

/-! ## Themes -/

def skipWallpaperSettings : Skipper := .of do
  enter 4
  let crc ← u32
  ensure (crc = crcWallPaperSettings)
  need 4
  let flags ← u32
  opt (hasFlag flags 0) do need 4; drop32
  opt (hasFlag flags 4) do need 4; drop32
  opt (hasFlag flags 5) do need 4; drop32
  opt (hasFlag flags 6) do need 4; drop32
  opt (hasFlag flags 3) do need 4; drop32
  opt (hasFlag flags 7) do need 4; drop32
  opt (hasFlag flags 8) (skip tlSkipString)

def skipWallpaper : Skipper := .of do
  enter 4
  let crc ← u32
  if crc = crcWallPaper then
    need 16; drop64; drop64
    skip tlSkipString
    skip tlSkipString
    skip skipWallpaperSettings
    need 4
    let docFlags ← u32
    opt (hasFlag docFlags 2) (skip tlSkipDocument)
  else if crc = crcWallPaperNoFile then
    need 12; drop64
    let flags ← u32
    opt (hasFlag flags 2) (skip skipWallpaperSettings)
  else fail

def skipThemeSettings : Skipper := .of do
  enter 4
  let crc ← u32
  ensure (crc = crcThemeSettings)
  need 4
  let flags ← u32
  need 4
  let bt ← u32
  ensure (bt ∈ [crcBaseThemeClassic, crcBaseThemeDay, crcBaseThemeDark, crcBaseThemeTinted,
    crcBaseThemeArctic])
  need 4; drop32
  opt (hasFlag flags 0) do need 8; drop64
  opt (hasFlag flags 3) do need 4; drop32
  opt (hasFlag flags 1) vector32
  opt (hasFlag flags 2) (skip skipWallpaper)

/-! ## Polls and games -/

def skipTextWithEntities : Skipper := .of do
  enter 4
  let crc ← u32
  ensure (crc = crcTextWithEntitiesPoll)
  skip tlSkipString
  skip tlSkipMessageEntitiesVector

def skipPoll : Skipper := .of do
  enter 4
  let crc ← u32
  ensure (crc = crcPoll)
  need 12
  let flags ← u32
  drop64
  skip skipTextWithEntities
  vector do
    need 4
    let paCrc ← u32
    ensure (paCrc = crcPollAnswer)
    skip skipTextWithEntities
    skip tlSkipString
  opt (hasFlag flags 4) do need 4; drop32
  opt (hasFlag flags 5) do need 4; drop32

def skipPollAnswerVoters : Skipper := .of do
  enter 4
  let crc ← u32
  ensure (crc = crcPollAnswerVoters)
  need 4; drop32
  skip tlSkipString
  need 4; drop32

def skipPollResults : Skipper := .of do
  enter 4
  let crc ← u32
  ensure (crc = crcPollResults)
  need 4
  let flags ← u32
  opt (hasFlag flags 1) (vector (skip skipPollAnswerVoters))
  opt (hasFlag flags 2) do need 4; drop32
  opt (hasFlag flags 3) (vector (skip tlSkipPeer))
  opt (hasFlag flags 4) do
    skip tlSkipString
    skip tlSkipMessageEntitiesVector

def skipGame : Skipper := .of do
  enter 4
  let crc ← u32
  ensure (crc = crcGame)
  need (4 + 8 + 8)
  let flags ← u32
  drop64; drop64
  skip tlSkipString
  skip tlSkipString
  skip tlSkipString
  skip tlSkipPhoto
  opt (hasFlag flags 0) (skip tlSkipDocument)

/-- What follows the url and the access hash in `skip_web_document`. -/
abbrev webDocumentRest : Walk Unit := do
  need 4; drop32
  skip tlSkipString
  vector (skip (skipDocumentAttribute.call none))

def skipWebDocument : Skipper := .of do
  enter 4
  let crc ← u32
  ensure (crc = crcWebDocument ∨ crc = crcWebDocumentNoProxy)
  skip tlSkipString
  opt (crc = crcWebDocument) do need 8; drop64
  webDocumentRest

/-! ## Parts of a story -/

def skipStoryFwdHeader : Skipper := .of do
  enter 4
  let crc ← u32
  ensure (crc = crcStoryFwdHeader)
  need 4
  let flags ← u32
  opt (hasFlag flags 0) (skip tlSkipPeer)
  opt (hasFlag flags 1) (skip tlSkipString)
  opt (hasFlag flags 2) do need 4; drop32

def skipMediaAreaCoordinates : Skipper := .of do
  enter 4
  let crc ← u32
  ensure (crc = crcMediaAreaCoordinates)
  need (4 + 5 * 8)
  let flags ← u32
  drop64; drop64; drop64; drop64; drop64
  opt (hasFlag flags 0) do need 8; drop64

def skipGeoPointAddress : Skipper := .of do
  enter 4
  let crc ← u32
  ensure (crc = crcGeoPointAddress)
  need 4
  let flags ← u32
  skip tlSkipString
  opt (hasFlag flags 0) (skip tlSkipString)
  opt (hasFlag flags 1) (skip tlSkipString)
  opt (hasFlag flags 2) (skip tlSkipString)

def skipMediaArea : Skipper := .of do
  enter 4
  let crc ← u32
  if crc = crcMediaAreaVenue then
    skip skipMediaAreaCoordinates
    skip skipGeoPoint
    skip tlSkipString
    skip tlSkipString
    skip tlSkipString
    skip tlSkipString
    skip tlSkipString
  else if crc = crcMediaAreaGeoPoint then
    need 4
    let flags ← u32
    skip skipMediaAreaCoordinates
    skip skipGeoPoint
    opt (hasFlag flags 0) (skip skipGeoPointAddress)
  else if crc = crcMediaAreaSuggestedReaction then
    need 4; drop32
    skip skipMediaAreaCoordinates
    skip skipReaction
  else if crc = crcMediaAreaChannelPost then
    skip skipMediaAreaCoordinates
    need 12; drop64; drop32
  else if crc = crcMediaAreaUrl then
    skip skipMediaAreaCoordinates
    skip tlSkipString
  else if crc = crcMediaAreaWeather then
    skip skipMediaAreaCoordinates
    skip tlSkipString
    need (8 + 4); drop64; drop32
  else if crc = crcMediaAreaStarGift then
    skip skipMediaAreaCoordinates
    skip tlSkipString
  else fail

def skipPrivacyRule : Skipper := .of do
  enter 4
  let crc ← u32
  if crc ∈ [crcPrivacyValueAllowContacts, crcPrivacyValueAllowAll,
      crcPrivacyValueDisallowContacts, crcPrivacyValueDisallowAll,
      crcPrivacyValueAllowCloseFriends, crcPrivacyValueAllowPremium, crcPrivacyValueAllowBots,
      crcPrivacyValueDisallowBots] then pure ()
  else if crc ∈ [crcPrivacyValueAllowUsers, crcPrivacyValueDisallowUsers,
      crcPrivacyValueAllowChatParticipants, crcPrivacyValueDisallowChatParticipants] then
    vector64
  else fail

def skipStoryViews : Skipper := .of do
  enter 4
  let crc ← u32
  ensure (crc = crcStoryViews)
  need 4
  let flags ← u32
  need 4; drop32
  opt (hasFlag flags 2) do need 4; drop32
  opt (hasFlag flags 3) (vector (skip skipReactionCount))
  opt (hasFlag flags 4) do need 4; drop32
  opt (hasFlag flags 0) vector64

/-! ## What leads back to the media

Each function is split where the media stands, so that the pieces can be put together once more with
the counter between them. -/

abbrev storyItemHead (flags : UInt32) : Walk Unit := do
  need 8; drop32; drop32
  opt (hasFlag flags 18) (skip tlSkipPeer)
  opt (hasFlag flags 17) (skip skipStoryFwdHeader)
  need 4; drop32
  opt (hasFlag flags 0) (skip tlSkipString)
  opt (hasFlag flags 1) (skip tlSkipMessageEntitiesVector)

abbrev storyItemTail (flags : UInt32) : Walk Unit := do
  opt (hasFlag flags 14) (vector (skip skipMediaArea))
  opt (hasFlag flags 2) (vector (skip skipPrivacyRule))
  opt (hasFlag flags 3) (skip skipStoryViews)
  opt (hasFlag flags 15) (skip skipReaction)

/-- The fields of a `webPage` behind its flags and before its attributes. -/
def webpageHead (flags : UInt32) : Walk Unit := do
  drop64
  skip tlSkipString
  skip tlSkipString
  need 4; drop32
  opt (hasFlag flags 0) (skip tlSkipString)
  opt (hasFlag flags 1) (skip tlSkipString)
  opt (hasFlag flags 2) (skip tlSkipString)
  opt (hasFlag flags 3) (skip tlSkipString)
  opt (hasFlag flags 4) (skip (photoFull.call none))
  opt (hasFlag flags 5) do
    skip tlSkipString
    skip tlSkipString
  opt (hasFlag flags 6) do need 8; drop32; drop32
  opt (hasFlag flags 7) do need 4; drop32
  opt (hasFlag flags 8) (skip tlSkipString)
  opt (hasFlag flags 9) (skip tlSkipDocument)
  opt (hasFlag flags 10) (skip skipPage)

instance (flags : UInt32) : Guarded 12 0 (webpageHead flags) := by
  rw [webpageHead]
  infer_instance

abbrev invoiceHead (flags : UInt32) : Walk Unit := do
  skip tlSkipString
  skip tlSkipString
  opt (hasFlag flags 0) (skip skipWebDocument)
  opt (hasFlag flags 2) do need 4; drop32
  skip tlSkipString
  need 8; drop64
  skip tlSkipString

section Inner

variable (media : Skipper)

abbrev extendedMediaRun (crc : UInt32) : Walk Unit :=
  if crc = crcMessageExtendedMediaPreview then do
    need 4
    let flags ← u32
    opt (hasFlag flags 0) do need 8; drop32; drop32
    opt (hasFlag flags 1) (skip tlSkipPhotoSize)
    opt (hasFlag flags 2) do need 4; drop32
  else if crc = crcMessageExtendedMedia then skip media
  else fail

def skipMessageExtendedMedia : Skipper := .of do
  enter 4
  let crc ← u32
  extendedMediaRun media crc

abbrev storyItemRun (crc : UInt32) : Walk Unit :=
  if crc = crcStoryItemDeleted then do
    need 4; drop32
  else if crc = crcStoryItemSkipped then do
    need 4; drop32
    need 12; drop32; drop32; drop32
  else if crc = crcStoryItem then do
    need 4
    let flags ← u32
    storyItemHead flags
    skip media
    storyItemTail flags
  else fail

def skipStoryItem : Skipper := .of do
  enter 4
  let crc ← u32
  storyItemRun media crc

/-- An entry of `skip_webpage_attributes_vector`. -/
abbrev webpageAttributeRun (crc : UInt32) : Walk Unit :=
  if crc = crcWebPageAttributeTheme then do
    need 4
    let flags ← u32
    opt (hasFlag flags 0) (vector (skip tlSkipDocument))
    opt (hasFlag flags 1) (skip skipThemeSettings)
  else if crc = crcWebPageAttributeStory then do
    need 4
    let flags ← u32
    skip tlSkipPeer
    need 4; drop32
    opt (hasFlag flags 0) (skip (skipStoryItem media))
  else if crc = crcWebPageAttributeStickerSet then do
    need 4; drop32
    vector (skip tlSkipDocument)
  else fail

def skipWebpageAttributesVector : Skipper := .of <| enterVector do
  need 4
  let crc ← u32
  webpageAttributeRun media crc

abbrev webpageRun (crc : UInt32) : Walk Unit :=
  if crc = crcWebPageEmpty then do
    need 12
    let flags ← u32
    drop64
    opt (hasFlag flags 0) (skip tlSkipString)
  else if crc = crcWebPagePending then do
    need 12
    let flags ← u32
    drop64
    opt (hasFlag flags 0) (skip tlSkipString)
    need 4; drop32
  else if crc = crcWebPageNotModified then do
    need 4
    let flags ← u32
    opt (hasFlag flags 0) do need 4; drop32
  else if crc = crcWebPage then do
    -- four bytes more than are read here: the first string has its head in them
    need 16
    let flags ← u32
    webpageHead flags
    opt (hasFlag flags 12) (skip (skipWebpageAttributesVector media))
  else fail

def skipWebpage : Skipper := .of do
  enter 4
  let crc ← u32
  webpageRun media crc

/-! ## The media -/

/-- The media of one kind of which nothing but the kind is noted down. -/
def mediaKindOnly (crc : UInt32) : MediaKind × Walk Unit :=
  if crc = crcMessageMediaEmpty then (.empty, pure ())
  else if crc = crcMessageMediaUnsupported then (.unsupported, pure ())
  else if crc = crcMessageMediaGeo then (.geo, skip skipGeoPoint)
  else if crc = crcMessageMediaContact then (.contact, do
    skip tlSkipString
    skip tlSkipString
    skip tlSkipString
    skip tlSkipString
    need 8; drop64)
  else if crc = crcMessageMediaVenue then (.venue, do
    skip skipGeoPoint
    skip tlSkipString
    skip tlSkipString
    skip tlSkipString
    skip tlSkipString
    skip tlSkipString)
  else if crc = crcMessageMediaGeoLive then (.geoLive, do
    need 4
    let flags ← u32
    skip skipGeoPoint
    opt (hasFlag flags 0) do need 4; drop32
    need 4; drop32
    opt (hasFlag flags 1) do need 4; drop32)
  else if crc = crcMessageMediaDice then (.dice, do
    need 4; drop32
    skip tlSkipString)
  else if crc = crcMessageMediaWebPage then (.webpage, do
    need 4; drop32
    skip (skipWebpage media))
  else if crc = crcMessageMediaPoll then (.poll, do
    skip skipPoll
    skip skipPollResults)
  else if crc = crcMessageMediaInvoice then (.invoice, do
    need 4
    let flags ← u32
    invoiceHead flags
    opt (hasFlag flags 4) (skip (skipMessageExtendedMedia media)))
  else if crc = crcMessageMediaStory then (.story, do
    need 4
    let flags ← u32
    skip tlSkipPeer
    need 4; drop32
    opt (hasFlag flags 0) (skip (skipStoryItem media)))
  else if crc = crcMessageMediaGiveaway then (.giveaway, do
    need 4
    let flags ← u32
    vector64
    opt (hasFlag flags 1) (vector (skip tlSkipString))
    opt (hasFlag flags 3) (skip tlSkipString)
    need 4; drop32
    opt (hasFlag flags 4) do need 4; drop32
    opt (hasFlag flags 5) do need 8; drop64
    need 4; drop32)
  else if crc = crcMessageMediaGame then (.game, skip skipGame)
  else if crc = crcMessageMediaPaidMedia then (.paid, do
    need 8; drop64
    vector (skip (skipMessageExtendedMedia media)))
  else (.other, fail)

instance guarded_snd_ite {κ : Type} {c : Prop} [Decidable c] {x y : κ × Walk Unit}
    [hx : Guarded 0 0 x.2] [hy : Guarded 0 0 y.2] : Guarded 0 0 (if c then x else y).2 := by
  split_ifs
  · exact hx
  · exact hy

instance guarded_mediaKindOnly (crc : UInt32) : Guarded 0 0 (mediaKindOnly media crc).2 := by
  rw [mediaKindOnly]
  infer_instance

abbrev mediaPhoto : Prog (Ext MediaInfo) Unit := do
  Ext.set fun o => { o with kind := .photo }
  let flags ← Ext.walk do need 4; u32
  Ext.opt (hasFlag flags 0) photoFull.run
  Ext.walk (opt (hasFlag flags 2) do need 4; drop32)

abbrev mediaDocument : Prog (Ext MediaInfo) Unit := do
  Ext.set fun o => { o with kind := .document }
  let flags ← Ext.walk do need 4; u32
  Ext.opt (hasFlag flags 0) documentInner.run
  Ext.walk do
    opt (hasFlag flags 2) do need 4; drop32
    opt (hasFlag flags 10) (vector (skip tlSkipDocument))

def skipMessageMediaBody : Extractor MediaInfo := .of do
  Ext.set fun _ => MediaInfo.zero
  let crc ← Ext.walk do enter 4; u32
  if crc = crcMessageMediaPhoto then mediaPhoto
  else if crc = crcMessageMediaDocument then mediaDocument
  else
    Ext.set fun o => { o with kind := (mediaKindOnly media crc).1 }
    Ext.walk (mediaKindOnly media crc).2

end Inner

def mediaRecursionMax : ℕ := 4

/-- `tl_skip_message_media_ex` when the counter leaves room for `n` calls. -/
def messageMediaWithin : ℕ → Extractor MediaInfo
  | 0 => .of (Ext.walk fail)
  | n + 1 => skipMessageMediaBody ((messageMediaWithin n).skipper none)

/-- `tl_skip_message_media_ex`.  The counter is back at zero after every call from outside. -/
def tlSkipMessageMediaEx : Extractor MediaInfo :=
  messageMediaWithin mediaRecursionMax

def tlSkipMessageMedia : Skipper :=
  tlSkipMessageMediaEx.skipper none

end TgCli.Core
