import TgCli.Core.TlSkip.Walk

/-!
# `core/tl_skip.c`: the fields of a message

The objects around the text of a message: its entities, its keyboard, its reactions and replies, a
fact check, and the header of a forwarded message.  Each function reads the constructor and walks
over the fields that the constructor and the flags announce.
-/

namespace TgCli.Core

open Lib Walk

set_option synthInstance.maxSize 1000000

/-! ## Constructors -/

def crcMessageEntityUnknown : UInt32 := 0xbb92ba95
def crcMessageEntityMention : UInt32 := 0xfa04579d
def crcMessageEntityHashtag : UInt32 := 0x6f635b0d
def crcMessageEntityBotCommand : UInt32 := 0x6cef8ac7
def crcMessageEntityUrl : UInt32 := 0x6ed02538
def crcMessageEntityEmail : UInt32 := 0x64e475c2
def crcMessageEntityBold : UInt32 := 0xbd610bc9
def crcMessageEntityItalic : UInt32 := 0x826f8b60
def crcMessageEntityCode : UInt32 := 0x28a20571
def crcMessageEntityPhone : UInt32 := 0x9b69e34b
def crcMessageEntityCashtag : UInt32 := 0x4c4e743f
def crcMessageEntityUnderline : UInt32 := 0x9c4e7e8b
def crcMessageEntityStrike : UInt32 := 0xbf0693d4
def crcMessageEntityBankCard : UInt32 := 0x761e6af4
def crcMessageEntitySpoiler : UInt32 := 0x32ca960f
def crcMessageEntityPre : UInt32 := 0x73924be0
def crcMessageEntityTextUrl : UInt32 := 0x76a6d327
def crcMessageEntityMentionName : UInt32 := 0xdc7b1140
def crcMessageEntityCustomEmoji : UInt32 := 0xc8cf05f8
def crcMessageEntityBlockquote : UInt32 := 0xf1ccaaac
def crcInlineQueryPeerTypeSameBotPM : UInt32 := 0x3081ed9d
def crcInlineQueryPeerTypePM : UInt32 := 0x833c0fac
def crcInlineQueryPeerTypeChat : UInt32 := 0xd766c50a
def crcInlineQueryPeerTypeMegagroup : UInt32 := 0x5bc52d1a
def crcInlineQueryPeerTypeBroadcast : UInt32 := 0x6d1ded88
def crcInlineQueryPeerTypeBotPM : UInt32 := 0xe3b2a56a
def crcKeyboardButton : UInt32 := 0xa2fa4880
def crcKeyboardButtonRequestPhone : UInt32 := 0xb16a6c29
def crcKeyboardButtonRequestGeoLoc : UInt32 := 0xfc796b3f
def crcKeyboardButtonGame : UInt32 := 0x50f41ccf
def crcKeyboardButtonBuy : UInt32 := 0xafd93fbb
def crcKeyboardButtonUrl : UInt32 := 0x258aff05
def crcKeyboardButtonCallback : UInt32 := 0x35bbdb6b
def crcKeyboardButtonSwitchInline : UInt32 := 0x93b9fbb5
def crcKeyboardButtonUrlAuth : UInt32 := 0x10b78d29
def crcKeyboardButtonRequestPoll : UInt32 := 0xbbc7515d
def crcKeyboardButtonUserProfile : UInt32 := 0x308660c1
def crcKeyboardButtonWebView : UInt32 := 0x13767230
def crcKeyboardButtonSimpleWebView : UInt32 := 0xa0c0505c
def crcKeyboardButtonRow : UInt32 := 0x77608b83
def crcReplyKeyboardHide : UInt32 := 0xa03e5b85
def crcReplyKeyboardForceReply : UInt32 := 0x86b40b08
def crcReplyKeyboardMarkup : UInt32 := 0x85dd99d1
def crcReplyInlineMarkup : UInt32 := 0x48a30254
def crcReactionEmpty : UInt32 := 0x79f5d419
def crcReactionPaid : UInt32 := 0x523da4eb
def crcReactionEmoji : UInt32 := 0x1b2286b8
def crcReactionCustomEmoji : UInt32 := 0x8935fc73
def crcReactionCount : UInt32 := 0xa3d1cb80
def crcMessagePeerReaction : UInt32 := 0xb156fe9d
def crcMessageReactor : UInt32 := 0xedd1b4ad
def crcMessageReactions : UInt32 := 0x4f2b9479
def crcMessageReplies : UInt32 := 0x83d60fc2
def crcFactCheck : UInt32 := 0xb89bfccf
def crcTextWithEntities : UInt32 := 0x751f3146
def crcMessageFwdHeader : UInt32 := 0x4e4df4bb

/-! ## Entities -/

def tlSkipMessageEntity : Skipper := .of do
  enter 4
  let crc ← u32
  if crc ∈ [crcMessageEntityUnknown, crcMessageEntityMention, crcMessageEntityHashtag,
      crcMessageEntityBotCommand, crcMessageEntityUrl, crcMessageEntityEmail, crcMessageEntityBold,
      crcMessageEntityItalic, crcMessageEntityCode, crcMessageEntityPhone, crcMessageEntityCashtag,
      crcMessageEntityUnderline, crcMessageEntityStrike, crcMessageEntityBankCard,
      crcMessageEntitySpoiler] then
    need 8; drop32; drop32
  else if crc = crcMessageEntityPre ∨ crc = crcMessageEntityTextUrl then
    need 8; drop32; drop32
    skip tlSkipString
  else if crc = crcMessageEntityMentionName ∨ crc = crcMessageEntityCustomEmoji then
    need 16; drop32; drop32; drop64
  else if crc = crcMessageEntityBlockquote then
    need 12; drop32; drop32; drop32
  else fail

def tlSkipMessageEntitiesVector : Skipper :=
  .of (enterVector (skip tlSkipMessageEntity))

/-! ## Keyboards -/

def skipInlineQueryPeerTypeVector : Skipper := .of <| enterVector do
  need 4
  let crc ← u32
  ensure (crc ∈ [crcInlineQueryPeerTypeSameBotPM, crcInlineQueryPeerTypePM,
    crcInlineQueryPeerTypeChat, crcInlineQueryPeerTypeMegagroup, crcInlineQueryPeerTypeBroadcast,
    crcInlineQueryPeerTypeBotPM])

def skipKeyboardButton : Skipper := .of do
  enter 4
  let crc ← u32
  if crc ∈ [crcKeyboardButton, crcKeyboardButtonRequestPhone, crcKeyboardButtonRequestGeoLoc,
      crcKeyboardButtonGame, crcKeyboardButtonBuy] then
    skip tlSkipString
  else if crc = crcKeyboardButtonUrl then
    skip tlSkipString
    skip tlSkipString
  else if crc = crcKeyboardButtonCallback then
    need 4; drop32
    skip tlSkipString
    skip tlSkipString
  else if crc = crcKeyboardButtonSwitchInline then
    need 4
    let flags ← u32
    skip tlSkipString
    skip tlSkipString
    opt (hasFlag flags 1) (skip skipInlineQueryPeerTypeVector)
  else if crc = crcKeyboardButtonUrlAuth then
    need 4
    let flags ← u32
    skip tlSkipString
    opt (hasFlag flags 0) (skip tlSkipString)
    skip tlSkipString
    need 4; drop32
  else if crc = crcKeyboardButtonRequestPoll then
    need 4
    let flags ← u32
    opt (hasFlag flags 0) do need 4; drop32
    skip tlSkipString
  else if crc = crcKeyboardButtonUserProfile then
    skip tlSkipString
    need 8; drop64
  else if crc = crcKeyboardButtonWebView ∨ crc = crcKeyboardButtonSimpleWebView then
    skip tlSkipString
    skip tlSkipString
  else fail

def skipKeyboardButtonRow : Skipper := .of do
  enter 4
  let crc ← u32
  ensure (crc = crcKeyboardButtonRow)
  vector (skip skipKeyboardButton)

def skipButtonRowVector : Skipper :=
  .of (enterVector (skip skipKeyboardButtonRow))

def tlSkipReplyMarkup : Skipper := .of do
  enter 4
  let crc ← u32
  if crc = crcReplyKeyboardHide ∨ crc = crcReplyKeyboardForceReply then
    need 4
    let flags ← u32
    opt (crc = crcReplyKeyboardForceReply && hasFlag flags 3) (skip tlSkipString)
  else if crc = crcReplyKeyboardMarkup then
    need 4
    let flags ← u32
    skip skipButtonRowVector
    opt (hasFlag flags 3) (skip tlSkipString)
  else if crc = crcReplyInlineMarkup then
    skip skipButtonRowVector
  else fail

/-! ## Reactions -/

def skipReaction : Skipper := .of do
  enter 4
  let crc ← u32
  if crc = crcReactionEmpty ∨ crc = crcReactionPaid then pure ()
  else if crc = crcReactionEmoji then skip tlSkipString
  else if crc = crcReactionCustomEmoji then
    need 8; drop64
  else fail

def skipReactionCount : Skipper := .of do
  enter 4
  let crc ← u32
  ensure (crc = crcReactionCount)
  need 4
  let flags ← u32
  opt (hasFlag flags 0) do need 4; drop32
  skip skipReaction
  need 4; drop32

def skipMessagePeerReaction : Skipper := .of do
  enter 4
  let crc ← u32
  ensure (crc = crcMessagePeerReaction)
  need 4; drop32
  skip skipReaction
  need 4; drop32
  skip tlSkipPeer

def skipMessageReactor : Skipper := .of do
  enter 4
  let crc ← u32
  ensure (crc = crcMessageReactor)
  need 4
  let flags ← u32
  opt (hasFlag flags 3) (skip tlSkipPeer)
  need 8; drop32; drop32

def tlSkipMessageReactions : Skipper := .of do
  enter 4
  let crc ← u32
  ensure (crc = crcMessageReactions)
  need 4
  let flags ← u32
  vector (skip skipReactionCount)
  opt (hasFlag flags 1) (vector (skip skipMessagePeerReaction))
  opt (hasFlag flags 2) (vector (skip skipMessageReactor))

/-! ## Replies, fact checks, forwards -/

def tlSkipMessageReplies : Skipper := .of do
  enter 4
  let crc ← u32
  ensure (crc = crcMessageReplies)
  need 12
  let flags ← u32
  drop32; drop32
  opt (hasFlag flags 1) (vector (skip tlSkipPeer))
  opt (hasFlag flags 0) do need 8; drop64
  opt (hasFlag flags 2) do need 4; drop32
  opt (hasFlag flags 3) do need 4; drop32

def tlSkipFactcheck : Skipper := .of do
  enter 4
  let crc ← u32
  ensure (crc = crcFactCheck)
  need 4
  let flags ← u32
  opt (hasFlag flags 1) do
    skip tlSkipString
    need 4
    let tweCrc ← u32
    ensure (tweCrc = crcTextWithEntities)
    skip tlSkipString
    skip tlSkipMessageEntitiesVector
  need 8; drop64

def tlSkipMessageFwdHeader : Skipper := .of do
  enter 8
  let crc ← u32
  ensure (crc = crcMessageFwdHeader)
  let flags ← u32
  opt (hasFlag flags 0) (skip tlSkipPeer)
  opt (hasFlag flags 5) (skip tlSkipString)
  need 4; drop32
  opt (hasFlag flags 2) do need 4; drop32
  opt (hasFlag flags 3) (skip tlSkipString)
  opt (hasFlag flags 4) do
    skip tlSkipPeer
    need 4; drop32
  opt (hasFlag flags 8) (skip tlSkipPeer)
  opt (hasFlag flags 9) (skip tlSkipString)
  opt (hasFlag flags 10) do need 4; drop32
  opt (hasFlag flags 6) (skip tlSkipString)

end TgCli.Core
