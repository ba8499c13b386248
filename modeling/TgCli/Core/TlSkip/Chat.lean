import TgCli.Core.TlSkip.Extract
import TgCli.Core.TlSkip.Fields

/-!
# `core/tl_skip.c`: chats and users

`extract_chat_inner` and `extract_user_inner` walk over a chat or a user and, when they are given a
place for it, note the id, the access hash and the names.  A name is cut to its array.
-/

namespace TgCli.Core

open Lib Walk

set_option synthInstance.maxSize 1000000

/-! ## Constructors -/

def tlUserEmpty : UInt32 := 0xd3bc4b7a
def tlChat : UInt32 := 0x41cbf256
def tlChatEmpty : UInt32 := 0x29562865
def tlChatForbidden : UInt32 := 0x6592a1a7
def tlChannel : UInt32 := 0x0aadfc8f
def tlChannelForbidden : UInt32 := 0x17d493d5
def crcChatPhotoEmpty : UInt32 := 0x37c1011c
def crcChatPhoto : UInt32 := 0x1c6e1c11
def crcUserProfilePhotoEmpty : UInt32 := 0x4f11bae1
def crcUserProfilePhoto : UInt32 := 0x82d1f706
def crcUserStatusEmpty : UInt32 := 0x09d05049
def crcUserStatusOnline : UInt32 := 0xedb93949
def crcUserStatusOffline : UInt32 := 0x008c703f
def crcUserStatusRecently : UInt32 := 0x7b197dc8
def crcUserStatusLastWeek : UInt32 := 0x541a1d1a
def crcUserStatusLastMonth : UInt32 := 0x65899e67
def crcRestrictionReason : UInt32 := 0xd072acb4
def crcUsername : UInt32 := 0xb4073647
def crcPeerColor : UInt32 := 0xb54b5acf
def crcEmojiStatusEmpty : UInt32 := 0x2de11aae
def crcEmojiStatus : UInt32 := 0x929b619d
def crcEmojiStatusUntil : UInt32 := 0xfa30a8c7
def crcChatAdminRights : UInt32 := 0x5fb224d5
def crcChatBannedRights : UInt32 := 0x9f120418
def crcInputChannelEmpty : UInt32 := 0xee8c1e86
def crcInputChannel : UInt32 := 0xf35aec28
def crcInputChannelFromMessage : UInt32 := 0x5b934f9d

/-! ## Parts -/

/-- The common body of `tl_skip_chat_photo` and `tl_skip_user_profile_photo`. -/
def skipProfilePhoto (crcEmpty crcFull : UInt32) : Skipper := .of do
  enter 4
  let crc ← u32
  if crc = crcEmpty then pure ()
  else
    ensure (crc = crcFull)
    need 4
    let flags ← u32
    need 8; drop64
    opt (hasFlag flags 1) (skip tlSkipString)
    need 4; drop32

def tlSkipChatPhoto : Skipper :=
  skipProfilePhoto crcChatPhotoEmpty crcChatPhoto

def tlSkipUserProfilePhoto : Skipper :=
  skipProfilePhoto crcUserProfilePhotoEmpty crcUserProfilePhoto

def tlSkipUserStatus : Skipper := .of do
  enter 4
  let crc ← u32
  if crc = crcUserStatusEmpty then pure ()
  else if crc ∈ [crcUserStatusOnline, crcUserStatusOffline, crcUserStatusRecently,
      crcUserStatusLastWeek, crcUserStatusLastMonth] then
    need 4; drop32
  else fail

def tlSkipRestrictionReasonVector : Skipper := .of <| enterVector do
  need 4
  let crc ← u32
  ensure (crc = crcRestrictionReason)
  skip tlSkipString
  skip tlSkipString
  skip tlSkipString

def tlSkipUsernameVector : Skipper := .of <| enterVector do
  need 8
  let crc ← u32
  ensure (crc = crcUsername)
  drop32
  skip tlSkipString

def tlSkipPeerColor : Skipper := .of do
  enter 8
  let crc ← u32
  ensure (crc = crcPeerColor)
  let flags ← u32
  opt (hasFlag flags 0) do need 4; drop32
  opt (hasFlag flags 1) do need 8; drop64

def tlSkipEmojiStatus : Skipper := .of do
  enter 4
  let crc ← u32
  if crc = crcEmojiStatusEmpty then pure ()
  else if crc = crcEmojiStatus then
    need 8; drop64
  else if crc = crcEmojiStatusUntil then
    need 12; drop64; drop32
  else fail

def skipChatAdminRights : Skipper := .of do
  enter 8
  let crc ← u32
  ensure (crc = crcChatAdminRights)
  drop32

def skipChatBannedRights : Skipper := .of do
  enter 12
  let crc ← u32
  ensure (crc = crcChatBannedRights)
  drop32; drop32

/-! ## Chats -/

structure ChatSummary where
  id : Int64
  accessHash : Int64
  haveAccessHash : Bool
  title : Bytes
  deriving DecidableEq

/-- The string in `title[128]`. -/
def ChatSummary.setTitle (s : Bytes) (o : ChatSummary) : ChatSummary :=
  { o with title := s.take 127 }

abbrev skipMigratedTo : Walk Unit := do
  need 4
  let icCrc ← u32
  if icCrc = crcInputChannelEmpty then pure ()
  else if icCrc = crcInputChannel ∨ icCrc = crcInputChannelFromMessage then
    need 16; drop64; drop64
  else fail

/-- The part of `extract_chat_inner` for a `chat`. -/
def extractChat : Extractor ChatSummary := .of do
  let flags ← Ext.walk do need 4; u32
  Ext.walk (opt (hasFlag flags 6) skipMigratedTo)
  let id ← Ext.walk do need 8; i64
  Ext.set fun o => { o with id }
  Ext.stringInto ChatSummary.setTitle
  Ext.walk do
    skip tlSkipChatPhoto
    need 12; drop32; drop32; drop32
    opt (hasFlag flags 14) (skip skipChatAdminRights)
    opt (hasFlag flags 18) (skip skipChatBannedRights)

/-- The part of `extract_chat_inner` for a `channelForbidden`. -/
def extractChannelForbidden : Extractor ChatSummary := .of do
  let flags ← Ext.walk do need 4; u32
  Ext.walk (need 16)
  let id ← Ext.walk i64
  Ext.set fun o => { o with id }
  let accessHash ← Ext.walk i64
  Ext.set fun o => { o with accessHash, haveAccessHash := true }
  Ext.stringInto ChatSummary.setTitle
  Ext.walk (opt (hasFlag flags 16) do need 4; drop32)

/-- The part of `extract_chat_inner` for a `channel`. -/
def extractChannel : Extractor ChatSummary := .of do
  Ext.walk (need 8)
  let flags ← Ext.walk u32
  let flags2 ← Ext.walk u32
  let id ← Ext.walk do need 8; i64
  Ext.set fun o => { o with id }
  Ext.opt (hasFlag flags 13) do
    let accessHash ← Ext.walk do need 8; i64
    Ext.set fun o => { o with accessHash, haveAccessHash := true }
  Ext.stringInto ChatSummary.setTitle
  Ext.walk do
    opt (hasFlag flags 6) (skip tlSkipString)
    skip tlSkipChatPhoto
    need 4; drop32
    opt (hasFlag flags 9) (skip tlSkipRestrictionReasonVector)
    opt (hasFlag flags 14) (skip skipChatAdminRights)
    opt (hasFlag flags 15) (skip skipChatBannedRights)
    opt (hasFlag flags 18) (skip skipChatBannedRights)
    opt (hasFlag flags 17) do need 4; drop32
    opt (hasFlag flags2 0) (skip tlSkipUsernameVector)
    opt (hasFlag flags2 4) do need 4; drop32
    opt (hasFlag flags2 7) (skip tlSkipPeerColor)
    opt (hasFlag flags2 8) (skip tlSkipPeerColor)
    opt (hasFlag flags2 9) (skip tlSkipEmojiStatus)
    opt (hasFlag flags2 10) do need 4; drop32
    opt (hasFlag flags2 11) do need 4; drop32

def extractChatInner : Extractor ChatSummary := .of do
  Ext.set fun _ => ⟨0, 0, false, []⟩
  let crc ← Ext.walk do enter 4; u32
  if crc = tlChatEmpty then
    let id ← Ext.walk do need 8; i64
    Ext.set fun o => { o with id }
  else if crc = tlChatForbidden then
    let id ← Ext.walk do need 8; i64
    Ext.set fun o => { o with id }
    Ext.stringInto ChatSummary.setTitle
  else if crc = tlChat then extractChat.run
  else if crc = tlChannelForbidden then extractChannelForbidden.run
  else if crc = tlChannel then extractChannel.run
  else Ext.walk fail

def tlSkipChat : Skipper :=
  extractChatInner.skipper none

def tlExtractChat (out : Option ChatSummary) : Skipper :=
  extractChatInner.skipper out

/-! ## Users -/

structure UserSummary where
  id : Int64
  accessHash : Int64
  haveAccessHash : Bool
  name : Bytes
  username : Bytes
  deriving DecidableEq

/-- `str_append` to a string in an array of `cap` bytes. -/
def strAppend (dst : Bytes) (cap : ℕ) (src : Bytes) : Bytes :=
  if cap = 0 then dst
  else if dst.length ≥ cap - 1 then dst
  else dst ++ src.take (cap - 1 - dst.length)

/-- `first_name`, by way of `first[96]`. -/
def UserSummary.setFirstName (s : Bytes) (o : UserSummary) : UserSummary :=
  { o with name := strAppend o.name 128 (s.take 95) }

def UserSummary.setLastName (s : Bytes) (o : UserSummary) : UserSummary :=
  let last := s.take 95
  if last = [] then o
  else
    let name := if o.name = [] then o.name else strAppend o.name 128 (ascii " ")
    { o with name := strAppend name 128 last }

def UserSummary.setUsername (s : Bytes) (o : UserSummary) : UserSummary :=
  { o with username := s.take 63 }

/-- What follows the username in a `user`. -/
abbrev skipUserRest (flags flags2 : UInt32) : Walk Unit := do
  opt (hasFlag flags 4) (skip tlSkipString)
  opt (hasFlag flags 5) (skip tlSkipUserProfilePhoto)
  opt (hasFlag flags 6) (skip tlSkipUserStatus)
  opt (hasFlag flags 14) do need 4; drop32
  opt (hasFlag flags 18) (skip tlSkipRestrictionReasonVector)
  opt (hasFlag flags 19) (skip tlSkipString)
  opt (hasFlag flags 22) (skip tlSkipString)
  opt (hasFlag flags 30) (skip tlSkipEmojiStatus)
  opt (hasFlag flags2 0) (skip tlSkipUsernameVector)
  opt (hasFlag flags2 5) do need 4; drop32
  opt (hasFlag flags2 8) (skip tlSkipPeerColor)
  opt (hasFlag flags2 9) (skip tlSkipPeerColor)
  opt (hasFlag flags2 12) do need 4; drop32

/-- What `extract_user_inner` does with a `user` behind its id. -/
abbrev extractUserTail (flags flags2 : UInt32) : Prog (Ext UserSummary) Unit := do
  Ext.opt (hasFlag flags 0) do
    let accessHash ← Ext.walk do need 8; i64
    Ext.set fun o => { o with accessHash, haveAccessHash := true }
  Ext.opt (hasFlag flags 1) (Ext.stringInto UserSummary.setFirstName)
  Ext.opt (hasFlag flags 2) (Ext.stringInto UserSummary.setLastName)
  Ext.opt (hasFlag flags 3) (Ext.stringInto UserSummary.setUsername)
  Ext.walk (skipUserRest flags flags2)

/-- The part of `extract_user_inner` for a `user`. -/
def extractUser : Extractor UserSummary := .of do
  Ext.walk (need 8)
  let flags ← Ext.walk u32
  let flags2 ← Ext.walk u32
  let id ← Ext.walk do need 8; i64
  Ext.set fun o => { o with id }
  extractUserTail flags flags2

def extractUserInner : Extractor UserSummary := .of do
  Ext.set fun _ => ⟨0, 0, false, [], []⟩
  let crc ← Ext.walk do enter 4; u32
  if crc = tlUserEmpty then
    let id ← Ext.walk do need 8; i64
    Ext.set fun o => { o with id }
  else if crc = tlUser ∨ crc = tlUser2 then extractUser.run
  else Ext.walk fail

def tlSkipUser : Skipper :=
  extractUserInner.skipper none

def tlExtractUser (out : Option UserSummary) : Skipper :=
  extractUserInner.skipper out

end TgCli.Core
