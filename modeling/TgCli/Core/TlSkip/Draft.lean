import TgCli.Core.TlSkip.Media

/-!
# `core/tl_skip.c`: what a dialog carries besides its peer

The notification settings and the draft.  A draft is written by the user, so it is made of `Input`
types, and two of these lead back to themselves: a peer that is given by a message names the peer of
that message (`skip_input_peer`), and paid media is a vector of media (`skip_input_media`).
-/

namespace TgCli.Core

open Lib Walk

set_option synthInstance.maxSize 1000000

/-! ## Constructors -/

def crcPeerNotifySettings : UInt32 := 0xa83b0426
def crcPeerNotifySettings2 : UInt32 := 0x99622c0c
def crcNotificationSoundDefault : UInt32 := 0x97e8bebe
def crcNotificationSoundNone : UInt32 := 0x6f0c34df
def crcNotificationSoundLocal : UInt32 := 0x830b9ae4
def crcNotificationSoundRingtone : UInt32 := 0xff6c8049
def crcDraftMessage : UInt32 := 0x3fccf7ef
def crcDraftMessageEmpty : UInt32 := 0x1b0c841a
def crcInputPeerEmpty : UInt32 := 0x7f3b18ea
def crcInputPeerSelf : UInt32 := 0x7da07ec9
def crcInputPeerUser : UInt32 := 0x7b8e7de6
def crcInputPeerChat : UInt32 := 0x35a95cb9
def crcInputPeerChannel : UInt32 := 0x27bcbbfc
def crcInputPeerUserFromMessage : UInt32 := 0xa87b0a1c
def crcInputPeerChannelFromMessage : UInt32 := 0xbd2a0840
def crcInputReplyToMessage : UInt32 := 0x3faad5f0
def crcInputReplyToStory : UInt32 := 0x7e2a9a7b
def crcInputPhotoEmpty : UInt32 := 0x1cd7bf0d
def crcInputPhoto : UInt32 := 0x3bb3b94a
def crcInputDocumentEmpty : UInt32 := 0x72f0eafa
def crcInputDocument : UInt32 := 0x1abfb575
def crcInputGeoPointEmpty : UInt32 := 0xe4c123d6
def crcInputGeoPoint : UInt32 := 0xf3b7acc9
def crcInputMediaEmpty : UInt32 := 0x9664f57f
def crcInputMediaPhoto : UInt32 := 0xb3ba0635
def crcInputMediaGeoPoint : UInt32 := 0xf9c44144
def crcInputMediaContact : UInt32 := 0xf8ab7dfb
def crcInputMediaDocument : UInt32 := 0x33473058
def crcInputMediaVenue : UInt32 := 0xc13d1c11
def crcInputMediaGeoLive : UInt32 := 0x971fa843
def crcInputMediaGame : UInt32 := 0xd33f43f3
def crcInputMediaDice : UInt32 := 0xe66fbf7b
def crcInputMediaStory : UInt32 := 0x89fdd778
def crcInputMediaWebPage : UInt32 := 0xc21b8849
def crcInputMediaPoll : UInt32 := 0x261e868f
def crcInputMediaPaidMedia : UInt32 := 0x6519cb78
def crcInputMediaPhotoExternal : UInt32 := 0xe5bbfe1a
def crcInputMediaDocumentExternal : UInt32 := 0xfb52dc99
def crcInputGameID : UInt32 := 0x032c3e77
def crcInputGameShortName : UInt32 := 0xc331e80a
def crcInputUserEmpty : UInt32 := 0xb98886cf
def crcInputUserSelf : UInt32 := 0xf7c1b13f
def crcInputUser : UInt32 := 0xf21158c6
def crcInputUserFromMessage : UInt32 := 0x1da448e2

/-! ## Notification settings -/

/-- `tl_skip_bool`, which takes any constructor. -/
def tlSkipBool : Skipper := .of do
  enter 4
  drop32

def tlSkipNotificationSound : Skipper := .of do
  enter 4
  let crc ← u32
  if crc = crcNotificationSoundDefault ∨ crc = crcNotificationSoundNone then pure ()
  else if crc = crcNotificationSoundRingtone then
    need 8; drop64
  else if crc = crcNotificationSoundLocal then
    skip tlSkipString
    skip tlSkipString
  else fail

def tlSkipPeerNotifySettings : Skipper := .of do
  enter 8
  let crc ← u32
  ensure (crc = crcPeerNotifySettings ∨ crc = crcPeerNotifySettings2)
  let flags ← u32
  opt (hasFlag flags 0) (skip tlSkipBool)
  opt (hasFlag flags 1) (skip tlSkipBool)
  opt (hasFlag flags 2) do need 4; drop32
  opt (hasFlag flags 3) (skip tlSkipNotificationSound)
  opt (hasFlag flags 4) (skip tlSkipNotificationSound)
  opt (hasFlag flags 5) (skip tlSkipNotificationSound)
  opt (hasFlag flags 6) (skip tlSkipBool)
  opt (hasFlag flags 7) (skip tlSkipBool)
  opt (hasFlag flags 8) (skip tlSkipNotificationSound)
  opt (hasFlag flags 9) (skip tlSkipNotificationSound)
  opt (hasFlag flags 10) (skip tlSkipNotificationSound)

/-! ## Peers and users -/

/-- What `skip_input_peer` does behind the constructor. -/
abbrev inputPeerRun (skipInputPeer : Skipper) (crc : UInt32) : Walk Unit :=
  if crc = crcInputPeerEmpty ∨ crc = crcInputPeerSelf then pure ()
  else if crc = crcInputPeerUser ∨ crc = crcInputPeerChannel then do
    need 16; drop64; drop64
  else if crc = crcInputPeerChat then do
    need 8; drop64
  else if crc = crcInputPeerUserFromMessage ∨ crc = crcInputPeerChannelFromMessage then do
    skip skipInputPeer
    need 12; drop32; drop64
  else fail

theorem guarded_inputPeerRun (s : Skipper) (crc : UInt32) : Guarded 0 0 (inputPeerRun s crc) := by
  rw [inputPeerRun]
  infer_instance

theorem same_inputPeerRun {s t : Skipper} {d : Bytes} {m : ℕ}
    (h : Same d m (skip s.run) (skip t.run)) (crc : UInt32) :
    Same d m (inputPeerRun s crc) (inputPeerRun t crc) := by
  rw [inputPeerRun, inputPeerRun]
  infer_instance

def skipInputPeer : Skipper :=
  .fix ⟨inputPeerRun, guarded_inputPeerRun, same_inputPeerRun⟩

def skipInputUser : Skipper := .of do
  enter 4
  let crc ← u32
  if crc = crcInputUserEmpty ∨ crc = crcInputUserSelf then pure ()
  else if crc = crcInputUser then
    need 16; drop64; drop64
  else if crc = crcInputUserFromMessage then
    skip skipInputPeer
    need 12; drop32; drop64
  else fail

/-! ## Media -/

def skipInputGeoPoint : Skipper := .of do
  enter 4
  let crc ← u32
  if crc = crcInputGeoPointEmpty then pure ()
  else
    ensure (crc = crcInputGeoPoint)
    need 4
    let flags ← u32
    need 16; drop64; drop64
    opt (hasFlag flags 0) do need 4; drop32

/-- `skip_input_photo` and `skip_input_document`, which differ in their constructors. -/
def skipInputFile (crcEmpty crcFull : UInt32) : Skipper := .of do
  enter 4
  let crc ← u32
  if crc = crcEmpty then
    need 8; drop64
  else
    ensure (crc = crcFull)
    need 16; drop64; drop64
    skip tlSkipString

def skipInputPhoto : Skipper :=
  skipInputFile crcInputPhotoEmpty crcInputPhoto

def skipInputDocument : Skipper :=
  skipInputFile crcInputDocumentEmpty crcInputDocument

def skipInputGame : Skipper := .of do
  enter 4
  let crc ← u32
  if crc = crcInputGameID then
    need 16; drop64; drop64
  else if crc = crcInputGameShortName then
    skip skipInputUser
    skip tlSkipString
  else fail

/-- The media of `skip_input_media` that hold no other media.  An uploaded file and an invoice are
refused like an unknown constructor. -/
abbrev inputMediaLeafRun (crc : UInt32) : Walk Unit :=
  if crc = crcInputMediaEmpty then pure ()
  else if crc = crcInputMediaPhoto then do
    need 4
    let flags ← u32
    skip skipInputPhoto
    opt (hasFlag flags 0) do need 4; drop32
  else if crc = crcInputMediaGeoPoint then skip skipInputGeoPoint
  else if crc = crcInputMediaContact then rep (skip tlSkipString) 4
  else if crc = crcInputMediaDocument then do
    need 4
    let flags ← u32
    skip skipInputDocument
    opt (hasFlag flags 0) do need 4; drop32
    opt (hasFlag flags 1) (skip tlSkipString)
  else if crc = crcInputMediaVenue then do
    skip skipInputGeoPoint
    rep (skip tlSkipString) 5
  else if crc = crcInputMediaGeoLive then do
    need 4
    let flags ← u32
    skip skipInputGeoPoint
    opt (hasFlag flags 2) do need 4; drop32
    need 4; drop32
    opt (hasFlag flags 3) do need 4; drop32
  else if crc = crcInputMediaGame then skip skipInputGame
  else if crc = crcInputMediaDice then skip tlSkipString
  else if crc = crcInputMediaStory then do
    skip skipInputPeer
    need 4; drop32
  else if crc = crcInputMediaWebPage then do
    need 4
    let flags ← u32
    skip tlSkipString
    opt (hasFlag flags 4) (skip tlSkipString)
  else if crc = crcInputMediaPoll then do
    need 4
    let flags ← u32
    skip skipPoll
    opt (hasFlag flags 0) (vector (skip tlSkipString))
    opt (hasFlag flags 1) (skip tlSkipString)
    opt (hasFlag flags 2) (skip tlSkipMessageEntitiesVector)
  else if crc = crcInputMediaPhotoExternal ∨ crc = crcInputMediaDocumentExternal then do
    need 4
    let flags ← u32
    skip tlSkipString
    opt (hasFlag flags 0) do need 4; drop32
  else fail

/-- What `skip_input_media` does behind the constructor. -/
abbrev inputMediaRun (skipInputMedia : Skipper) (crc : UInt32) : Walk Unit :=
  if crc = crcInputMediaPaidMedia then do
    need 8; drop64
    vector (skip skipInputMedia)
  else inputMediaLeafRun crc

theorem guarded_inputMediaRun (s : Skipper) (crc : UInt32) : Guarded 0 0 (inputMediaRun s crc) := by
  rw [inputMediaRun]
  infer_instance

theorem same_inputMediaRun {s t : Skipper} {d : Bytes} {m : ℕ}
    (h : Same d m (skip s.run) (skip t.run)) (crc : UInt32) :
    Same d m (inputMediaRun s crc) (inputMediaRun t crc) := by
  rw [inputMediaRun, inputMediaRun]
  infer_instance

def skipInputMedia : Skipper :=
  .fix ⟨inputMediaRun, guarded_inputMediaRun, same_inputMediaRun⟩

/-! ## Drafts -/

def skipInputReplyTo : Skipper := .of do
  enter 4
  let crc ← u32
  if crc = crcInputReplyToMessage then
    need 8
    let flags ← u32
    drop32
    opt (hasFlag flags 0) do need 4; drop32
    opt (hasFlag flags 1) (skip skipInputPeer)
    opt (hasFlag flags 2) (skip tlSkipString)
    opt (hasFlag flags 3) (skip tlSkipMessageEntitiesVector)
    opt (hasFlag flags 4) do need 4; drop32
  else if crc = crcInputReplyToStory then
    skip skipInputPeer
    need 4; drop32
  else fail

def tlSkipDraftMessage : Skipper := .of do
  enter 4
  let crc ← u32
  if crc = crcDraftMessageEmpty then
    need 4
    let flags ← u32
    opt (hasFlag flags 0) do need 4; drop32
  else if crc = crcDraftMessage then
    need 4
    let flags ← u32
    opt (hasFlag flags 4) (skip skipInputReplyTo)
    skip tlSkipString
    opt (hasFlag flags 3) (skip tlSkipMessageEntitiesVector)
    opt (hasFlag flags 5) (skip skipInputMedia)
    need 4; drop32
  else fail

end TgCli.Core
