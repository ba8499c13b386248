import TgCli.Core.TlSerial

/-!
# `core/tl_skip.c`: walking over TL objects

A skipper moves the cursor behind one object and says whether it could.  The callers never look at
the cursor after a failure, so a skipper is a partial function on readers.

The small skippers are here.  The ones for the parts of a message that have their own grammar are
gathered in `MessageSkippers`, which the parsers of messages take as an argument: where a message
ends is the business of the skippers, and what the parsers do with it is theirs.
-/

namespace TgCli.Core

open Lib

def tlPeerUser : UInt32 := 0x59511722
def tlPeerChat : UInt32 := 0x36c6019a
def tlPeerChannel : UInt32 := 0xa2a5371e

def isPeer (crc : UInt32) : Bool :=
  crc = tlPeerUser ∨ crc = tlPeerChat ∨ crc = tlPeerChannel

def tlSkipString (r : TlReader) : Option TlReader :=
  if !tlReaderOk r then none else
  let s := tlReadString r
  s.1.map fun _ => s.2

def tlSkipPeer (r : TlReader) : Option TlReader :=
  if !tlReaderOk r ∨ r.left < 12 then none else
  let crc := tlReadUint32 r
  if isPeer crc.1 then some (tlReadInt64 crc.2).2 else none

inductive MediaKind where
  | none
  | empty
  | unsupported
  | photo
  | document
  | geo
  | contact
  | venue
  | geoLive
  | dice
  | webpage
  | poll
  | invoice
  | story
  | giveaway
  | game
  | paid
  | other
  deriving DecidableEq

def mediaFileRefMax : ℕ := 128

/-- `MediaInfo`; the arrays are what is written in them. -/
structure MediaInfo where
  kind : MediaKind
  photoId : Int64
  documentId : Int64
  dcId : Int32
  accessHash : Int64
  fileReference : Bytes
  thumbType : Bytes
  documentSize : Int64
  documentMime : Bytes
  documentFilename : Bytes
  deriving DecidableEq

/-- `memset(out, 0, sizeof(*out))`. -/
def MediaInfo.zero : MediaInfo :=
  ⟨.none, 0, 0, 0, 0, [], [], 0, [], []⟩

/-- The skippers that a parser of messages calls.  `messageMediaEx` fills its `MediaInfo` also when
it fails. -/
structure MessageSkippers where
  messageFwdHeader : TlReader → Option TlReader
  messageReplyHeader : TlReader → Option TlReader
  messageMediaEx : TlReader → MediaInfo × Option TlReader
  replyMarkup : TlReader → Option TlReader
  messageEntitiesVector : TlReader → Option TlReader
  messageReplies : TlReader → Option TlReader
  messageReactions : TlReader → Option TlReader
  restrictionReasonVector : TlReader → Option TlReader
  factcheck : TlReader → Option TlReader

end TgCli.Core
