import TgCli.Domain.History
import TgCli.Domain.Updates

/-!
# `domain/read/history.c` and `domain/read/search.c`: fetching messages

`messages.getHistory`, `messages.search` and `messages.searchGlobal` have one kind of answer, and
the two files read it with the same text: the constructor, the counters of the header, the vector,
and a loop over the messages that ends with the vector, with the room of the caller, or with the
first message that cannot be parsed to its end.

`api query cap` is what `api_call` leaves in a buffer of `cap` bytes for a query; `none` when it
fails.
-/

namespace TgCli.Domain

open Lib TgCli.Core Infrastructure

/-! ## Constructors -/

def crcMessagesGetHistory : UInt32 := 0x4423e6c5
def crcMessagesSearch : UInt32 := 0x29ee847a
def crcMessagesSearchGlobal : UInt32 := 0x4bc6589a
def crcInputMessagesFilterEmpty : UInt32 := 0x57e9a944
def tlInputPeerUser : UInt32 := 0xdde8a54c
def tlInputPeerChat : UInt32 := 0x35a95cb9
def tlInputPeerChannel : UInt32 := 0x27bcbbfc
def tlInputPeerSelf : UInt32 := 0x7da07ec9
def tlInputPeerEmpty : UInt32 := 0x7f3b18ea
def tlMessagesMessages : UInt32 := 0x8c718e87
def tlMessagesMessagesSlice : UInt32 := 0x3a54685e
def tlMessagesChannelMessages : UInt32 := 0xc776ba4e

/-! ## Requests -/

def writeInputPeer (w : TlWriter) (p : HistoryPeer) : TlWriter :=
  match p.kind with
  | .self => tlWriteUint32 w tlInputPeerSelf
  | .user => tlWriteInt64 (tlWriteInt64 (tlWriteUint32 w tlInputPeerUser) p.peerId) p.accessHash
  | .chat => tlWriteInt64 (tlWriteUint32 w tlInputPeerChat) p.peerId
  | .channel =>
    tlWriteInt64 (tlWriteInt64 (tlWriteUint32 w tlInputPeerChannel) p.peerId) p.accessHash

/-- A request that has to fit a buffer of `cap` bytes. -/
def fitRequest (cap : ℕ) (w : TlWriter) : Option Bytes :=
  if w.length ≤ cap then some w else none

/-- `build_request` of `history.c`. -/
def buildHistoryRequest (peer : HistoryPeer) (offsetId limit : Int32) (cap : ℕ) : Option Bytes :=
  let w := tlWriteUint32 [] crcMessagesGetHistory
  let w := writeInputPeer w peer
  let w := tlWriteInt32 w offsetId
  let w := tlWriteInt32 w 0
  let w := tlWriteInt32 w 0
  let w := tlWriteInt32 w limit
  let w := tlWriteInt32 w 0
  let w := tlWriteInt32 w 0
  let w := tlWriteInt64 w 0
  fitRequest cap w

/-- The request of `domain_search_peer`. -/
def buildSearchRequest (peer : HistoryPeer) (query : Bytes) (limit : Int32) (cap : ℕ) :
    Option Bytes :=
  let w := tlWriteUint32 [] crcMessagesSearch
  let w := tlWriteUint32 w 0
  let w := writeInputPeer w peer
  let w := tlWriteString w query
  let w := tlWriteUint32 w crcInputMessagesFilterEmpty
  let w := tlWriteInt32 w 0
  let w := tlWriteInt32 w 0
  let w := tlWriteInt32 w 0
  let w := tlWriteInt32 w 0
  let w := tlWriteInt32 w limit
  let w := tlWriteInt32 w 0
  let w := tlWriteInt32 w 0
  let w := tlWriteInt64 w 0
  fitRequest cap w

/-- The request of `domain_search_global`. -/
def buildSearchGlobalRequest (query : Bytes) (limit : Int32) (cap : ℕ) : Option Bytes :=
  let w := tlWriteUint32 [] crcMessagesSearchGlobal
  let w := tlWriteUint32 w 0
  let w := tlWriteString w query
  let w := tlWriteUint32 w crcInputMessagesFilterEmpty
  let w := tlWriteInt32 w 0
  let w := tlWriteInt32 w 0
  let w := tlWriteInt32 w 0
  let w := tlWriteUint32 w tlInputPeerEmpty
  let w := tlWriteInt32 w 0
  let w := tlWriteInt32 w limit
  fitRequest cap w

/-! ## Answers -/

section Read

variable (parse : Prog Scan Unit)

/-- The counters of the header that are read: the flags and one number of a `messagesSlice`, the
flags and two numbers of a `channelMessages`. -/
def readCounters (top : UInt32) (r : TlReader) : TlReader :=
  if top = tlMessagesMessagesSlice then (tlReadInt32 (tlReadUint32 r).2).2
  else if top = tlMessagesChannelMessages then
    (tlReadInt32 (tlReadInt32 (tlReadUint32 r).2).2).2
  else r

/-- Where the loop over the messages begins, and with which count, if there is a vector. -/
def vectorFrom (r : TlReader) : Option (ℕ × TlReader) :=
  let vec := tlReadUint32 r
  if vec.1 ≠ tlVector then none else
  let count := tlReadUint32 vec.2
  some (count.1.toNat, count.2)

/-- The part of `parse_top` in front of the loop. -/
def vectorAt (resp : Bytes) : Option (ℕ × TlReader) :=
  let top := tlReadUint32 (tlReaderInit resp)
  if top.1 = crcRpcError then none
  else if top.1 ≠ tlMessagesMessages ∧ top.1 ≠ tlMessagesMessagesSlice ∧
      top.1 ≠ tlMessagesChannelMessages then none
  else vectorFrom (readCounters top.1 top.2)

/-- `parse_top` of `search.c`, and the same part of `domain_get_history`. -/
def parseTop (limit : ℕ) (resp : Bytes) : Option (List HistoryEntry) :=
  (vectorAt resp).map fun x => messageLoop parse x.1 limit x.2

/-- The part the three functions share: the request, `api_call`, a check of the length, and the
answer. -/
def fetchMessages (api : Bytes → ℕ → Option Bytes) (minLen : ℕ) (limit : Int32)
    (request : Option Bytes) : Option (List HistoryEntry) :=
  if limit ≤ 0 then none else
  request.bind fun query =>
    (api query 262144).bind fun resp =>
      if resp.length < minLen then none else parseTop parse limit.toInt.toNat resp

end Read

section Calls

variable (api : Bytes → ℕ → Option Bytes)

def domainGetHistory (peer : HistoryPeer) (offsetId limit : Int32) : Option (List HistoryEntry) :=
  fetchMessages historyParseMessage api 8 limit (buildHistoryRequest peer offsetId limit 128)

def domainSearchPeer (peer : HistoryPeer) (query : Bytes) (limit : Int32) :
    Option (List HistoryEntry) :=
  fetchMessages searchParseMessage api 4 limit (buildSearchRequest peer query limit 2048)

def domainSearchGlobal (query : Bytes) (limit : Int32) : Option (List HistoryEntry) :=
  fetchMessages searchParseMessage api 4 limit (buildSearchGlobalRequest query limit 2048)

end Calls

end TgCli.Domain
