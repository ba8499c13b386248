import TgCli.Domain.Messages
import TgCli.Infrastructure.AuthSession

/-!
# `domain/read/updates.c`: the difference since a state

`updates.getDifference` asks for what is newer than a state.  Its answer is a list of messages, and
behind it, past four more vectors, the state that covers them.  `domain_updates_difference` reads
the messages and stops there; the state it returns is made up without the rest of the answer.

A message is parsed as everywhere (`Domain.Messages`), with the number of its peer noted down.
-/

namespace TgCli.Domain

open Lib TgCli.Core Infrastructure

/-! ## Constructors -/

def crcUpdatesGetState : UInt32 := 0xedd4882a
def crcUpdatesGetDifference : UInt32 := 0x19c2f763
def crcUpdatesDifferenceTooLong : UInt32 := 0x4afe8f6d
def tlUpdatesState : UInt32 := 0xa56c2a3e
def tlUpdatesDifference : UInt32 := 0x00f49d63
def tlUpdatesDifferenceEmpty : UInt32 := 0x5d75a138
def tlUpdatesDifferenceSlice : UInt32 := 0xa8fb1981

/-! ## One message -/

/-- `peer_id`, which is mandatory; its number is kept. -/
def readPeerId : Prog Scan Unit := do
  Scan.need 12
  let pcrc ← Scan.read tlReadUint32
  let pid ← Scan.read tlReadInt64
  if isPeer pcrc then Scan.set fun e => { e with peerId := pid } else Scan.bail

def parseMessage (w : MessageWalkers) : Prog Scan Unit :=
  parseMessageAs ⟨readPeerId, false⟩ w

/-! ## States and differences -/

structure UpdatesState where
  pts : Int32
  qts : Int32
  date : Int64
  seq : Int32
  unreadCount : Int32
  deriving DecidableEq

def updatesMaxMessages : ℕ := 32

/-- `UpdatesDifference`; `new_messages_count` is the length of `newMessages`. -/
structure UpdatesDifference where
  newMessages : List HistoryEntry
  nextState : UpdatesState
  isTooLong : Bool
  isEmpty : Bool
  deriving DecidableEq

/-- A query, `api_call`, and the checks on the response. -/
def updatesRequest (env : ApiEnv) (query : Bytes) (respCap : ℕ) (s : MtProtoSession) (net : Net) :
    Option Bytes × MtProtoSession × Net :=
  let r := apiCall env.tinf env.cfg s net query respCap
  (r.1.bind fun reply => (checkReply .reset reply.resp).toOption, r.2)

def parseState (r : TlReader) : Option UpdatesState :=
  let crc := tlReadUint32 r
  if crc.1 ≠ tlUpdatesState then none else
  let pts := tlReadInt32 crc.2
  let qts := tlReadInt32 pts.2
  let date := tlReadInt32 qts.2
  let seq := tlReadInt32 date.2
  let unreadCount := tlReadInt32 seq.2
  some ⟨pts.1, qts.1, date.1.toInt64, seq.1, unreadCount.1⟩

def domainUpdatesState (env : ApiEnv) (s : MtProtoSession) (net : Net) :
    Option UpdatesState × MtProtoSession × Net :=
  let r := updatesRequest env (tlWriteUint32 [] crcUpdatesGetState) 4096 s net
  (r.1.bind fun resp => parseState (tlReaderInit resp), r.2)

/-- The query of `domain_updates_difference`; the date goes out as an `int32`. -/
def differenceQuery (st : UpdatesState) : Bytes :=
  let w := tlWriteUint32 [] crcUpdatesGetDifference
  let w := tlWriteUint32 w 0
  let w := tlWriteInt32 w st.pts
  let w := tlWriteInt32 w st.date.toInt32
  tlWriteInt32 w st.qts

/-- The part of `domain_updates_difference` that reads the response. -/
def parseDifference (w : MessageWalkers) (st : UpdatesState) (resp : Bytes) :
    Option UpdatesDifference :=
  let crc := tlReadUint32 (tlReaderInit resp)
  if crc.1 = tlUpdatesDifferenceEmpty then
    let date := tlReadInt32 crc.2
    let seq := tlReadInt32 date.2
    some ⟨[], { st with date := date.1.toInt64, seq := seq.1 }, false, true⟩
  else if crc.1 = crcUpdatesDifferenceTooLong then
    let pts := tlReadInt32 crc.2
    some ⟨[], { st with pts := pts.1 }, true, false⟩
  else if crc.1 ≠ tlUpdatesDifference ∧ crc.1 ≠ tlUpdatesDifferenceSlice then none
  else
    let vec := tlReadUint32 crc.2
    if vec.1 ≠ tlVector then none else
    let count := tlReadUint32 vec.2
    some ⟨messageLoop (parseMessage w) count.1.toNat updatesMaxMessages count.2, st, false, false⟩

/-- The request of `domain_updates_difference` for a state. -/
def differenceRequest (env : ApiEnv) (st : UpdatesState) :
    MtProtoSession → Net → Option Bytes × MtProtoSession × Net :=
  updatesRequest env (differenceQuery st) 262144

def domainUpdatesDifference (env : ApiEnv) (w : MessageWalkers) (st : UpdatesState)
    (s : MtProtoSession) (net : Net) : Option UpdatesDifference × MtProtoSession × Net :=
  let r := differenceRequest env st s net
  (r.1.bind (parseDifference w st), r.2)

theorem fst_domainUpdatesDifference (env : ApiEnv) (w : MessageWalkers) (st : UpdatesState)
    (s : MtProtoSession) (net : Net) : (domainUpdatesDifference env w st s net).1 =
      (differenceRequest env st s net).1.bind (parseDifference w st) := by
  rw [domainUpdatesDifference]

end TgCli.Domain
