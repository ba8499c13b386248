import TgCli.Lib.Bytes

/-!
# `core/mtproto_session.c`: the state of one encrypted session

The clock and the random source of the C functions are arguments here: `mtproto_session_init`
takes the eight random bytes of the session id as a word, and `mtproto_session_next_msg_id` takes
the reading of `time(NULL)` and the random low word it combines.
-/

namespace TgCli.Core

open Lib

/-- `MTPROTO_AUTH_KEY_SIZE`. -/
def authKeySize : ℕ := 256

abbrev AuthKey := Block authKeySize

structure MtProtoSession where
  sessionId : UInt64
  serverSalt : UInt64
  seqNo : UInt32
  lastMsgId : UInt64
  authKey : AuthKey
  hasAuthKey : Bool
  deriving DecidableEq

/-- The key of a session that has none: 256 zero bytes, as `memset` leaves them. -/
def zeroKey : AuthKey :=
  ⟨List.replicate authKeySize 0, List.length_replicate⟩

/-- A random session id is never zero. -/
def nonzeroId (rand : UInt64) : UInt64 :=
  if rand = 0 then 1 else rand

def mtprotoSessionInit (rand : UInt64) : MtProtoSession :=
  ⟨nonzeroId rand, 0, 0, 0, zeroKey, false⟩

def mtprotoSessionRenewId (s : MtProtoSession) (rand : UInt64) : MtProtoSession :=
  { s with sessionId := nonzeroId rand, seqNo := 0, lastMsgId := 0 }

/-- The message id after `last`, at clock reading `now` with random word `low`: never at or below
`last`, and with the two low bits clear. -/
def msgIdAfter (last now : UInt64) (low : UInt32) : UInt64 :=
  let msgId := (now <<< 32) ||| (low.toUInt64 &&& 0xFFFFFFFC)
  let msgId := if msgId ≤ last then last + 4 else msgId
  msgId &&& ~~~3

def mtprotoSessionNextMsgId (s : MtProtoSession) (now : UInt64) (low : UInt32) :
    UInt64 × MtProtoSession :=
  (msgIdAfter s.lastMsgId now low, { s with lastMsgId := msgIdAfter s.lastMsgId now low })

def mtprotoSessionNextSeqNo (s : MtProtoSession) (contentRelated : Bool) :
    UInt32 × MtProtoSession :=
  if contentRelated then (s.seqNo * 2 + 1, { s with seqNo := s.seqNo + 1 }) else (s.seqNo * 2, s)

def mtprotoSessionSetAuthKey (s : MtProtoSession) (key : AuthKey) : MtProtoSession :=
  { s with authKey := key, hasAuthKey := true }

def mtprotoSessionSetSalt (s : MtProtoSession) (salt : UInt64) : MtProtoSession :=
  { s with serverSalt := salt }

/-! ## What counting a content-related message leaves alone -/

section Frame

variable (s : MtProtoSession) (c : Bool)

@[simp] theorem authKey_mtprotoSessionNextSeqNo :
    (mtprotoSessionNextSeqNo s c).2.authKey = s.authKey := by
  cases c <;> rfl

@[simp] theorem hasAuthKey_mtprotoSessionNextSeqNo :
    (mtprotoSessionNextSeqNo s c).2.hasAuthKey = s.hasAuthKey := by
  cases c <;> rfl

@[simp] theorem lastMsgId_mtprotoSessionNextSeqNo :
    (mtprotoSessionNextSeqNo s c).2.lastMsgId = s.lastMsgId := by
  cases c <;> rfl

end Frame

end TgCli.Core
