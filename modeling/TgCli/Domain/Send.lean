import TgCli.Domain.HistoryFetch
import TgCli.Core.TlSkip.Draft
import TgCli.Core.TlSkip.Reading

/-!
# `domain/write/send.c`, and reading back what the client writes

A message is sent to an `InputPeer`, and a reply names the message it answers by an
`inputReplyToMessage`.  Both types come back from the server: a draft is made of them, and
`tl_skip_draft_message` has to walk over them to get to the rest of a dialog.

The writers take their constructors from `tl_registry.h` and from `send.c`, the walkers have their
own in `tl_skip.c`.  For `inputPeerUser` and for `inputReplyToMessage` the numbers are not the same,
so what the client writes is for the walker an unknown constructor.  `ClientRecord.passed_iff` says
for everything that is written whether it is walked over; the rest of the layout agrees.
-/

namespace TgCli.Domain

open List Lib TgCli.Core Infrastructure

/-! ## Constructors -/

def crcMessagesSendMessage : UInt32 := 0x0d9d75a4
def crcUpdateShortSentMessage : UInt32 := 0x9015e101
def crcUpdateMessageID : UInt32 := 0x4e90bfd6
def tlUpdates : UInt32 := 0x74ae4240
def tlUpdatesCombined : UInt32 := 0x725b04c3

def crcSentReplyToMessage : UInt32 := 0x22c0f6d5

/-! ## Sending a message -/

def writeReplyTo (w : TlWriter) (replyToMsgId : Int32) : TlWriter :=
  let w := tlWriteUint32 w crcSentReplyToMessage
  let w := tlWriteUint32 w 0
  tlWriteInt32 w replyToMsgId

/-- The query of `domain_send_message_reply`. -/
def buildSendRequest (peer : HistoryPeer) (message : Bytes) (replyToMsgId : Int32)
    (randomId : Int64) : Option Bytes :=
  let w := tlWriteUint32 [] crcMessagesSendMessage
  let w := tlWriteUint32 w (if replyToMsgId > 0 then 1 else 0)
  let w := writeInputPeer w peer
  let w := if replyToMsgId > 0 then writeReplyTo w replyToMsgId else w
  let w := tlWriteString w message
  let w := tlWriteInt64 w randomId
  fitRequest 8192 w

/-- The scan for the `updateMessageID` with the random id: at every byte, whatever stands there. -/
def findMessageId (resp : Bytes) (randomId : Int64) : Option Int32 :=
  ((List.range (resp.length - 15)).find? fun i =>
    u32At resp i = crcUpdateMessageID ∧ (u64At resp (i + 8)).toInt64 = randomId).map fun i =>
      (u32At resp (i + 4)).toInt32

/-- The id of the message that was sent, as far as the answer gives it; otherwise 0. -/
def readSentId (resp : Bytes) (randomId : Int64) : Except (Option RpcError) Int32 :=
  if resp.length < 4 then .error none
  else
    let top := u32At resp 0
    if top = crcRpcError then .error (rpcParseError resp)
    else if top = crcUpdateShortSentMessage then
      let r := (tlReadUint32 (tlReadUint32 (tlReaderInit resp)).2).2
      .ok (if tlReaderOk r ∧ r.left ≥ 4 then (tlReadInt32 r).1 else 0)
    else if top = tlUpdates ∨ top = tlUpdatesCombined then
      .ok ((findMessageId resp randomId).getD 0)
    else .ok 0

/-- `domain_send_message_reply`.  The random id is drawn before anything is written. -/
def domainSendMessageReply (api : Bytes → ℕ → Option Bytes) (randomId : Int64) (peer : HistoryPeer)
    (message : Bytes) (replyToMsgId : Int32) : Except (Option RpcError) Int32 :=
  let mlen := (cstr message).length
  if mlen = 0 ∨ mlen > 4096 then .error none else
  match buildSendRequest peer message replyToMsgId randomId with
  | none => .error none
  | some query =>
    match api query 8192 with
    | none => .error none
    | some resp => readSentId resp randomId

def domainSendMessage (api : Bytes → ℕ → Option Bytes) (randomId : Int64) (peer : HistoryPeer)
    (message : Bytes) : Except (Option RpcError) Int32 :=
  domainSendMessageReply api randomId peer message 0

/-! ## What the client writes and what its walkers take -/

/-- An object of a request whose type may also stand in a draft. -/
inductive ClientRecord where
  | peer (p : HistoryPeer)
  | replyTo (replyToMsgId : Int32) (pos : 0 < replyToMsgId)

namespace ClientRecord

def write (w : TlWriter) : ClientRecord → TlWriter
  | peer p => writeInputPeer w p
  | replyTo id _ => writeReplyTo w id

def walker : ClientRecord → Skipper
  | peer _ => skipInputPeer
  | replyTo _ _ => skipInputReplyTo

/-- The walker accepts what the client writes behind `w`, and stops at its end. -/
def Passed (x : ClientRecord) (w : TlWriter) (suffix : Bytes) : Prop :=
  x.walker.run ⟨x.write w ++ suffix, w.length⟩ = some ⟨x.write w ++ suffix, (x.write w).length⟩

def Agreed : ClientRecord → Prop
  | peer p => p.kind ≠ .user
  | replyTo _ _ => False

end ClientRecord

section Passing

open Walk

def inputPeerBytes (p : HistoryPeer) : Bytes :=
  writeInputPeer [] p

theorem inputPeerBytes_self (id hash : Int64) :
    inputPeerBytes ⟨.self, id, hash⟩ = u32Bytes tlInputPeerSelf :=
  rfl

theorem inputPeerBytes_chat (id hash : Int64) :
    inputPeerBytes ⟨.chat, id, hash⟩ = u32Bytes tlInputPeerChat ++ u64Bytes id.toUInt64 :=
  rfl

theorem inputPeerBytes_user (id hash : Int64) :
    inputPeerBytes ⟨.user, id, hash⟩ =
      u32Bytes tlInputPeerUser ++ (u64Bytes id.toUInt64 ++ u64Bytes hash.toUInt64) :=
  append_assoc _ _ _

theorem inputPeerBytes_channel (id hash : Int64) :
    inputPeerBytes ⟨.channel, id, hash⟩ =
      u32Bytes tlInputPeerChannel ++ (u64Bytes id.toUInt64 ++ u64Bytes hash.toUInt64) :=
  append_assoc _ _ _

theorem writeInputPeer_eq (w : TlWriter) (p : HistoryPeer) :
    writeInputPeer w p = w ++ inputPeerBytes p := by
  rw [inputPeerBytes, writeInputPeer, writeInputPeer]
  rcases p.kind with _ | _ | _ | _ <;>
    simp only [tlWriteUint32, tlWriteInt64, tlWriteUint64, append_assoc, nil_append]

theorem reads_skipInputPeer {p : HistoryPeer} (h : p.kind ≠ .user) :
    Reads (skip skipInputPeer.run) (inputPeerBytes p) () := by
  rw [skipInputPeer, Skipper.skip_fix]
  rcases p with ⟨_ | _ | _ | _, id, hash⟩
  · rw [inputPeerBytes_self]
    exact Reads.enter ((Reads.u32 _).last (Reads.pure ())) (by decide) (by decide)
  · exact absurd rfl h
  · rw [inputPeerBytes_chat]
    refine Reads.enter ((Reads.u32 tlInputPeerChat).bind ?_) ?_ (by decide)
    · exact Reads.need (Reads.drop64 id) (length_u64Bytes _).ge
    · rw [length_append, length_u32Bytes]
      omega
  · rw [inputPeerBytes_channel]
    refine Reads.enter ((Reads.u32 tlInputPeerChannel).bind ?_) ?_ (by decide)
    · refine Reads.need ((Reads.drop64 id).bind (Reads.drop64 hash)) ?_
      rw [length_append, length_u64Bytes, length_u64Bytes]
    · rw [length_append, length_u32Bytes]
      omega

theorem length_inputPeerBytes (p : HistoryPeer) :
    4 ∣ (inputPeerBytes p).length ∧ (inputPeerBytes p).length ≤ 20 := by
  rw [inputPeerBytes, writeInputPeer]
  rcases p.kind with _ | _ | _ | _ <;>
    simp only [tlWriteUint32, tlWriteInt64, tlWriteUint64, length_append, length_nil,
      length_u32Bytes, length_u64Bytes] <;>
    decide

theorem skipInputPeer_user {p : HistoryPeer} (h : p.kind = .user) (w t : Bytes) :
    skipInputPeer.run ⟨w ++ (inputPeerBytes p ++ t), w.length⟩ = none := by
  obtain ⟨kind, id, hash⟩ := p
  obtain rfl : kind = .user := h
  rw [inputPeerBytes_user, append_assoc]
  exact skipInputPeer.run_of_refused (Skipper.skip_fix _) rfl (TlReader.rest_append w _)

def replyToBytes (replyToMsgId : Int32) : Bytes :=
  u32Bytes crcSentReplyToMessage ++ (u32Bytes 0 ++ u32Bytes replyToMsgId.toUInt32)

theorem writeReplyTo_eq (w : TlWriter) (id : Int32) : writeReplyTo w id = w ++ replyToBytes id := by
  simp only [writeReplyTo, replyToBytes, tlWriteUint32, tlWriteInt32, append_assoc]

theorem skipInputReplyTo_sent (id : Int32) (w t : Bytes) :
    skipInputReplyTo.run ⟨w ++ (replyToBytes id ++ t), w.length⟩ = none := by
  rw [replyToBytes, append_assoc]
  exact skipInputReplyTo.run_of_refused (by rw [skipInputReplyTo, Skipper.skip_of]) rfl
    (TlReader.rest_append w _)

/-- **What is written and read back.**  The walker of a type accepts what the client writes, behind
whatever was written before and in front of whatever follows, exactly if it is a peer that is not a
user. -/
theorem ClientRecord.passed_iff (x : ClientRecord) (w : TlWriter) (suffix : Bytes) :
    x.Passed w suffix ↔ x.Agreed := by
  cases x with
  | peer p =>
    show skipInputPeer.run ⟨writeInputPeer w p ++ suffix, w.length⟩ =
      some ⟨writeInputPeer w p ++ suffix, (writeInputPeer w p).length⟩ ↔ p.kind ≠ .user
    rw [writeInputPeer_eq, append_assoc, length_append]
    constructor
    · intro hpass hkind
      rw [skipInputPeer_user hkind] at hpass
      exact absurd hpass.symm (Option.some_ne_none _)
    · intro hkind
      exact skipInputPeer.run_at (reads_skipInputPeer hkind) (length_inputPeerBytes p).1 w suffix
  | replyTo id pos =>
    show skipInputReplyTo.run ⟨writeReplyTo w id ++ suffix, w.length⟩ =
      some ⟨writeReplyTo w id ++ suffix, (writeReplyTo w id).length⟩ ↔ False
    refine ⟨fun hpass => ?_, False.elim⟩
    rw [writeReplyTo_eq, append_assoc, skipInputReplyTo_sent id] at hpass
    exact absurd hpass.symm (Option.some_ne_none _)

/-- The peer of a conversation with the user 7. -/
theorem userPeer_refused :
    ¬ ∀ (x : ClientRecord) (w : TlWriter) (suffix : Bytes), x.Passed w suffix := by
  intro h
  have hpass := h (.peer ⟨.user, 7, 9⟩) [] []
  have hnone : skipInputPeer.run ⟨writeInputPeer [] ⟨.user, 7, 9⟩ ++ [], 0⟩ = none := by
    decide +kernel
  exact absurd (hpass.symm.trans hnone) (Option.some_ne_none _)

end Passing

end TgCli.Domain
