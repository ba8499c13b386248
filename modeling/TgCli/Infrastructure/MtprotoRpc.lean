import TgCli.Lib.Decimal
import TgCli.Core.TlSerial
import TgCli.Core.MtprotoSessionNumbers

/-!
# `infrastructure/mtproto_rpc.c`: envelopes around an RPC payload

The functions here take a frame apart: the unencrypted envelope of the key exchange, the
plaintext of an encrypted frame, `gzip_packed`, `msg_container`, `rpc_result` and `rpc_error`.

The decompressor `tinf_gzip_uncompress` is the argument `tinf` of `rpcUnwrapGzip`: a function of
the capacity of the output and of the compressed bytes.  The encryption of a frame is below this
file; `rpcRecvEncrypted` starts where `mtproto_decrypt` has accepted one.
-/

namespace TgCli.Infrastructure

open Lib TgCli.Core

/-! ## Constructors -/

def crcGzipPacked : UInt32 := 0x3072cfa1
def crcMsgContainer : UInt32 := 0x73f1f8dc
def crcRpcResult : UInt32 := 0xf35c6d01
def crcRpcError : UInt32 := 0x2144ca19

/-! ## Unencrypted messages -/

/-- The packet `rpc_send_unencrypted` hands to the transport. -/
def unencryptedPacket (msgId : UInt64) (data : Bytes) : Bytes :=
  u64Bytes 0 ++ u64Bytes msgId ++ u32Bytes (UInt32.ofNat data.length) ++ data

/-- What the outside contributes to one unencrypted request: the clock and the random word for the
message id, whether the send goes through, and the packet that answers. -/
structure Turn where
  now : UInt64
  low : UInt32
  goesOut : Bool
  reply : Option Bytes

/-- The session during an unencrypted exchange, with a trace of the packets sent. -/
structure Wire where
  session : MtProtoSession
  sent : List Bytes

def rpcSendUnencrypted (t : Turn) (w : Wire) (data : Bytes) : Bool × Wire :=
  let msgId := mtprotoSessionNextMsgId w.session t.now t.low
  (t.goesOut, ⟨msgId.2, w.sent ++ [unencryptedPacket msgId.1 data]⟩)

/-- `rpc_recv_unencrypted` on the transport packet it received; `none` is a failed receive. -/
def rpcRecvUnencrypted (packet : Option Bytes) (maxLen : ℕ) : Option Bytes := do
  let buf ← packet
  if buf.length < 20 then none
  let authKeyId := tlReadUint64 (tlReaderInit buf)
  let msgId := tlReadUint64 authKeyId.2
  let dataLen := tlReadUint32 msgId.2
  if dataLen.1.toNat > maxLen then none
  some (tlReadRaw dataLen.2 dataLen.1.toNat).1

/-! ## Encrypted messages -/

/-- The plaintext header of an encrypted message and its payload, before padding. -/
structure SentMsg where
  salt : UInt64
  sessionId : UInt64
  msgId : UInt64
  seqNo : UInt32
  data : Bytes
  deriving DecidableEq

/-- What the outside answers, each list in the order in which it is asked: the clock and the random
word for a message id, whether a send goes through, and the decrypted frames that arrive.  A list
that has run out answers with failure.  `sent` is a trace: every message handed to the transport. -/
structure Net where
  clock : List (UInt64 × UInt32)
  sends : List Bool
  frames : List (Option Bytes)
  sent : List SentMsg
  deriving DecidableEq

/-- The clock reading and random word that the next message id is made of. -/
def Net.clockHead (net : Net) : UInt64 × UInt32 :=
  net.clock.headD (0, 0)

/-- `rpc_send_encrypted`: whether the message went out, and the session that has counted it. -/
def rpcSendEncrypted (s : MtProtoSession) (net : Net) (data : Bytes) (contentRelated : Bool) :
    Bool × MtProtoSession × Net :=
  if !s.hasAuthKey then (false, s, net) else
  let msgId := mtprotoSessionNextMsgId s net.clockHead.1 net.clockHead.2
  let seqNo := mtprotoSessionNextSeqNo msgId.2 contentRelated
  (net.sends.headD false, seqNo.2,
    { clock := net.clock.tail, sends := net.sends.tail, frames := net.frames
      sent := net.sent ++ [⟨s.serverSalt, s.sessionId, msgId.1, seqNo.1, data⟩] })

/-- `rpc_recv_encrypted` from the point where the frame has been decrypted; `none` stands for a
failed receive, a foreign `auth_key_id` or a wrong `msg_key`.  The plaintext is `salt(8)`,
`session_id(8)`, `msg_id(8)`, `seq_no(4)`, `len(4)`, `data`. -/
def rpcRecvEncrypted (s : MtProtoSession) (plain : Option Bytes) (maxLen : ℕ) : Option Bytes := do
  if !s.hasAuthKey then none
  let decrypted ← plain
  if decrypted.length < 32 then none
  let salt := tlReadUint64 (tlReaderInit decrypted)
  let recvSessionId := tlReadUint64 salt.2
  if recvSessionId.1 ≠ s.sessionId then none
  let msgId := tlReadUint64 recvSessionId.2
  let seqNo := tlReadUint32 msgId.2
  let dataLen := tlReadUint32 seqNo.2
  if dataLen.1.toNat > maxLen then none
  some (tlReadRaw dataLen.2 dataLen.1.toNat).1

theorem rpcRecvEncrypted_none (s : MtProtoSession) (maxLen : ℕ) :
    rpcRecvEncrypted s none maxLen = none := by
  unfold rpcRecvEncrypted
  cases s.hasAuthKey <;> rfl

/-! ## `gzip_packed` -/

/-- `rpc_unwrap_gzip`: a payload that is not `gzip_packed` is copied unchanged. -/
def rpcUnwrapGzip (tinf : ℕ → Bytes → Option Bytes) (data : Bytes) (maxLen : ℕ) : Option Bytes :=
  if data.length < 4 ∨ u32At data 0 ≠ crcGzipPacked then
    if data.length > maxLen then none else some data
  else
    match (tlReadBytes (tlReadUint32 (tlReaderInit data)).2).1 with
    | none => none
    | some gz => if gz.length = 0 then none else tinf maxLen gz

/-! ## `msg_container` -/

/-- `RpcContainerMsg`; `body_len` is the length of `body`. -/
structure RpcContainerMsg where
  msgId : UInt64
  seqno : UInt32
  body : Bytes
  deriving DecidableEq

/-- The loop of `rpc_parse_container` over the `n` messages still to be read. -/
def parseContainerMsgs : ℕ → TlReader → Option (List RpcContainerMsg)
  | 0, _ => some []
  | n + 1, r =>
    let msgId := tlReadUint64 r
    let seqno := tlReadUint32 msgId.2
    let bodyLen := tlReadUint32 seqno.2
    let len := bodyLen.1.toNat
    let r' := bodyLen.2
    if !tlReaderOk r then none
    else if len % 4 ≠ 0 then none
    else if len > r'.left then none
    else
      (parseContainerMsgs n (tlReadSkip r' len)).map
        (⟨msgId.1, seqno.1, slice r'.data r'.pos len⟩ :: ·)

/-- `rpc_parse_container`: a frame that is not a container counts as one message. -/
def rpcParseContainer (data : Bytes) (maxMsgs : ℕ) : Option (List RpcContainerMsg) :=
  if data.length < 4 then none
  else if u32At data 0 ≠ crcMsgContainer then
    if maxMsgs < 1 then none else some [⟨0, 0, data⟩]
  else
    let msgCount := tlReadUint32 (tlReadUint32 (tlReaderInit data)).2
    if msgCount.1.toNat > maxMsgs then none else parseContainerMsgs msgCount.1.toNat msgCount.2

/-! ## `rpc_result` -/

/-- `rpc_unwrap_result`: the `req_msg_id` and the body of an `rpc_result`. -/
def rpcUnwrapResult (data : Bytes) : Option (UInt64 × Bytes) :=
  if data.length < 12 then none
  else if u32At data 0 ≠ crcRpcResult then none
  else some (u64At data 4, data.drop 12)

/-! ## `rpc_error` -/

/-- `RpcError`; `error_msg` is the text in its 128-byte array. -/
structure RpcError where
  errorCode : Int32
  errorMsg : Bytes
  migrateDc : Int32
  floodWaitSecs : Int32
  deriving DecidableEq

/-- What the callers of an RPC put into `err` before they ask. -/
def RpcError.reset : RpcError :=
  ⟨0, [], -1, 0⟩

def RpcError.zero : RpcError :=
  ⟨0, [], 0, 0⟩

def extractTrailingInt (msg : Bytes) : Int32 :=
  let digits := (msg.reverse.takeWhile isDigit).reverse
  if digits = [] then 0 else atoi digits

def migratePrefixes : List Bytes :=
  [ascii "PHONE_MIGRATE_", ascii "FILE_MIGRATE_", ascii "NETWORK_MIGRATE_", ascii "USER_MIGRATE_"]

/-- `rpc_parse_error`; `none` when the payload is no `rpc_error`. -/
def rpcParseError (data : Bytes) : Option RpcError :=
  if data.length < 4 then none
  else if u32At data 0 ≠ crcRpcError then none
  else
    let errorCode := tlReadInt32 (tlReadUint32 (tlReaderInit data)).2
    match (tlReadString errorCode.2).1 with
    | none => some { RpcError.reset with errorCode := errorCode.1 }
    | some msg =>
      let e : RpcError := { RpcError.reset with errorCode := errorCode.1, errorMsg := msg.take 127 }
      if migratePrefixes.any (·.isPrefixOf msg) then
        some { e with migrateDc := extractTrailingInt msg }
      else if (ascii "FLOOD_WAIT_").isPrefixOf msg then
        some { e with floodWaitSecs := extractTrailingInt msg }
      else some e

/-! ## Bodies of a container -/

variable {r : TlReader} {msgs : List RpcContainerMsg}

theorem pos_readFixed (n : ℕ) (h : r.pos ≤ r.data.length) :
    r.pos ≤ (readFixed r n).2.pos ∧ (readFixed r n).2.pos ≤ r.data.length := by
  by_cases hn : r.pos + n ≤ r.data.length
  · rw [readFixed_of_le hn, TlReader.pos_advance]
    omega
  · rw [readFixed_of_lt (by omega), TlReader.pos_toEnd]
    omega

theorem pos_tlReadUint32 (h : r.pos ≤ r.data.length) :
    r.pos ≤ (tlReadUint32 r).2.pos ∧ (tlReadUint32 r).2.pos ≤ r.data.length :=
  pos_readFixed 4 h

theorem pos_tlReadUint64 (h : r.pos ≤ r.data.length) :
    r.pos ≤ (tlReadUint64 r).2.pos ∧ (tlReadUint64 r).2.pos ≤ r.data.length :=
  pos_readFixed 8 h

theorem data_tlReadSkip (r : TlReader) (n : ℕ) : (tlReadSkip r n).data = r.data := by
  unfold tlReadSkip
  split <;> rfl

theorem pos_tlReadSkip (n : ℕ) (h : r.pos ≤ r.data.length) :
    r.pos ≤ (tlReadSkip r n).pos ∧ (tlReadSkip r n).pos ≤ r.data.length := by
  unfold tlReadSkip TlReader.len
  split
  · exact ⟨h, le_refl _⟩
  · rw [TlReader.pos_advance]
    omega

/-- **One turn of the container loop.**  It reads a header, which leaves the cursor at some `r'`
no earlier than `r`; the body is the slice at `r'`, and the loop goes on behind it. -/
theorem parseContainerMsgs_succ {n : ℕ} (hpos : r.pos ≤ r.data.length)
    (h : parseContainerMsgs (n + 1) r = some msgs) :
    ∃ (m : RpcContainerMsg) (ms : List RpcContainerMsg) (r' : TlReader) (len : ℕ),
      msgs = m :: ms ∧ r'.data = r.data ∧ r.pos ≤ r'.pos ∧ r'.pos ≤ r.data.length ∧
      m.body = slice r.data r'.pos len ∧ parseContainerMsgs n (tlReadSkip r' len) = some ms := by
  rw [parseContainerMsgs] at h
  set r1 := (tlReadUint64 r).2
  set r2 := (tlReadUint32 r1).2
  set r3 := (tlReadUint32 r2).2
  have hd1 : r1.data = r.data := data_tlReadUint64 r
  have hd2 : r2.data = r.data := (data_tlReadUint32 r1).trans hd1
  have hd3 : r3.data = r.data := (data_tlReadUint32 r2).trans hd2
  have hp1 : r.pos ≤ r1.pos ∧ r1.pos ≤ r.data.length := pos_tlReadUint64 hpos
  have hp2 : r1.pos ≤ r2.pos ∧ r2.pos ≤ r1.data.length :=
    pos_tlReadUint32 (by rw [hd1]; exact hp1.2)
  have hp3 : r2.pos ≤ r3.pos ∧ r3.pos ≤ r2.data.length :=
    pos_tlReadUint32 (by rw [hd2, ← hd1]; exact hp2.2)
  rw [hd1] at hp2
  rw [hd2] at hp3
  split_ifs at h
  obtain ⟨ms, hms, hcons⟩ := Option.map_eq_some_iff.mp h
  exact ⟨_, ms, r3, _, hcons.symm, hd3, by omega, hp3.2, congrArg (slice · _ _) hd3, hms⟩

theorem length_body_le_of_parseContainerMsgs (n : ℕ) (r : TlReader) (hpos : r.pos ≤ r.data.length)
    (h : parseContainerMsgs n r = some msgs) :
    ∀ m ∈ msgs, m.body.length ≤ r.data.length - r.pos := by
  induction n generalizing r msgs with
  | zero =>
    intro m hm
    rw [parseContainerMsgs, Option.some_inj] at h
    rw [← h] at hm
    exact absurd hm List.not_mem_nil
  | succ n ih =>
    obtain ⟨m₀, ms, r', len, rfl, hd, hle, hle', hbody, hrest⟩ := parseContainerMsgs_succ hpos h
    have hskip := pos_tlReadSkip (r := r') len (by rw [hd]; exact hle')
    intro m hm
    rcases List.mem_cons.mp hm with rfl | hm
    · rw [hbody, length_slice]
      omega
    · have hdata : (tlReadSkip r' len).data = r.data := (data_tlReadSkip r' len).trans hd
      have := ih (tlReadSkip r' len) (by rw [hdata, ← hd]; exact hskip.2) hrest m hm
      rw [hdata] at this
      omega

/-- **A message of a container is shorter than the container.**  This is what lets the
classification of frames recurse. -/
theorem length_body_lt_of_rpcParseContainer {data : Bytes} {maxMsgs : ℕ}
    (hcrc : u32At data 0 = crcMsgContainer)
    (h : rpcParseContainer data maxMsgs = some msgs) : ∀ m ∈ msgs, m.body.length < data.length := by
  intro m hm
  rw [rpcParseContainer] at h
  simp only at h
  split_ifs at h with hlen hc hmax
  · exact absurd hcrc hc
  · -- the constructor and the count take the first bytes, so the cursor is past the start
    have h0 : (tlReadUint32 (tlReaderInit data)).2 = (tlReaderInit data).advance 4 :=
      congrArg Prod.snd (readFixed_of_le (r := tlReaderInit data) (n := 4)
        (by show 0 + 4 ≤ data.length; omega))
    have hp := pos_tlReadUint32 (r := (tlReaderInit data).advance 4)
      (by show 0 + 4 ≤ data.length; omega)
    have h4 : ((tlReaderInit data).advance 4).pos = 4 := rfl
    rw [h0] at h
    have hbody := length_body_le_of_parseContainerMsgs _ _
      (by rw [data_tlReadUint32]; exact hp.2) h m hm
    rw [data_tlReadUint32] at hbody
    have hd : ((tlReaderInit data).advance 4).data = data := rfl
    rw [hd] at hbody hp
    omega

end TgCli.Infrastructure
