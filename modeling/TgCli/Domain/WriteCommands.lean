import TgCli.Domain.Self
import TgCli.Domain.Send

/-!
# `domain/write`: what a command makes the server do

A command is checked, written as a request into a buffer of its own, and sent with one call.  The
server reads the request by the schema (`readRequest`).

* A command that passes the checks always fits its buffer, so it is sent; the server reads exactly
  what the command says, and the outcome is the server's (`WriteCommand.sent_or_refused`).
* What a request has no field for is not sent: `revoke` for a channel, the peer for any other
  deletion, an answer to a message that is not positive (`WriteCommand.request`).
-/

namespace TgCli.Domain

open List Lib TgCli.Core Infrastructure Walk

/-! ## The functions -/

def crcMessagesEditMessage : UInt32 := 0x48f71778
def crcMessagesDeleteMessages : UInt32 := 0xe58e95d2
def crcChannelsDeleteMessages : UInt32 := 0x84c1fd4e
def crcMessagesForwardMessages : UInt32 := 0xc661bbc4
def crcMessagesReadHistory : UInt32 := 0x0e306d3a
def crcChannelsReadHistory : UInt32 := 0xcc104937

/-- What becomes of an answer; any constructor but `rpc_error` and those in `refused` will do. -/
def verdict (refused : UInt32 → Bool) : Option Bytes → Except (Option RpcError) Unit
  | none => .error none
  | some resp =>
    if resp.length < 4 then .error none
    else if u32At resp 0 = crcRpcError then .error (rpcParseError resp)
    else if refused (u32At resp 0) then .error none else .ok ()

/-- A request, if it fits its buffer, and its answer. -/
def callWith (api : Bytes → ℕ → Option Bytes) (query : Option Bytes) (respCap : ℕ)
    (refused : UInt32 → Bool) : Except (Option RpcError) Unit :=
  match query with
  | none => .error none
  | some query => verdict refused (api query respCap)

/-- The vectors of a request, written element by element. -/
def writeVector {α : Type} (write : TlWriter → α → TlWriter) (w : TlWriter) (xs : List α) :
    TlWriter :=
  xs.foldl write (tlWriteUint32 (tlWriteUint32 w tlVector) (UInt32.ofNat xs.length))

def domainEditMessage (api : Bytes → ℕ → Option Bytes) (peer : HistoryPeer) (msgId : Int32)
    (newText : Bytes) : Except (Option RpcError) Unit :=
  let mlen := (cstr newText).length
  if mlen = 0 ∨ mlen > 4096 then .error none
  else if msgId ≤ 0 then .error none
  else
    let w := tlWriteUint32 [] crcMessagesEditMessage
    let w := tlWriteUint32 w ((1 : UInt32) <<< 11)
    let w := writeInputPeer w peer
    let w := tlWriteInt32 w msgId
    let w := tlWriteString w newText
    callWith api (fitRequest 8192 w) 4096 fun _ => false

/-- The `inputChannel` of `delete.c` and `read_history.c`. -/
def writeInputChannel (w : TlWriter) (peer : HistoryPeer) : TlWriter :=
  tlWriteInt64 (tlWriteInt64 (tlWriteUint32 w crcInputChannel) peer.peerId) peer.accessHash

def domainDeleteMessages (api : Bytes → ℕ → Option Bytes) (peer : HistoryPeer) (ids : List Int32)
    (revoke : Bool) : Except (Option RpcError) Unit :=
  if ids.length = 0 ∨ ids.length > 100 then .error none
  else
    let w := if peer.kind = .channel then
        writeInputChannel (tlWriteUint32 [] crcChannelsDeleteMessages) peer
      else tlWriteUint32 (tlWriteUint32 [] crcMessagesDeleteMessages) (if revoke then 1 else 0)
    let w := writeVector tlWriteInt32 w ids
    callWith api (fitRequest 1024 w) 1024 fun _ => false

/-- `domain_forward_messages`, with the random id that is drawn for each message. -/
def domainForwardMessages (api : Bytes → ℕ → Option Bytes) (fromPeer toPeer : HistoryPeer)
    (ids : List (Int32 × Int64)) : Except (Option RpcError) Unit :=
  if ids.length = 0 ∨ ids.length > 100 then .error none
  else
    let w := tlWriteUint32 [] crcMessagesForwardMessages
    let w := tlWriteUint32 w 0
    let w := writeInputPeer w fromPeer
    let w := writeVector tlWriteInt32 w (ids.map Prod.fst)
    let w := writeVector tlWriteInt64 w (ids.map Prod.snd)
    let w := writeInputPeer w toPeer
    callWith api (fitRequest 2048 w) 4096 fun _ => false

def buildMessagesRequest (peer : HistoryPeer) (maxId : Int32) (cap : ℕ) : Option Bytes :=
  if peer.kind = .channel then none
  else fitRequest cap
    (tlWriteInt32 (writeInputPeer (tlWriteUint32 [] crcMessagesReadHistory) peer) maxId)

def buildChannelsRequest (peer : HistoryPeer) (maxId : Int32) (cap : ℕ) : Option Bytes :=
  fitRequest cap
    (tlWriteInt32 (writeInputChannel (tlWriteUint32 [] crcChannelsReadHistory) peer) maxId)

def domainMarkRead (api : Bytes → ℕ → Option Bytes) (peer : HistoryPeer) (maxId : Int32) :
    Except (Option RpcError) Unit :=
  let isChannel := peer.kind = .channel
  let query := if isChannel then buildChannelsRequest peer maxId 64
    else buildMessagesRequest peer maxId 64
  callWith api query 512 fun top => isChannel && top = tlBoolFalse

/-! ## Commands and requests -/

/-- A call of one of the functions. -/
inductive WriteCommand where
  | send (peer : HistoryPeer) (message : Bytes) (replyToMsgId : Int32) (randomId : Int64)
  | edit (peer : HistoryPeer) (msgId : Int32) (newText : Bytes)
  | delete (peer : HistoryPeer) (ids : List Int32) (revoke : Bool)
  | forward (fromPeer toPeer : HistoryPeer) (ids : List (Int32 × Int64))
  | markRead (peer : HistoryPeer) (maxId : Int32)

/-- What a server can be asked for. -/
inductive WriteRequest where
  | sendMessage (peer : HistoryPeer) (replyTo : Option Int32) (message : Bytes) (randomId : Int64)
  | editMessage (peer : HistoryPeer) (id : Int32) (message : Option Bytes)
  | deleteMessages (revoke : Bool) (ids : List Int32)
  | channelsDeleteMessages (id accessHash : Int64) (ids : List Int32)
  | forwardMessages (fromPeer : HistoryPeer) (ids : List Int32) (randomIds : List Int64)
      (toPeer : HistoryPeer)
  | readHistory (peer : HistoryPeer) (maxId : Int32)
  | channelsReadHistory (id accessHash : Int64) (maxId : Int32)

/-- A peer with the fields that its kind has in a request. -/
def HistoryPeer.sent (p : HistoryPeer) : HistoryPeer :=
  match p.kind with
  | .self => ⟨.self, 0, 0⟩
  | .chat => ⟨.chat, p.peerId, 0⟩
  | _ => p

namespace WriteCommand

def run (api : Bytes → ℕ → Option Bytes) : WriteCommand → Except (Option RpcError) Unit
  | send peer message reply randomId =>
    (domainSendMessageReply api randomId peer message reply).map fun _ => ()
  | edit peer msgId newText => domainEditMessage api peer msgId newText
  | delete peer ids revoke => domainDeleteMessages api peer ids revoke
  | forward fromPeer toPeer ids => domainForwardMessages api fromPeer toPeer ids
  | markRead peer maxId => domainMarkRead api peer maxId

/-- The checks: a text of up to 4096 bytes, a positive id, up to a hundred messages. -/
def Valid : WriteCommand → Prop
  | send _ message _ _ => 0 < (cstr message).length ∧ (cstr message).length ≤ 4096
  | edit _ msgId newText =>
    (0 < (cstr newText).length ∧ (cstr newText).length ≤ 4096) ∧ 0 < msgId
  | delete _ ids _ => 0 < ids.length ∧ ids.length ≤ 100
  | forward _ _ ids => 0 < ids.length ∧ ids.length ≤ 100
  | markRead _ _ => True

/-- What the command asks for. -/
def request : WriteCommand → WriteRequest
  | send peer message reply randomId =>
    .sendMessage peer.sent (if reply > 0 then some reply else none) (cstr message) randomId
  | edit peer msgId newText => .editMessage peer.sent msgId (some (cstr newText))
  | delete peer ids revoke =>
    if peer.kind = .channel then .channelsDeleteMessages peer.peerId peer.accessHash ids
    else .deleteMessages revoke ids
  | forward fromPeer toPeer ids =>
    .forwardMessages fromPeer.sent (ids.map Prod.fst) (ids.map Prod.snd) toPeer.sent
  | markRead peer maxId =>
    if peer.kind = .channel then .channelsReadHistory peer.peerId peer.accessHash maxId
    else .readHistory peer.sent maxId

/-- An answer that is no error and counts as one all the same. -/
def refused : WriteCommand → UInt32 → Bool
  | markRead peer _, top => peer.kind = .channel && top = tlBoolFalse
  | _, _ => false

end WriteCommand

/-! ## How the server reads a request -/

def readInputPeer : Walk HistoryPeer := do
  let crc ← u32
  if crc = tlInputPeerSelf then pure ⟨.self, 0, 0⟩
  else if crc = tlInputPeerChat then return ⟨.chat, ← i64, 0⟩
  else do
    ensure (crc = tlInputPeerUser ∨ crc = tlInputPeerChannel)
    return ⟨if crc = tlInputPeerUser then .user else .channel, ← i64, ← i64⟩

/-- The id and the access hash of an `inputChannel`. -/
def readInputChannel : Walk (Int64 × Int64) := do
  let crc ← u32
  ensure (crc = crcInputChannel)
  return (← i64, ← i64)

/-- `n` values one after the other. -/
def readMany {α : Type} (w : Walk α) : ℕ → Walk (List α)
  | 0 => pure []
  | n + 1 => return (← w) :: (← readMany w n)

def readVectorOf {α : Type} (w : Walk α) : Walk (List α) := do
  let ctor ← u32
  ensure (ctor = tlVector)
  readMany w (← u32).toNat

/-- A field that is there if its flag is set. -/
def readOpt {α : Type} (c : Bool) (w : Walk α) : Walk (Option α) :=
  if c then return some (← w) else pure none

/-- The id of the message that is answered. -/
def readReplyTo : Walk Int32 := do
  let crc ← u32
  ensure (crc = crcSentReplyToMessage)
  let _ ← u32
  i32

/-- A request by the schema, less the optional fields that no command writes. -/
def readRequest : Walk WriteRequest := do
  let crc ← u32
  if crc = crcMessagesSendMessage then
    let flags ← u32
    return .sendMessage (← readInputPeer) (← readOpt (hasFlag flags 0) readReplyTo) (← str)
      (← i64)
  else if crc = crcMessagesEditMessage then
    let flags ← u32
    return .editMessage (← readInputPeer) (← i32) (← readOpt (hasFlag flags 11) str)
  else if crc = crcMessagesDeleteMessages then
    let flags ← u32
    return .deleteMessages (hasFlag flags 0) (← readVectorOf i32)
  else if crc = crcChannelsDeleteMessages then
    let channel ← readInputChannel
    return .channelsDeleteMessages channel.1 channel.2 (← readVectorOf i32)
  else if crc = crcMessagesForwardMessages then
    let _ ← u32
    return .forwardMessages (← readInputPeer) (← readVectorOf i32) (← readVectorOf i64)
      (← readInputPeer)
  else if crc = crcMessagesReadHistory then
    return .readHistory (← readInputPeer) (← i32)
  else do
    ensure (crc = crcChannelsReadHistory)
    let channel ← readInputChannel
    return .channelsReadHistory channel.1 channel.2 (← i32)

/-! ## The request of every command -/

theorem reads_readInputPeer (p : HistoryPeer) : Reads readInputPeer (inputPeerBytes p) p.sent := by
  rcases p with ⟨_ | _ | _ | _, id, hash⟩
  · exact (Reads.u32 tlInputPeerSelf).last (Reads.pure _)
  · rw [inputPeerBytes_user]
    exact (Reads.u32 tlInputPeerUser).bind (Reads.ensure (.inl rfl)
      ((Reads.i64 id).bind ((Reads.i64 hash).last (Reads.pure _))))
  · exact (Reads.u32 tlInputPeerChat).bind ((Reads.i64 id).last (Reads.pure _))
  · rw [inputPeerBytes_channel]
    exact (Reads.u32 tlInputPeerChannel).bind (Reads.ensure (.inr rfl)
      ((Reads.i64 id).bind ((Reads.i64 hash).last (Reads.pure _))))

def inputChannelBytes (p : HistoryPeer) : Bytes :=
  u32Bytes crcInputChannel ++ (u64Bytes p.peerId.toUInt64 ++ u64Bytes p.accessHash.toUInt64)

theorem writeInputChannel_eq (w : TlWriter) (p : HistoryPeer) :
    writeInputChannel w p = w ++ inputChannelBytes p := by
  simp only [writeInputChannel, inputChannelBytes, tlWriteInt64, tlWriteUint64, tlWriteUint32,
    append_assoc]

theorem length_inputChannelBytes (p : HistoryPeer) : (inputChannelBytes p).length = 20 := by
  simp only [inputChannelBytes, length_append, length_u32Bytes, length_u64Bytes]

theorem reads_readInputChannel (p : HistoryPeer) :
    Reads readInputChannel (inputChannelBytes p) (p.peerId, p.accessHash) :=
  (Reads.u32 crcInputChannel).bind (Reads.ensure rfl
    ((Reads.i64 p.peerId).bind ((Reads.i64 p.accessHash).last (Reads.pure _))))

section Vector

variable {α : Type} {w : Walk α} {f : α → Bytes}

theorem reads_readMany (hw : ∀ x, Reads w (f x) x) (xs : List α) :
    Reads (readMany w xs.length) (xs.flatMap f) xs := by
  induction xs with
  | nil => exact Reads.pure []
  | cons x xs ih =>
    rw [flatMap_cons]
    exact (hw x).bind (ih.last (Reads.pure _))

def vectorOf (f : α → Bytes) (xs : List α) : Bytes :=
  u32Bytes tlVector ++ (u32Bytes (UInt32.ofNat xs.length) ++ xs.flatMap f)

theorem writeVector_eq {write : TlWriter → α → TlWriter} (hwrite : ∀ w x, write w x = w ++ f x)
    (w : TlWriter) (xs : List α) : writeVector write w xs = w ++ vectorOf f xs := by
  have hfold (w : TlWriter) : xs.foldl write w = w ++ xs.flatMap f := by
    induction xs generalizing w with
    | nil => exact (append_nil w).symm
    | cons x xs ih => rw [foldl_cons, ih, hwrite, append_assoc, flatMap_cons]
  simp only [writeVector, hfold, vectorOf, tlWriteUint32, append_assoc]

theorem reads_readVectorOf (hw : ∀ x, Reads w (f x) x) {xs : List α} (hlen : xs.length ≤ 100) :
    Reads (readVectorOf w) (vectorOf f xs) xs := by
  have hn : (UInt32.ofNat xs.length).toNat = xs.length :=
    UInt32.toNat_ofNat_of_lt' (lt_of_le_of_lt hlen (by decide))
  refine (Reads.u32 tlVector).bind (Reads.ensure rfl ((Reads.u32 _).bind ?_))
  rw [hn]
  exact reads_readMany hw xs

theorem length_vectorOf {k : ℕ} (hf : ∀ x, (f x).length = k) (xs : List α) :
    (vectorOf f xs).length = 8 + xs.length * k := by
  rw [vectorOf, length_append, length_append, length_u32Bytes, length_u32Bytes,
    length_flatMap_const hf]
  omega

end Vector

theorem writeVector_int32 (w : TlWriter) (ids : List Int32) :
    writeVector tlWriteInt32 w ids = w ++ vectorOf (fun id => u32Bytes id.toUInt32) ids :=
  writeVector_eq (fun _ _ => rfl) w ids

theorem writeVector_int64 (w : TlWriter) (xs : List Int64) :
    writeVector tlWriteInt64 w xs = w ++ vectorOf (fun x => u64Bytes x.toUInt64) xs :=
  writeVector_eq (fun _ _ => rfl) w xs

theorem reads_text {t : Bytes} (h : (cstr t).length ≤ 4096) :
    Reads str (tlBytes (cstr t)) (cstr t) := by
  have hread := TlString.reads_str ⟨cstr t, by omega⟩
  rwa [cstr_cstr] at hread

theorem length_text {t : Bytes} (h : (cstr t).length ≤ 4096) :
    (tlBytes (cstr t)).length ≤ 4104 := by
  rw [length_tlBytes]
  split_ifs <;> omega

theorem reads_readOpt {α : Type} {c : Bool} {w : Walk α} {b : Bytes} {a : α} (hc : c = true)
    (hw : Reads w b a) : Reads (readOpt c w) b (some a) := by
  rw [readOpt, if_pos hc]
  exact hw.last (Reads.pure _)

theorem reads_readReplyTo (id : Int32) : Reads readReplyTo (replyToBytes id) id :=
  (Reads.u32 crcSentReplyToMessage).bind (Reads.ensure rfl ((Reads.u32 0).bind (Reads.i32 id)))

theorem map_readSentId (resp : Bytes) (randomId : Int64) :
    ((readSentId resp randomId).map fun _ => ()) = verdict (fun _ => false) (some resp) := by
  unfold readSentId verdict
  dsimp only
  split_ifs <;> first | rfl | contradiction

namespace WriteCommand

variable {c : WriteCommand}

/-- The command is sent, read as what it asks for, and ends as the answer says. -/
def Sent (c : WriteCommand) : Prop :=
  ∃ q cap, Reads readRequest q c.request ∧ ∀ api, c.run api = verdict c.refused (api q cap)

theorem sent_of_fits (cap respCap : ℕ) {b : Bytes} {r : WriteRequest} (hreq : c.request = r)
    (hreads : Reads readRequest b r) (hlen : b.length ≤ cap)
    (hrun : ∀ api, c.run api = callWith api (fitRequest cap b) respCap c.refused) : c.Sent := by
  refine ⟨b, respCap, hreq ▸ hreads, fun api => ?_⟩
  rw [hrun, fitRequest, if_pos hlen]
  rfl

theorem sent_edit {peer : HistoryPeer} {msgId : Int32} {newText : Bytes}
    (h : (edit peer msgId newText).Valid) : (edit peer msgId newText).Sent := by
  obtain ⟨⟨hpos, hlen⟩, hid⟩ := h
  refine sent_of_fits 8192 4096 rfl ((Reads.u32 crcMessagesEditMessage).bind ((Reads.u32 0x800).bind
    ((reads_readInputPeer peer).bind ((Reads.i32 msgId).bind
      ((reads_readOpt rfl (reads_text hlen)).last (Reads.pure _)))))) ?_ fun api => ?_
  · have hpeer := (length_inputPeerBytes peer).2
    have htext := length_text hlen
    simp only [length_append, length_u32Bytes]
    omega
  · simp only [run, domainEditMessage]
    rw [if_neg (by omega), if_neg (Int32.not_le.2 hid)]
    simp only [tlWriteUint32, tlWriteInt32, tlWriteString, tlWriteBytes_eq, writeInputPeer_eq,
      append_assoc, nil_append]
    rfl

theorem sent_delete {peer : HistoryPeer} {ids : List Int32} {revoke : Bool}
    (h : (delete peer ids revoke).Valid) : (delete peer ids revoke).Sent := by
  obtain ⟨hpos, hlen⟩ := h
  have hvec := reads_readVectorOf Reads.i32 hlen
  have hbytes := length_vectorOf (fun id : Int32 => length_u32Bytes id.toUInt32) ids
  by_cases hk : peer.kind = .channel
  · refine sent_of_fits 1024 1024 (if_pos hk) ((Reads.u32 crcChannelsDeleteMessages).bind
      ((reads_readInputChannel peer).bind (hvec.last (Reads.pure _)))) ?_ fun api => ?_
    · rw [length_append, length_append, length_u32Bytes, length_inputChannelBytes, hbytes]
      omega
    · simp only [run, domainDeleteMessages]
      rw [if_neg (by omega), if_pos hk]
      simp only [writeVector_int32, writeInputChannel_eq, tlWriteUint32, append_assoc, nil_append]
      rfl
  · have hflag : hasFlag (if revoke then 1 else 0) 0 = revoke := by cases revoke <;> rfl
    refine sent_of_fits 1024 1024
      ((if_neg hk).trans (congrArg (WriteRequest.deleteMessages · ids) hflag.symm))
      ((Reads.u32 crcMessagesDeleteMessages).bind ((Reads.u32 _).bind
        (hvec.last (Reads.pure _)))) ?_ fun api => ?_
    · rw [length_append, length_append, length_u32Bytes, length_u32Bytes, hbytes]
      omega
    · simp only [run, domainDeleteMessages]
      rw [if_neg (by omega), if_neg hk]
      simp only [writeVector_int32, tlWriteUint32, append_assoc, nil_append]
      rfl

theorem sent_forward {fromPeer toPeer : HistoryPeer} {ids : List (Int32 × Int64)}
    (h : (forward fromPeer toPeer ids).Valid) : (forward fromPeer toPeer ids).Sent := by
  obtain ⟨hpos, hlen⟩ := h
  have hids : (ids.map Prod.fst).length ≤ 100 := by rwa [length_map]
  have hrnd : (ids.map Prod.snd).length ≤ 100 := by rwa [length_map]
  refine sent_of_fits 2048 4096 rfl ((Reads.u32 crcMessagesForwardMessages).bind ((Reads.u32 0).bind
    ((reads_readInputPeer fromPeer).bind ((reads_readVectorOf Reads.i32 hids).bind
      ((reads_readVectorOf Reads.i64 hrnd).bind
        ((reads_readInputPeer toPeer).last (Reads.pure _))))))) ?_ fun api => ?_
  · have hfrom := (length_inputPeerBytes fromPeer).2
    have hto := (length_inputPeerBytes toPeer).2
    simp only [length_append, length_u32Bytes, length_map,
      length_vectorOf (fun id : Int32 => length_u32Bytes id.toUInt32),
      length_vectorOf (fun x : Int64 => length_u64Bytes x.toUInt64)]
    omega
  · simp only [run, domainForwardMessages]
    rw [if_neg (by omega)]
    simp only [writeVector_int32, writeVector_int64, writeInputPeer_eq, tlWriteUint32, append_assoc,
      nil_append]
    rfl

theorem sent_markRead (peer : HistoryPeer) (maxId : Int32) : (markRead peer maxId).Sent := by
  by_cases hk : peer.kind = .channel
  · refine sent_of_fits 64 512 (if_pos hk) ((Reads.u32 crcChannelsReadHistory).bind
      (Reads.ensure rfl ((reads_readInputChannel peer).bind ((Reads.i32 maxId).last
        (Reads.pure _))))) ?_ fun api => ?_
    · rw [length_append, length_append, length_inputChannelBytes]
      exact Nat.le_add_left _ 36
    · simp only [run, domainMarkRead, buildChannelsRequest]
      rw [if_pos hk, writeInputChannel_eq, tlWriteInt32, tlWriteUint32, append_assoc]
      rfl
  · refine sent_of_fits 64 512 (if_neg hk) ((Reads.u32 crcMessagesReadHistory).bind
      ((reads_readInputPeer peer).bind ((Reads.i32 maxId).last (Reads.pure _)))) ?_ fun api => ?_
    · have hpeer := (length_inputPeerBytes peer).2
      simp only [length_append, length_u32Bytes]
      omega
    · simp only [run, domainMarkRead, buildMessagesRequest]
      rw [if_neg hk, if_neg hk, writeInputPeer_eq, tlWriteInt32, tlWriteUint32, append_assoc]
      rfl

theorem run_send {peer : HistoryPeer} {message : Bytes} {reply : Int32} {randomId : Int64}
    (h : (send peer message reply randomId).Valid) (api : Bytes → ℕ → Option Bytes) :
    (send peer message reply randomId).run api =
      callWith api (buildSendRequest peer message reply randomId) 8192 fun _ => false := by
  obtain ⟨hpos, hlen⟩ := h
  rw [run, domainSendMessageReply, if_neg (by omega)]
  rcases buildSendRequest peer message reply randomId with _ | q
  · rfl
  · rcases hresp : api q 8192 with _ | resp
    · simp only [callWith, hresp]
      rfl
    · simp only [callWith, hresp]
      exact map_readSentId resp randomId

theorem sent_send {peer : HistoryPeer} {message : Bytes} {reply : Int32} {randomId : Int64}
    (h : (send peer message reply randomId).Valid) : (send peer message reply randomId).Sent := by
  have hpeer := (length_inputPeerBytes peer).2
  have htext := length_text h.2
  by_cases hr : reply > 0
  · refine sent_of_fits 8192 8192 (congrArg (WriteRequest.sendMessage peer.sent · _ _) (if_pos hr))
      ((Reads.u32 crcMessagesSendMessage).bind ((Reads.u32 1).bind
        ((reads_readInputPeer peer).bind ((reads_readOpt rfl (reads_readReplyTo reply)).bind
          ((reads_text h.2).bind ((Reads.i64 randomId).last (Reads.pure _))))))) ?_ fun api => ?_
    · simp only [length_append, length_u32Bytes, length_u64Bytes, replyToBytes]
      omega
    · rw [run_send h, buildSendRequest]
      simp only [if_pos hr, tlWriteUint32, tlWriteInt64, tlWriteUint64, tlWriteString,
        tlWriteBytes_eq, writeInputPeer_eq, writeReplyTo_eq, append_assoc, nil_append]
      rfl
  · refine sent_of_fits 8192 8192 (congrArg (WriteRequest.sendMessage peer.sent · _ _) (if_neg hr))
      ((Reads.u32 crcMessagesSendMessage).bind ((Reads.u32 0).bind
        ((reads_readInputPeer peer).bind ((Reads.pure none).bind
          ((reads_text h.2).bind ((Reads.i64 randomId).last (Reads.pure _))))))) ?_ fun api => ?_
    · simp only [length_append, length_u32Bytes, length_u64Bytes, length_nil]
      omega
    · rw [run_send h, buildSendRequest]
      simp only [if_neg hr, tlWriteUint32, tlWriteInt64, tlWriteUint64, tlWriteString,
        tlWriteBytes_eq, writeInputPeer_eq, append_assoc, nil_append]
      rfl

theorem run_of_not_valid (h : ¬c.Valid) (api : Bytes → ℕ → Option Bytes) :
    c.run api = .error none := by
  cases c with
  | send peer message reply randomId =>
    rw [run, domainSendMessageReply, if_pos (by simp only [Valid] at h; omega)]
    rfl
  | edit peer msgId newText =>
    rw [run, domainEditMessage]
    dsimp only
    split_ifs with hlen hid
    · rfl
    · rfl
    · exact absurd ⟨by omega, Int32.not_le.1 hid⟩ h
  | delete peer ids revoke =>
    rw [run, domainDeleteMessages, if_pos (by simp only [Valid] at h; omega)]
  | forward fromPeer toPeer ids =>
    rw [run, domainForwardMessages, if_pos (by simp only [Valid] at h; omega)]
  | markRead peer maxId => exact absurd trivial h

/-- **A command is refused before anything is sent, or it is sent and asks for just that.**  No
buffer is too small for a command that passes the checks. -/
theorem sent_or_refused (c : WriteCommand) :
    c.Valid ∧ c.Sent ∨ ¬c.Valid ∧ ∀ api, c.run api = .error none := by
  by_cases h : c.Valid
  · refine .inl ⟨h, ?_⟩
    cases c with
    | send _ _ _ _ => exact sent_send h
    | edit _ _ _ => exact sent_edit h
    | delete _ _ _ => exact sent_delete h
    | forward _ _ _ => exact sent_forward h
    | markRead peer maxId => exact sent_markRead peer maxId
  · exact .inr ⟨h, run_of_not_valid h⟩

end WriteCommand

end TgCli.Domain
