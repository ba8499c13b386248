import TgCli.Infrastructure.MtprotoAuthHonest

/-!
# Agreement on the key

The client of `mtproto_auth.c` and a server that follows the protocol, joined by the wire.  An
exchange fixes the packets that come back to the client; `AnsweredBy` says that each of them is what
the server returns for the packets the client has sent by then.

The replies are found one after the other: what the client sends first depends on no reply, what it
sends next on the first, and so on (`answeredBy_iff`).  With the three replies known, the client's
run is known to its end, and so is the server's.
-/

namespace TgCli.Infrastructure

open Option List Lib TgCli.Core

/-! ## What the client puts on the wire -/

/-- The wire after a send, whether it went through or not. -/
def Wire.send (w : Wire) (t : Turn) (data : Bytes) : Wire :=
  (rpcSendUnencrypted t w data).2

def Wire.packet (w : Wire) (t : Turn) (data : Bytes) : Bytes :=
  unencryptedPacket (mtprotoSessionNextMsgId w.session t.now t.low).1 data

theorem Wire.sent_send (w : Wire) (t : Turn) (data : Bytes) :
    (w.send t data).sent = w.sent ++ [w.packet t data] :=
  rfl

def Exchange.packets (c : Crypto) (e : Exchange) (w : Wire) : List Bytes :=
  (mtprotoAuthKeyGen c e w).2.sent.drop w.sent.length

section Trace

variable {c : Crypto} {e : Exchange} {w : Wire} {ctx₁ ctx₂ ctx₃ : AuthKeyCtx}
  {encrypted gB : Bytes}

/-- The wire behind the first, the second and the third request. -/
def Exchange.wire₁ (e : Exchange) (w : Wire) : Wire :=
  w.send e.reqPq (reqPqMulti e.startCtx)

def Exchange.wire₂ (e : Exchange) (c : Crypto) (ctx : AuthKeyCtx) (encrypted : Bytes) (w : Wire) :
    Wire :=
  (e.wire₁ w).send e.reqDh (reqDHParams c ctx encrypted)

def Exchange.wire₃ (e : Exchange) (c : Crypto) (ctx₂ ctx₃ : AuthKeyCtx) (encrypted gB : Bytes)
    (w : Wire) : Wire :=
  (e.wire₂ c ctx₂ encrypted w).send e.clientDh (setClientDHParams c e { ctx₃ with b := e.b } gB)

theorem authStepReqPq_wire : (authStepReqPq c e authKeyCtxInit w).2 = e.wire₁ w := by
  simp only [authStepReqPq]
  split_ifs <;> rfl

theorem authStepReqDh_wire (h : prepareReqDh c e ctx₁ = some (ctx₂, encrypted)) (w : Wire) :
    (authStepReqDh c e ctx₁ w).2 = w.send e.reqDh (reqDHParams c ctx₂ encrypted) := by
  rw [authStepReqDh, h]
  rfl

theorem prefix_authStepReqDh (ctx : AuthKeyCtx) (w : Wire) :
    w.sent <+: (authStepReqDh c e ctx w).2.sent := by
  rcases hp : prepareReqDh c e ctx with _ | ⟨ctx₂, encrypted⟩
  · refine ⟨[], ?_⟩
    rw [authStepReqDh, hp]
    exact append_nil _
  · rw [authStepReqDh_wire hp]
    exact prefix_append _ _

theorem prefix_authStepSetClientDh (ctx : AuthKeyCtx) (w : Wire) :
    w.sent <+: (authStepSetClientDh c e ctx w).2.sent := by
  simp only [authStepSetClientDh]
  split
  · exact prefix_refl _
  · split_ifs
    · exact prefix_append _ _
    · split <;> exact prefix_append _ _

theorem prefix_afterReqDh (ctx : AuthKeyCtx) (w : Wire)
    (h : (authStepReqPq c e authKeyCtxInit w).1 = some ctx) :
    (authStepReqDh c e ctx (e.wire₁ w)).2.sent <+: (mtprotoAuthKeyGen c e w).2.sent := by
  simp only [mtprotoAuthKeyGen, h, authStepReqPq_wire]
  split
  · exact prefix_refl _
  · split
    · exact prefix_refl _
    · exact prefix_authStepSetClientDh _ _

theorem packets_of_prefix {packets : List Bytes}
    (h : w.sent ++ packets <+: (mtprotoAuthKeyGen c e w).2.sent) :
    ∃ more, e.packets c w = packets ++ more := by
  obtain ⟨more, hmore⟩ := h
  refine ⟨more, ?_⟩
  rw [Exchange.packets, ← hmore, append_assoc, drop_left]

/-- **Every run begins with `req_pq_multi`.** -/
theorem packets_run₁ (c : Crypto) (e : Exchange) (w : Wire) :
    ∃ more, e.packets c w = w.packet e.reqPq (reqPqMulti e.startCtx) :: more := by
  have hrun : (e.wire₁ w).sent <+: (mtprotoAuthKeyGen c e w).2.sent := by
    rcases h : (authStepReqPq c e authKeyCtxInit w).1 with _ | ctx
    · simp only [mtprotoAuthKeyGen, h, authStepReqPq_wire]
      exact prefix_refl _
    · exact (prefix_authStepReqDh ctx _).trans (prefix_afterReqDh ctx w h)
  rw [Exchange.wire₁, Wire.sent_send] at hrun
  exact packets_of_prefix hrun

section Steps

variable (h1 : (authStepReqPq c e authKeyCtxInit w).1 = some ctx₁)
  (h2 : prepareReqDh c e ctx₁ = some (ctx₂, encrypted))

include h1 h2

theorem packets_run₂ :
    ∃ more, e.packets c w = w.packet e.reqPq (reqPqMulti e.startCtx) ::
      (e.wire₁ w).packet e.reqDh (reqDHParams c ctx₂ encrypted) :: more := by
  have hrun := prefix_afterReqDh ctx₁ w h1
  rw [authStepReqDh_wire h2, Wire.sent_send, Exchange.wire₁, Wire.sent_send,
    append_assoc] at hrun
  exact packets_of_prefix hrun

variable (hsent : e.reqDh.goesOut = true) (h3 : authStepParseDh c e ctx₂ = some ctx₃)

include hsent h3

theorem mtprotoAuthKeyGen_of_steps :
    mtprotoAuthKeyGen c e w = authStepSetClientDh c e ctx₃ (e.wire₂ c ctx₂ encrypted w) := by
  have hctx : (authStepReqDh c e ctx₁ (e.wire₁ w)).1 = some ctx₂ :=
    authStepReqDh_eq_some.mpr ⟨hsent, encrypted, h2⟩
  simp only [mtprotoAuthKeyGen, h1, authStepReqPq_wire, hctx, h3, authStepReqDh_wire h2]
  rfl

theorem packets_run₃
    (h4 : cryptoBnModExp 256 (uint32ToBe ctx₃.g.toUInt32) e.b.1 ctx₃.dhPrime = some gB) :
    ∃ more, e.packets c w = w.packet e.reqPq (reqPqMulti e.startCtx) ::
      (e.wire₁ w).packet e.reqDh (reqDHParams c ctx₂ encrypted) ::
      (e.wire₂ c ctx₂ encrypted w).packet e.clientDh
        (setClientDHParams c e { ctx₃ with b := e.b } gB) :: more := by
  have hrun : (e.wire₃ c ctx₂ ctx₃ encrypted gB w).sent <+: (mtprotoAuthKeyGen c e w).2.sent := by
    rw [mtprotoAuthKeyGen_of_steps h1 h2 hsent h3, Exchange.wire₃]
    simp only [authStepSetClientDh, h4]
    split_ifs
    · exact prefix_refl _
    · split <;> exact prefix_refl _
  rw [Exchange.wire₃, Wire.sent_send, Exchange.wire₂, Wire.sent_send, Exchange.wire₁,
    Wire.sent_send, append_assoc, append_assoc] at hrun
  exact packets_of_prefix hrun

end Steps

end Trace

namespace HonestServer

-- unification must not compute with 256-byte numbers
attribute [local irreducible] beNat beBytes

variable {c : Crypto} {sv : HonestServer} {e : Exchange} {w : Wire}

/-! ## The server's answers -/

theorem serve_cons {st st' : State} {packet reply : Bytes}
    (h : sv.answer c st packet = some (st', reply)) (packets : List Bytes) :
    sv.serve c st (packet :: packets) =
      ((sv.serve c st' packets).1, reply :: (sv.serve c st' packets).2) := by
  rw [serve, h]

theorem recv_packet {msgId : UInt64} {buf : Bytes} (h : buf.length ≤ 4096) :
    rpcRecvUnencrypted (some (unencryptedPacket msgId buf)) 4096 = some buf :=
  rpcRecvUnencrypted_unencryptedPacket h (h.trans_lt (by decide))

theorem answer_reqPq (ctx : AuthKeyCtx) (w : Wire) (t : Turn) :
    sv.answer c .idle (w.packet t (reqPqMulti ctx)) =
      some (.asked ctx.nonce, unencryptedPacket sv.msgId (sv.resPQ ctx.nonce)) := by
  have hlen : (reqPqMulti ctx).length = 20 := by
    rw [reqPqMulti, tlWriteInt128, length_append, length_block, tlWriteUint32,
      length_append, length_u32Bytes, length_nil]
  rw [answer, Wire.packet, recv_packet (hlen.trans_le (by decide))]
  simp only [bind_eq_bind, bind_some, readReqPq_reqPqMulti]

variable {gB encrypted : Bytes}

theorem length_reqDHParams_le (ctx : AuthKeyCtx)
    (h : encrypted.length = 256) : (reqDHParams c ctx encrypted).length ≤ 400 := by
  have h1 := length_tlBytes_le (uint32ToBe ctx.p)
  have h2 := length_tlBytes_le (uint32ToBe ctx.q)
  have h3 := length_tlBytes_le encrypted
  have w1 : (uint32ToBe ctx.p).length ≤ 4 := length_wordToBe_le 4 _
  have w2 : (uint32ToBe ctx.q).length ≤ 4 := length_wordToBe_le 4 _
  simp only [reqDHParams, tlWriteInt128, tlWriteUint64, tlWriteBytes_eq, tlWriteUint32,
    length_append, length_u32Bytes, length_u64Bytes, length_block, length_nil]
  omega

theorem answer_reqDh (hc : Opens c sv) {ctx : AuthKeyCtx} (hpq : ctx.pq.toNat = beNat sv.pqBytes)
    (hfactors : ctx.p.toNat * ctx.q.toNat = ctx.pq.toNat)
    (hs : ctx.serverNonce = sv.serverNonce) {pad : Block 235}
    (henc : rsaSha1Encrypt c pad (pQInnerData ctx) = some encrypted) (w : Wire) (t : Turn) :
    sv.answer c (.asked ctx.nonce) (w.packet t (reqDHParams c ctx encrypted)) =
      some (.keyed ctx.nonce ctx.newNonce,
        unencryptedPacket sv.msgId (sv.serverDHParams c ctx.nonce ctx.newNonce)) := by
  obtain ⟨encrypted', henc', hsize, -⟩ :=
    rsaSha1Encrypt_opens hc pad (length_pQInnerData_le ctx)
  rw [some_inj.mp (henc'.symm.trans henc)] at hsize
  have hlen := length_reqDHParams_le (c := c) ctx hsize
  rw [answer, Wire.packet, recv_packet (hlen.trans (by decide))]
  simp only [bind_eq_bind, bind_some, readReqDh_reqDHParams hc hpq hfactors hs henc]

theorem length_setClientDHParams_le (e : Exchange) (ctx : AuthKeyCtx)
    (h : gB.length ≤ 256) : (setClientDHParams c e ctx gB).length ≤ 400 := by
  obtain ⟨rest, -, hmod, hne, hle⟩ := clientDhPlain_eq (c := c) ctx gB e.dhPad
  have hsize := length_aesIgeEncrypt c hne hmod ctx.tmpAesKey ctx.tmpAesIv
    (e.malloc (clientDhPlain c ctx gB e.dhPad).length)
  have h1 := length_tlBytes_le (aesIgeEncrypt c (clientDhPlain c ctx gB e.dhPad) ctx.tmpAesKey
    ctx.tmpAesIv (e.malloc (clientDhPlain c ctx gB e.dhPad).length))
  simp only [setClientDHParams, tlWriteInt128, tlWriteBytes_eq, tlWriteUint32, length_append,
    length_u32Bytes, length_block, length_nil]
  omega

theorem answer_clientDh (hc : Opens c sv) (e : Exchange) {ctx : AuthKeyCtx}
    (hs : ctx.serverNonce = sv.serverNonce)
    (htmp : sv.tmpAes c ctx.newNonce = (ctx.tmpAesKey, ctx.tmpAesIv))
    (hgB : gB.length ≤ 256) (w : Wire) (t : Turn) :
    sv.answer c (.keyed ctx.nonce ctx.newNonce) (w.packet t (setClientDHParams c e ctx gB)) =
      some (.done (sv.key gB) (sv.salt ctx.newNonce),
        unencryptedPacket sv.msgId (sv.dhGenOk c ctx.nonce ctx.newNonce gB)) := by
  have hlen := length_setClientDHParams_le (c := c) e ctx hgB
  rw [answer, Wire.packet, recv_packet (hlen.trans (by decide))]
  simp only [bind_eq_bind, bind_some, readClientDh_setClientDHParams hc e hs htmp hgB]

/-! ## The replies of an exchange -/

/-- The packets that come back in an exchange are the server's answers to those that go out. -/
structure AnsweredBy (c : Crypto) (sv : HonestServer) (e : Exchange) (w : Wire) : Prop where
  sent : e.reqPq.goesOut = true ∧ e.reqDh.goesOut = true ∧ e.clientDh.goesOut = true
  reqPq : e.reqPq.reply = (sv.serve c .idle (e.packets c w)).2[0]?
  reqDh : e.reqDh.reply = (sv.serve c .idle (e.packets c w)).2[1]?
  clientDh : e.clientDh.reply = (sv.serve c .idle (e.packets c w)).2[2]?

/-- The three replies, as the client's random numbers determine them. -/
structure Replies (c : Crypto) (sv : HonestServer) (e : Exchange) : Prop where
  sent : e.reqPq.goesOut = true ∧ e.reqDh.goesOut = true ∧ e.clientDh.goesOut = true
  reqPq : e.reqPq.reply = some (unencryptedPacket sv.msgId (sv.resPQ e.nonce))
  reqDh : e.reqDh.reply =
    some (unencryptedPacket sv.msgId (sv.serverDHParams c e.nonce e.newNonce))
  clientDh : e.clientDh.reply =
    some (unencryptedPacket sv.msgId (sv.dhGenOk c e.nonce e.newNonce (sv.gB e.b)))

/-- The client's contexts behind `resPQ`, `req_DH_params` and `server_DH_params_ok`. -/
def ctx₁ (sv : HonestServer) (e : Exchange) : AuthKeyCtx :=
  { e.startCtx with serverNonce := sv.serverNonce, pq := sv.pq }

def ctx₂ (sv : HonestServer) (e : Exchange) (p q : UInt32) : AuthKeyCtx :=
  { sv.ctx₁ e with p := p, q := q, newNonce := e.newNonce }

def ctx₃ (c : Crypto) (sv : HonestServer) (e : Exchange) (p q : UInt32) : AuthKeyCtx :=
  { sv.ctx₂ e p q with
    tmpAesKey := (sv.tmpAes c e.newNonce).1
    tmpAesIv := (sv.tmpAes c e.newNonce).2
    g := sv.g
    dhPrime := sv.dhPrime
    gA := sv.gA
    serverTime := sv.serverTime }

theorem pq_eq : beToUint64 sv.pqBytes = sv.pq := by
  rw [pq, ← toNat_pq, UInt64.ofNat_toNat]

theorem toNat_pq' : sv.pq.toNat = beNat sv.pqBytes := by
  rw [← pq_eq, toNat_pq]

theorem length_resPQ_le (nonce : Block 16) : (sv.resPQ nonce).length ≤ 600 := by
  have h1 := length_tlBytes_le sv.pqBytes
  have h2 := sv.length_pqBytes
  have h3 := sv.length_fingerprints
  have h4 := length_flatMap_const length_u64Bytes sv.fingerprints
  simp only [resPQ, resPQBytes, length_append, length_u32Bytes, length_block, h4, length_nil]
  omega

theorem reqPq_step (hc : Opens c sv) (hsent : e.reqPq.goesOut = true)
    (h : e.reqPq.reply = some (unencryptedPacket sv.msgId (sv.resPQ e.nonce))) (w : Wire) :
    (authStepReqPq c e authKeyCtxInit w).1 = some (sv.ctx₁ e) := by
  refine authStepReqPq_eq_some.mpr ⟨hsent, ?_⟩
  rw [h, recv_packet ((length_resPQ_le e.nonce).trans (by decide)), ctx₁, ← pq_eq]
  exact readResPQ_resPQ hc e.startCtx

theorem length_serverDHParams_le (nonce : Block 16) (newNonce : Block 32) :
    (sv.serverDHParams c nonce newNonce).length ≤ 700 :=
  sv.length_paramsBytes_le _ _ _ _

theorem parseDh_step (hc : Opens c sv) (p q : UInt32)
    (h : e.reqDh.reply =
      some (unencryptedPacket sv.msgId (sv.serverDHParams c e.nonce e.newNonce))) :
    authStepParseDh c e (sv.ctx₂ e p q) = some (sv.ctx₃ c e p q) := by
  have hread := readServerDHParams_serverDHParams hc e
    (show (sv.ctx₂ e p q).serverNonce = sv.serverNonce from rfl)
  rw [authStepParseDh, h, recv_packet ((length_serverDHParams_le _ _).trans (by decide)),
    bind_some]
  exact hread

theorem modExp_step (p q : UInt32) :
    cryptoBnModExp 256 (uint32ToBe (sv.ctx₃ c e p q).g.toUInt32) e.b.1 (sv.ctx₃ c e p q).dhPrime =
      some (sv.gB e.b) := by
  have hpow := cryptoBnModExp_of_pos modulus_pos sv.length_dhPrime (uint32ToBe sv.g.toUInt32) e.b.1
  rw [beNat_uint32ToBe] at hpow
  exact hpow

theorem dhGen_step (p q : UInt32)
    (h : e.clientDh.reply =
      some (unencryptedPacket sv.msgId (sv.dhGenOk c e.nonce e.newNonce (sv.gB e.b)))) :
    (rpcRecvUnencrypted e.clientDh.reply 4096).bind
        (readDhGen c { sv.ctx₃ c e p q with b := e.b }) = some (sv.key (sv.gB e.b)) := by
  have hlen : (sv.dhGenOk c e.nonce e.newNonce (sv.gB e.b)).length = 52 := by
    simp only [dhGenOk, dhGenOkBytes, length_append, length_u32Bytes, length_block, length_nil]
  have hread := readDhGen_dhGenOk (c := c)
    (show ({ sv.ctx₃ c e p q with b := e.b } : AuthKeyCtx).dhPrime = sv.dhPrime from rfl) rfl
  rw [h, recv_packet (hlen.trans_le (by decide)), bind_some]
  exact hread

theorem prepare_step (hc : Opens c sv) {p q : UInt32} (hpq : pqFactorize sv.pq = some (p, q))
    (e : Exchange) :
    ∃ encrypted, prepareReqDh c e (sv.ctx₁ e) = some (sv.ctx₂ e p q, encrypted) ∧
      rsaSha1Encrypt c e.rsaPad (pQInnerData (sv.ctx₂ e p q)) = some encrypted := by
  obtain ⟨encrypted, henc, -⟩ :=
    rsaSha1Encrypt_opens hc e.rsaPad (length_pQInnerData_le (sv.ctx₂ e p q))
  exact ⟨encrypted, prepareReqDh_eq_some.mpr ⟨(p, q), hpq, rfl, henc⟩, henc⟩

theorem serve_done (key : AuthKey) (salt : Bytes) (packets : List Bytes) :
    sv.serve c (.done key salt) packets = (.done key salt, []) := by
  cases packets with
  | nil => rfl
  | cons packet packets =>
    have hnone : sv.answer c (.done key salt) packet = none := by
      simp only [answer, bind_eq_bind, bind_eq_none_iff, implies_true]
    rw [serve, hnone]

/-! ## Packet by packet -/

theorem answer₁ (e : Exchange) (w : Wire) :
    sv.answer c .idle (w.packet e.reqPq (reqPqMulti e.startCtx)) =
      some (.asked e.nonce, unencryptedPacket sv.msgId (sv.resPQ e.nonce)) :=
  answer_reqPq e.startCtx w e.reqPq

theorem answer₂ (hc : Opens c sv) {p q : UInt32} (hfactors : p.toNat * q.toNat = sv.pq.toNat)
    (henc : rsaSha1Encrypt c e.rsaPad (pQInnerData (sv.ctx₂ e p q)) = some encrypted) (w : Wire) :
    sv.answer c (.asked e.nonce) (w.packet e.reqDh (reqDHParams c (sv.ctx₂ e p q) encrypted)) =
      some (.keyed e.nonce e.newNonce,
        unencryptedPacket sv.msgId (sv.serverDHParams c e.nonce e.newNonce)) :=
  answer_reqDh hc (show (sv.ctx₂ e p q).pq.toNat = _ from toNat_pq') hfactors rfl henc w e.reqDh

theorem answer₃ (hc : Opens c sv) (e : Exchange) (p q : UInt32) (w : Wire) :
    sv.answer c (.keyed e.nonce e.newNonce) (w.packet e.clientDh
        (setClientDHParams c e { sv.ctx₃ c e p q with b := e.b } (sv.gB e.b))) =
      some (.done (sv.key (sv.gB e.b)) (sv.salt e.newNonce),
        unencryptedPacket sv.msgId (sv.dhGenOk c e.nonce e.newNonce (sv.gB e.b))) :=
  answer_clientDh hc e
    (show ({ sv.ctx₃ c e p q with b := e.b } : AuthKeyCtx).serverNonce = sv.serverNonce from rfl)
    rfl (length_gB_le e.b) w e.clientDh

theorem reply_reqPq (e : Exchange) (w : Wire) :
    (sv.serve c .idle (e.packets c w)).2[0]? =
      some (unencryptedPacket sv.msgId (sv.resPQ e.nonce)) := by
  obtain ⟨more, hmore⟩ := packets_run₁ c e w
  rw [hmore, serve_cons (answer₁ e w)]
  rfl

section Run

variable (hc : Opens c sv) {p q : UInt32} (hpq : pqFactorize sv.pq = some (p, q))
  (hfactors : p.toNat * q.toNat = sv.pq.toNat)

include hc hpq hfactors

theorem reply_reqDh (hsent : e.reqPq.goesOut = true)
    (hreply : e.reqPq.reply = some (unencryptedPacket sv.msgId (sv.resPQ e.nonce))) (w : Wire) :
    (sv.serve c .idle (e.packets c w)).2[1]? =
      some (unencryptedPacket sv.msgId (sv.serverDHParams c e.nonce e.newNonce)) := by
  obtain ⟨encrypted, hprep, henc⟩ := prepare_step hc hpq e
  obtain ⟨more, hmore⟩ := packets_run₂ (reqPq_step hc hsent hreply w) hprep
  rw [hmore, serve_cons (answer₁ e w), serve_cons (answer₂ hc hfactors henc _)]
  rfl

theorem serve_packets (hsent : e.reqPq.goesOut = true) (hsent' : e.reqDh.goesOut = true)
    (h1 : e.reqPq.reply = some (unencryptedPacket sv.msgId (sv.resPQ e.nonce)))
    (h2 : e.reqDh.reply =
      some (unencryptedPacket sv.msgId (sv.serverDHParams c e.nonce e.newNonce))) (w : Wire) :
    sv.serve c .idle (e.packets c w) =
      (.done (sv.key (sv.gB e.b)) (sv.salt e.newNonce),
        [unencryptedPacket sv.msgId (sv.resPQ e.nonce),
          unencryptedPacket sv.msgId (sv.serverDHParams c e.nonce e.newNonce),
          unencryptedPacket sv.msgId (sv.dhGenOk c e.nonce e.newNonce (sv.gB e.b))]) := by
  obtain ⟨encrypted, hprep, henc⟩ := prepare_step hc hpq e
  obtain ⟨more, hmore⟩ := packets_run₃ (reqPq_step hc hsent h1 w) hprep hsent'
    (parseDh_step hc p q h2) (modExp_step p q)
  rw [hmore, serve_cons (answer₁ e w), serve_cons (answer₂ hc hfactors henc _),
    serve_cons (answer₃ hc e p q _), serve_done]

/-- **The wire determines the replies**, one after the other. -/
theorem answeredBy_iff (e : Exchange) (w : Wire) : AnsweredBy c sv e w ↔ Replies c sv e := by
  constructor
  · intro h
    have h1 := h.reqPq.trans (reply_reqPq e w)
    have h2 := h.reqDh.trans (reply_reqDh hc hpq hfactors h.sent.1 h1 w)
    refine ⟨h.sent, h1, h2, h.clientDh.trans ?_⟩
    rw [serve_packets hc hpq hfactors h.sent.1 h.sent.2.1 h1 h2 w]
    rfl
  · intro h
    have hserve := serve_packets hc hpq hfactors h.sent.1 h.sent.2.1 h.reqPq h.reqDh w
    refine ⟨h.sent, ?_, ?_, ?_⟩
    · rw [hserve, h.reqPq]
      rfl
    · rw [hserve, h.reqDh]
      rfl
    · rw [hserve, h.clientDh]
      rfl

omit hfactors in
theorem mtprotoAuthKeyGen_of_replies (h : Replies c sv e) (w : Wire) :
    ∃ w', mtprotoAuthKeyGen c e w =
      (true, installKey { sv.ctx₃ c e p q with b := e.b } (sv.key (sv.gB e.b)) w') := by
  obtain ⟨encrypted, hprep, -⟩ := prepare_step hc hpq e
  rw [mtprotoAuthKeyGen_of_steps (reqPq_step hc h.sent.1 h.reqPq w) hprep h.sent.2.1
    (parseDh_step hc p q h.reqDh)]
  have hpow := @modExp_step c sv e p q
  have hgen := dhGen_step p q h.clientDh
  have hout : (rpcSendUnencrypted e.clientDh (e.wire₂ c (sv.ctx₂ e p q) encrypted w)
      (setClientDHParams c e { sv.ctx₃ c e p q with b := e.b } (sv.gB e.b))).1 = true :=
    h.sent.2.2
  simp only [authStepSetClientDh, hpow, hgen, hout, Bool.not_true, Bool.false_eq_true, if_false]
  exact ⟨_, rfl⟩

/-- **Agreement.**  Against a server that follows the protocol the client succeeds, and what it
stores is what the server holds: `g_b ^ a` in 256 bytes, and the xor of the nonces as the salt. -/
theorem mtprotoAuthKeyGen_honest (e : Exchange) (w : Wire) (h : AnsweredBy c sv e w) :
    ∃ w', mtprotoAuthKeyGen c e w = (true, w') ∧ w'.session.hasAuthKey = true ∧
      w'.session.authKey = keyOf
        ((sv.g.toUInt32.toNat ^ beNat e.b.1 % sv.modulus) ^ sv.a % sv.modulus) ∧
      u64Bytes w'.session.serverSalt =
        List.zipWith (· ^^^ ·) (e.newNonce.1.take 8) (sv.serverNonce.1.take 8) ∧
      (sv.serve c .idle (e.packets c w)).1 =
        .done w'.session.authKey (u64Bytes w'.session.serverSalt) := by
  have hreplies := (answeredBy_iff hc hpq hfactors e w).mp h
  obtain ⟨w', hrun⟩ := mtprotoAuthKeyGen_of_replies hc hpq hreplies w
  have hkey : sv.key (sv.gB e.b) = keyOf
      ((sv.g.toUInt32.toNat ^ beNat e.b.1 % sv.modulus) ^ sv.a % sv.modulus) := by
    rw [key, beNat_gB]
  have hsalt : u64Bytes (initialSalt e.newNonce sv.serverNonce) = sv.salt e.newNonce := by
    have hlen : (sv.salt e.newNonce).length = 8 := by
      simp only [salt, length_zipWith, length_take, length_block]
      decide
    rw [initialSalt, ← salt, u64Bytes_u64At hlen.ge, slice_zero, ← hlen, take_length]
  refine ⟨_, hrun, rfl, hkey, hsalt, ?_⟩
  rw [serve_packets hc hpq hfactors hreplies.sent.1 hreplies.sent.2.1 hreplies.reqPq
    hreplies.reqDh w]
  exact congrArg (State.done (sv.key (sv.gB e.b))) hsalt.symm

end Run

/-- The exchange with the server's replies put in. -/
def answered (c : Crypto) (sv : HonestServer) (e : Exchange) : Exchange :=
  { e with
    reqPq := { e.reqPq with
      goesOut := true, reply := some (unencryptedPacket sv.msgId (sv.resPQ e.nonce)) }
    reqDh := { e.reqDh with
      goesOut := true
      reply := some (unencryptedPacket sv.msgId (sv.serverDHParams c e.nonce e.newNonce)) }
    clientDh := { e.clientDh with
      goesOut := true
      reply :=
        some (unencryptedPacket sv.msgId (sv.dhGenOk c e.nonce e.newNonce (sv.gB e.b))) } }

theorem replies_answered (c : Crypto) (sv : HonestServer) (e : Exchange) :
    Replies c sv (sv.answered c e) :=
  ⟨⟨rfl, rfl, rfl⟩, rfl, rfl, rfl⟩

end HonestServer

theorem generator_three : ¬ ((3 : Int32) < 2 ∨ (3 : Int32) > 7) := by
  decide

/-- A server with `pq = 6`, the prime 5 and the secret 2. -/
def demoServer : HonestServer where
  rsaDecrypt := id
  fingerprints := [1, 7]
  serverNonce := toBlock 16 [9]
  pqBytes := [6]
  g := 3
  dhPrime := [5]
  a := 2
  gA := [4]
  serverTime := 0
  pad := toBlock 16 []
  msgId := 1
  length_fingerprints := by decide
  length_pqBytes := by decide
  g_range := generator_three
  prime_dhPrime := Nat.prime_five
  length_dhPrime := by decide
  beNat_gA := by decide
  length_gA := by decide

theorem opens_demoServer : HonestServer.Opens demoCrypto demoServer where
  aes _ _ := xorBlock_self_right _ _
  rsa m hm := ⟨0 :: m, rfl, by rw [length_cons, hm], rfl⟩
  fingerprint := by decide

theorem mtprotoAuthKeyGen_honest_demoServer :
    ∃ w', mtprotoAuthKeyGen demoCrypto (demoServer.answered demoCrypto demoClient) demoWire =
        (true, w') ∧
      w'.session.authKey = keyOf ((demoServer.g.toUInt32.toNat ^
        beNat (demoServer.answered demoCrypto demoClient).b.1 % demoServer.modulus) ^ demoServer.a %
          demoServer.modulus) := by
  have hpq : pqFactorize demoServer.pq = some (2, 3) := by decide
  have hanswered := (HonestServer.answeredBy_iff opens_demoServer hpq rfl _ demoWire).mpr
    (HonestServer.replies_answered demoCrypto demoServer demoClient)
  obtain ⟨w', hrun, -, hkey, -⟩ := HonestServer.mtprotoAuthKeyGen_honest opens_demoServer hpq rfl
    (demoServer.answered demoCrypto demoClient) demoWire hanswered
  exact ⟨w', hrun, hkey⟩

end TgCli.Infrastructure
