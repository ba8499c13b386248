import TgCli.Infrastructure.MtprotoAuthAccepted

/-!
# A server that plays along

A `ServerPlay` is the server's side of one key exchange.  It knows the client's random numbers ---
it has the RSA key --- and answers with a prime, a `g_a`, a hash in front of the inner data and a
last server nonce of its choice.  Under every lawful `Crypto` the client accepts what it sends, and
ends with the key the play says (`ServerPlay.accepted`): nothing that an honest server would send
is refused, and the acceptance does not depend on the last three of these choices.
-/

namespace TgCli.Infrastructure

open List Lib TgCli.Core

theorem rpcRecvUnencrypted_unencryptedPacket {msgId : UInt64} {data : Bytes} {maxLen : ℕ}
    (hmax : data.length ≤ maxLen) (hlen : data.length < 2 ^ 32) :
    rpcRecvUnencrypted (some (unencryptedPacket msgId data)) maxLen = some data := by
  set buf := unencryptedPacket msgId data with hbuf
  have hrest : (tlReaderInit buf).rest =
      u64Bytes 0 ++ (u64Bytes msgId ++ (u32Bytes (UInt32.ofNat data.length) ++ (data ++ []))) := by
    rw [rest_tlReaderInit, hbuf, unencryptedPacket]
    simp only [append_assoc, append_nil]
  have hbufLen : ¬ buf.length < 20 := by
    rw [hbuf, unencryptedPacket]
    simp only [length_append, length_u64Bytes, length_u32Bytes]
    omega
  obtain ⟨-, h1⟩ := tlReadUint64_of_rest hrest
  obtain ⟨-, h2⟩ := tlReadUint64_of_rest h1
  obtain ⟨h3, h4⟩ := tlReadUint32_of_rest h2
  have hn : (UInt32.ofNat data.length).toNat = data.length := UInt32.toNat_ofNat_of_lt' hlen
  simp only [rpcRecvUnencrypted, Option.bind_eq_bind, Option.bind_some, hbufLen, if_false, h3, hn,
    not_lt.mpr hmax, gt_iff_lt]
  exact congrArg some (readFixed_of_rest rfl h4).1

theorem read_header (buf : Bytes) {rest : Bytes} {crc : UInt32} {n s : Block 16}
    (h : buf = u32Bytes crc ++ (n.1 ++ (s.1 ++ rest))) :
    (tlReadUint32 (tlReaderInit buf)).1 = crc ∧ readNonce buf = n ∧ readServerNonce buf = s ∧
      (afterNonces buf).rest = rest := by
  have hrest : (tlReaderInit buf).rest = u32Bytes crc ++ (n.1 ++ (s.1 ++ rest)) := h
  obtain ⟨h1, r1⟩ := tlReadUint32_of_rest hrest
  obtain ⟨h2, r2⟩ := tlReadInt128_of_rest r1
  obtain ⟨h3, r3⟩ := tlReadInt128_of_rest r2
  exact ⟨h1, h2, h3, r3⟩

theorem length_tlBytes_le (b : Bytes) : (tlBytes b).length ≤ b.length + 7 := by
  rw [length_tlBytes]
  split_ifs <;> omega

theorem length_wordToBe_le (w val : ℕ) : (wordToBe w val).length ≤ w := by
  have hstrip := (dropWhile_suffix (l := beBytes w val) (fun b => decide (b = 0))).length_le
  rw [length_beBytes] at hstrip
  rw [wordToBe]
  split_ifs
  · rw [length_drop, length_beBytes]
    omega
  · exact hstrip

theorem length_pQInnerData_le (ctx : AuthKeyCtx) : (pQInnerData ctx).length ≤ 235 := by
  have h1 := length_tlBytes_le (uint64ToBe ctx.pq)
  have h2 := length_tlBytes_le (uint32ToBe ctx.p)
  have h3 := length_tlBytes_le (uint32ToBe ctx.q)
  have w1 : (uint64ToBe ctx.pq).length ≤ 8 := length_wordToBe_le 8 _
  have w2 : (uint32ToBe ctx.p).length ≤ 4 := length_wordToBe_le 4 _
  have w3 : (uint32ToBe ctx.q).length ≤ 4 := length_wordToBe_le 4 _
  simp only [pQInnerData, tlWriteInt256, tlWriteInt128, tlWriteBytes_eq, tlWriteUint32,
    length_append, length_u32Bytes, length_block, length_nil]
  omega

theorem rsaSha1Encrypt_some {c : Crypto} (hc : c.Lawful) (pad : Block 235) {data : Bytes}
    (h : data.length ≤ 235) : ∃ encrypted, rsaSha1Encrypt c pad data = some encrypted := by
  rw [rsaSha1Encrypt, if_neg (not_lt.mpr h)]
  refine Option.isSome_iff_exists.mp (hc.rsa _ ?_)
  simp only [length_append, length_block, length_take]
  omega

theorem findFingerprint_of_mem {fp : UInt64} {l : List UInt64} (hmem : fp ∈ l) {r : TlReader}
    {t : Bytes} (h : r.rest = l.flatMap u64Bytes ++ t) : findFingerprint fp l.length r = true := by
  induction l generalizing r with
  | nil => exact absurd hmem not_mem_nil
  | cons x xs ih =>
    rw [flatMap_cons, append_assoc] at h
    obtain ⟨h1, r1⟩ := tlReadUint64_of_rest h
    rw [length_cons, findFingerprint, h1, Bool.or_eq_true, decide_eq_true_iff]
    rcases mem_cons.mp hmem with rfl | hmem
    · exact Or.inl rfl
    · exact Or.inr (ih hmem r1)

/-! ## The messages of a server

Both the server of this file and the honest one write their messages in these forms. -/

def resPQBytes (nonce serverNonce : Block 16) (pq : Bytes) (fingerprints : List UInt64) : Bytes :=
  u32Bytes crcResPQ ++ (nonce.1 ++ (serverNonce.1 ++ (tlBytes pq ++
    (u32Bytes tlVector ++ (u32Bytes (UInt32.ofNat fingerprints.length) ++
      (fingerprints.flatMap u64Bytes ++ []))))))

theorem readResPQ_resPQBytes {c : Crypto} (ctx : AuthKeyCtx) (serverNonce : Block 16) {pq : Bytes}
    (hpq : pq.length ≤ 8) {fps : List UInt64} (hfps : fps.length ≤ 64)
    (hmem : c.serverKeyFingerprint ∈ fps) :
    readResPQ c ctx (resPQBytes ctx.nonce serverNonce pq fps) =
      some { ctx with serverNonce := serverNonce, pq := beToUint64 pq } := by
  obtain ⟨hcrc, hnonce, hsn, hrest⟩ := read_header (resPQBytes ctx.nonce serverNonce pq fps) rfl
  obtain ⟨hbytes, r1⟩ := tlReadBytes_of_rest (hpq.trans_lt (by decide)) hrest
  obtain ⟨-, r2⟩ := tlReadUint32_of_rest r1
  obtain ⟨hcount, r3⟩ := tlReadUint32_of_rest r2
  have hn : (UInt32.ofNat fps.length).toNat = fps.length :=
    UInt32.toNat_ofNat_of_lt' (hfps.trans_lt (by decide))
  refine readResPQ_eq_some.mpr ⟨hcrc, hnonce, _, hbytes, ?_, ?_, by rw [hsn]⟩
  · rw [hcount, hn]
    exact hfps
  · rw [hcount, hn]
    exact findFingerprint_of_mem hmem r3

/-- What a server puts into `server_DH_inner_data`, within the bounds that the client has for it. -/
structure DhOffer where
  serverNonce : Block 16
  g : Int32
  dhPrime : Bytes
  /-- `g_a` as it is sent. -/
  gA : Bytes
  serverTime : Int32
  g_range : ¬ (g < 2 ∨ g > 7)
  length_dhPrime : dhPrime.length ≤ 256
  length_gA : gA.length ≤ 256

namespace DhOffer

variable {c : Crypto} {ctx : AuthKeyCtx} (o : DhOffer) (hash : Block 20) (nonce pad : Block 16)

/-- `server_DH_inner_data`, in front of what follows it. -/
def innerData (rest : Bytes) : Bytes :=
  u32Bytes crcServerDHInnerData ++ (nonce.1 ++ (o.serverNonce.1 ++ (u32Bytes o.g.toUInt32 ++
    (tlBytes o.dhPrime ++ (tlBytes o.gA ++ (u32Bytes o.serverTime.toUInt32 ++ rest))))))

/-- The answer before it is encrypted: a hash, the inner data, and padding to full blocks. -/
def answerBytes : Bytes :=
  hash.1 ++ o.innerData nonce (pad.1.take ((16 - (20 + (o.innerData nonce []).length) % 16) % 16))

/-- `server_DH_params_ok`, encrypted under a key and an initialisation vector. -/
def paramsBytes (c : Crypto) (tmp : Block 32 × Block 32) : Bytes :=
  u32Bytes crcServerDHParamsOk ++ (nonce.1 ++ (o.serverNonce.1 ++
    (tlBytes (aesIgeEncrypt c (o.answerBytes hash nonce pad) tmp.1 tmp.2 []) ++ [])))

theorem length_innerData (rest : Bytes) : (o.innerData nonce rest).length =
    44 + (tlBytes o.dhPrime).length + (tlBytes o.gA).length + rest.length := by
  simp only [innerData, length_append, length_u32Bytes, length_block]
  omega

theorem length_answerBytes : (o.answerBytes hash nonce pad).length % 16 = 0 ∧
    64 ≤ (o.answerBytes hash nonce pad).length ∧ (o.answerBytes hash nonce pad).length ≤ 620 := by
  have h1 := length_tlBytes_le o.dhPrime
  have h2 := length_tlBytes_le o.gA
  have h3 := o.length_dhPrime
  have h4 := o.length_gA
  simp only [answerBytes, length_append, length_block, length_innerData, length_take, length_nil]
  omega

theorem answerBytes_ne_nil : o.answerBytes hash nonce pad ≠ [] :=
  ne_nil_of_length_pos (by have h := o.length_answerBytes hash nonce pad; omega)

theorem length_paramsBytes_le (tmp : Block 32 × Block 32) :
    (o.paramsBytes hash nonce pad c tmp).length ≤ 700 := by
  obtain ⟨hmod, -, hmax⟩ := o.length_answerBytes hash nonce pad
  have hsize := length_aesIgeEncrypt c (o.answerBytes_ne_nil hash nonce pad) hmod tmp.1 tmp.2 []
  have h1 := length_tlBytes_le (aesIgeEncrypt c (o.answerBytes hash nonce pad) tmp.1 tmp.2 [])
  simp only [paramsBytes, length_append, length_u32Bytes, length_block, length_nil]
  omega

theorem readServerDHInner_innerData (hs : ctx.serverNonce = o.serverNonce) (rest : Bytes) :
    readServerDHInner ctx (o.innerData ctx.nonce rest) =
      some { ctx with g := o.g, dhPrime := o.dhPrime, gA := o.gA, serverTime := o.serverTime } := by
  obtain ⟨hcrc, hnonce, hsn, hrest⟩ := read_header (o.innerData ctx.nonce rest) rfl
  obtain ⟨hg, r1⟩ := tlReadInt32_of_rest hrest
  obtain ⟨hprime, r2⟩ := tlReadBytes_of_rest (o.length_dhPrime.trans_lt (by decide)) r1
  obtain ⟨hga, r3⟩ := tlReadBytes_of_rest (o.length_gA.trans_lt (by decide)) r2
  obtain ⟨htime, -⟩ := tlReadInt32_of_rest r3
  refine readServerDHInner_eq_some.mpr ⟨hcrc, hnonce, hsn.trans hs.symm, ?_,
    _, hprime, o.length_dhPrime, _, hga, o.length_gA, ?_⟩
  · rw [hg]
    exact o.g_range
  · rw [hg, afterG, htime]

/-- **The client reads the offer** if it was encrypted under the key that the client derives. -/
theorem readServerDHParams_paramsBytes
    (haes : ∀ key b, c.aesDecryptBlock key (c.aesEncryptBlock key b) = b) (e : Exchange)
    (hs : ctx.serverNonce = o.serverNonce) {tmp : Block 32 × Block 32}
    (htmp : dhDeriveTempAes c ctx.newNonce o.serverNonce = tmp) :
    readServerDHParams c e ctx (o.paramsBytes hash ctx.nonce pad c tmp) =
      some { ctx with tmpAesKey := tmp.1, tmpAesIv := tmp.2, g := o.g, dhPrime := o.dhPrime,
                      gA := o.gA, serverTime := o.serverTime } := by
  obtain ⟨hmod, hmin, hmax⟩ := o.length_answerBytes hash ctx.nonce pad
  have hne := o.answerBytes_ne_nil hash ctx.nonce pad
  have hsize := length_aesIgeEncrypt c hne hmod tmp.1 tmp.2 []
  obtain ⟨hcrc, hnonce, hsn, hrest⟩ := read_header (o.paramsBytes hash ctx.nonce pad c tmp) rfl
  obtain ⟨hbytes, -⟩ := tlReadBytes_of_rest (by omega) hrest
  refine readServerDHParams_eq_some.mpr ⟨hcrc, hnonce, hsn.trans hs.symm, _, hbytes, by omega, ?_⟩
  dsimp only
  rw [hs, htmp, aesIgeDecrypt_aesIgeEncrypt haes hne hmod, answerBytes, drop_left' (length_block _)]
  exact o.readServerDHInner_innerData rfl _

end DhOffer

def dhGenOkBytes (nonce serverNonce hash : Block 16) : Bytes :=
  u32Bytes crcDhGenOk ++ (nonce.1 ++ (serverNonce.1 ++ (hash.1 ++ [])))

theorem readDhGen_dhGenOkBytes {c : Crypto} {ctx : AuthKeyCtx} {key : AuthKey}
    {serverNonce : Block 16} (hp : 0 < beNat ctx.dhPrime) (hcap : ctx.dhPrime.length ≤ 256)
    (hkey : padAuthKey (beBytes ctx.dhPrime.length (beNat ctx.gA ^ beNat ctx.b.1 %
      beNat ctx.dhPrime)) = key) {hash : Block 16}
    (hhash : newNonceHash1 c ctx.newNonce key = hash.1) :
    readDhGen c ctx (dhGenOkBytes ctx.nonce serverNonce hash) = some key := by
  obtain ⟨hcrc, hnonce, -, hrest⟩ := read_header (dhGenOkBytes ctx.nonce serverNonce hash) rfl
  obtain ⟨hread, -⟩ := tlReadInt128_of_rest hrest
  refine readDhGen_eq_some.mpr ⟨hcrc, hnonce, _, cryptoBnModExp_of_pos hp hcap _ _, ?_, hkey⟩
  rw [hread, hkey]
  exact hhash

theorem length_newNonceHash1 (c : Crypto) (newNonce : Block 32) (key : AuthKey) :
    (newNonceHash1 c newNonce key).length = 16 := by
  rw [newNonceHash1, length_drop, length_block]

/-! ## A play -/

/-- The choices of a server in one exchange. -/
structure ServerPlay extends DhOffer where
  /-- The server nonce it puts into `dh_gen_ok`. -/
  lastServerNonce : Block 16
  /-- The hash it puts in front of the inner data. -/
  hash : Block 20
  dhPrime_ne : beNat dhPrime ≠ 0

namespace ServerPlay

variable (c : Crypto) (e : Exchange) (play : ServerPlay)

/-- `resPQ` with `pq = 6` and our fingerprint. -/
def resPQ : Bytes :=
  resPQBytes e.nonce play.serverNonce [6] [c.serverKeyFingerprint]

def serverDHParams : Bytes :=
  play.paramsBytes play.hash e.nonce (toBlock 16 []) c
    (dhDeriveTempAes c e.newNonce play.serverNonce)

def key : AuthKey :=
  padAuthKey (beBytes play.dhPrime.length (beNat play.gA ^ beNat e.b.1 % beNat play.dhPrime))

def dhGenOk : Bytes :=
  dhGenOkBytes e.nonce play.lastServerNonce
    ⟨newNonceHash1 c e.newNonce (play.key e), length_newNonceHash1 c _ _⟩

/-- The exchange with the client's random numbers and these replies. -/
def exchange : Exchange :=
  { e with
    reqPq := ⟨0, 0, true, some (unencryptedPacket 1 (play.resPQ c e))⟩
    reqDh := ⟨0, 0, true, some (unencryptedPacket 1 (play.serverDHParams c e))⟩
    clientDh := ⟨0, 0, true, some (unencryptedPacket 1 (play.dhGenOk c e))⟩ }

/-! ## The client accepts -/

theorem recv_reqPq :
    rpcRecvUnencrypted (play.exchange c e).reqPq.reply 4096 = some (play.resPQ c e) := by
  rw [exchange, rpcRecvUnencrypted_unencryptedPacket]
  all_goals simp [resPQ, resPQBytes, length_tlBytes]

theorem recv_reqDh :
    rpcRecvUnencrypted (play.exchange c e).reqDh.reply 4096 = some (play.serverDHParams c e) := by
  have hle : (play.serverDHParams c e).length ≤ 700 := play.length_paramsBytes_le _ _ _ _
  rw [exchange, rpcRecvUnencrypted_unencryptedPacket]
  all_goals omega

theorem recv_clientDh :
    rpcRecvUnencrypted (play.exchange c e).clientDh.reply 4096 = some (play.dhGenOk c e) := by
  rw [exchange, rpcRecvUnencrypted_unencryptedPacket]
  all_goals simp [dhGenOk, dhGenOkBytes, length_newNonceHash1]

theorem payloads :
    (play.exchange c e).reqPq.payload = play.resPQ c e ∧
      (play.exchange c e).reqDh.payload = play.serverDHParams c e ∧
      (play.exchange c e).clientDh.payload = play.dhGenOk c e := by
  rw [Turn.payload, Turn.payload, Turn.payload, play.recv_reqPq, play.recv_reqDh,
    play.recv_clientDh]
  exact ⟨rfl, rfl, rfl⟩

variable {c e}

/-- **The client accepts every play**, and ends with its key. -/
theorem accepted (hc : c.Lawful) : Accepted c (play.exchange c e) (play.key e) := by
  set e' := play.exchange c e with he'
  set ctx₁ : AuthKeyCtx := { e'.startCtx with serverNonce := play.serverNonce, pq := 6 }
  set ctx₂ : AuthKeyCtx := { ctx₁ with p := 2, q := 3, newNonce := e'.newNonce }
  have h1 : readResPQ c e'.startCtx (play.resPQ c e) = some ctx₁ :=
    readResPQ_resPQBytes e'.startCtx play.serverNonce (by decide) (Nat.one_le_ofNat) mem_cons_self
  have hfactor : pqFactorize ctx₁.pq = some (2, 3) := by
    show pqFactorize 6 = some (2, 3)
    decide
  obtain ⟨encrypted, henc⟩ := rsaSha1Encrypt_some hc e'.rsaPad (length_pQInnerData_le ctx₂)
  have h2 : prepareReqDh c e' ctx₁ = some (ctx₂, encrypted) :=
    prepareReqDh_eq_some.mpr ⟨_, hfactor, rfl, henc⟩
  have h3 := play.readServerDHParams_paramsBytes play.hash (toBlock 16 []) hc.aes e'
    (show ctx₂.serverNonce = play.serverNonce from rfl) rfl
  set ctx₃ : AuthKeyCtx := { ctx₂ with
    tmpAesKey := (dhDeriveTempAes c ctx₂.newNonce play.serverNonce).1
    tmpAesIv := (dhDeriveTempAes c ctx₂.newNonce play.serverNonce).2
    g := play.g
    dhPrime := play.dhPrime
    gA := play.gA
    serverTime := play.serverTime }
  have hpos : 0 < beNat play.dhPrime := Nat.pos_of_ne_zero play.dhPrime_ne
  have h4 := cryptoBnModExp_of_pos hpos play.length_dhPrime (uint32ToBe ctx₃.g.toUInt32) e'.b.1
  have h5 : readDhGen c { ctx₃ with b := e'.b } (play.dhGenOk c e) = some (play.key e) :=
    readDhGen_dhGenOkBytes hpos play.length_dhPrime rfl rfl
  refine ⟨ctx₁, ctx₂, ctx₃, encrypted, _, ⟨rfl, rfl, rfl⟩, ?_, h2, ?_, h4, ?_⟩
  · rw [he', play.recv_reqPq]
    exact h1
  · rw [he', play.recv_reqDh]
    exact h3
  · rw [he', play.recv_clientDh]
    exact h5

end ServerPlay

end TgCli.Infrastructure
