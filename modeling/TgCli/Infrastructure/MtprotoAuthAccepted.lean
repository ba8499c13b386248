import TgCli.Infrastructure.MtprotoAuth

/-!
# What the client checks in a key exchange

Each reply is accepted under a condition on the values read from it (`readResPQ_eq_some`,
`readServerDHParams_eq_some`, `readServerDHInner_eq_some`, `readDhGen_eq_some`), and the exchange as
a whole under these and the three sends (`Accepted`).

The reader of TL data yields zeros behind the end of a message, so a check of a nonce is a check of
the message only when something behind the nonce was there to be read.  In `resPQ`, in
`server_DH_params_ok` and in the inner data a byte string follows the nonces and reading it can
fail; `dh_gen_ok` ends with fixed-width fields, and a short one is not noticed.
-/

namespace TgCli.Infrastructure

open Option Lib TgCli.Core

/-! ## The replies as laid out on the wire -/

def Turn.payload (t : Turn) : Bytes :=
  (rpcRecvUnencrypted t.reply 4096).getD []

/-- `nonce`, behind the constructor. -/
def nonceField (buf : Bytes) : Bytes :=
  slice buf 4 16

/-- `server_nonce`, behind the nonce. -/
def serverNonceField (buf : Bytes) : Bytes :=
  slice buf 20 16

/-- `new_nonce_hash1` of `dh_gen_ok`. -/
def newNonceHashField (buf : Bytes) : Bytes :=
  slice buf 36 16

/-! ## Reading a reply from its start -/

def readNonce (buf : Bytes) : Block 16 :=
  (tlReadInt128 (tlReadUint32 (tlReaderInit buf)).2).1

def readServerNonce (buf : Bytes) : Block 16 :=
  (tlReadInt128 (tlReadInt128 (tlReadUint32 (tlReaderInit buf)).2).2).1

def afterNonces (buf : Bytes) : TlReader :=
  (tlReadInt128 (tlReadInt128 (tlReadUint32 (tlReaderInit buf)).2).2).2

variable {buf : Bytes} {ctx ctx' : AuthKeyCtx}

theorem read_nonces (h : 36 ≤ buf.length) :
    (readNonce buf).1 = nonceField buf ∧ (readServerNonce buf).1 = serverNonceField buf ∧
      afterNonces buf = ⟨buf, 36⟩ := by
  have h1 : (tlReadUint32 (tlReaderInit buf)).2 = ⟨buf, 4⟩ :=
    congrArg Prod.snd (readFixed_of_le (r := tlReaderInit buf) (n := 4)
      (by show 0 + 4 ≤ buf.length; omega))
  have h2 : readFixed ⟨buf, 4⟩ 16 = (nonceField buf, ⟨buf, 20⟩) :=
    readFixed_of_le (by show 4 + 16 ≤ buf.length; omega)
  have h3 : readFixed ⟨buf, 20⟩ 16 = (serverNonceField buf, ⟨buf, 36⟩) :=
    readFixed_of_le (by show 20 + 16 ≤ buf.length; omega)
  simp only [readNonce, readServerNonce, afterNonces, tlReadInt128, h1, h2, h3, and_self]

theorem length_of_afterNonces_lt (h : (afterNonces buf).pos < buf.length) :
    36 ≤ buf.length := by
  -- each of the three reads left the cursor inside the buffer, so each of them fitted
  set r1 := (tlReadUint32 (tlReaderInit buf)).2
  set r2 := (tlReadInt128 r1).2 with hr
  have hd1 : r1.data = buf := data_tlReadUint32 _
  have hd2 : r2.data = buf := (data_tlReadInt128 r1).trans hd1
  have h3 : r2.pos + 16 ≤ r2.data.length :=
    fits_of_pos_readFixed_lt (r := r2) (n := 16) (by rw [hd2]; exact h)
  have hr2 : r2.pos < r1.data.length := by
    rw [hd1, ← hd2]
    omega
  have h2 : r1.pos + 16 ≤ r1.data.length := fits_of_pos_readFixed_lt (r := r1) (n := 16) hr2
  have hr1 : r1.pos < buf.length := by
    rw [← hd1]
    omega
  have h1 : (tlReaderInit buf).pos + 4 ≤ buf.length :=
    fits_of_pos_readFixed_lt (r := tlReaderInit buf) (n := 4) hr1
  have e1 : r1 = ⟨buf, 4⟩ :=
    congrArg Prod.snd (readFixed_of_le (r := tlReaderInit buf) (n := 4) h1)
  rw [e1] at h2
  have e2 : r2 = ⟨buf, 20⟩ := by
    rw [hr, e1]
    exact congrArg Prod.snd (readFixed_of_le (r := ⟨buf, 4⟩) (n := 16) h2)
  rw [e2] at h3
  exact h3

theorem read_nonces_of_bytes {b : Bytes} (h : (tlReadBytes (afterNonces buf)).1 = some b) :
    (readNonce buf).1 = nonceField buf ∧ (readServerNonce buf).1 = serverNonceField buf ∧
      afterNonces buf = ⟨buf, 36⟩ := by
  have hdata : (afterNonces buf).data = buf := by
    rw [afterNonces, data_tlReadInt128, data_tlReadInt128, data_tlReadUint32]
    rfl
  have hpos := tlReadBytes_some_pos h
  rw [hdata] at hpos
  exact read_nonces (length_of_afterNonces_lt hpos)

/-! ## When a reply is accepted -/

section Accepted

variable {c : Crypto} {e : Exchange} {ctx ctx' : AuthKeyCtx} {buf : Bytes}

theorem readResPQ_eq_some :
    readResPQ c ctx buf = some ctx' ↔
      (tlReadUint32 (tlReaderInit buf)).1 = crcResPQ ∧ readNonce buf = ctx.nonce ∧
      ∃ pq, (tlReadBytes (afterNonces buf)).1 = some pq ∧
        let fpCount := tlReadUint32 (tlReadUint32 (tlReadBytes (afterNonces buf)).2).2
        fpCount.1.toNat ≤ maxFpCount ∧
        findFingerprint c.serverKeyFingerprint fpCount.1.toNat fpCount.2 = true ∧
        { ctx with serverNonce := readServerNonce buf, pq := beToUint64 pq } = ctx' := by
  simp only [readResPQ, bind_eq_bind, bind_none, bind_eq_some_iff,
    ite_none_left_eq_some, some_inj, ne_eq, not_not, Bool.not_eq_true',
    Bool.not_eq_false, gt_iff_lt, not_lt]
  rfl

theorem prepareReqDh_eq_some {encrypted : Bytes} :
    prepareReqDh c e ctx = some (ctx', encrypted) ↔
      ∃ pq, pqFactorize ctx.pq = some pq ∧
        { ctx with p := pq.1, q := pq.2, newNonce := e.newNonce } = ctx' ∧
        rsaSha1Encrypt c e.rsaPad (pQInnerData ctx') = some encrypted := by
  simp only [prepareReqDh, bind_eq_bind, bind_eq_some_iff, some_inj,
    Prod.mk.injEq]
  constructor
  · rintro ⟨pq, hpq, enc, henc, rfl, rfl⟩
    exact ⟨pq, hpq, rfl, henc⟩
  · rintro ⟨pq, hpq, rfl, henc⟩
    exact ⟨pq, hpq, encrypted, henc, rfl, rfl⟩

theorem readServerDHParams_eq_some :
    readServerDHParams c e ctx buf = some ctx' ↔
      (tlReadUint32 (tlReaderInit buf)).1 = crcServerDHParamsOk ∧ readNonce buf = ctx.nonce ∧
      readServerNonce buf = ctx.serverNonce ∧
      ∃ encAnswer, (tlReadBytes (afterNonces buf)).1 = some encAnswer ∧ 24 ≤ encAnswer.length ∧
        let tmp := dhDeriveTempAes c ctx.newNonce ctx.serverNonce
        readServerDHInner { ctx with tmpAesKey := tmp.1, tmpAesIv := tmp.2 }
          ((aesIgeDecrypt c encAnswer tmp.1 tmp.2 (e.malloc encAnswer.length)).drop 20) =
            some ctx' := by
  simp only [readServerDHParams, bind_eq_bind, bind_none, bind_eq_some_iff,
    ite_none_left_eq_some, ne_eq, not_not, not_lt]
  constructor
  · rintro ⟨h1, h2, h3, enc, h4, -, h5, h6⟩
    exact ⟨h1, h2, h3, enc, h4, h5, h6⟩
  · rintro ⟨h1, h2, h3, enc, h4, h5, h6⟩
    exact ⟨h1, h2, h3, enc, h4, by omega, h5, h6⟩

/-- The cursor of the inner data behind `g`. -/
def afterG (data : Bytes) : TlReader :=
  (tlReadInt32 (afterNonces data)).2

theorem readServerDHInner_eq_some {data : Bytes} :
    readServerDHInner ctx data = some ctx' ↔
      (tlReadUint32 (tlReaderInit data)).1 = crcServerDHInnerData ∧ readNonce data = ctx.nonce ∧
      readServerNonce data = ctx.serverNonce ∧
      ¬ ((tlReadInt32 (afterNonces data)).1 < 2 ∨ (tlReadInt32 (afterNonces data)).1 > 7) ∧
      ∃ prime, (tlReadBytes (afterG data)).1 = some prime ∧ prime.length ≤ 256 ∧
        ∃ ga, (tlReadBytes (tlReadBytes (afterG data)).2).1 = some ga ∧ ga.length ≤ 256 ∧
          { ctx with
            g := (tlReadInt32 (afterNonces data)).1
            dhPrime := prime
            gA := ga
            serverTime := (tlReadInt32 (tlReadBytes (tlReadBytes (afterG data)).2).2).1 } =
              ctx' := by
  simp only [readServerDHInner, bind_eq_bind, bind_none, bind_eq_some_iff,
    ite_none_left_eq_some, some_inj, ne_eq, not_not, gt_iff_lt, not_lt]
  rfl

theorem readDhGen_eq_some {key : AuthKey} :
    readDhGen c ctx buf = some key ↔
      (tlReadUint32 (tlReaderInit buf)).1 = crcDhGenOk ∧ readNonce buf = ctx.nonce ∧
      ∃ authKey, cryptoBnModExp 256 ctx.gA ctx.b.1 ctx.dhPrime = some authKey ∧
        newNonceHash1 c ctx.newNonce (padAuthKey authKey) = (tlReadInt128 (afterNonces buf)).1.1 ∧
        padAuthKey authKey = key := by
  simp only [readDhGen, bind_eq_bind, bind_none, bind_eq_some_iff,
    ite_none_left_eq_some, some_inj, ne_eq, not_not]
  rfl

end Accepted

def Exchange.startCtx (e : Exchange) : AuthKeyCtx :=
  { authKeyCtxInit with nonce := e.nonce }

/-- The steps of an exchange that ends well, with the contexts between them. -/
inductive Accepted (c : Crypto) (e : Exchange) (key : AuthKey) : Prop
  | intro (ctx₁ ctx₂ ctx₃ : AuthKeyCtx) (encrypted gB : Bytes)
      (sent : e.reqPq.goesOut = true ∧ e.reqDh.goesOut = true ∧ e.clientDh.goesOut = true)
      (resPq : (rpcRecvUnencrypted e.reqPq.reply 4096).bind (readResPQ c e.startCtx) = some ctx₁)
      (reqDh : prepareReqDh c e ctx₁ = some (ctx₂, encrypted))
      (dhParams : (rpcRecvUnencrypted e.reqDh.reply 4096).bind (readServerDHParams c e ctx₂) =
        some ctx₃)
      (clientDh : cryptoBnModExp 256 (uint32ToBe ctx₃.g.toUInt32) e.b.1 ctx₃.dhPrime = some gB)
      (dhGen : (rpcRecvUnencrypted e.clientDh.reply 4096).bind
        (readDhGen c { ctx₃ with b := e.b }) = some key)

section Exchange

variable {c : Crypto} {e : Exchange} {w : Wire}

variable {ctx ctx' : AuthKeyCtx}

theorem authStepSetClientDh_true {w' : Wire} (h : authStepSetClientDh c e ctx w = (true, w')) :
    e.clientDh.goesOut = true ∧
      (∃ gB, cryptoBnModExp 256 (uint32ToBe ctx.g.toUInt32) e.b.1 ctx.dhPrime = some gB) ∧
      (rpcRecvUnencrypted e.clientDh.reply 4096).bind (readDhGen c { ctx with b := e.b }) =
        some w'.session.authKey := by
  simp only [authStepSetClientDh] at h
  split at h
  · exact absurd (congrArg Prod.fst h) Bool.false_ne_true
  rename_i gB hg
  split_ifs at h with hs
  · exact absurd (congrArg Prod.fst h) Bool.false_ne_true
  split at h
  · exact absurd (congrArg Prod.fst h) Bool.false_ne_true
  rename_i key hk
  obtain ⟨-, rfl⟩ := Prod.mk.inj h
  exact ⟨by simpa [rpcSendUnencrypted] using hs, ⟨gB, hg⟩, hk⟩

theorem authStepReqPq_eq_some :
    (authStepReqPq c e ctx w).1 = some ctx' ↔
      e.reqPq.goesOut = true ∧ (rpcRecvUnencrypted e.reqPq.reply 4096).bind
        (readResPQ c { ctx with nonce := e.nonce }) = some ctx' := by
  cases hs : e.reqPq.goesOut <;> simp [authStepReqPq, rpcSendUnencrypted, hs]

theorem authStepReqDh_eq_some :
    (authStepReqDh c e ctx w).1 = some ctx' ↔
      e.reqDh.goesOut = true ∧ ∃ encrypted, prepareReqDh c e ctx = some (ctx', encrypted) := by
  rcases hp : prepareReqDh c e ctx with _ | ⟨ctx₂, encrypted⟩
  · simp [authStepReqDh, hp]
  · cases hs : e.reqDh.goesOut <;> simp [authStepReqDh, rpcSendUnencrypted, hp, hs]

/-- **A key exchange ends well in one way only.** -/
theorem accepted_of_mtprotoAuthKeyGen {w' : Wire} (h : mtprotoAuthKeyGen c e w = (true, w')) :
    Accepted c e w'.session.authKey := by
  simp only [mtprotoAuthKeyGen] at h
  split at h
  · exact absurd (congrArg Prod.fst h) Bool.false_ne_true
  rename_i ctx₁ h1
  split at h
  · exact absurd (congrArg Prod.fst h) Bool.false_ne_true
  rename_i ctx₂ h2
  split at h
  · exact absurd (congrArg Prod.fst h) Bool.false_ne_true
  rename_i ctx₃ h3
  obtain ⟨hs1, h1⟩ := authStepReqPq_eq_some.mp h1
  obtain ⟨hs2, encrypted, h2⟩ := authStepReqDh_eq_some.mp h2
  obtain ⟨hs3, ⟨gB, h4⟩, h5⟩ := authStepSetClientDh_true h
  exact ⟨ctx₁, ctx₂, ctx₃, encrypted, gB, ⟨hs1, hs2, hs3⟩, h1, h2, h3, h4, h5⟩

theorem Accepted.mtprotoAuthKeyGen {key : AuthKey} (h : Accepted c e key) (w : Wire) :
    ∃ w', mtprotoAuthKeyGen c e w = (true, w') ∧ w'.session.authKey = key := by
  obtain ⟨ctx₁, ctx₂, ctx₃, enc, gB, ⟨hs1, hs2, hs3⟩, h1, h2, h3, h4, h5⟩ := h
  have e1 := (authStepReqPq_eq_some (w := w)).mpr ⟨hs1, h1⟩
  have e2 := (authStepReqDh_eq_some (w := (authStepReqPq c e authKeyCtxInit w).2)).mpr
    ⟨hs2, enc, h2⟩
  have e3 : authStepParseDh c e ctx₂ = some ctx₃ := h3
  simp only [Infrastructure.mtprotoAuthKeyGen, e1, e2, e3]
  simp only [authStepSetClientDh, h4, h5, rpcSendUnencrypted, hs3, Bool.not_true,
    Bool.false_eq_true, if_false]
  exact ⟨_, rfl, rfl⟩

end Exchange

/-! ## What an accepted reply says -/

theorem payload_of_bind {t : Turn} {α : Type} {f : Bytes → Option α} {a : α}
    (h : (rpcRecvUnencrypted t.reply 4096).bind f = some a) : f t.payload = some a := by
  obtain ⟨buf, hbuf, hf⟩ := bind_eq_some_iff.mp h
  rw [Turn.payload, hbuf]
  exact hf

theorem fields_of_readServerDHInner {data : Bytes} (h : readServerDHInner ctx data = some ctx') :
    nonceField data = ctx.nonce.1 ∧ serverNonceField data = ctx.serverNonce.1 ∧
      ctx'.nonce = ctx.nonce ∧ ctx'.newNonce = ctx.newNonce := by
  obtain ⟨-, hnonce, hsn, -, prime, hprime, -, ga, -, -, rfl⟩ := readServerDHInner_eq_some.mp h
  -- a byte string follows `g`, so `g` and everything before it was read from the data
  have hdata : (afterNonces data).data = data := by
    rw [afterNonces, data_tlReadInt128, data_tlReadInt128, data_tlReadUint32]
    rfl
  have hpos := tlReadBytes_some_pos hprime
  rw [afterG, snd_tlReadInt32, data_readFixed] at hpos
  have hfit := fits_of_pos_readFixed_lt hpos
  rw [hdata] at hfit
  have hlt : (afterNonces data).pos < data.length := by omega
  obtain ⟨hn, hs, -⟩ := read_nonces (length_of_afterNonces_lt hlt)
  exact ⟨by rw [← hn, hnonce], by rw [← hs, hsn], rfl, rfl⟩

theorem fields_of_readDhGen {c : Crypto} {key : AuthKey}
    (hlen : 52 ≤ buf.length) (h : readDhGen c ctx buf = some key) :
    nonceField buf = ctx.nonce.1 ∧ newNonceHashField buf = newNonceHash1 c ctx.newNonce key := by
  obtain ⟨-, hnonce, authKey, -, hhash, rfl⟩ := readDhGen_eq_some.mp h
  obtain ⟨hn, -, hafter⟩ := read_nonces (show 36 ≤ buf.length by omega)
  refine ⟨by rw [← hn, hnonce], ?_⟩
  rw [hhash, hafter]
  exact (congrArg Prod.fst (readFixed_of_le (r := ⟨buf, 36⟩) (n := 16) hlen)).symm

theorem fields_of_readResPQ {c : Crypto} (h : readResPQ c ctx buf = some ctx') :
    nonceField buf = ctx.nonce.1 ∧ serverNonceField buf = ctx'.serverNonce.1 ∧
      ctx'.nonce = ctx.nonce := by
  obtain ⟨-, hnonce, pq, hpq, -, -, rfl⟩ := readResPQ_eq_some.mp h
  obtain ⟨hn, hs, -⟩ := read_nonces_of_bytes hpq
  exact ⟨by rw [← hn, hnonce], hs.symm, rfl⟩

theorem fields_of_prepareReqDh {c : Crypto} {e : Exchange}
    {encrypted : Bytes} (h : prepareReqDh c e ctx = some (ctx', encrypted)) :
    ctx'.nonce = ctx.nonce ∧ ctx'.serverNonce = ctx.serverNonce ∧ ctx'.newNonce = e.newNonce := by
  obtain ⟨pq, -, rfl, -⟩ := prepareReqDh_eq_some.mp h
  exact ⟨rfl, rfl, rfl⟩

theorem fields_of_readServerDHParams {c : Crypto} {e : Exchange}
    (h : readServerDHParams c e ctx buf = some ctx') :
    nonceField buf = ctx.nonce.1 ∧ serverNonceField buf = ctx.serverNonce.1 ∧
      ∃ encAnswer, (tlReadBytes ⟨buf, 36⟩).1 = some encAnswer ∧
        let tmp := dhDeriveTempAes c ctx.newNonce ctx.serverNonce
        let data := (aesIgeDecrypt c encAnswer tmp.1 tmp.2 (e.malloc encAnswer.length)).drop 20
        nonceField data = ctx.nonce.1 ∧ serverNonceField data = ctx.serverNonce.1 ∧
          ctx'.nonce = ctx.nonce ∧ ctx'.newNonce = ctx.newNonce := by
  obtain ⟨-, hnonce, hsn, enc, henc, -, hinner⟩ := readServerDHParams_eq_some.mp h
  obtain ⟨hn, hs, hafter⟩ := read_nonces_of_bytes henc
  rw [hafter] at henc
  obtain ⟨ni, si, hctx, hnew⟩ := fields_of_readServerDHInner hinner
  exact ⟨by rw [← hn, hnonce], by rw [← hs, hsn], enc, henc, ni, si, hctx, hnew⟩

end TgCli.Infrastructure
