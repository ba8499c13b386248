import TgCli.Infrastructure.MtprotoAuthServer

/-!
# What a finished key exchange has verified

`Verified` says what the protocol asks of a key exchange that ends well, over the bytes of the three
replies alone: nonces echoed in every reply, the hash in front of the decrypted answer, the range of
`g_a`, and `new_nonce_hash1` under the key that is stored.

Some of this the client checks and some it does not.  `Unchecked` is what it leaves open, and
`mtprotoAuthKeyGen_verified_iff` says that nothing else is.  A `ServerPlay` that uses this freedom
is accepted all the same, under every lawful `Crypto`.
-/

namespace TgCli.Infrastructure

open Lib TgCli.Core

/-! ## The property -/

def Exchange.serverNonce (e : Exchange) : Block 16 :=
  toBlock 16 (serverNonceField e.reqPq.payload)

/-- The decrypted answer of `server_DH_params_ok`: a hash, the inner data, and padding. -/
def Exchange.answer (c : Crypto) (e : Exchange) : Bytes :=
  let encAnswer := (tlReadBytes ⟨e.reqDh.payload, 36⟩).1.getD []
  let tmp := dhDeriveTempAes c e.newNonce e.serverNonce
  aesIgeDecrypt c encAnswer tmp.1 tmp.2 (e.malloc encAnswer.length)

/-- The parts of `server_DH_inner_data` that have no fixed place, and the size of the whole. -/
structure InnerLayout where
  dhPrime : Bytes
  gA : Bytes
  size : ℕ

/-- The inner data begins with its constructor, two nonces and `g`, which take 40 bytes; behind
`g_a` comes `server_time`. -/
def innerLayout (data : Bytes) : InnerLayout :=
  let prime := tlReadBytes ⟨data, 40⟩
  let ga := tlReadBytes prime.2
  ⟨prime.1.getD [], ga.1.getD [], ga.2.pos + 4⟩

/-- The hash in front of the inner data is that of the inner data, and `g_a` lies strictly between
1 and `dh_prime - 1`. -/
structure InnerSound (c : Crypto) (answer : Bytes) : Prop where
  hash : answer.take 20 = (c.sha1 ((answer.drop 20).take (innerLayout (answer.drop 20)).size)).1
  one_lt_gA : 1 < beNat (innerLayout (answer.drop 20)).gA
  gA_lt : beNat (innerLayout (answer.drop 20)).gA < beNat (innerLayout (answer.drop 20)).dhPrime - 1

/-- **What the protocol asks of an exchange that ends with `key`.** -/
structure Verified (c : Crypto) (e : Exchange) (key : AuthKey) : Prop where
  resPq_nonce : nonceField e.reqPq.payload = e.nonce.1
  dhParams_nonce : nonceField e.reqDh.payload = e.nonce.1
  dhParams_serverNonce : serverNonceField e.reqDh.payload = serverNonceField e.reqPq.payload
  inner_nonce : nonceField ((e.answer c).drop 20) = e.nonce.1
  inner_serverNonce : serverNonceField ((e.answer c).drop 20) = serverNonceField e.reqPq.payload
  dhGen_nonce : nonceField e.clientDh.payload = e.nonce.1
  dhGen_serverNonce : serverNonceField e.clientDh.payload = serverNonceField e.reqPq.payload
  inner_sound : InnerSound c (e.answer c)
  key_hash : newNonceHashField e.clientDh.payload = newNonceHash1 c e.newNonce key

/-- What of this the client does not look at. -/
structure Unchecked (c : Crypto) (e : Exchange) : Prop where
  dhGen_whole : 52 ≤ e.clientDh.payload.length
  dhGen_serverNonce : serverNonceField e.clientDh.payload = serverNonceField e.reqPq.payload
  inner_sound : InnerSound c (e.answer c)

/-- **What a finished key exchange has verified.**  When `mtproto_auth_key_gen` returns 0, the
exchange is verified exactly if the parts it does not check are in order. -/
theorem mtprotoAuthKeyGen_verified_iff (c : Crypto) (e : Exchange) (w w' : Wire)
    (h : mtprotoAuthKeyGen c e w = (true, w')) :
    Verified c e w'.session.authKey ↔ Unchecked c e := by
  constructor
  · intro hv
    refine ⟨?_, hv.dhGen_serverNonce, hv.inner_sound⟩
    -- the hash field has 16 bytes, so the reply reaches to its end
    have hlen := congrArg List.length hv.key_hash
    rw [newNonceHashField, length_slice, newNonceHash1, List.length_drop, (c.sha1 _).2] at hlen
    omega
  · intro hu
    obtain ⟨ctx₁, ctx₂, ctx₃, encrypted, gB, -, h1, h2, h3, -, h5⟩ :=
      accepted_of_mtprotoAuthKeyGen h
    obtain ⟨n1, s1, hc1⟩ := fields_of_readResPQ (payload_of_bind h1)
    obtain ⟨hc2, hs2, hnew⟩ := fields_of_prepareReqDh h2
    obtain ⟨n3, s3, enc, henc, ni, si, hc3, hn3⟩ :=
      fields_of_readServerDHParams (payload_of_bind h3)
    obtain ⟨n5, hash5⟩ := fields_of_readDhGen hu.dhGen_whole (payload_of_bind h5)
    have hstart : e.startCtx.nonce = e.nonce := rfl
    rw [hstart] at n1 hc1
    rw [hc2, hc1] at n3 ni hc3
    rw [hs2] at s3 si ni
    rw [hnew] at ni si hn3
    have hsn : e.serverNonce = ctx₁.serverNonce := by
      rw [Exchange.serverNonce, s1]
      exact Subtype.ext (toBlock_of_length ctx₁.serverNonce.2)
    have hdec : e.answer c = aesIgeDecrypt c enc
        (dhDeriveTempAes c e.newNonce ctx₁.serverNonce).1
        (dhDeriveTempAes c e.newNonce ctx₁.serverNonce).2 (e.malloc enc.length) := by
      simp only [Exchange.answer, henc, hsn, Option.getD_some]
    rw [← hdec] at ni si
    refine ⟨n1, n3, s3.trans s1.symm, ni, si.trans s1.symm, ?_, hu.dhGen_serverNonce,
      hu.inner_sound, ?_⟩
    · exact n5.trans (congrArg Subtype.val hc3)
    · exact hash5.trans (congrArg (newNonceHash1 c · _) hn3)

/-! ## An honest play and a forged one -/

/-- Simple primitives to run an exchange with: a hash that keeps the first twenty bytes, a cipher
that adds the key. -/
def demoCrypto : Crypto where
  sha1 b := toBlock 20 b
  sha256 b := toBlock 32 b
  pbkdf2HmacSha512 b _ _ := some (toBlock 64 b)
  aesEncryptBlock key b := xorBlock b (toBlock 16 key.1)
  aesDecryptBlock key b := xorBlock b (toBlock 16 key.1)
  rsaPublicEncrypt m := some m
  serverKeyFingerprint := 7

theorem demoCrypto_lawful : demoCrypto.Lawful where
  aes _ _ := xorBlock_self_right _ _
  rsa _ _ := rfl

/-- Client-side randomness: counting nonces and `b = 1`. -/
def demoClient : Exchange where
  nonce := toBlock 16 [1, 2, 3, 4]
  newNonce := toBlock 32 [5, 6, 7, 8]
  rsaPad := toBlock 235 []
  b := ⟨List.replicate 255 0 ++ [1], by rw [List.length_append, List.length_replicate]; rfl⟩
  dhPad := toBlock 16 []
  heap n := toBlock n []
  reqPq := ⟨0, 0, true, none⟩
  reqDh := ⟨0, 0, true, none⟩
  clientDh := ⟨0, 0, true, none⟩

def demoWire : Wire :=
  ⟨mtprotoSessionInit 1, []⟩

/-- A play with `dh_prime = 23`; the hash in front of the inner data, `g_a` and the last server
nonce are arguments. -/
def demoPlay (hash : Block 20) (gA : UInt8) (lastServerNonce : Block 16) : ServerPlay where
  serverNonce := toBlock 16 [9]
  lastServerNonce := lastServerNonce
  hash := hash
  g := 3
  dhPrime := [23]
  gA := [gA]
  serverTime := 0
  g_range := by decide
  dhPrime_ne := by decide
  length_dhPrime := by decide
  length_gA := Nat.one_le_ofNat

/-- The play of a server that follows the protocol, with `g_a = 5`. -/
def honestPlay : ServerPlay :=
  demoPlay (demoCrypto.sha1
    ((demoPlay (toBlock 20 []) 5 (toBlock 16 [9])).innerData demoClient.nonce []))
    5 (toBlock 16 [9])

theorem mtprotoAuthKeyGen_honestPlay_verified :
    ∃ w', mtprotoAuthKeyGen demoCrypto (honestPlay.exchange demoCrypto demoClient) demoWire =
        (true, w') ∧
      Verified demoCrypto (honestPlay.exchange demoCrypto demoClient) w'.session.authKey := by
  obtain ⟨w', hrun, -⟩ :=
    (honestPlay.accepted (e := demoClient) demoCrypto_lawful).mtprotoAuthKeyGen demoWire
  refine ⟨w', hrun, (mtprotoAuthKeyGen_verified_iff demoCrypto _ demoWire w' hrun).mpr ?_⟩
  exact ⟨by decide +kernel, by decide +kernel, by decide +kernel, by decide +kernel,
    by decide +kernel⟩

/-- **No lawful cryptography makes the client verify.**  Whatever the primitives are, a server that
puts zeros in front of the inner data, sends `g_a = 1` and ends with another server nonce is
accepted. -/
theorem mtprotoAuthKeyGen_accepts_forged_play :
    ¬ ∃ c : Crypto, c.Lawful ∧ ∀ (e : Exchange) (w w' : Wire),
      mtprotoAuthKeyGen c e w = (true, w') → Verified c e w'.session.authKey := by
  rintro ⟨c, hc, hall⟩
  set play := demoPlay (toBlock 20 []) 1 (toBlock 16 [10])
  obtain ⟨w', hrun, -⟩ := (play.accepted (e := demoClient) hc).mtprotoAuthKeyGen demoWire
  have hv := hall (play.exchange c demoClient) demoWire w' hrun
  obtain ⟨hp1, -, hp3⟩ := play.payloads c demoClient
  have hsn := hv.dhGen_serverNonce
  rw [hp1, hp3] at hsn
  have h1 : serverNonceField (play.resPQ c demoClient) = (toBlock 16 [9]).1 :=
    slice_field (p := u32Bytes crcResPQ ++ demoClient.nonce.1) (by
      rw [ServerPlay.resPQ, resPQBytes, List.append_assoc]; rfl) rfl rfl
  have h3 : serverNonceField (play.dhGenOk c demoClient) = (toBlock 16 [10]).1 :=
    slice_field (p := u32Bytes crcDhGenOk ++ demoClient.nonce.1) (by
      rw [ServerPlay.dhGenOk, dhGenOkBytes, List.append_assoc]; rfl) rfl rfl
  rw [h1, h3] at hsn
  exact absurd hsn (by decide)

end TgCli.Infrastructure
