import TgCli.Infrastructure.MtprotoAuthVerified
import Mathlib.Data.Nat.ModEq
import Mathlib.Data.Nat.Prime.Defs

/-!
# The key exchange with an honest server

`HonestServer` is the other party of `mtproto_auth_key_gen`.  It reads the packets that the client
puts on the wire --- it knows nothing else of it --- and holds the RSA key, so it can decrypt the
inner data; it checks what a server checks (nonces, the factors, the fingerprint, the two hashes)
and says nothing when a check fails.

Either party reads exactly what the other writes, message by message.

Every number travels as a byte string: `pq` and its factors without leading zeros, `g_b` with the
length of the prime, the key with 256 bytes.  What is compared is therefore `beNat` of the strings,
and the key of a small residue has its zeros on the left on both sides.
-/

namespace TgCli.Infrastructure

open List Lib TgCli.Core

/-! ## Numbers as byte strings -/

theorem beNat_wordToBe {w val : ℕ} (h : val < 256 ^ w) : beNat (wordToBe w val) = val := by
  have hback := beNat_beBytes_of_lt h
  rw [wordToBe]
  split_ifs with hz
  · -- all bytes are zero, and the last one is kept
    have hzero : val = 0 := by
      rw [← hback, ← beNat_dropWhile, hz]
      rfl
    have hsplit := beNat_append ((beBytes w val).take (w - 1)) ((beBytes w val).drop (w - 1))
    rw [take_append_drop, hback] at hsplit
    omega
  · rw [beNat_dropWhile, hback]

theorem beNat_uint32ToBe (v : UInt32) : beNat (uint32ToBe v) = v.toNat :=
  beNat_wordToBe v.toNat_lt

theorem beNat_uint64ToBe (v : UInt64) : beNat (uint64ToBe v) = v.toNat :=
  beNat_wordToBe v.toNat_lt

theorem length_uint32ToBe_lt (v : UInt32) : (uint32ToBe v).length < 2 ^ 24 :=
  (length_wordToBe_le 4 v.toNat).trans_lt (by decide)

theorem length_uint64ToBe_lt (v : UInt64) : (uint64ToBe v).length < 2 ^ 24 :=
  (length_wordToBe_le 8 v.toNat).trans_lt (by decide)

theorem toNat_shift_or (v : UInt64) (b : UInt8) :
    ((v <<< 8) ||| b.toUInt64).toNat = (v.toNat * 256 + b.toNat) % 2 ^ 64 := by
  have h8 : (8 : UInt64).toNat % 64 = 8 := rfl
  have hs : (v.toNat <<< 8) % 2 ^ 64 = (v.toNat % 2 ^ 56) <<< 8 := by
    rw [Nat.shiftLeft_eq, Nat.shiftLeft_eq]
    omega
  rw [UInt64.toNat_or, UInt64.toNat_shiftLeft, UInt8.toNat_toUInt64, h8, hs,
    ← Nat.shiftLeft_add_eq_or_of_lt b.toNat_lt, Nat.shiftLeft_eq]
  have hb := b.toNat_lt
  omega

theorem toNat_beToUint64 (b : Bytes) : (beToUint64 b).toNat = beNat b % 2 ^ 64 := by
  have hacc : ∀ (b : Bytes) (v : UInt64),
      (b.foldl (fun (val : UInt64) (x : UInt8) => (val <<< 8) ||| x.toUInt64) v).toNat =
        (v.toNat * 256 ^ b.length + beNat b) % 2 ^ 64 := by
    intro b
    induction b with
    | nil => exact fun v => (Nat.mod_eq_of_lt v.toNat_lt).symm.trans (by simp [beNat, leNat])
    | cons x xs ih =>
      intro v
      have hx : beNat (x :: xs) = x.toNat * 256 ^ xs.length + beNat xs := beNat_append [x] xs
      have hmod := (Nat.mod_modEq (v.toNat * 256 + x.toNat) (2 ^ 64)).mul_right (256 ^ xs.length)
      rw [foldl_cons, ih, toNat_shift_or, hx, length_cons]
      refine (hmod.add_right (beNat xs)).trans (congrArg (· % 2 ^ 64) ?_)
      ring
  have h := hacc b 0
  rwa [UInt64.toNat_zero, zero_mul, zero_add] at h

theorem rest_pQInnerData (ctx : AuthKeyCtx) (rest : Bytes) :
    (tlReaderInit (pQInnerData ctx ++ rest)).rest = u32Bytes crcPQInnerData ++
      (tlBytes (uint64ToBe ctx.pq) ++ (tlBytes (uint32ToBe ctx.p) ++ (tlBytes (uint32ToBe ctx.q) ++
        (ctx.nonce.1 ++ (ctx.serverNonce.1 ++ (ctx.newNonce.1 ++ rest)))))) := by
  rw [rest_tlReaderInit, pQInnerData]
  simp only [tlWriteUint32, tlWriteBytes_eq, tlWriteInt128, tlWriteInt256, nil_append,
    append_assoc]

theorem rest_reqDHParams (c : Crypto) (ctx : AuthKeyCtx) (encrypted : Bytes) :
    (tlReaderInit (reqDHParams c ctx encrypted)).rest = u32Bytes crcReqDHParams ++
      (ctx.nonce.1 ++ (ctx.serverNonce.1 ++ (tlBytes (uint32ToBe ctx.p) ++
        (tlBytes (uint32ToBe ctx.q) ++ (u64Bytes c.serverKeyFingerprint ++
          (tlBytes encrypted ++ [])))))) := by
  rw [rest_tlReaderInit, reqDHParams]
  simp only [tlWriteUint32, tlWriteUint64, tlWriteBytes_eq, tlWriteInt128, nil_append,
    append_assoc, append_nil]

/-- A number of at most 256 bytes as a key. -/
def keyOf (n : ℕ) : AuthKey :=
  ⟨beBytes 256 n, length_beBytes 256 n⟩

theorem replicate_append_eq_beBytes {b : Bytes} {w : ℕ} (h : b.length ≤ w) :
    replicate (w - b.length) 0 ++ b = beBytes w (beNat b) := by
  rw [← beNat_replicate_append (w - b.length) b, beBytes_beNat]
  rw [length_append, length_replicate]
  omega

-- unification must not compute with 256-byte numbers
attribute [local irreducible] beNat beBytes

theorem padAuthKey_eq {b : Bytes} (h : b.length ≤ 256) : padAuthKey b = keyOf (beNat b) := by
  rw [padAuthKey, dif_pos h]
  exact Subtype.ext (replicate_append_eq_beBytes h)

/-! ## The server -/

/-- A server: its RSA key, and what it chooses for one exchange. -/
structure HonestServer extends DhOffer where
  rsaDecrypt : Bytes → Bytes
  fingerprints : List UInt64
  /-- `pq` as it is sent. -/
  pqBytes : Bytes
  /-- The server's secret. -/
  a : ℕ
  /-- Random bytes behind the inner data. -/
  pad : Block 16
  msgId : UInt64
  length_fingerprints : fingerprints.length ≤ 64
  length_pqBytes : pqBytes.length ≤ 8
  prime_dhPrime : (beNat dhPrime).Prime
  beNat_gA : beNat gA = g.toUInt32.toNat ^ a % beNat dhPrime

namespace HonestServer

variable (c : Crypto) (sv : HonestServer)

/-- `pq` as a word. -/
def pq : UInt64 :=
  UInt64.ofNat (beNat sv.pqBytes)

def modulus : ℕ :=
  beNat sv.dhPrime

/-- The key that the server derives from the client's `g_b`: `g_b ^ a` in 256 bytes. -/
def key (gB : Bytes) : AuthKey :=
  keyOf (beNat gB ^ sv.a % sv.modulus)

def salt (newNonce : Block 32) : Bytes :=
  List.zipWith (· ^^^ ·) (newNonce.1.take 8) (sv.serverNonce.1.take 8)

/-! ### What it derives

The two parties derive the temporary key and the hash of the key on their own.  The server does it
as the protocol describes it: the key and the vector are put together from substrings of three
hashes, and the hash of the key from the higher and the lower bits of numbers. -/

def tmpAesKey (newNonce : Block 32) : Bytes :=
  (c.sha1 (newNonce.1 ++ sv.serverNonce.1)).1 ++
    slice (c.sha1 (sv.serverNonce.1 ++ newNonce.1)).1 0 12

def tmpAesIv (newNonce : Block 32) : Bytes :=
  slice (c.sha1 (sv.serverNonce.1 ++ newNonce.1)).1 12 8 ++
    ((c.sha1 (newNonce.1 ++ newNonce.1)).1 ++ slice newNonce.1 0 4)

theorem length_tmpAesKey (newNonce : Block 32) : (sv.tmpAesKey c newNonce).length = 32 := by
  rw [tmpAesKey, length_append, length_slice, length_block, length_block]
  rfl

theorem length_tmpAesIv (newNonce : Block 32) : (sv.tmpAesIv c newNonce).length = 32 := by
  rw [tmpAesIv, length_append, length_append, length_slice, length_slice, length_block,
    length_block, length_block]
  rfl

def tmpAes (newNonce : Block 32) : Block 32 × Block 32 :=
  (⟨sv.tmpAesKey c newNonce, sv.length_tmpAesKey c newNonce⟩,
    ⟨sv.tmpAesIv c newNonce, sv.length_tmpAesIv c newNonce⟩)

/-- `auth_key_aux_hash`: the 64 higher bits of the hash of the key. -/
def auxHash (key : AuthKey) : Bytes :=
  beBytes 8 (beNat (c.sha1 key.1).1 / 2 ^ 96)

/-- `new_nonce_hash1`: the 128 lower bits of the hash of the nonce, a byte 1 and the auxiliary hash.
-/
def nonceHash (newNonce : Block 32) (key : AuthKey) : Block 16 :=
  ⟨beBytes 16 (beNat (c.sha1 (newNonce.1 ++ 1 :: auxHash c key)).1 % 2 ^ 128), length_beBytes 16 _⟩

/-- **The client derives the same temporary key**, and its blocks are cut and filled up nowhere. -/
theorem dhDeriveTempAes_eq (newNonce : Block 32) :
    dhDeriveTempAes c newNonce sv.serverNonce = sv.tmpAes c newNonce := by
  have hlen : ((c.sha1 (sv.serverNonce.1 ++ newNonce.1)).1.drop 12).length = 8 := by
    rw [length_drop, length_block]
  have hkey : (c.sha1 (newNonce.1 ++ sv.serverNonce.1)).1 ++
      (c.sha1 (sv.serverNonce.1 ++ newNonce.1)).1.take 12 = sv.tmpAesKey c newNonce := by
    rw [tmpAesKey, slice_zero]
  have hiv : (c.sha1 (sv.serverNonce.1 ++ newNonce.1)).1.drop 12 ++
      (c.sha1 (newNonce.1 ++ newNonce.1)).1 ++ newNonce.1.take 4 = sv.tmpAesIv c newNonce := by
    rw [tmpAesIv, slice, slice_zero, take_of_length_le hlen.le, append_assoc]
  rw [dhDeriveTempAes, hkey, hiv]
  exact Prod.ext (Subtype.ext (toBlock_of_length (sv.length_tmpAesKey c newNonce)))
    (Subtype.ext (toBlock_of_length (sv.length_tmpAesIv c newNonce)))

theorem beBytes_div (b : Block 20) : beBytes 8 (beNat b.1 / 2 ^ 96) = b.1.take 8 := by
  have hlen : (b.1.drop 8).length = 12 := by rw [length_drop, length_block]
  have hsplit := beNat_append (b.1.take 8) (b.1.drop 8)
  have hlow := beNat_lt (b.1.drop 8)
  rw [take_append_drop, hlen] at hsplit
  rw [hlen] at hlow
  have hdiv : beNat b.1 / 2 ^ 96 = beNat (b.1.take 8) := by omega
  rw [hdiv, beBytes_beNat (by rw [length_take, length_block]; rfl)]

theorem beBytes_mod (b : Block 20) : beBytes 16 (beNat b.1 % 2 ^ 128) = b.1.drop 4 := by
  have hlen : (b.1.drop 4).length = 16 := by rw [length_drop, length_block]
  have hsplit := beNat_append (b.1.take 4) (b.1.drop 4)
  have hlow := beNat_lt (b.1.drop 4)
  rw [take_append_drop, hlen] at hsplit
  rw [hlen] at hlow
  have hmod : beNat b.1 % 2 ^ 128 = beNat (b.1.drop 4) := by omega
  rw [hmod, beBytes_beNat hlen]

/-- **The client computes the same hash of a key.** -/
theorem newNonceHash1_eq (newNonce : Block 32) (key : AuthKey) :
    newNonceHash1 c newNonce key = (nonceHash c newNonce key).1 := by
  refine Eq.trans ?_ (beBytes_mod _).symm
  rw [auxHash, beBytes_div, newNonceHash1, append_assoc, singleton_append]

/-! ### What it says -/

def resPQ (nonce : Block 16) : Bytes :=
  resPQBytes nonce sv.serverNonce sv.pqBytes sv.fingerprints

def serverDHParams (nonce : Block 16) (newNonce : Block 32) : Bytes :=
  sv.paramsBytes (c.sha1 (sv.innerData nonce [])) nonce sv.pad c (sv.tmpAes c newNonce)

def dhGenOk (nonce : Block 16) (newNonce : Block 32) (gB : Bytes) : Bytes :=
  dhGenOkBytes nonce sv.serverNonce (nonceHash c newNonce (sv.key gB))

/-! ### What it reads -/

def readReqPq (buf : Bytes) : Option (Block 16) := do
  let crc := tlReadUint32 (tlReaderInit buf)
  if crc.1 ≠ crcReqPqMulti then none
  some (tlReadInt128 crc.2).1

/-- `p_q_inner_data` for the factors `p` and `q`: the new nonce, and what follows the data. -/
def readPQInner (nonce : Block 16) (p q data : Bytes) : Option (Block 32 × Bytes) := do
  let crc := tlReadUint32 (tlReaderInit data)
  if crc.1 ≠ crcPQInnerData then none
  let pqIn := tlReadBytes crc.2
  let pqBytes ← pqIn.1
  let pIn := tlReadBytes pqIn.2
  let pBytes ← pIn.1
  let qIn := tlReadBytes pIn.2
  let qBytes ← qIn.1
  if beNat pqBytes ≠ beNat sv.pqBytes ∨ pBytes ≠ p ∨ qBytes ≠ q then none
  let nonceIn := tlReadInt128 qIn.2
  let snIn := tlReadInt128 nonceIn.2
  if nonceIn.1 ≠ nonce ∨ snIn.1 ≠ sv.serverNonce then none
  let newNonce := tlReadInt256 snIn.2
  some (newNonce.1, newNonce.2.rest)

/-- `data` without the `rest` it ends with. -/
def before (data rest : Bytes) : Bytes :=
  data.take (data.length - rest.length)

def readReqDh (nonce : Block 16) (buf : Bytes) : Option (Block 32) := do
  let crc := tlReadUint32 (tlReaderInit buf)
  if crc.1 ≠ crcReqDHParams then none
  let nonceIn := tlReadInt128 crc.2
  let snIn := tlReadInt128 nonceIn.2
  if nonceIn.1 ≠ nonce ∨ snIn.1 ≠ sv.serverNonce then none
  let pIn := tlReadBytes snIn.2
  let p ← pIn.1
  let qIn := tlReadBytes pIn.2
  let q ← qIn.1
  if beNat p * beNat q ≠ beNat sv.pqBytes then none
  let fp := tlReadUint64 qIn.2
  if fp.1 ∉ sv.fingerprints then none
  let encrypted ← (tlReadBytes fp.2).1
  -- a zero byte, the hash, the data, padding
  let plain := sv.rsaDecrypt encrypted
  let data := plain.drop 21
  let inner ← sv.readPQInner nonce p q data
  if (c.sha1 (before data inner.2)).1 ≠ slice plain 1 20 then none
  some inner.1

/-- `client_DH_inner_data`: `g_b`, and what follows the data. -/
def readClientInner (nonce : Block 16) (data : Bytes) : Option (Bytes × Bytes) := do
  let crc := tlReadUint32 (tlReaderInit data)
  if crc.1 ≠ crcClientDHInnerData then none
  let nonceIn := tlReadInt128 crc.2
  let snIn := tlReadInt128 nonceIn.2
  if nonceIn.1 ≠ nonce ∨ snIn.1 ≠ sv.serverNonce then none
  let retryId := tlReadInt64 snIn.2
  if retryId.1 ≠ 0 then none
  let gBIn := tlReadBytes retryId.2
  let gB ← gBIn.1
  some (gB, gBIn.2.rest)

/-- The client's `g_b`, from `set_client_DH_params`. -/
def readClientDh (nonce : Block 16) (newNonce : Block 32) (buf : Bytes) : Option Bytes := do
  let crc := tlReadUint32 (tlReaderInit buf)
  if crc.1 ≠ crcSetClientDHParams then none
  let nonceIn := tlReadInt128 crc.2
  let snIn := tlReadInt128 nonceIn.2
  if nonceIn.1 ≠ nonce ∨ snIn.1 ≠ sv.serverNonce then none
  let encrypted ← (tlReadBytes snIn.2).1
  let tmp := sv.tmpAes c newNonce
  let plain := aesIgeDecrypt c encrypted tmp.1 tmp.2 []
  let data := plain.drop 20
  let inner ← sv.readClientInner nonce data
  if (c.sha1 (before data inner.2)).1 ≠ plain.take 20 then none
  some inner.1

/-! ### Its run -/

inductive State
  | idle
  | asked (nonce : Block 16)
  | keyed (nonce : Block 16) (newNonce : Block 32)
  | done (key : AuthKey) (salt : Bytes)

/-- The server's step: a packet of the client, the packet that answers it. -/
def answer (st : State) (packet : Bytes) : Option (State × Bytes) := do
  let buf ← rpcRecvUnencrypted (some packet) 4096
  match st with
  | .idle =>
    let nonce ← readReqPq buf
    some (.asked nonce, unencryptedPacket sv.msgId (sv.resPQ nonce))
  | .asked nonce =>
    let newNonce ← sv.readReqDh c nonce buf
    some (.keyed nonce newNonce,
      unencryptedPacket sv.msgId (sv.serverDHParams c nonce newNonce))
  | .keyed nonce newNonce =>
    let gB ← sv.readClientDh c nonce newNonce buf
    some (.done (sv.key gB) (sv.salt newNonce),
      unencryptedPacket sv.msgId (sv.dhGenOk c nonce newNonce gB))
  | .done _ _ => none

/-- The packets that answer a sequence of packets, up to the first that is refused. -/
def serve (st : State) : List Bytes → State × List Bytes
  | [] => (st, [])
  | packet :: packets =>
    match sv.answer c st packet with
    | none => (st, [])
    | some (st', reply) => ((serve st' packets).1, reply :: (serve st' packets).2)

/-! ### The server reads what the client writes -/

/-- What the primitives have to do: AES decrypts what it encrypted, and the server's RSA key opens
what the client seals. -/
structure Opens (c : Crypto) (sv : HonestServer) : Prop where
  aes : ∀ key b, c.aesDecryptBlock key (c.aesEncryptBlock key b) = b
  rsa : ∀ m : Bytes, m.length = 255 → ∃ encrypted, c.rsaPublicEncrypt (0 :: m) = some encrypted ∧
    encrypted.length = 256 ∧ sv.rsaDecrypt encrypted = 0 :: m
  fingerprint : c.serverKeyFingerprint ∈ sv.fingerprints

theorem before_append (a b : Bytes) : before (a ++ b) b = a := by
  rw [before, length_append, Nat.add_sub_cancel, take_left]

theorem readReqPq_reqPqMulti (ctx : AuthKeyCtx) : readReqPq (reqPqMulti ctx) = some ctx.nonce := by
  have hrest :
    (tlReaderInit (reqPqMulti ctx)).rest = u32Bytes crcReqPqMulti ++ (ctx.nonce.1 ++ []) :=
    (append_nil _).symm.trans (append_assoc ..)
  obtain ⟨h1, r1⟩ := tlReadUint32_of_rest hrest
  obtain ⟨h2, -⟩ := tlReadInt128_of_rest r1
  simp only [readReqPq, Option.bind_eq_bind, h1, h2, ne_eq, not_true_eq_false, if_false]

variable {c sv}

variable {ctx : AuthKeyCtx}

theorem readPQInner_pQInnerData (hpq : ctx.pq.toNat = beNat sv.pqBytes)
    (hs : ctx.serverNonce = sv.serverNonce) (rest : Bytes) :
    sv.readPQInner ctx.nonce (uint32ToBe ctx.p) (uint32ToBe ctx.q) (pQInnerData ctx ++ rest) =
      some (ctx.newNonce, rest) := by
  obtain ⟨h1, r1⟩ := tlReadUint32_of_rest (rest_pQInnerData ctx rest)
  obtain ⟨h2, r2⟩ := tlReadBytes_of_rest (length_uint64ToBe_lt _) r1
  obtain ⟨h3, r3⟩ := tlReadBytes_of_rest (length_uint32ToBe_lt _) r2
  obtain ⟨h4, r4⟩ := tlReadBytes_of_rest (length_uint32ToBe_lt _) r3
  obtain ⟨h5, r5⟩ := tlReadInt128_of_rest r4
  obtain ⟨h6, r6⟩ := tlReadInt128_of_rest r5
  obtain ⟨h7, r7⟩ := tlReadInt256_of_rest r6
  simp only [readPQInner, Option.bind_eq_bind, Option.bind_some, h1, h2, h3, h4, h5, h6, h7, r7,
    beNat_uint64ToBe, hpq, hs, ne_eq, not_true_eq_false, or_self, if_false]

theorem rsaSha1Encrypt_opens (hc : Opens c sv) (pad : Block 235) {data : Bytes}
    (h : data.length ≤ 235) :
    ∃ encrypted, rsaSha1Encrypt c pad data = some encrypted ∧ encrypted.length = 256 ∧
      slice (sv.rsaDecrypt encrypted) 1 20 = (c.sha1 data).1 ∧
      ∃ rest, (sv.rsaDecrypt encrypted).drop 21 = data ++ rest := by
  set m := (c.sha1 data).1 ++ data ++ pad.1.take (235 - data.length) with hm
  have hlen : m.length = 255 := by
    rw [hm, length_append, length_append, length_take, length_block, length_block]
    omega
  obtain ⟨encrypted, henc, hsize, hdec⟩ := hc.rsa m hlen
  refine ⟨encrypted, ?_, hsize, ?_, pad.1.take (235 - data.length), ?_⟩
  · rw [rsaSha1Encrypt, if_neg (not_lt.mpr h), henc]
  · rw [hdec, hm]
    rw [slice, drop_succ_cons, drop_zero, append_assoc,
      take_left' (length_block _)]
  · rw [hdec, hm]
    show drop 20 _ = _
    rw [append_assoc, drop_left' (length_block _)]

theorem readReqDh_reqDHParams (hc : Opens c sv)
    (hpq : ctx.pq.toNat = beNat sv.pqBytes) (hfactors : ctx.p.toNat * ctx.q.toNat = ctx.pq.toNat)
    (hs : ctx.serverNonce = sv.serverNonce) {pad : Block 235} {encrypted : Bytes}
    (henc : rsaSha1Encrypt c pad (pQInnerData ctx) = some encrypted) :
    sv.readReqDh c ctx.nonce (reqDHParams c ctx encrypted) = some ctx.newNonce := by
  obtain ⟨encrypted', henc', hopens⟩ := rsaSha1Encrypt_opens hc pad (length_pQInnerData_le ctx)
  rw [Option.some_inj.mp (henc'.symm.trans henc)] at hopens
  obtain ⟨hsize, hhash, rest, hdata⟩ := hopens
  obtain ⟨h1, r1⟩ := tlReadUint32_of_rest (rest_reqDHParams c ctx encrypted)
  obtain ⟨h2, r2⟩ := tlReadInt128_of_rest r1
  obtain ⟨h3, r3⟩ := tlReadInt128_of_rest r2
  obtain ⟨h4, r4⟩ := tlReadBytes_of_rest (length_uint32ToBe_lt _) r3
  obtain ⟨h5, r5⟩ := tlReadBytes_of_rest (length_uint32ToBe_lt _) r4
  obtain ⟨h6, r6⟩ := tlReadUint64_of_rest r5
  obtain ⟨h7, -⟩ := tlReadBytes_of_rest (hsize.trans_lt (by decide)) r6
  have hinner := readPQInner_pQInnerData hpq hs rest
  simp only [readReqDh, Option.bind_eq_bind, Option.bind_some, h1, h2, h3, h4, h5, h6, h7, hdata,
    hinner, before_append, hhash, beNat_uint32ToBe, hfactors, hpq, hs, hc.fingerprint, ne_eq,
    not_true_eq_false, or_self, if_false]

def clientInner (ctx : AuthKeyCtx) (gB : Bytes) : Bytes :=
  u32Bytes crcClientDHInnerData ++ (ctx.nonce.1 ++ (ctx.serverNonce.1 ++
    (u64Bytes (0 : Int64).toUInt64 ++ tlBytes gB)))

theorem clientDhPlain_eq (ctx : AuthKeyCtx) (gB : Bytes) (pad : Block 16) :
    ∃ rest, clientDhPlain c ctx gB pad =
        (c.sha1 (clientInner ctx gB)).1 ++ (clientInner ctx gB ++ rest) ∧
      (clientDhPlain c ctx gB pad).length % 16 = 0 ∧ clientDhPlain c ctx gB pad ≠ [] ∧
      (clientDhPlain c ctx gB pad).length ≤ gB.length + 86 := by
  have hinner : clientDhPlain c ctx gB pad = (c.sha1 (clientInner ctx gB)).1 ++
      (clientInner ctx gB ++ pad.1.take ((16 - (20 + (clientInner ctx gB).length) % 16) % 16)) := by
    simp only [clientDhPlain, clientInner, tlWriteUint32, tlWriteInt64, tlWriteUint64,
      tlWriteBytes_eq, tlWriteInt128, nil_append, append_assoc]
  have hbytes := length_tlBytes_le gB
  have hlen : (clientInner ctx gB).length ≤ gB.length + 51 := by
    simp only [clientInner, length_append, length_u32Bytes, length_u64Bytes, length_block]
    omega
  rw [hinner]
  generalize clientInner ctx gB = inner at hlen ⊢
  have hall : ((c.sha1 inner).1 ++
      (inner ++ pad.1.take ((16 - (20 + inner.length) % 16) % 16))).length =
        20 + inner.length + (16 - (20 + inner.length) % 16) % 16 := by
    rw [length_append, length_append, length_take, length_block, length_block]
    omega
  refine ⟨_, rfl, by omega, ne_nil_of_length_pos (by omega), by omega⟩

theorem readClientInner_clientInner (hs : ctx.serverNonce = sv.serverNonce)
    {gB : Bytes} (hgB : gB.length ≤ 256) (rest : Bytes) :
    sv.readClientInner ctx.nonce (clientInner ctx gB ++ rest) = some (gB, rest) := by
  have hrest : (tlReaderInit (clientInner ctx gB ++ rest)).rest =
      u32Bytes crcClientDHInnerData ++ (ctx.nonce.1 ++ (ctx.serverNonce.1 ++
        (u64Bytes (0 : Int64).toUInt64 ++ (tlBytes gB ++ rest)))) := by
    simp only [rest_tlReaderInit, clientInner, append_assoc]
  obtain ⟨h1, r1⟩ := tlReadUint32_of_rest hrest
  obtain ⟨h2, r2⟩ := tlReadInt128_of_rest r1
  obtain ⟨h3, r3⟩ := tlReadInt128_of_rest r2
  obtain ⟨h4, r4⟩ := tlReadInt64_of_rest r3
  obtain ⟨h5, r5⟩ := tlReadBytes_of_rest (hgB.trans_lt (by decide)) r4
  simp only [readClientInner, Option.bind_eq_bind, Option.bind_some, h1, h2, h3, h4, h5, r5, hs,
    ne_eq, not_true_eq_false, or_self, if_false]

theorem readClientDh_setClientDHParams (hc : Opens c sv) (e : Exchange)
    (hs : ctx.serverNonce = sv.serverNonce)
    (htmp : sv.tmpAes c ctx.newNonce = (ctx.tmpAesKey, ctx.tmpAesIv))
    {gB : Bytes} (hgB : gB.length ≤ 256) :
    sv.readClientDh c ctx.nonce ctx.newNonce (setClientDHParams c e ctx gB) = some gB := by
  obtain ⟨rest, hplain, hmod, hne, hle⟩ := clientDhPlain_eq (c := c) ctx gB e.dhPad
  set plain := clientDhPlain c ctx gB e.dhPad
  set encrypted := aesIgeEncrypt c plain ctx.tmpAesKey ctx.tmpAesIv (e.malloc plain.length)
    with henc
  have hsize : encrypted.length < 2 ^ 24 := by
    rw [henc, length_aesIgeEncrypt c hne hmod]
    omega
  have hdec : aesIgeDecrypt c encrypted ctx.tmpAesKey ctx.tmpAesIv [] = plain :=
    aesIgeDecrypt_aesIgeEncrypt hc.aes hne hmod _ _ _ _
  have hrest : (tlReaderInit (setClientDHParams c e ctx gB)).rest = u32Bytes crcSetClientDHParams ++
      (ctx.nonce.1 ++ (ctx.serverNonce.1 ++ (tlBytes encrypted ++ []))) := by
    rw [rest_tlReaderInit, setClientDHParams]
    simp only [tlWriteUint32, tlWriteBytes_eq, tlWriteInt128, nil_append,
      append_assoc, append_nil]
    rfl
  obtain ⟨h1, r1⟩ := tlReadUint32_of_rest hrest
  obtain ⟨h2, r2⟩ := tlReadInt128_of_rest r1
  obtain ⟨h3, r3⟩ := tlReadInt128_of_rest r2
  obtain ⟨h4, -⟩ := tlReadBytes_of_rest hsize r3
  have hinner := readClientInner_clientInner hs hgB rest
  simp only [readClientDh, Option.bind_eq_bind, Option.bind_some, h1, h2, h3, h4, htmp, hdec,
    hplain, drop_left' (length_block _), take_left' (length_block _), hinner,
    before_append, hs, ne_eq, not_true_eq_false, or_self, if_false]

/-! ### The client reads what the server writes -/

theorem modulus_pos : 0 < beNat sv.dhPrime :=
  sv.prime_dhPrime.pos

theorem toNat_pq : (beToUint64 sv.pqBytes).toNat = beNat sv.pqBytes := by
  have hlt : beNat sv.pqBytes < 2 ^ 64 :=
    (beNat_lt sv.pqBytes).trans_le (Nat.pow_le_pow_right (n := 256) (by decide) sv.length_pqBytes)
  rw [toNat_beToUint64, Nat.mod_eq_of_lt hlt]

theorem readResPQ_resPQ (hc : Opens c sv) (ctx : AuthKeyCtx) :
    readResPQ c ctx (sv.resPQ ctx.nonce) =
      some { ctx with serverNonce := sv.serverNonce, pq := beToUint64 sv.pqBytes } :=
  readResPQ_resPQBytes ctx sv.serverNonce sv.length_pqBytes sv.length_fingerprints hc.fingerprint

theorem readServerDHParams_serverDHParams (hc : Opens c sv) (e : Exchange)
    (hs : ctx.serverNonce = sv.serverNonce) :
    readServerDHParams c e ctx (sv.serverDHParams c ctx.nonce ctx.newNonce) =
      some { ctx with
        tmpAesKey := (sv.tmpAes c ctx.newNonce).1
        tmpAesIv := (sv.tmpAes c ctx.newNonce).2
        g := sv.g
        dhPrime := sv.dhPrime
        gA := sv.gA
        serverTime := sv.serverTime } :=
  sv.readServerDHParams_paramsBytes _ sv.pad hc.aes e hs (sv.dhDeriveTempAes_eq c ctx.newNonce)

theorem pow_agree (b : ℕ) :
    beNat sv.gA ^ b % sv.modulus =
      (sv.g.toUInt32.toNat ^ b % sv.modulus) ^ sv.a % sv.modulus := by
  rw [sv.beNat_gA, modulus, ← Nat.pow_mod, ← Nat.pow_mod, pow_right_comm]

def gB (sv : HonestServer) (b : Block 256) : Bytes :=
  beBytes sv.dhPrime.length (sv.g.toUInt32.toNat ^ beNat b.1 % sv.modulus)

theorem length_gB_le (b : Block 256) : (sv.gB b).length ≤ 256 :=
  (length_beBytes _ _).trans_le sv.length_dhPrime

theorem beNat_gB (b : Block 256) : beNat (sv.gB b) = sv.g.toUInt32.toNat ^ beNat b.1 % sv.modulus :=
  beNat_beBytes_of_lt ((Nat.mod_lt _ modulus_pos).trans (beNat_lt _))

/-- **Both parties raise to the same key.** -/
theorem padAuthKey_eq_key (b : Block 256) :
    padAuthKey (beBytes sv.dhPrime.length (beNat sv.gA ^ beNat b.1 % beNat sv.dhPrime)) =
      sv.key (sv.gB b) := by
  have hback : beNat (beBytes sv.dhPrime.length (beNat sv.gA ^ beNat b.1 % beNat sv.dhPrime)) =
      beNat sv.gA ^ beNat b.1 % beNat sv.dhPrime :=
    beNat_beBytes_of_lt ((Nat.mod_lt _ modulus_pos).trans (beNat_lt _))
  rw [padAuthKey_eq ((length_beBytes _ _).trans_le sv.length_dhPrime), hback, key, beNat_gB]
  exact congrArg keyOf (pow_agree (beNat b.1))

theorem readDhGen_dhGenOk (hp : ctx.dhPrime = sv.dhPrime) (hga : ctx.gA = sv.gA) :
    readDhGen c ctx (sv.dhGenOk c ctx.nonce ctx.newNonce (sv.gB ctx.b)) =
      some (sv.key (sv.gB ctx.b)) := by
  refine readDhGen_dhGenOkBytes ?_ ?_ ?_ (newNonceHash1_eq c _ _)
  · rw [hp]
    exact modulus_pos
  · rw [hp]
    exact sv.length_dhPrime
  · rw [hp, hga, padAuthKey_eq_key]

end HonestServer

end TgCli.Infrastructure
