import TgCli.Core.Crypto
import TgCli.Infrastructure.MtprotoRpc

/-!
# `infrastructure/mtproto_auth.c`: the key exchange

Four steps share one context: `req_pq_multi` and its answer, `req_DH_params`, the answer to it, and
`set_client_DH_params` with its answer.  The server has three replies, each a transport packet that
`rpc_recv_unencrypted` takes apart.  Everything from outside --- randomness, packets, whether a
send goes through, and the contents of fresh heap memory, which `aes_ige_decrypt` leaves in place
when the length is not a multiple of 16 --- is one record, `Exchange`.

Of each step, the part that looks at a reply is a function of its own (`readResPQ`,
`readServerDHParams`, `readDhGen`): these three hold every check the client makes.
-/

namespace TgCli.Infrastructure

open Lib TgCli.Core

/-! ## Constructors -/

def crcReqPqMulti : UInt32 := 0xbe7e8ef1
def crcResPQ : UInt32 := 0x05162463
def crcPQInnerData : UInt32 := 0x83c95aec
def crcReqDHParams : UInt32 := 0xd712e4be
def crcServerDHParamsOk : UInt32 := 0xd0e8075c
def crcServerDHInnerData : UInt32 := 0xb5890dba
def crcClientDHInnerData : UInt32 := 0x6643b654
def crcSetClientDHParams : UInt32 := 0xf5045f1f
def crcDhGenOk : UInt32 := 0x3bcbf734

def maxFpCount : ℕ := 64

/-! ## Big-endian helpers -/

/-- `uint64_to_be`, `uint32_to_be`: the big-endian bytes of a word of `w` bytes, without leading
zeros but with at least one byte. -/
def wordToBe (w val : ℕ) : Bytes :=
  let tmp := beBytes w val
  let stripped := tmp.dropWhile (· = 0)
  if stripped = [] then tmp.drop (w - 1) else stripped

def uint64ToBe (val : UInt64) : Bytes :=
  wordToBe 8 val.toNat

def uint32ToBe (val : UInt32) : Bytes :=
  wordToBe 4 val.toNat

/-- `be_to_uint64`: a longer string keeps its last eight bytes. -/
def beToUint64 (data : Bytes) : UInt64 :=
  data.foldl (fun val b => (val <<< 8) ||| b.toUInt64) 0

/-! ## Factorisation -/

/-- The inner loop of `pq_factorize`: Euclid's algorithm on `a` and `b`. -/
def euclid (a b : ℕ) : ℕ :=
  if _h : b = 0 then a else euclid b (a % b)
termination_by b
decreasing_by exact Nat.mod_lt _ (Nat.pos_of_ne_zero _h)

/-- Pollard's rho with the polynomial `x * x + c`, for at most `n` more steps. -/
def rhoLoop (pq c : ℕ) : ℕ → ℕ → ℕ → ℕ → ℕ
  | 0, _, _, d => d
  | n + 1, x, y, d =>
    if d ≠ 1 then d else
    let x := (x * x + c) % pq
    let y := (y * y + c) % pq
    let y := (y * y + c) % pq
    let a := if x > y then x - y else y - x
    if a = 0 then d else rhoLoop pq c n x y (euclid a pq)

/-- The attempts of `pq_factorize` with the given constants. -/
def rhoAttempts (pq : ℕ) : List ℕ → Option (UInt32 × UInt32)
  | [] => none
  | c :: cs =>
    let d := rhoLoop pq c 1000000 2 2 1
    if d ≠ 1 ∧ d ≠ pq then
      let p := min d (pq / d)
      let q := max d (pq / d)
      if p > 4294967295 ∨ q > 4294967295 then none else some (UInt32.ofNat p, UInt32.ofNat q)
    else rhoAttempts pq cs

/-- `pq_factorize`; an even `pq` is split off at once, its cofactor cut to 32 bits. -/
def pqFactorize (pq : UInt64) : Option (UInt32 × UInt32) :=
  if pq < 2 then none
  else if pq % 2 = 0 then
    let q := UInt32.ofNat (pq.toNat / 2)
    if 2 > q then some (q, 2) else some (2, q)
  else rhoAttempts pq.toNat ((List.range 19).map (· + 1))

/-! ## The context -/

/-- `AuthKeyCtx`; `dh_prime` and `g_a` are the bytes in use of their arrays. -/
structure AuthKeyCtx where
  nonce : Block 16
  serverNonce : Block 16
  newNonce : Block 32
  pq : UInt64
  p : UInt32
  q : UInt32
  g : Int32
  dhPrime : Bytes
  gA : Bytes
  serverTime : Int32
  b : Block 256
  tmpAesKey : Block 32
  tmpAesIv : Block 32

def authKeyCtxInit : AuthKeyCtx :=
  ⟨toBlock 16 [], toBlock 16 [], toBlock 32 [], 0, 0, 0, 0, [], [], 0, toBlock 256 [],
    toBlock 32 [], toBlock 32 []⟩

structure Exchange where
  /-- The random bytes, in the order they are drawn. -/
  nonce : Block 16
  newNonce : Block 32
  rsaPad : Block 235
  b : Block 256
  dhPad : Block 16
  /-- Fresh heap memory of a given size. -/
  heap : (n : ℕ) → Block n
  /-- The three requests, each with the packet that answers it. -/
  reqPq : Turn
  reqDh : Turn
  clientDh : Turn

def Exchange.malloc (e : Exchange) (n : ℕ) : Bytes :=
  (e.heap n).1

/-! ## Step 1: `req_pq_multi` -/

def reqPqMulti (ctx : AuthKeyCtx) : Bytes :=
  tlWriteInt128 (tlWriteUint32 [] crcReqPqMulti) ctx.nonce

/-- The loop over the offered fingerprints: whether one of the `n` still to be read is ours. -/
def findFingerprint (fp : UInt64) : ℕ → TlReader → Bool
  | 0, _ => false
  | n + 1, r => decide ((tlReadUint64 r).1 = fp) || findFingerprint fp n (tlReadUint64 r).2

/-- The part of `auth_step_req_pq` behind the receive. -/
def readResPQ (c : Crypto) (ctx : AuthKeyCtx) (buf : Bytes) : Option AuthKeyCtx := do
  let constructor := tlReadUint32 (tlReaderInit buf)
  if constructor.1 ≠ crcResPQ then none
  let recvNonce := tlReadInt128 constructor.2
  if recvNonce.1 ≠ ctx.nonce then none
  let serverNonce := tlReadInt128 recvNonce.2
  let pqBytes := tlReadBytes serverNonce.2
  let pq ← pqBytes.1
  let vecCrc := tlReadUint32 pqBytes.2
  let fpCount := tlReadUint32 vecCrc.2
  if fpCount.1.toNat > maxFpCount then none
  if !findFingerprint c.serverKeyFingerprint fpCount.1.toNat fpCount.2 then none
  some { ctx with serverNonce := serverNonce.1, pq := beToUint64 pq }

def authStepReqPq (c : Crypto) (e : Exchange) (ctx : AuthKeyCtx) (w : Wire) :
    Option AuthKeyCtx × Wire :=
  let ctx := { ctx with nonce := e.nonce }
  let snd := rpcSendUnencrypted e.reqPq w (reqPqMulti ctx)
  if !snd.1 then (none, snd.2) else
  ((rpcRecvUnencrypted e.reqPq.reply 4096).bind (readResPQ c ctx), snd.2)

/-! ## Step 2: `req_DH_params` -/

/-- `rsa_sha1_encrypt`: a zero byte, the hash, the data, and random padding to 256 bytes. -/
def rsaSha1Encrypt (c : Crypto) (pad : Block 235) (data : Bytes) : Option Bytes :=
  if data.length > 235 then none else
  c.rsaPublicEncrypt (0 :: ((c.sha1 data).1 ++ data ++ pad.1.take (235 - data.length)))

def pQInnerData (ctx : AuthKeyCtx) : Bytes :=
  let w := tlWriteUint32 [] crcPQInnerData
  let w := tlWriteBytes w (uint64ToBe ctx.pq)
  let w := tlWriteBytes w (uint32ToBe ctx.p)
  let w := tlWriteBytes w (uint32ToBe ctx.q)
  let w := tlWriteInt128 w ctx.nonce
  let w := tlWriteInt128 w ctx.serverNonce
  tlWriteInt256 w ctx.newNonce

def reqDHParams (c : Crypto) (ctx : AuthKeyCtx) (encrypted : Bytes) : Bytes :=
  let w := tlWriteUint32 [] crcReqDHParams
  let w := tlWriteInt128 w ctx.nonce
  let w := tlWriteInt128 w ctx.serverNonce
  let w := tlWriteBytes w (uint32ToBe ctx.p)
  let w := tlWriteBytes w (uint32ToBe ctx.q)
  let w := tlWriteUint64 w c.serverKeyFingerprint
  tlWriteBytes w encrypted

/-- The part of `auth_step_req_dh` before the send: the context and the encrypted inner data. -/
def prepareReqDh (c : Crypto) (e : Exchange) (ctx : AuthKeyCtx) : Option (AuthKeyCtx × Bytes) := do
  let pq ← pqFactorize ctx.pq
  let ctx := { ctx with p := pq.1, q := pq.2, newNonce := e.newNonce }
  let encrypted ← rsaSha1Encrypt c e.rsaPad (pQInnerData ctx)
  some (ctx, encrypted)

def authStepReqDh (c : Crypto) (e : Exchange) (ctx : AuthKeyCtx) (w : Wire) :
    Option AuthKeyCtx × Wire :=
  match prepareReqDh c e ctx with
  | none => (none, w)
  | some (ctx, encrypted) =>
    let snd := rpcSendUnencrypted e.reqDh w (reqDHParams c ctx encrypted)
    (if snd.1 then some ctx else none, snd.2)

/-! ## Step 3: `server_DH_params_ok` -/

/-- `dh_derive_temp_aes`: the key and the initialisation vector. -/
def dhDeriveTempAes (c : Crypto) (newNonce : Block 32) (serverNonce : Block 16) :
    Block 32 × Block 32 :=
  let sha1A := (c.sha1 (newNonce.1 ++ serverNonce.1)).1
  let sha1B := (c.sha1 (serverNonce.1 ++ newNonce.1)).1
  let sha1C := (c.sha1 (newNonce.1 ++ newNonce.1)).1
  (toBlock 32 (sha1A ++ sha1B.take 12), toBlock 32 (sha1B.drop 12 ++ sha1C ++ newNonce.1.take 4))

/-- The part of `auth_step_parse_dh` that reads the decrypted `server_DH_inner_data`. -/
def readServerDHInner (ctx : AuthKeyCtx) (data : Bytes) : Option AuthKeyCtx := do
  let innerCrc := tlReadUint32 (tlReaderInit data)
  if innerCrc.1 ≠ crcServerDHInnerData then none
  let innerNonce := tlReadInt128 innerCrc.2
  if innerNonce.1 ≠ ctx.nonce then none
  let innerSn := tlReadInt128 innerNonce.2
  if innerSn.1 ≠ ctx.serverNonce then none
  let g := tlReadInt32 innerSn.2
  if g.1 < 2 ∨ g.1 > 7 then none
  let primeBytes := tlReadBytes g.2
  let prime ← primeBytes.1
  if prime.length > 256 then none
  let gaBytes := tlReadBytes primeBytes.2
  let ga ← gaBytes.1
  if ga.length > 256 then none
  some { ctx with g := g.1, dhPrime := prime, gA := ga, serverTime := (tlReadInt32 gaBytes.2).1 }

/-- The part of `auth_step_parse_dh` behind the receive. -/
def readServerDHParams (c : Crypto) (e : Exchange) (ctx : AuthKeyCtx) (buf : Bytes) :
    Option AuthKeyCtx := do
  let constructor := tlReadUint32 (tlReaderInit buf)
  if constructor.1 ≠ crcServerDHParamsOk then none
  let recvNonce := tlReadInt128 constructor.2
  if recvNonce.1 ≠ ctx.nonce then none
  let recvServerNonce := tlReadInt128 recvNonce.2
  if recvServerNonce.1 ≠ ctx.serverNonce then none
  let encAnswer ← (tlReadBytes recvServerNonce.2).1
  if encAnswer.length = 0 then none
  let tmp := dhDeriveTempAes c ctx.newNonce ctx.serverNonce
  let decrypted := aesIgeDecrypt c encAnswer tmp.1 tmp.2 (e.malloc encAnswer.length)
  if encAnswer.length < 24 then none
  readServerDHInner { ctx with tmpAesKey := tmp.1, tmpAesIv := tmp.2 } (decrypted.drop 20)

def authStepParseDh (c : Crypto) (e : Exchange) (ctx : AuthKeyCtx) : Option AuthKeyCtx :=
  (rpcRecvUnencrypted e.reqDh.reply 4096).bind (readServerDHParams c e ctx)

/-! ## Step 4: `set_client_DH_params` -/

/-- The plaintext of `set_client_DH_params`: hash, `client_DH_inner_data`, random padding to a
multiple of 16. -/
def clientDhPlain (c : Crypto) (ctx : AuthKeyCtx) (gB : Bytes) (pad : Block 16) : Bytes :=
  let w := tlWriteUint32 [] crcClientDHInnerData
  let w := tlWriteInt128 w ctx.nonce
  let w := tlWriteInt128 w ctx.serverNonce
  let w := tlWriteInt64 w 0
  let inner := tlWriteBytes w gB
  (c.sha1 inner).1 ++ inner ++ pad.1.take ((16 - (20 + inner.length) % 16) % 16)

def setClientDHParams (c : Crypto) (e : Exchange) (ctx : AuthKeyCtx) (gB : Bytes) : Bytes :=
  let padded := clientDhPlain c ctx gB e.dhPad
  let encrypted := aesIgeEncrypt c padded ctx.tmpAesKey ctx.tmpAesIv (e.malloc padded.length)
  let w := tlWriteUint32 [] crcSetClientDHParams
  let w := tlWriteInt128 w ctx.nonce
  let w := tlWriteInt128 w ctx.serverNonce
  tlWriteBytes w encrypted

/-- `auth_key` padded on the left to 256 bytes. -/
def padAuthKey (authKey : Bytes) : AuthKey :=
  if h : authKey.length ≤ 256 then
    ⟨List.replicate (256 - authKey.length) 0 ++ authKey, by
      rw [List.length_append, List.length_replicate, authKeySize]; omega⟩
  else zeroKey

/-- `new_nonce_hash1`: the last 16 bytes of the hash of the nonce, a 1, and the first 8 bytes of
the hash of the key. -/
def newNonceHash1 (c : Crypto) (newNonce : Block 32) (key : AuthKey) : Bytes :=
  (c.sha1 (newNonce.1 ++ [1] ++ (c.sha1 key.1).1.take 8)).1.drop 4

/-- `server_salt = new_nonce[0:8] XOR server_nonce[0:8]`. -/
def initialSalt (newNonce : Block 32) (serverNonce : Block 16) : UInt64 :=
  u64At (List.zipWith (· ^^^ ·) (newNonce.1.take 8) (serverNonce.1.take 8)) 0

/-- The part of `auth_step_set_client_dh` behind the receive: the key, once the reply is accepted.
`dh_gen_retry` and `dh_gen_fail` are among the constructors that are not `dh_gen_ok`. -/
def readDhGen (c : Crypto) (ctx : AuthKeyCtx) (buf : Bytes) : Option AuthKey := do
  let constructor := tlReadUint32 (tlReaderInit buf)
  if constructor.1 ≠ crcDhGenOk then none
  let recvNonce := tlReadInt128 constructor.2
  if recvNonce.1 ≠ ctx.nonce then none
  -- the server nonce of the reply is read and not looked at
  let recvSn := tlReadInt128 recvNonce.2
  let newNonceHash := tlReadInt128 recvSn.2
  let authKey ← cryptoBnModExp 256 ctx.gA ctx.b.1 ctx.dhPrime
  let key := padAuthKey authKey
  if newNonceHash1 c ctx.newNonce key ≠ newNonceHash.1.1 then none
  some key

/-- The session with the key and the salt of a finished exchange. -/
def installKey (ctx : AuthKeyCtx) (key : AuthKey) (w : Wire) : Wire :=
  let salt := initialSalt ctx.newNonce ctx.serverNonce
  { w with session := mtprotoSessionSetSalt (mtprotoSessionSetAuthKey w.session key) salt }

def authStepSetClientDh (c : Crypto) (e : Exchange) (ctx : AuthKeyCtx) (w : Wire) : Bool × Wire :=
  let ctx := { ctx with b := e.b }
  match cryptoBnModExp 256 (uint32ToBe ctx.g.toUInt32) ctx.b.1 ctx.dhPrime with
  | none => (false, w)
  | some gB =>
    let snd := rpcSendUnencrypted e.clientDh w (setClientDHParams c e ctx gB)
    if !snd.1 then (false, snd.2) else
    match (rpcRecvUnencrypted e.clientDh.reply 4096).bind (readDhGen c ctx) with
    | none => (false, snd.2)
    | some key => (true, installKey ctx key snd.2)

/-! ## The whole exchange -/

/-- `mtproto_auth_key_gen`: whether it returned 0, and the session it leaves. -/
def mtprotoAuthKeyGen (c : Crypto) (e : Exchange) (w : Wire) : Bool × Wire :=
  let resPq := authStepReqPq c e authKeyCtxInit w
  match resPq.1 with
  | none => (false, resPq.2)
  | some ctx =>
    let reqDh := authStepReqDh c e ctx resPq.2
    match reqDh.1 with
    | none => (false, reqDh.2)
    | some ctx =>
      match authStepParseDh c e ctx with
      | none => (false, reqDh.2)
      | some ctx => authStepSetClientDh c e ctx reqDh.2

end TgCli.Infrastructure
