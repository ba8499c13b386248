import TgCli.Core.Crypto
import TgCli.Core.TlSkip
import TgCli.Infrastructure.AuthSession

/-!
# `infrastructure/auth_2fa.c`: the password of a two-step login

`account.getPassword` fetches the parameters of the password proof, `srpCompute` computes it, and
`auth.checkPassword` submits it.  The client's private exponent is an argument, as
`auth_2fa_srp_compute` has it; `none` stands for a random source that failed.
-/

namespace TgCli.Infrastructure

open Lib TgCli.Core

def crcAccountGetPassword : UInt32 := 0x548a30f5
def crcAuthCheckPassword : UInt32 := 0xd18b4d16
def crcInputCheckPasswordSRP : UInt32 := 0xd27ff082
def crcAccountPassword : UInt32 := 0x957b50fb
def crcKdfAlgoPBKDF2 : UInt32 := 0x3a912d4a

def srpPrimeLen : ℕ := 256

def srpSaltMax : ℕ := 128

/-! ## `account.getPassword` -/

/-- `Account2faPassword`; the salts are the bytes in use of their arrays. -/
structure Account2faPassword where
  hasPassword : Bool
  srpId : Int64
  srpB : Block 256
  g : Int32
  p : Block 256
  salt1 : Bytes
  salt2 : Bytes

/-- The parameters after `memset`. -/
def account2faPasswordInit : Account2faPassword :=
  ⟨false, 0, toBlock 256 [], 0, toBlock 256 [], [], []⟩

/-- `parse_password_kdf_algo`.  A salt that cannot be read counts as an empty one. -/
def parsePasswordKdfAlgo (r : TlReader) (out : Account2faPassword) :
    Option (Account2faPassword × TlReader) := do
  if !tlReaderOk r || decide (r.left < 4) then none
  let crc := tlReadUint32 r
  if crc.1 ≠ crcKdfAlgoPBKDF2 then none
  let salt1 := tlReadBytes crc.2
  let salt2 := tlReadBytes salt1.2
  let s1 := salt1.1.getD []
  let s2 := salt2.1.getD []
  if s1.length > srpSaltMax ∨ s2.length > srpSaltMax then none
  if salt2.2.left < 4 then none
  let g := tlReadInt32 salt2.2
  let prime := tlReadBytes g.2
  let p := prime.1.getD []
  if p.length ≠ srpPrimeLen then none
  some ({ out with salt1 := s1, salt2 := s2, g := g.1, p := toBlock 256 p }, prime.2)

/-- `srp_B` of a response, padded on the left to the length of the prime. -/
def padSrpB (b : Bytes) : Block 256 :=
  toBlock 256 (List.replicate (srpPrimeLen - b.length) 0 ++ b)

/-- The part of `auth_2fa_get_password` that reads the response. -/
def parseAccountPassword (resp : Bytes) : Option Account2faPassword := do
  if u32At resp 0 ≠ crcAccountPassword then none
  let flags := tlReadUint32 (tlReadUint32 (tlReaderInit resp)).2
  let out := { account2faPasswordInit with hasPassword := hasFlag flags.1 2 }
  let (out, r) ←
    if out.hasPassword then do
      let (out, r) ← parsePasswordKdfAlgo flags.2 out
      let srpB := tlReadBytes r
      let b ← srpB.1
      if b.length = 0 ∨ b.length > srpPrimeLen then none
      if srpB.2.left < 8 then none
      let srpId := tlReadInt64 srpB.2
      some ({ out with srpB := padSrpB b, srpId := srpId.1 }, srpId.2)
    else some (out, flags.2)
  let r ← if hasFlag flags.1 3 then tlSkipString r else some r
  let _ ← if hasFlag flags.1 4 then tlSkipString r else some r
  some out

def orErr {α : Type} (err : RpcError) (o : Option α) : Except RpcError α :=
  o.elim (.error err) .ok

def auth2faGetPassword (env : ApiEnv) (s : MtProtoSession) (net : Net) :
    Called Account2faPassword :=
  let r := authRequest env .zero (tlWriteUint32 [] crcAccountGetPassword) 2048 s net
  (r.1.bind fun resp => orErr .zero (parseAccountPassword resp), r.2)

/-! ## The proof -/

section Srp

variable (c : Crypto)

/-- `sh_sha256`: the hash of the data between two copies of the salt. -/
def shSha256 (salt data : Bytes) : Block 32 :=
  c.sha256 (salt ++ data ++ salt)

def computeX (password salt1 salt2 : Bytes) : Option (Block 32) := do
  let inner := shSha256 c salt1 (cstr password)
  let ph1 := shSha256 c salt2 inner.1
  let derived ← c.pbkdf2HmacSha512 ph1.1 salt1 100000
  some (shSha256 c salt2 derived.1)

/-- `pack_g`: the generator as 256 big-endian bytes. -/
def packG (g : Int32) : Block 256 :=
  ⟨beBytes 256 g.toUInt32.toNat, length_beBytes 256 _⟩

/-- The part of `srp_compute` up to `A` and `S`, which is computed as a product of two powers, so
that the exponent `a + u * x` is never formed. -/
def srpSecret (p : Account2faPassword) (password : Bytes) (a : Option (Block 256)) :
    Option (Bytes × Bytes) := do
  let gBytes := packG p.g
  let a ← a
  let bigA ← cryptoBnModExp srpPrimeLen gBytes.1 a.1 p.p.1
  let x ← computeX c password p.salt1 p.salt2
  let v ← cryptoBnModExp srpPrimeLen gBytes.1 x.1 p.p.1
  let k := c.sha256 (p.p.1 ++ gBytes.1)
  let u := c.sha256 (bigA ++ p.srpB.1)
  let kv ← cryptoBnModMul srpPrimeLen k.1 v p.p.1
  let base ← cryptoBnModSub srpPrimeLen p.srpB.1 kv p.p.1
  let baseA ← cryptoBnModExp srpPrimeLen base a.1 p.p.1
  let baseX ← cryptoBnModExp srpPrimeLen base x.1 p.p.1
  let baseXu ← cryptoBnModExp srpPrimeLen baseX u.1 p.p.1
  let s ← cryptoBnModMul srpPrimeLen baseA baseXu p.p.1
  some (bigA, s)

/-- `srp_compute`: `A` and `M1`. -/
def srpCompute (p : Account2faPassword) (password : Bytes) (a : Option (Block 256)) :
    Option (Bytes × Block 32) := do
  let (bigA, s) ← srpSecret c p password a
  let hpg := xorBlock (c.sha256 p.p.1) (c.sha256 (packG p.g).1)
  let m1 := hpg.1 ++ (c.sha256 p.salt1).1 ++ (c.sha256 p.salt2).1 ++ bigA ++ p.srpB.1 ++
    (c.sha256 s).1
  some (bigA, c.sha256 m1)

end Srp

/-! ## `auth.checkPassword` -/

/-- The `auth.checkPassword` request. -/
def buildCheckPassword (srpId : Int64) (bigA : Bytes) (m1 : Block 32) : Bytes :=
  let w := tlWriteUint32 [] crcAuthCheckPassword
  let w := tlWriteUint32 w crcInputCheckPasswordSRP
  let w := tlWriteInt64 w srpId
  let w := tlWriteBytes w bigA
  tlWriteBytes w m1.1

/-- The part of `auth_2fa_check_password` that reads the response; a user object that is too short
leaves the 0 of the caller. -/
def parseCheckPassword (resp : Bytes) : Option Int64 := do
  if u32At resp 0 ≠ crcAuthAuthorization then none
  let flags := tlReadUint32 (tlReadUint32 (tlReaderInit resp)).2
  let r ←
    if hasFlag flags.1 1 then
      if flags.2.left < 4 then none else some (tlReadInt32 flags.2).2
    else some flags.2
  let userCrc := tlReadUint32 r
  if userCrc.1 = tlUser ∨ userCrc.1 = tlUser2 ∨ userCrc.1 = tlUserFull then
    let userFlags := tlReadUint32 userCrc.2
    some (if userFlags.2.left ≥ 8 then (tlReadInt64 userFlags.2).1 else 0)
  else some 0

def auth2faCheckPassword (c : Crypto) (env : ApiEnv) (params : Account2faPassword)
    (password : Bytes) (a : Option (Block 256)) (s : MtProtoSession) (net : Net) : Called Int64 :=
  if !params.hasPassword then (.error .zero, s, net) else
  match srpCompute c params password a with
  | none => (.error .zero, s, net)
  | some (bigA, m1) =>
    let query := buildCheckPassword params.srpId bigA m1
    if query.length > 512 then (.error .zero, s, net) else
    let r := authRequest env .zero query 2048 s net
    (r.1.bind fun resp => orErr .zero (parseCheckPassword resp), r.2)

/-! ## The key -/

theorem auth2faGetPassword_sameKey (env : ApiEnv) (s : MtProtoSession) (net : Net) :
    SameKey s (auth2faGetPassword env s net).2.1 := by
  have h := authRequest_sameKey env (tlWriteUint32 [] crcAccountGetPassword) net .zero 2048 s
  rw [auth2faGetPassword]
  generalize authRequest env .zero (tlWriteUint32 [] crcAccountGetPassword) 2048 s net = r at h ⊢
  exact h

theorem auth2faCheckPassword_sameKey (c : Crypto) (env : ApiEnv) (params : Account2faPassword)
    (password : Bytes) (a : Option (Block 256)) (s : MtProtoSession) (net : Net) :
    SameKey s (auth2faCheckPassword c env params password a s net).2.1 := by
  rw [auth2faCheckPassword]
  split
  · exact SameKey.refl s
  · rcases srpCompute c params password a with _ | ⟨bigA, m1⟩
    · exact SameKey.refl s
    · have h := authRequest_sameKey env (buildCheckPassword params.srpId bigA m1) net .zero 2048 s
      dsimp only
      generalize
        authRequest env .zero (buildCheckPassword params.srpId bigA m1) 2048 s net = r at h ⊢
      split
      · exact SameKey.refl s
      · exact h

end TgCli.Infrastructure
