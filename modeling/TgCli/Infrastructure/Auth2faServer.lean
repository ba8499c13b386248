import TgCli.Infrastructure.Auth2fa
import TgCli.Infrastructure.MtprotoFrames
import Mathlib.Data.Int.ModEq

/-!
# The server's side of the password proof

A server that holds the verifier `v = g ^ x` of a password sends `B = k * v + g ^ b`, and takes a
client's `A` to the secret `(A * v ^ u) ^ b`, all modulo `p`.  The client, which knows `x`, computes
`(B - k * v) ^ (a + u * x)`.

The two agree because both are `g ^ (b * (a + u * x))` (`srp_identity`).  That the client never
forms the exponent, and reduces after every step, makes no difference modulo `p`; that it works on
256 bytes makes none either, as long as the same bytes go into the hashes.  Nothing is assumed about
the hashes, and `p` need not be prime.
-/

namespace TgCli.Infrastructure

open Lib TgCli.Core

/-! ## The numbers -/

section Numbers

variable {p g b : ℕ} (x k : ℕ)

theorem sub_verifier_modEq :
    (((k * (g ^ x % p) + g ^ b) % p : ℕ) : ℤ) - k * (g ^ x % p : ℕ) ≡
      ((g ^ b : ℕ) : ℤ) [ZMOD p] := by
  have hB : (((k * (g ^ x % p) + g ^ b) % p : ℕ) : ℤ) ≡
      ((k * (g ^ x % p) + g ^ b : ℕ) : ℤ) [ZMOD p] :=
    Int.natCast_modEq_iff.mpr (Nat.mod_modEq _ _)
  have hsub := hB.sub_right ((k * (g ^ x % p) : ℕ) : ℤ)
  rwa [Nat.cast_add, add_sub_cancel_left, Nat.cast_mul] at hsub

theorem sub_verifier_toNat :
    (((((k * (g ^ x % p) + g ^ b) % p : ℕ) : ℤ) -
      ((k * (g ^ x % p) % p : ℕ) : ℤ)) % (p : ℤ)).toNat =
      g ^ b % p := by
  have hkv : ((k * (g ^ x % p) % p : ℕ) : ℤ) ≡ k * (g ^ x % p : ℕ) [ZMOD p] := by
    rw [← Nat.cast_mul]
    exact Int.natCast_modEq_iff.mpr (Nat.mod_modEq _ _)
  have hmod := (hkv.sub_left (((k * (g ^ x % p) + g ^ b) % p : ℕ) : ℤ)).trans
    (sub_verifier_modEq x k)
  rw [hmod.eq, ← Int.natCast_mod, Int.toNat_natCast]

theorem client_modEq (a u : ℕ) :
    (g ^ b % p) ^ a % p * (((g ^ b % p) ^ x % p) ^ u % p) ≡
      (g ^ b) ^ a * ((g ^ b) ^ x) ^ u [MOD p] := by
  have ha : (g ^ b % p) ^ a % p ≡ (g ^ b) ^ a [MOD p] :=
    (Nat.mod_modEq _ _).trans ((Nat.mod_modEq _ _).pow a)
  have hx : (g ^ b % p) ^ x % p ≡ (g ^ b) ^ x [MOD p] :=
    (Nat.mod_modEq _ _).trans ((Nat.mod_modEq _ _).pow x)
  exact ha.mul ((Nat.mod_modEq _ _).trans (hx.pow u))

/-- **Both sides compute `g ^ (b * (a + u * x))`.** -/
theorem srp_identity (a u : ℕ) :
    (g ^ b % p) ^ a % p * (((g ^ b % p) ^ x % p) ^ u % p) % p =
      (g ^ a % p * (g ^ x % p) ^ u) ^ b % p := by
  have hserver : (g ^ a % p * (g ^ x % p) ^ u) ^ b ≡ (g ^ a * (g ^ x) ^ u) ^ b [MOD p] :=
    ((Nat.mod_modEq _ _).mul ((Nat.mod_modEq _ _).pow u)).pow b
  have hexp : (g ^ b) ^ a * ((g ^ b) ^ x) ^ u = (g ^ a * (g ^ x) ^ u) ^ b := by ring
  exact (client_modEq x a u).trans (hexp ▸ hserver.symm)

theorem srp_identity_exponent (a u : ℕ) :
    (((g ^ b % p) ^ a % p * (((g ^ b % p) ^ x % p) ^ u % p) % p : ℕ) : ℤ) =
      ((((k * (g ^ x % p) + g ^ b) % p : ℕ) : ℤ) - k * (g ^ x % p : ℕ)) ^ (a + u * x) % p := by
  have hexp : (g ^ b) ^ a * ((g ^ b) ^ x) ^ u = (g ^ b) ^ (a + u * x) := by
    rw [pow_add, mul_comm u x, pow_mul (g ^ b) x u]
  rw [((sub_verifier_modEq x k).pow (a + u * x)).eq, ← Nat.cast_pow, ← Int.natCast_mod,
    Nat.cast_inj]
  exact hexp ▸ client_modEq x a u

end Numbers

/-! ## The client -/

section Client

variable (c : Crypto)

def srpM1 (p g : Block 256) (salt1 salt2 bigA bigB : Bytes) (key : Block 32) : Block 32 :=
  let hpg := xorBlock (c.sha256 p.1) (c.sha256 g.1)
  c.sha256 (hpg.1 ++ (c.sha256 salt1).1 ++ (c.sha256 salt2).1 ++ bigA ++ bigB ++ key.1)

theorem srpCompute_eq (p : Account2faPassword) (password : Bytes) (a : Option (Block 256)) :
    srpCompute c p password a = (srpSecret c p password a).map fun x =>
      (x.1, srpM1 c p.p (packG p.g) p.salt1 p.salt2 x.1 p.srpB.1 (c.sha256 x.2)) := by
  rw [srpCompute]
  rcases srpSecret c p password a with _ | ⟨bigA, s⟩ <;> rfl

end Client

/-! ## The server -/

/-- What a server holds for an account --- the parameters of the password and the verifier --- and
its secret for one login. -/
structure SrpServer where
  p : Block 256
  one_lt_p : 1 < beNat p.1
  g : Int32
  salt1 : Bytes
  salt2 : Bytes
  v : ℕ
  b : ℕ

-- unification must not compute with 256-byte numbers
attribute [local irreducible] beNat beBytes

namespace SrpServer

variable (c : Crypto) (sv : SrpServer)

def k : ℕ :=
  beNat (c.sha256 (sv.p.1 ++ (packG sv.g).1)).1

def bigB : ℕ :=
  (sv.k c * sv.v + sv.g.toUInt32.toNat ^ sv.b) % beNat sv.p.1

def bigBBytes : Block 256 :=
  ⟨beBytes 256 (sv.bigB c), length_beBytes 256 _⟩

def params (srpId : Int64) : Account2faPassword :=
  ⟨true, srpId, sv.bigBBytes c, sv.g, sv.p, sv.salt1, sv.salt2⟩

def u (bigA : Bytes) : ℕ :=
  beNat (c.sha256 (bigA ++ (sv.bigBBytes c).1)).1

def secret (bigA : Bytes) : ℕ :=
  (beNat bigA * sv.v ^ sv.u c bigA) ^ sv.b % beNat sv.p.1

def key (bigA : Bytes) : Block 32 :=
  c.sha256 (beBytes 256 (sv.secret c bigA))

def m1 (bigA : Bytes) : Block 32 :=
  srpM1 c sv.p (packG sv.g) sv.salt1 sv.salt2 bigA (sv.bigBBytes c).1 (sv.key c bigA)

/-- The server holds the verifier of the password with the hash `x`. -/
def Verifies (x : Block 32) : Prop :=
  sv.v = sv.g.toUInt32.toNat ^ beNat x.1 % beNat sv.p.1

theorem pos : 0 < beNat sv.p.1 :=
  Nat.zero_lt_of_lt sv.one_lt_p

theorem length_p_le : sv.p.1.length ≤ srpPrimeLen :=
  le_of_eq sv.p.2

theorem beNat_beBytes_mod {n : ℕ} (h : n < beNat sv.p.1) : beNat (beBytes 256 n) = n := by
  have hlt := beNat_lt sv.p.1
  rw [sv.p.2] at hlt
  exact beNat_beBytes_of_lt (h.trans hlt)

theorem beNat_bigBBytes : beNat (sv.bigBBytes c).1 = sv.bigB c :=
  sv.beNat_beBytes_mod (Nat.mod_lt _ sv.pos)

variable {x : Block 32}

theorem bigB_of_verifies (hv : sv.Verifies x) :
    sv.bigB c = (sv.k c * (sv.g.toUInt32.toNat ^ beNat x.1 % beNat sv.p.1) +
      sv.g.toUInt32.toNat ^ sv.b) % beNat sv.p.1 :=
  congrArg (fun v => (sv.k c * v + sv.g.toUInt32.toNat ^ sv.b) % beNat sv.p.1) hv

theorem beNat_packG : beNat (packG sv.g).1 = sv.g.toUInt32.toNat := by
  have hword : sv.g.toUInt32.toNat < 256 ^ 4 := sv.g.toUInt32.toNat_lt
  have hwide : ∀ w, 4 ≤ w → beNat (beBytes w sv.g.toUInt32.toNat) = sv.g.toUInt32.toNat :=
    fun w hw => beNat_beBytes_of_lt (hword.trans_le (Nat.pow_le_pow_right (by decide) hw))
  rw [packG, hwide 256 (by decide)]

theorem modExp (base exp : Bytes) :
    cryptoBnModExp srpPrimeLen base exp sv.p.1 =
      some (beBytes 256 (beNat base ^ beNat exp % beNat sv.p.1)) := by
  rw [cryptoBnModExp_of_pos sv.pos sv.length_p_le, sv.p.2]

theorem modMul (a b : Bytes) :
    cryptoBnModMul srpPrimeLen a b sv.p.1 =
      some (beBytes 256 (beNat a * beNat b % beNat sv.p.1)) := by
  rw [cryptoBnModMul, bnModOp_of_pos sv.pos sv.length_p_le (Nat.mod_lt _ sv.pos), sv.p.2]

theorem modSub (a b : Bytes) :
    cryptoBnModSub srpPrimeLen a b sv.p.1 =
      some (beBytes 256 (((beNat a : ℤ) - beNat b) % beNat sv.p.1).toNat) := by
  have hpos : (0 : ℤ) < beNat sv.p.1 := Int.natCast_pos.mpr sv.pos
  have hlt : (((beNat a : ℤ) - beNat b) % beNat sv.p.1).toNat < beNat sv.p.1 := by
    have h₁ := Int.emod_lt_of_pos ((beNat a : ℤ) - beNat b) hpos
    omega
  rw [cryptoBnModSub, bnModOp_of_pos sv.pos sv.length_p_le hlt, sv.p.2]

/-- The client's product of powers, as a number. -/
def clientSecret (x : Block 32) (a : Block 256) (bigA : Bytes) : ℕ :=
  let base := sv.g.toUInt32.toNat ^ sv.b % beNat sv.p.1
  base ^ beNat a.1 % beNat sv.p.1 *
    ((base ^ beNat x.1 % beNat sv.p.1) ^ sv.u c bigA % beNat sv.p.1) % beNat sv.p.1

/-- The client's public number on the wire: `g ^ a`, padded on the left to 256 bytes. -/
def bigA (a : Block 256) : Bytes :=
  beBytes 256 (sv.g.toUInt32.toNat ^ beNat a.1 % beNat sv.p.1)

theorem base_eq (hv : sv.Verifies x) :
    (((beNat (sv.bigBBytes c).1 : ℤ) - ((sv.k c * (sv.g.toUInt32.toNat ^ beNat x.1 %
      beNat sv.p.1) % beNat sv.p.1 : ℕ) : ℤ)) % (beNat sv.p.1 : ℤ)).toNat =
      sv.g.toUInt32.toNat ^ sv.b % beNat sv.p.1 := by
  rw [sv.beNat_bigBBytes c, sv.bigB_of_verifies c hv]
  exact sub_verifier_toNat (beNat x.1) (sv.k c)

theorem srpSecret_params {password : Bytes}
    (hx : computeX c password sv.salt1 sv.salt2 = some x) (hv : sv.Verifies x) (a : Block 256)
    (srpId : Int64) :
    srpSecret c (sv.params c srpId) password (some a) =
      some (sv.bigA a, beBytes 256 (sv.clientSecret c x a (sv.bigA a))) := by
  have hback : ∀ n, beNat (beBytes 256 (n % beNat sv.p.1)) = n % beNat sv.p.1 := fun n =>
    sv.beNat_beBytes_mod (Nat.mod_lt n sv.pos)
  have hk : beNat (c.sha256 (sv.p.1 ++ (packG sv.g).1)).1 = sv.k c := rfl
  have hu : ∀ bigA, beNat (c.sha256 (bigA ++ (sv.bigBBytes c).1)).1 = sv.u c bigA := fun _ => rfl
  simp only [srpSecret, params, Option.bind_eq_bind, Option.bind_some, sv.modExp, sv.modMul,
    sv.modSub, hx, sv.beNat_packG, hk, hu, hback, sv.base_eq c hv, clientSecret, bigA]

theorem beNat_bigA (a : Block 256) :
    beNat (sv.bigA a) = sv.g.toUInt32.toNat ^ beNat a.1 % beNat sv.p.1 :=
  sv.beNat_beBytes_mod (Nat.mod_lt _ sv.pos)

theorem clientSecret_eq (hv : sv.Verifies x) (a : Block 256) :
    sv.clientSecret c x a (sv.bigA a) = sv.secret c (sv.bigA a) := by
  rw [secret, sv.beNat_bigA, hv]
  exact srp_identity (beNat x.1) (beNat a.1) (sv.u c (sv.bigA a))

/-- **The client and the server agree.**  For a server that holds the verifier of the password, the
client's `S` is the server's secret, which is also `(B - k * v) ^ (a + u * x)`; so `K` and `M1` are
the server's, and `A` is `g ^ a` in 256 big-endian bytes. -/
theorem srpCompute_agrees {password : Bytes} {x : Block 32}
    (hx : computeX c password sv.salt1 sv.salt2 = some x) (hv : sv.Verifies x) (a : Block 256)
    (srpId : Int64) :
    ∃ s, srpSecret c (sv.params c srpId) password (some a) = some (sv.bigA a, s) ∧
      s.length = 256 ∧ beNat s = sv.secret c (sv.bigA a) ∧
      (beNat s : ℤ) = ((sv.bigB c : ℤ) - sv.k c * sv.v) ^
        (beNat a.1 + sv.u c (sv.bigA a) * beNat x.1) % beNat sv.p.1 ∧
      c.sha256 s = sv.key c (sv.bigA a) ∧
      srpCompute c (sv.params c srpId) password (some a) =
        some (sv.bigA a, sv.m1 c (sv.bigA a)) ∧
      (sv.bigA a).length = 256 ∧
      beNat (sv.bigA a) = sv.g.toUInt32.toNat ^ beNat a.1 % beNat sv.p.1 := by
  have hclient := sv.srpSecret_params c hx hv a srpId
  have hsecret := sv.clientSecret_eq c hv a
  rw [hsecret] at hclient
  have hnum : beNat (beBytes 256 (sv.secret c (sv.bigA a))) = sv.secret c (sv.bigA a) :=
    sv.beNat_beBytes_mod (Nat.mod_lt _ sv.pos)
  refine ⟨_, hclient, length_beBytes 256 _, hnum, ?_, rfl, ?_, length_beBytes 256 _,
    sv.beNat_bigA a⟩
  · rw [hnum, ← hsecret, sv.bigB_of_verifies c hv, hv]
    exact srp_identity_exponent (beNat x.1) (sv.k c) (beNat a.1) (sv.u c (sv.bigA a))
  · rw [srpCompute_eq, hclient]
    rfl

end SrpServer

/-- A server modulo 23 with the generator 5 and the secret 6, for a password with the hash `x`. -/
def smallServer (x : Block 32) : SrpServer where
  p := ⟨beBytes 256 23, length_beBytes 256 23⟩
  one_lt_p := by
    have hwide : ∀ w, 1 ≤ w → beNat (beBytes w 23) = 23 := fun w hw =>
      beNat_beBytes_of_lt (Nat.lt_of_lt_of_le (by decide) (Nat.pow_le_pow_right (by decide) hw))
    rw [hwide 256 (by decide)]
    decide
  g := 5
  salt1 := [1]
  salt2 := [2]
  v := (5 : Int32).toUInt32.toNat ^ beNat x.1 % beNat (beBytes 256 23)
  b := 6

theorem smallServer_verifies (x : Block 32) : (smallServer x).Verifies x := by
  rfl

theorem srpCompute_agrees_smallServer :
    ∃ x, computeX clearCrypto [112] [1] [2] = some x ∧
      srpCompute clearCrypto ((smallServer x).params clearCrypto 9) [112] (some (toBlock 256 [4])) =
        some ((smallServer x).bigA (toBlock 256 [4]),
          (smallServer x).m1 clearCrypto ((smallServer x).bigA (toBlock 256 [4]))) := by
  have hx : computeX clearCrypto [112] [1] [2] =
      some (shSha256 clearCrypto [2] (toBlock 64 (shSha256 clearCrypto [2]
        (shSha256 clearCrypto [1] (cstr [112])).1).1).1) := rfl
  refine ⟨_, hx, ?_⟩
  obtain ⟨_, -, -, -, -, -, hagree, -⟩ := (smallServer _).srpCompute_agrees clearCrypto hx
    (smallServer_verifies _) (toBlock 256 [4]) 9
  exact hagree

end TgCli.Infrastructure
