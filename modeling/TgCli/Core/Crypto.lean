import TgCli.Lib.Bytes

/-!
# `core/crypto.c` and `core/ige_aes.c`

The primitives that the wrappers of `crypto.c` take from OpenSSL are the fields of `Crypto`: the
hashes and the key derivation, the AES-256 block cipher and its inverse, RSA encryption under the
server key, and the fingerprint of that key.  Nothing is assumed about them here.  Modular
arithmetic is written out (`cryptoBnModExp`, `bnModOp`), as is the IGE mode, which is the
repository's own.
-/

namespace TgCli.Core

open List Lib

/-- The primitives behind `crypto.h`. -/
structure Crypto where
  /-- `crypto_sha1`. -/
  sha1 : Bytes → Block 20
  /-- `crypto_sha256`. -/
  sha256 : Bytes → Block 32
  /-- `crypto_pbkdf2_hmac_sha512` of a password, a salt and a number of iterations, 64 bytes of it;
  `none` when it fails. -/
  pbkdf2HmacSha512 : Bytes → Bytes → ℕ → Option (Block 64)
  /-- `crypto_aes_encrypt_block` under a 256-bit key. -/
  aesEncryptBlock : Block 32 → Block 16 → Block 16
  /-- `crypto_aes_decrypt_block` under a 256-bit key. -/
  aesDecryptBlock : Block 32 → Block 16 → Block 16
  /-- `crypto_rsa_load_public` of the server key and `crypto_rsa_public_encrypt`; `none` when either
  fails. -/
  rsaPublicEncrypt : Bytes → Option Bytes
  /-- `telegram_server_key_get_fingerprint`. -/
  serverKeyFingerprint : UInt64

/-! ## Big numbers -/

/-- The number whose big-endian bytes are given (`BN_bin2bn`). -/
def beNat (b : Bytes) : ℕ :=
  leNat b.reverse

theorem beNat_lt (b : Bytes) : beNat b < 256 ^ b.length := by
  rw [beNat, ← length_reverse]
  exact leNat_lt b.reverse

/-- A number as `w` big-endian bytes: `BN_bn2bin` behind the left padding of the wrappers. -/
def beBytes (w n : ℕ) : Bytes :=
  (leBytes w n).reverse

@[simp] theorem length_beBytes (w n : ℕ) : (beBytes w n).length = w := by
  rw [beBytes, length_reverse, length_leBytes]

variable {n w cap : ℕ} {b mod plain cipher : Bytes}

theorem beNat_beBytes_of_lt (h : n < 256 ^ w) : beNat (beBytes w n) = n := by
  rw [beNat, beBytes, reverse_reverse, leNat_leBytes_of_lt h]

theorem beBytes_beNat (h : b.length = w) : beBytes w (beNat b) = b := by
  rw [beBytes, beNat, leBytes_leNat (by rw [length_reverse, h]), reverse_reverse]

theorem beNat_append (a b : Bytes) : beNat (a ++ b) = beNat a * 256 ^ b.length + beNat b := by
  rw [beNat, reverse_append, leNat_append, length_reverse, mul_comm, add_comm]
  rfl

theorem beNat_cons_zero (b : Bytes) : beNat (0 :: b) = beNat b := by
  have happ := beNat_append [0] b
  rwa [show beNat [0] = 0 from rfl, zero_mul, zero_add] at happ

theorem beNat_replicate_append (n : ℕ) (b : Bytes) :
    beNat (replicate n 0 ++ b) = beNat b := by
  induction n with
  | zero => rfl
  | succ n ih => rw [replicate_succ, cons_append, beNat_cons_zero, ih]

theorem beNat_dropWhile (b : Bytes) : beNat (b.dropWhile (· = 0)) = beNat b := by
  induction b with
  | nil => rfl
  | cons x xs ih =>
    rw [dropWhile_cons]
    split_ifs with hx
    · rw [ih, of_decide_eq_true hx, beNat_cons_zero]
    · rfl

/-- `crypto_bn_mod_exp` into a buffer of `cap` bytes; the result is padded to the length of the
modulus.  `BN_mod_exp` refuses the modulus 0 unless the exponent is 0, and a result of more than
`cap` bytes is refused. -/
def cryptoBnModExp (cap : ℕ) (base exp mod : Bytes) : Option Bytes :=
  if beNat mod = 0 ∧ beNat exp ≠ 0 then none else
  let res := beNat base ^ beNat exp % beNat mod
  if 256 ^ cap ≤ res then none else some (beBytes mod.length res)

/-- `bn_mod_op` with the operation given on numbers: the modulus 0 is refused, a result of more than
`cap` bytes too, and the result is padded to the length of the modulus. -/
def bnModOp (op : ℕ → ℕ → ℕ → ℕ) (cap : ℕ) (a b mod : Bytes) : Option Bytes :=
  if beNat mod = 0 then none else
  let res := op (beNat a) (beNat b) (beNat mod)
  if 256 ^ cap ≤ res then none else some (beBytes mod.length res)

def cryptoBnModMul : ℕ → Bytes → Bytes → Bytes → Option Bytes :=
  bnModOp fun a b m => a * b % m

/-- `crypto_bn_mod_sub`; `BN_mod_sub` brings a negative difference into range. -/
def cryptoBnModSub : ℕ → Bytes → Bytes → Bytes → Option Bytes :=
  bnModOp fun a b m => (((a : ℤ) - b) % m).toNat

theorem lt_of_mod_lt (hcap : mod.length ≤ cap) (h : n < beNat mod) :
    n < 256 ^ mod.length ∧ ¬ 256 ^ cap ≤ n := by
  have hlt := h.trans (beNat_lt mod)
  exact ⟨hlt, Nat.not_le.mpr (hlt.trans_le (Nat.pow_le_pow_right (by decide) hcap))⟩

theorem cryptoBnModExp_of_pos (hmod : 0 < beNat mod) (hcap : mod.length ≤ cap) (base exp : Bytes) :
    cryptoBnModExp cap base exp mod =
      some (beBytes mod.length (beNat base ^ beNat exp % beNat mod)) := by
  rw [cryptoBnModExp, if_neg fun h => absurd h.1 (Nat.pos_iff_ne_zero.mp hmod)]
  exact if_neg (lt_of_mod_lt hcap (Nat.mod_lt _ hmod)).2

theorem bnModOp_of_pos {op : ℕ → ℕ → ℕ → ℕ} {a : Bytes} (hmod : 0 < beNat mod)
    (hcap : mod.length ≤ cap) (hop : op (beNat a) (beNat b) (beNat mod) < beNat mod) :
    bnModOp op cap a b mod =
      some (beBytes mod.length (op (beNat a) (beNat b) (beNat mod))) := by
  rw [bnModOp, if_neg (Nat.pos_iff_ne_zero.mp hmod)]
  exact if_neg (lt_of_mod_lt hcap hop).2

/-! ## IGE -/

def xorBlock {n : ℕ} (a b : Block n) : Block n :=
  ⟨List.zipWith (· ^^^ ·) a.1 b.1, by rw [List.length_zipWith, a.2, b.2, min_self]⟩

/-- The loop of `aes_ige_encrypt` over `n` blocks. -/
def igeEncryptLoop (enc : Block 16 → Block 16) : ℕ → Bytes → Block 16 → Block 16 → Bytes
  | 0, _, _, _ => []
  | n + 1, plain, ivC, ivP =>
    let p := toBlock 16 plain
    let c := xorBlock (enc (xorBlock p ivC)) ivP
    c.1 ++ igeEncryptLoop enc n (plain.drop 16) c p

/-- The loop of `aes_ige_decrypt` over `n` blocks. -/
def igeDecryptLoop (dec : Block 16 → Block 16) : ℕ → Bytes → Block 16 → Block 16 → Bytes
  | 0, _, _, _ => []
  | n + 1, cipher, ivC, ivP =>
    let c := toBlock 16 cipher
    let p := xorBlock (dec (xorBlock c ivP)) ivC
    p.1 ++ igeDecryptLoop dec n (cipher.drop 16) c p

/-- `aes_ige_encrypt` into a buffer that holds `out` before: a length that is not a multiple of 16
leaves the buffer as it was. -/
def aesIgeEncrypt (c : Crypto) (plain : Bytes) (key iv : Block 32) (out : Bytes) : Bytes :=
  if plain.length = 0 ∨ plain.length % 16 ≠ 0 then out else
  igeEncryptLoop (c.aesEncryptBlock key) (plain.length / 16) plain (toBlock 16 iv.1)
    (toBlock 16 (iv.1.drop 16))

/-- `aes_ige_decrypt` into a buffer that holds `out` before. -/
def aesIgeDecrypt (c : Crypto) (cipher : Bytes) (key iv : Block 32) (out : Bytes) : Bytes :=
  if cipher.length = 0 ∨ cipher.length % 16 ≠ 0 then out else
  igeDecryptLoop (c.aesDecryptBlock key) (cipher.length / 16) cipher (toBlock 16 iv.1)
    (toBlock 16 (iv.1.drop 16))

/-! ## What decryption undoes -/

/-- What the real primitives satisfy: a block decrypts to what was encrypted, and RSA takes every
256-byte message with a leading zero. -/
structure Crypto.Lawful (c : Crypto) : Prop where
  aes : ∀ key b, c.aesDecryptBlock key (c.aesEncryptBlock key b) = b
  rsa : ∀ m : Bytes, m.length = 255 → (c.rsaPublicEncrypt (0 :: m)).isSome = true

theorem xorBlock_self_right (a b : Block n) : xorBlock (xorBlock a b) b = a := by
  obtain ⟨a, ha⟩ := a
  obtain ⟨b, hb⟩ := b
  refine Subtype.ext ?_
  show zipWith (· ^^^ ·) (zipWith (· ^^^ ·) a b) b = a
  have hlen : a.length = b.length := ha.trans hb.symm
  clear ha hb
  induction a generalizing b with
  | nil => rfl
  | cons x xs ih =>
    cases b with
    | nil => exact absurd hlen (by simp)
    | cons y ys =>
      rw [zipWith_cons_cons, zipWith_cons_cons, ih ys (Nat.succ.inj hlen),
        UInt8.xor_assoc, UInt8.xor_self, UInt8.xor_zero]

theorem length_igeEncryptLoop (enc : Block 16 → Block 16) (n : ℕ) (plain : Bytes)
    (ivC ivP : Block 16) : (igeEncryptLoop enc n plain ivC ivP).length = 16 * n := by
  induction n generalizing plain ivC ivP with
  | zero => rfl
  | succ n ih =>
    rw [igeEncryptLoop, length_append, ih, length_block]
    omega

/-- **IGE decryption undoes IGE encryption**, block by block: both loops carry the last ciphertext
and the last plaintext block. -/
theorem igeDecryptLoop_igeEncryptLoop {enc dec : Block 16 → Block 16} (h : ∀ b, dec (enc b) = b)
    (n : ℕ) (plain : Bytes) (hlen : plain.length = 16 * n) (ivC ivP : Block 16) :
    igeDecryptLoop dec n (igeEncryptLoop enc n plain ivC ivP) ivC ivP = plain := by
  induction n generalizing plain ivC ivP with
  | zero => exact (length_eq_zero_iff.mp hlen).symm
  | succ n ih =>
    set p := toBlock 16 plain with hp
    set c := xorBlock (enc (xorBlock p ivC)) ivP with hc
    have hblock : p.1 = plain.take 16 := by
      exact take_append_of_le_length (by omega)
    have hdrop : (plain.drop 16).length = 16 * n := by
      rw [length_drop]
      omega
    have hcipher : igeEncryptLoop enc (n + 1) plain ivC ivP =
        c.1 ++ igeEncryptLoop enc n (plain.drop 16) c p := rfl
    have hback : xorBlock (dec (xorBlock c ivP)) ivC = p := by
      rw [hc, xorBlock_self_right, h, xorBlock_self_right]
    rw [hcipher, igeDecryptLoop]
    simp only [toBlock_append, hback]
    rw [drop_left' c.2, ih _ hdrop, hblock, take_append_drop]

theorem length_aesIgeEncrypt (c : Crypto) (hne : plain ≠ [])
    (hlen : plain.length % 16 = 0) (key iv : Block 32) (out : Bytes) :
    (aesIgeEncrypt c plain key iv out).length = plain.length := by
  have hpos := length_pos_iff.mpr hne
  rw [aesIgeEncrypt, if_neg (by omega), length_igeEncryptLoop]
  omega

theorem aesIgeDecrypt_aesIgeEncrypt {c : Crypto}
    (hc : ∀ key b, c.aesDecryptBlock key (c.aesEncryptBlock key b) = b)
    (hne : plain ≠ []) (hlen : plain.length % 16 = 0) (key iv : Block 32) (out out' : Bytes) :
    aesIgeDecrypt c (aesIgeEncrypt c plain key iv out) key iv out' = plain := by
  have hpos := length_pos_iff.mpr hne
  have hblocks : plain.length = 16 * (plain.length / 16) := by omega
  rw [aesIgeDecrypt, length_aesIgeEncrypt c hne hlen, if_neg (by omega), aesIgeEncrypt,
    if_neg (by omega)]
  exact igeDecryptLoop_igeEncryptLoop (hc key) _ plain hblocks _ _

/-! ## What encryption undoes -/

/-- The block cipher is a permutation under every key, with the decryption as its inverse. -/
structure Crypto.AesPermutes (c : Crypto) : Prop where
  decrypt_encrypt : ∀ key b, c.aesDecryptBlock key (c.aesEncryptBlock key b) = b
  encrypt_decrypt : ∀ key b, c.aesEncryptBlock key (c.aesDecryptBlock key b) = b

/-- **The two loops are one.**  Decryption is the loop of encryption with the other block function
and the two chaining values exchanged. -/
theorem igeDecryptLoop_eq (dec : Block 16 → Block 16) (n : ℕ) (cipher : Bytes)
    (ivC ivP : Block 16) :
    igeDecryptLoop dec n cipher ivC ivP = igeEncryptLoop dec n cipher ivP ivC := by
  induction n generalizing cipher ivC ivP with
  | zero => rfl
  | succ n ih => rw [igeDecryptLoop, igeEncryptLoop, ih]

theorem igeEncryptLoop_igeDecryptLoop {enc dec : Block 16 → Block 16} (h : ∀ b, enc (dec b) = b)
    (n : ℕ) (cipher : Bytes) (hlen : cipher.length = 16 * n) (ivC ivP : Block 16) :
    igeEncryptLoop enc n (igeDecryptLoop dec n cipher ivC ivP) ivC ivP = cipher := by
  rw [igeDecryptLoop_eq, ← igeDecryptLoop_eq]
  exact igeDecryptLoop_igeEncryptLoop h n cipher hlen ivP ivC

theorem length_aesIgeDecrypt (c : Crypto) (hne : cipher ≠ [])
    (hlen : cipher.length % 16 = 0) (key iv : Block 32) (out : Bytes) :
    (aesIgeDecrypt c cipher key iv out).length = cipher.length := by
  have hpos := length_pos_iff.mpr hne
  rw [aesIgeDecrypt, if_neg (by omega), igeDecryptLoop_eq, length_igeEncryptLoop]
  omega

theorem aesIgeEncrypt_aesIgeDecrypt {c : Crypto} (hc : c.AesPermutes)
    (hne : cipher ≠ []) (hlen : cipher.length % 16 = 0) (key iv : Block 32) (out out' : Bytes) :
    aesIgeEncrypt c (aesIgeDecrypt c cipher key iv out) key iv out' = cipher := by
  have hpos := length_pos_iff.mpr hne
  have hblocks : cipher.length = 16 * (cipher.length / 16) := by omega
  rw [aesIgeEncrypt, length_aesIgeDecrypt c hne hlen, if_neg (by omega), aesIgeDecrypt,
    if_neg (by omega)]
  exact igeEncryptLoop_igeDecryptLoop (hc.encrypt_decrypt key) _ cipher hblocks _ _

end TgCli.Core
