import TgCli.Core.Crypto
import TgCli.Core.MtprotoSession

/-!
# `core/mtproto_crypto.c`: the encryption of one message

A message is padded to whole cipher blocks, its `msg_key` is a part of the hash of a piece of the
key and the padded message, and the cipher key and the initialisation vector are made of the
`msg_key` and two more pieces of the key.  Which pieces, is up to the direction: `x` is 0 from the
client to the server and 8 back.  None of the facts below depends on `x`.

The random source of the padding is an argument, and so is what the output buffer holds before:
`aes_ige_encrypt` leaves it alone when the length is not a multiple of 16, which never happens here.
-/

namespace TgCli.Core

open Lib

section Messages

variable (c : Crypto)

/-- `mtproto_derive_keys`: the cipher key and the initialisation vector. -/
def mtprotoDeriveKeys (authKey : AuthKey) (msgKey : Block 16) (x : ℕ) : Block 32 × Block 32 :=
  let sha256A := (c.sha256 (msgKey.1 ++ slice authKey.1 x 36)).1
  let sha256B := (c.sha256 (slice authKey.1 (x + 40) 36 ++ msgKey.1)).1
  (toBlock 32 (slice sha256A 0 8 ++ slice sha256B 8 16 ++ slice sha256A 24 8),
    toBlock 32 (slice sha256B 0 8 ++ slice sha256A 8 16 ++ slice sha256B 24 8))

/-- `mtproto_compute_msg_key`: the middle sixteen bytes of the hash. -/
def mtprotoComputeMsgKey (authKey : AuthKey) (plain : Bytes) (x : ℕ) : Block 16 :=
  toBlock 16 (slice (c.sha256 (slice authKey.1 (88 + x) 32 ++ plain)).1 8 16)

/-- The number of padding bytes: at least twelve, and as many as make whole blocks. -/
def padLen (plainLen : ℕ) : ℕ :=
  let total := plainLen + 12
  let total := (total + 15) / 16 * 16
  total - plainLen

/-- `mtproto_gen_padding`; `rand` is the random source. -/
def mtprotoGenPadding (rand : (n : ℕ) → Block n) (plainLen : ℕ) : Bytes :=
  (rand (padLen plainLen)).1

/-- The padded message that `mtproto_encrypt` encrypts. -/
def mtprotoPad (rand : (n : ℕ) → Block n) (plain : Bytes) : Bytes :=
  plain ++ mtprotoGenPadding rand plain.length

/-- `mtproto_encrypt`: the ciphertext and the `msg_key`. -/
def mtprotoEncrypt (rand : (n : ℕ) → Block n) (plain : Bytes) (authKey : AuthKey) (x : ℕ)
    (out : Bytes) : Bytes × Block 16 :=
  let padded := mtprotoPad rand plain
  let msgKey := mtprotoComputeMsgKey c authKey padded x
  let aes := mtprotoDeriveKeys c authKey msgKey x
  (aesIgeEncrypt c padded aes.1 aes.2 out, msgKey)

/-- `mtproto_decrypt`: the padded message, once its `msg_key` is the one given. -/
def mtprotoDecrypt (cipher : Bytes) (authKey : AuthKey) (msgKey : Block 16) (x : ℕ)
    (out : Bytes) : Option Bytes :=
  if cipher.length < 16 ∨ cipher.length % 16 ≠ 0 then none else
  let aes := mtprotoDeriveKeys c authKey msgKey x
  let plain := aesIgeDecrypt c cipher aes.1 aes.2 out
  if msgKey ≠ mtprotoComputeMsgKey c authKey plain x then none else some plain

end Messages

/-! ## Padding -/

theorem padLen_spec (n : ℕ) : (n + padLen n) % 16 = 0 ∧ 12 ≤ padLen n ∧ padLen n ≤ 27 := by
  show (n + ((n + 12 + 15) / 16 * 16 - n)) % 16 = 0 ∧ 12 ≤ (n + 12 + 15) / 16 * 16 - n ∧
    (n + 12 + 15) / 16 * 16 - n ≤ 27
  omega

theorem length_mtprotoPad (rand : (n : ℕ) → Block n) (plain : Bytes) :
    (mtprotoPad rand plain).length = plain.length + padLen plain.length := by
  rw [mtprotoPad, mtprotoGenPadding, List.length_append, length_block]

theorem length_mtprotoPad_mod (rand : (n : ℕ) → Block n) (plain : Bytes) :
    (mtprotoPad rand plain).length % 16 = 0 := by
  rw [length_mtprotoPad]
  exact (padLen_spec _).1

/-! ## What is accepted -/

variable {c : Crypto}

/-- **What is accepted.**  `mtproto_decrypt` returns a message exactly when the message is whole
blocks, the given `msg_key` is that of the message, and the ciphertext is its encryption under the
keys made of it. -/
theorem mtprotoDecrypt_eq_some_iff (hc : c.AesPermutes) {cipher plain : Bytes} {authKey : AuthKey}
    {msgKey : Block 16} {x : ℕ} {out : Bytes} (out' : Bytes) :
    mtprotoDecrypt c cipher authKey msgKey x out = some plain ↔
      16 ≤ plain.length ∧ plain.length % 16 = 0 ∧ mtprotoComputeMsgKey c authKey plain x = msgKey ∧
        aesIgeEncrypt c plain (mtprotoDeriveKeys c authKey msgKey x).1
          (mtprotoDeriveKeys c authKey msgKey x).2 out' = cipher := by
  constructor
  · intro h
    rw [mtprotoDecrypt] at h
    dsimp only at h
    split_ifs at h with hlen hkey
    have hne : cipher ≠ [] := fun h0 => hlen (.inl (by rw [h0]; exact Nat.zero_lt_succ 15))
    have hmod : cipher.length % 16 = 0 := by omega
    obtain rfl := Option.some_inj.mp h
    have hplain := length_aesIgeDecrypt c hne hmod (mtprotoDeriveKeys c authKey msgKey x).1
      (mtprotoDeriveKeys c authKey msgKey x).2 out
    exact ⟨by omega, by omega, (not_not.mp hkey).symm,
      aesIgeEncrypt_aesIgeDecrypt hc hne hmod _ _ _ _⟩
  · rintro ⟨hlen, hmod, rfl, rfl⟩
    have hne : plain ≠ [] := List.ne_nil_of_length_pos (by omega)
    simp only [mtprotoDecrypt, length_aesIgeEncrypt c hne hmod,
      aesIgeDecrypt_aesIgeEncrypt hc.decrypt_encrypt hne hmod]
    rw [if_neg (by omega), if_neg (fun h => h rfl)]

/-- **Decryption undoes encryption**, in either direction of the connection. -/
theorem mtprotoDecrypt_mtprotoEncrypt (hc : c.AesPermutes) (rand : (n : ℕ) → Block n)
    (plain : Bytes) (authKey : AuthKey) (x : ℕ) (out out' : Bytes) :
    mtprotoDecrypt c (mtprotoEncrypt c rand plain authKey x out).1 authKey
      (mtprotoEncrypt c rand plain authKey x out).2 x out' = some (mtprotoPad rand plain) := by
  have hlen := length_mtprotoPad rand plain
  have hpad := padLen_spec plain.length
  refine (mtprotoDecrypt_eq_some_iff hc out).mpr ⟨?_, length_mtprotoPad_mod rand plain, rfl, rfl⟩
  omega

end TgCli.Core
