import Mathlib.Data.Nat.Digits.Lemmas
import TgCli.Core.Crypto
import TgCli.Core.TlSerial

/-!
# `crypto_rsa_fingerprint` of `core/crypto.c`

The fingerprint of an RSA key is made of the hash of its TL encoding, the modulus and then the
exponent as byte strings.  The function does not use the serializer: it computes the size of the two
blocks, takes a buffer of zeros and writes a length prefix and a number into each of them.

`fingerprintBuffer_eq` says that this is the encoding which `tl_write_bytes` makes, whatever the
sizes of the two numbers are.
-/

namespace TgCli.Core

open List Lib

/-! ## The function -/

def bnNumBytes (n : ℕ) : ℕ :=
  (Nat.digits 256 n).length

def bnBn2bin (n : ℕ) : Bytes :=
  beBytes (bnNumBytes n) n

/-- `memcpy(buf + off, data, …)`. -/
def overwrite (buf : Bytes) (off : ℕ) (data : Bytes) : Bytes :=
  buf.take off ++ data ++ buf.drop (off + data.length)

def fingerprintBlock (len : ℕ) : ℕ :=
  ((if len < 254 then 1 else 4) + len + 3) / 4 * 4

def encodeNumber (buf : Bytes) (off : ℕ) (n : ℕ) : Bytes :=
  let len := bnNumBytes n
  if len < 254 then
    overwrite (overwrite buf off [UInt8.ofNat len]) (off + 1) (bnBn2bin n)
  else
    let buf := overwrite buf off [0xFE]
    let buf := overwrite buf (off + 1) [UInt8.ofNat (len &&& 0xFF)]
    let buf := overwrite buf (off + 2) [UInt8.ofNat (len >>> 8 &&& 0xFF)]
    let buf := overwrite buf (off + 3) [UInt8.ofNat (len >>> 16 &&& 0xFF)]
    overwrite buf (off + 4) (bnBn2bin n)

/-- The bytes that `crypto_rsa_fingerprint` hashes, for a modulus and an exponent. -/
def fingerprintBuffer (n e : ℕ) : Bytes :=
  let nBlock := fingerprintBlock (bnNumBytes n)
  let eBlock := fingerprintBlock (bnNumBytes e)
  let buf := List.replicate (nBlock + eBlock) 0
  encodeNumber (encodeNumber buf 0 n) nBlock e

/-- `crypto_rsa_fingerprint` behind the parsing of the key; the fingerprint is the last eight bytes
of the hash. -/
def cryptoRsaFingerprint (c : Crypto) (key : Option (ℕ × ℕ)) : Option UInt64 :=
  match key with
  | none => none
  | some (n, e) =>
    if bnNumBytes n = 0 ∨ bnNumBytes e = 0 then none
    else some (u64At (c.sha1 (fingerprintBuffer n e)).1 12)

/-! ## The encoding -/

/-- The TL encoding of a key: its modulus and its exponent, big-endian, as byte strings. -/
def tlWriteRsaKey (n e : ℕ) : Bytes :=
  tlWriteBytes (tlWriteBytes [] (bnBn2bin n)) (bnBn2bin e)

@[simp] theorem length_bnBn2bin (n : ℕ) : (bnBn2bin n).length = bnNumBytes n :=
  length_beBytes _ n

theorem bnNumBytes_eq_zero {n : ℕ} : bnNumBytes n = 0 ↔ n = 0 := by
  rw [bnNumBytes, length_eq_zero_iff, Nat.digits_eq_nil_iff_eq_zero]

theorem overwrite_zeros {p d : Bytes} {off k : ℕ} (hoff : off = p.length) (hd : d.length ≤ k)
    (t : Bytes) : overwrite (p ++ (replicate k 0 ++ t)) off d =
      (p ++ d) ++ (replicate (k - d.length) 0 ++ t) := by
  have hdrop : (replicate k (0 : UInt8) ++ t).drop d.length =
      replicate (k - d.length) 0 ++ t := by
    rw [drop_append_of_le_length (by simpa using hd), drop_replicate]
  rw [overwrite, hoff, take_left, ← drop_drop, drop_left, hdrop]

theorem leBytes_three (len : ℕ) : leBytes 3 len =
    [UInt8.ofNat (len &&& 0xFF), UInt8.ofNat (len >>> 8 &&& 0xFF),
      UInt8.ofNat (len >>> 16 &&& 0xFF)] := by
  have hand : ∀ m : ℕ, UInt8.ofNat (m &&& 0xFF) = UInt8.ofNat m := by
    intro m
    have hmod : m &&& 0xFF = m % 256 := Nat.and_two_pow_sub_one_eq_mod m 8
    rw [hmod]
    exact UInt8.ofNat_mod_size
  rw [hand, hand, hand, leBytes_succ, leBytes_succ, leBytes_succ, Nat.shiftRight_eq_div_pow,
    Nat.shiftRight_eq_div_pow, Nat.div_div_eq_div_mul]
  rfl

/-- **One number**: the block becomes the byte string that the serializer writes. -/
theorem encodeNumber_zeros {p : Bytes} {off : ℕ} (hoff : off = p.length) (n : ℕ) (t : Bytes) :
    encodeNumber (p ++ (replicate (fingerprintBlock (bnNumBytes n)) 0 ++ t)) off n =
      p ++ tlBytes (bnBn2bin n) ++ t := by
  have hlen : (bnBn2bin n).length = bnNumBytes n := length_bnBn2bin n
  unfold encodeNumber
  dsimp only
  rw [tlBytes, bytesHeader, bytesPad, hlen, fingerprintBlock]
  split_ifs with hshort
  · have hpad : (1 + bnNumBytes n + 3) / 4 * 4 - 1 - bnNumBytes n =
        (4 - (1 + bnNumBytes n) % 4) % 4 := by omega
    rw [overwrite_zeros hoff (by rw [length_singleton]; omega),
      overwrite_zeros (by rw [hoff, length_append, length_singleton])
        (by rw [hlen, length_singleton]; omega),
      hlen, length_singleton, hpad]
    simp only [append_assoc]
  · have hpad : (4 + bnNumBytes n + 3) / 4 * 4 - 1 - 1 - 1 - 1 - bnNumBytes n =
        (4 - (4 + bnNumBytes n) % 4) % 4 := by omega
    rw [overwrite_zeros hoff (by rw [length_singleton]; omega),
      overwrite_zeros (by simp [hoff]) (by simp only [length_singleton]; omega),
      overwrite_zeros (by simp [hoff]) (by simp only [length_singleton]; omega),
      overwrite_zeros (by simp [hoff]) (by simp only [length_singleton]; omega),
      overwrite_zeros (by simp [hoff]) (by rw [hlen]; simp only [length_singleton]; omega),
      leBytes_three, hlen]
    simp only [length_singleton, hpad, append_assoc, cons_append, nil_append]

theorem length_tlBytes_bnBn2bin (n : ℕ) :
    (tlBytes (bnBn2bin n)).length = fingerprintBlock (bnNumBytes n) := by
  rw [length_tlBytes, length_bnBn2bin, fingerprintBlock]

/-- **The bytes that are hashed are the TL encoding of the key.** -/
theorem fingerprintBuffer_eq (n e : ℕ) : fingerprintBuffer n e = tlWriteRsaKey n e := by
  have hn : encodeNumber (replicate (fingerprintBlock (bnNumBytes n)) 0 ++
      replicate (fingerprintBlock (bnNumBytes e)) 0) 0 n =
      tlBytes (bnBn2bin n) ++ replicate (fingerprintBlock (bnNumBytes e)) 0 :=
    encodeNumber_zeros (p := []) rfl n _
  have he := encodeNumber_zeros (length_tlBytes_bnBn2bin n).symm e []
  rw [append_nil, append_nil] at he
  unfold fingerprintBuffer
  dsimp only
  rw [replicate_add, hn, he]
  rfl

/-- The fingerprint that a server computes from the encoding of a key. -/
def tlFingerprint (c : Crypto) (n e : ℕ) : UInt64 :=
  u64At (c.sha1 (tlWriteRsaKey n e)).1 12

/-- **The client's fingerprint is the one of the TL encoding**, for every key. -/
theorem cryptoRsaFingerprint_eq (c : Crypto) (n e : ℕ) :
    fingerprintBuffer n e = tlWriteBytes (tlWriteBytes [] (bnBn2bin n)) (bnBn2bin e) ∧
      cryptoRsaFingerprint c (some (n, e)) =
        if n = 0 ∨ e = 0 then none else some (tlFingerprint c n e) := by
  refine ⟨fingerprintBuffer_eq n e, ?_⟩
  rw [cryptoRsaFingerprint, tlFingerprint, fingerprintBuffer_eq]
  simp only [bnNumBytes_eq_zero]

end TgCli.Core
