import TgCli.Lib.Json

/-!
# Texts in UTF-8

A text is a list of characters and `utf8Text` its bytes.  A byte string is valid UTF-8 exactly if it
is the bytes of some text.  Two things about the encoding matter to a program that works on bytes.

* **Which bytes stand in the encoding of a character.**  A byte below `0x80` stands only for itself
  (`mem_encode_ascii_iff`).  A continuation byte `0x80 + k` stands in the encoding of every
  character from `0x80` up that has `k` for one of its groups of six bits (`mem_encode_cont_iff`).
* **Where a character ends.**  The first byte is no continuation byte and gives the length, and
  all others are continuation bytes (`encode_shape`).  No encoding begins with another one
  (`eq_of_encode_isPrefix`).
-/

namespace TgCli.Lib

def utf8Text (text : List Char) : Bytes :=
  text.flatMap String.utf8EncodeChar

@[simp] theorem utf8Text_cons (c : Char) (text : List Char) :
    utf8Text (c :: text) = String.utf8EncodeChar c ++ utf8Text text := rfl

theorem mem_utf8Text {text : List Char} {b : UInt8} :
    b ∈ utf8Text text ↔ ∃ c ∈ text, b ∈ String.utf8EncodeChar c :=
  List.mem_flatMap

/-- A continuation byte: the two high bits are `10`. -/
def IsCont (b : UInt8) : Prop :=
  b &&& 0xC0 = 0x80

instance instDecidableIsCont (b : UInt8) : Decidable (IsCont b) :=
  inferInstanceAs (Decidable (b &&& 0xC0 = 0x80))

theorem isCont_iff (b : UInt8) : IsCont b ↔ 0x80 ≤ b.toNat ∧ b.toNat < 0xC0 := by
  have key : ∀ n : Fin 256, (UInt8.ofNat n.1 &&& 0xC0 = 0x80) ↔ 0x80 ≤ n.1 ∧ n.1 < 0xC0 := by
    decide +kernel
  have h := key ⟨b.toNat, b.toNat_lt⟩
  rwa [UInt8.ofNat_toNat] at h

theorem toNat_ofNat_byte {n : ℕ} (h : n < 256) : (UInt8.ofNat n).toNat = n := by
  rw [UInt8.toNat_ofNat']
  omega

theorem toNat_lt_unicode (c : Char) : c.toNat < 0x110000 := by
  have h := c.valid
  show c.val.toNat < 0x110000
  omega

theorem utf8EncodeChar_eq (c : Char) : String.utf8EncodeChar c = Json.utf8 c.toNat := by
  have hc := toNat_lt_unicode c
  have hv : c.val.toNat = c.toNat := rfl
  unfold String.utf8EncodeChar Json.utf8
  simp only [hv]
  generalize c.toNat = n at hc
  split_ifs
  any_goals omega
  · rfl
  · have h1 : n / 64 % 32 + 192 = 192 + n / 64 := by omega
    have h2 : n % 64 + 128 = 128 + n % 64 := by omega
    simp only [← h1, ← h2]
  · have h1 : n / 4096 % 16 + 224 = 224 + n / 4096 := by omega
    have h2 : n / 64 % 64 + 128 = 128 + n / 64 % 64 := by omega
    have h3 : n % 64 + 128 = 128 + n % 64 := by omega
    simp only [← h1, ← h2, ← h3]
  · have h1 : n / 262144 % 8 + 240 = 240 + n / 262144 := by omega
    have h2 : n / 4096 % 64 + 128 = 128 + n / 4096 % 64 := by omega
    have h3 : n / 64 % 64 + 128 = 128 + n / 64 % 64 := by omega
    have h4 : n % 64 + 128 = 128 + n % 64 := by omega
    simp only [← h1, ← h2, ← h3, ← h4]

/-- The length that a first byte announces. -/
def leadLength (b : UInt8) : ℕ :=
  if b < 0x80 then 1 else if b ≥ 0xF0 then 4 else if b ≥ 0xE0 then 3 else if b ≥ 0xC2 then 2 else 1

theorem leadLength_ofNat {n : ℕ} (h : n < 256) :
    leadLength (UInt8.ofNat n) =
      if n < 0x80 then 1 else if n ≥ 0xF0 then 4 else if n ≥ 0xE0 then 3 else if n ≥ 0xC2 then 2
      else 1 := by
  have key : ∀ n : Fin 256, leadLength (UInt8.ofNat n.1) =
      if n.1 < 0x80 then 1 else if n.1 ≥ 0xF0 then 4 else if n.1 ≥ 0xE0 then 3
      else if n.1 ≥ 0xC2 then 2 else 1 := by
    decide +kernel
  exact key ⟨n, h⟩

theorem isCont_ofNat_add (k : ℕ) : IsCont (UInt8.ofNat (0x80 + k % 64)) := by
  rw [isCont_iff, toNat_ofNat_byte (by omega)]
  omega

/-- **Shape of an encoding.**  A first byte that is no continuation byte and announces the length,
and then continuation bytes. -/
theorem encode_shape (c : Char) :
    ∃ b t, String.utf8EncodeChar c = b :: t ∧ ¬ IsCont b ∧ (∀ x ∈ t, IsCont x) ∧
      leadLength b = t.length + 1 := by
  have hc := toNat_lt_unicode c
  rw [utf8EncodeChar_eq]
  unfold Json.utf8
  generalize c.toNat = n at hc
  have low : ∀ k < 256, k < 0x80 ∨ 0xC0 ≤ k → ¬ IsCont (UInt8.ofNat k) := by
    intro k hk hlow
    rw [isCont_iff, toNat_ofNat_byte hk]
    omega
  have cont : ∀ ks : List ℕ, ∀ x ∈ ks.map (fun k => UInt8.ofNat (0x80 + k % 64)), IsCont x := by
    simp only [List.forall_mem_map, isCont_ofNat_add, implies_true]
  split_ifs with h1 h2 h3
  · refine ⟨_, _, rfl, low _ (by omega) (by omega), by simp, ?_⟩
    rw [leadLength_ofNat (by omega), if_pos h1]
    rfl
  · refine ⟨_, _, rfl, low _ (by omega) (by omega), cont [n], ?_⟩
    rw [leadLength_ofNat (by omega), if_neg (by omega), if_neg (by omega), if_neg (by omega),
      if_pos (by omega)]
    rfl
  · refine ⟨_, _, rfl, low _ (by omega) (by omega), cont [n / 64, n], ?_⟩
    rw [leadLength_ofNat (by omega), if_neg (by omega), if_neg (by omega), if_pos (by omega)]
    rfl
  · refine ⟨_, _, rfl, low _ (by omega) (by omega), cont [n / 4096, n / 64, n], ?_⟩
    rw [leadLength_ofNat (by omega), if_neg (by omega), if_pos (by omega)]
    rfl

theorem eq_of_encode_isPrefix {c d : Char} {rest : Bytes}
    (h : String.utf8EncodeChar d <+: String.utf8EncodeChar c ++ rest) : d = c := by
  obtain ⟨r, hr⟩ := h
  have hd : ((String.utf8EncodeChar d).toByteArray ++ r.toByteArray).utf8DecodeChar? 0 = some d :=
    ByteArray.utf8DecodeChar?_utf8EncodeChar_append
  have hc : ((String.utf8EncodeChar c).toByteArray ++ rest.toByteArray).utf8DecodeChar? 0 =
      some c :=
    ByteArray.utf8DecodeChar?_utf8EncodeChar_append
  rw [← List.toByteArray_append, hr, List.toByteArray_append, hc] at hd
  exact (Option.some.inj hd).symm

/-! ## Which bytes an encoding contains -/

theorem eq_ofNat_iff {b : UInt8} {n : ℕ} (h : n < 256) : b = UInt8.ofNat n ↔ b.toNat = n := by
  rw [← UInt8.toNat_inj, toNat_ofNat_byte h]

theorem mem_encode_iff (b : UInt8) (c : Char) :
    b ∈ String.utf8EncodeChar c ↔
      if c.toNat < 0x80 then b.toNat = c.toNat
      else if c.toNat < 0x800 then b.toNat = 0xC0 + c.toNat / 64 ∨ b.toNat = 0x80 + c.toNat % 64
      else if c.toNat < 0x10000 then b.toNat = 0xE0 + c.toNat / 4096 ∨
        b.toNat = 0x80 + c.toNat / 64 % 64 ∨ b.toNat = 0x80 + c.toNat % 64
      else b.toNat = 0xF0 + c.toNat / 262144 ∨ b.toNat = 0x80 + c.toNat / 4096 % 64 ∨
        b.toNat = 0x80 + c.toNat / 64 % 64 ∨ b.toNat = 0x80 + c.toNat % 64 := by
  have hc := toNat_lt_unicode c
  rw [utf8EncodeChar_eq]
  unfold Json.utf8
  split_ifs <;>
    simp (disch := omega) only [List.mem_cons, List.not_mem_nil, or_false, eq_ofNat_iff]

theorem mem_encode_ascii_iff {b : UInt8} (hb : b.toNat < 0x80) (c : Char) :
    b ∈ String.utf8EncodeChar c ↔ c.toNat = b.toNat := by
  rw [mem_encode_iff]
  split_ifs <;> omega

/-- The code point `n` has `k` for one of the groups of six bits that its encoding puts into
continuation bytes. -/
def HasGroup (k n : ℕ) : Prop :=
  (0x80 ≤ n ∧ n % 64 = k) ∨ (0x800 ≤ n ∧ n / 64 % 64 = k) ∨ (0x10000 ≤ n ∧ n / 4096 % 64 = k)

/-- **A continuation byte in an encoding** is a group of six bits of the code point. -/
theorem mem_encode_cont_iff {b : UInt8} {k : ℕ} (hk : k < 64) (hb : b.toNat = 0x80 + k) (c : Char) :
    b ∈ String.utf8EncodeChar c ↔ HasGroup k c.toNat := by
  rw [mem_encode_iff, HasGroup]
  split_ifs <;> omega

end TgCli.Lib
