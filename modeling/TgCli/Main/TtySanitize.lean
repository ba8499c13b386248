import TgCli.Core.TlValues
import TgCli.Lib.Utf8

/-!
# What a terminal is shown

`tty_sanitize` copies a string for the terminal, byte by byte, with a dot for every byte that a
terminal may take as a command: the C0 controls other than tab and newline, DEL, and `0x9B`, the
control sequence introducer of the eight-bit character sets.  Into a pipe the bytes go as they are.

The three groups are not alike.  C0 and DEL are ASCII, and an ASCII byte stands for itself only.
But `0x9B` is also a continuation byte of UTF-8, and it is replaced there too.  So nothing dangerous
gets through (`sanitized_harmless`), and a text is shown as it is exactly if none of its characters
has the group `0x1B` among its six-bit groups (`ttySanitize_text_iff`).
-/

namespace TgCli.Main

open Lib TgCli.Core

/-! ## The function -/

/-- The bytes that a terminal may take as a command. -/
def Hazardous (c : UInt8) : Prop :=
  (c < 0x20 ∧ c ≠ 0x09 ∧ c ≠ 0x0A) ∨ c = 0x7F ∨ c = 0x9B

instance instDecidableHazardous (c : UInt8) : Decidable (Hazardous c) :=
  inferInstanceAs (Decidable (_ ∨ _ ∨ _))

/-- The byte that the terminal gets for `c`. -/
def ttyByte (c : UInt8) : UInt8 :=
  if Hazardous c then 0x2E else c

/-- The two loops of `tty_sanitize`, from index `i` on: up to the NUL or until the buffer has room
for the NUL only. -/
def copyLoop (f : UInt8 → UInt8) (cap : ℕ) : ℕ → Bytes → Bytes
  | _, [] => []
  | i, c :: src => if c ≠ 0 ∧ i + 1 < cap then f c :: copyLoop f cap (i + 1) src else []

/-- `tty_sanitize`: the string that `dst` holds afterwards, `none` if nothing is written. -/
def ttySanitize (stdoutIsTty : Bool) (cap : ℕ) (src : Option Bytes) : Option Bytes :=
  if cap = 0 then none
  else
    match src with
    | none => some []
    | some src => some (copyLoop (if stdoutIsTty then ttyByte else id) cap 0 src)

variable {dst src : Bytes}

theorem copyLoop_eq (f : UInt8 → UInt8) {cap i : ℕ} :
    copyLoop f cap i src = ((cstr src).take (cap - 1 - i)).map f := by
  induction src generalizing i with
  | nil => simp [copyLoop, cstr]
  | cons c src ih =>
    unfold copyLoop
    by_cases hc : c = 0
    · simp [hc, cstr]
    · have hcons : cstr (c :: src) = c :: cstr src := by simp [cstr, hc]
      by_cases hi : i + 1 < cap
      · have hk : cap - 1 - i = (cap - 1 - (i + 1)) + 1 := by omega
        rw [if_pos ⟨hc, hi⟩, ih, hcons, hk, List.take_succ_cons, List.map_cons]
      · have hk : cap - 1 - i = 0 := by omega
        rw [if_neg (fun h => hi h.2), hk, List.take_zero, List.map_nil]

theorem ttySanitize_some {stdoutIsTty : Bool} {cap : ℕ}
    (h : ttySanitize stdoutIsTty cap (some src) = some dst) :
    0 < cap ∧ dst = ((cstr src).take (cap - 1)).map (if stdoutIsTty then ttyByte else id) := by
  unfold ttySanitize at h
  by_cases h0 : cap = 0
  · rw [if_pos h0] at h
    cases h
  · rw [if_neg h0] at h
    refine ⟨Nat.pos_of_ne_zero h0, ?_⟩
    rw [← Option.some.inj h, copyLoop_eq, Nat.sub_zero]

/-! ## Nothing dangerous gets through -/

theorem not_hazardous_ttyByte (c : UInt8) : ¬ Hazardous (ttyByte c) := by
  unfold ttyByte
  split_ifs with h
  · decide
  · exact h

theorem ttyByte_eq_self_iff (c : UInt8) : ttyByte c = c ↔ ¬ Hazardous c := by
  constructor
  · intro h
    rw [← h]
    exact not_hazardous_ttyByte c
  · intro h
    unfold ttyByte
    rw [if_neg h]

/-- **Nothing dangerous gets through**, for every string and capacity, valid UTF-8 or not. -/
theorem sanitized_harmless {cap : ℕ}
    (h : ttySanitize true cap (some src) = some dst) : ∀ c ∈ dst, ¬ Hazardous c := by
  obtain ⟨-, rfl⟩ := ttySanitize_some h
  intro c hc
  obtain ⟨b, -, rfl⟩ := List.mem_map.mp hc
  exact not_hazardous_ttyByte b

/-! ## Texts -/

/-- The control characters of Unicode: C0, DEL and C1. -/
def IsControl (c : Char) : Prop :=
  c.toNat < 0x20 ∨ (0x7F ≤ c.toNat ∧ c.toNat ≤ 0x9F)

/-- In the encoding of a character that is no control, only `0x9B` can be taken for a command. -/
theorem hazardous_in_encode_iff {c : Char} (hc : ¬ IsControl c) :
    (∃ b ∈ String.utf8EncodeChar c, Hazardous b) ↔ HasGroup 0x1B c.toNat := by
  rw [← mem_encode_cont_iff (b := 0x9B) (by decide) (by decide)]
  constructor
  · rintro ⟨b, hb, ⟨hlow, -, -⟩ | rfl | rfl⟩
    · -- a C0 byte is the character itself
      have hlow' : b.toNat < 0x20 := UInt8.lt_iff_toNat_lt.mp hlow
      have h := (mem_encode_ascii_iff (by omega) c).mp hb
      exact absurd (Or.inl (by omega)) hc
    · have h := (mem_encode_ascii_iff (by decide) c).mp hb
      have h7 : c.toNat = 0x7F := h
      exact absurd (Or.inr (by omega)) hc
    · exact hb
  · intro h
    exact ⟨0x9B, h, Or.inr (Or.inr rfl)⟩

theorem map_ttyByte_eq_self_iff (s : Bytes) : s.map ttyByte = s ↔ ∀ c ∈ s, ¬ Hazardous c := by
  have h : s.map ttyByte = s ↔ ∀ c ∈ s, ttyByte c = c := by
    nth_rewrite 2 [← List.map_id s]
    exact List.map_inj_left
  rw [h]
  simp only [ttyByte_eq_self_iff]

/-- **When a text is shown as it is.** -/
theorem ttySanitize_text_iff {cap : ℕ} {text : List Char}
    (hsrc : cstr src = utf8Text text) (htext : ∀ c ∈ text, ¬ IsControl c)
    (hfits : (cstr src).length < cap) (h : ttySanitize true cap (some src) = some dst) :
    dst = cstr src ↔ ∀ c ∈ text, ¬ HasGroup 0x1B c.toNat := by
  obtain ⟨-, rfl⟩ := ttySanitize_some h
  rw [List.take_of_length_le (by omega), if_pos rfl, map_ttyByte_eq_self_iff, hsrc]
  constructor
  · intro hs c hc hg
    obtain ⟨b, hb, hz⟩ := (hazardous_in_encode_iff (htext c hc)).mpr hg
    exact hs b (mem_utf8Text.mpr ⟨c, hc, hb⟩) hz
  · intro hg b hb hz
    obtain ⟨c, hc, hbc⟩ := mem_utf8Text.mp hb
    exact hg c hc ((hazardous_in_encode_iff (htext c hc)).mp ⟨b, hbc, hz⟩)

/-- What is asked of the function on a terminal: nothing hazardous comes out, and a text without
control characters that fits comes out as it is. -/
structure SanitizesRight (cap : ℕ) (src : Bytes) : Prop where
  harmless : ∀ dst, ttySanitize true cap (some src) = some dst → ∀ c ∈ dst, ¬ Hazardous c
  verbatim : ∀ dst text, ttySanitize true cap (some src) = some dst → cstr src = utf8Text text →
    (∀ c ∈ text, ¬ IsControl c) → (cstr src).length < cap → dst = cstr src

/-- **`tty_sanitize` on a terminal.**  The first half holds always, the second exactly on the
strings that are no text without control characters with the group `0x1B` in one of them. -/
theorem sanitizesRight_iff (cap : ℕ) (src : Bytes) :
    SanitizesRight cap src ↔
      ∀ text, cstr src = utf8Text text → (∀ c ∈ text, ¬ IsControl c) → (cstr src).length < cap →
        ∀ c ∈ text, ¬ HasGroup 0x1B c.toNat := by
  constructor
  · intro hs text hsrc htext hfits
    have hcap : cap ≠ 0 := by omega
    obtain ⟨dst, h⟩ : ∃ dst, ttySanitize true cap (some src) = some dst :=
      ⟨_, by unfold ttySanitize; rw [if_neg hcap]⟩
    exact (ttySanitize_text_iff hsrc htext hfits h).mp (hs.verbatim dst text h hsrc htext hfits)
  · intro hg
    refine ⟨fun dst h => sanitized_harmless h, ?_⟩
    intro dst text h hsrc htext hfits
    exact (ttySanitize_text_iff hsrc htext hfits h).mpr (hg text hsrc htext hfits)

/-- The capital letter U with circumflex, `C3 9B`, loses its second byte. -/
theorem not_sanitizesRight_ucirc : ¬ SanitizesRight 128 [0xC3, 0x9B] := by
  intro h
  have hv := h.verbatim [0xC3, 0x2E] ['Û'] (by decide) (by decide +kernel)
    (by simp [IsControl]) (by decide)
  exact absurd hv (by decide)

end TgCli.Main
