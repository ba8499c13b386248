import TgCli.Lib.Json
import TgCli.Core.TlSerial

/-!
# `core/json_util.c`: escaping a string for JSON

`json_escape_str` writes into a buffer and goes on counting when the buffer is full, as `snprintf`
does.  `dst_jsonEscapeStr` says what is in the buffer: the beginning of the escaped string.  The
escaped string is a literal of the string it was made from (`body_escapeStr`), so a buffer that
holds all of it can be printed between quotes.  A buffer that is too small may end inside an escape
(`isBody_take_iff`), as the caller can tell from the number that is returned.
-/

namespace TgCli.Core

open List Lib

/-- What `json_escape_str` pushes for one byte. -/
def escapeByte (c : UInt8) : Bytes :=
  if c = 0x22 then [0x5C, 0x22]
  else if c = 0x5C then [0x5C, 0x5C]
  else if c = 0x08 then [0x5C, 0x62]
  else if c = 0x0C then [0x5C, 0x66]
  else if c = 0x0A then [0x5C, 0x6E]
  else if c = 0x0D then [0x5C, 0x72]
  else if c = 0x09 then [0x5C, 0x74]
  else if c < 0x20 then 0x5C :: 0x75 :: hex4 c.toNat
  else [c]

/-- The buffer of `json_escape_str` up to its terminator, and the number of bytes pushed. -/
structure Escaped where
  dst : Bytes
  out : ℕ

def Escaped.push (cap : ℕ) (s : Escaped) (c : UInt8) : Escaped :=
  if s.out + 1 < cap then ⟨s.dst ++ [c], s.out + 1⟩ else ⟨s.dst, s.out + 1⟩

/-- `json_escape_str`; `none` is a null pointer. -/
def jsonEscapeStr (cap : ℕ) (src : Option Bytes) : Escaped :=
  if cap = 0 then ⟨[], 0⟩
  else (cstr (src.getD [])).foldl (fun s c => (escapeByte c).foldl (Escaped.push cap) s) ⟨[], 0⟩

def escapeStr (s : Bytes) : Bytes :=
  s.flatMap escapeByte

/-! ## The buffer -/

theorem foldl_push (cap : ℕ) (l p : Bytes) :
    l.foldl (Escaped.push cap) ⟨p.take (cap - 1), p.length⟩ =
      ⟨(p ++ l).take (cap - 1), (p ++ l).length⟩ := by
  induction l generalizing p with
  | nil => rw [append_nil]; rfl
  | cons c l ih =>
    have hpush : Escaped.push cap ⟨p.take (cap - 1), p.length⟩ c =
        ⟨(p ++ [c]).take (cap - 1), (p ++ [c]).length⟩ := by
      rw [length_append, length_singleton, Escaped.push]
      split_ifs with hfits
      · dsimp only at hfits
        rw [take_of_length_le (by omega), take_of_length_le (by simp; omega)]
      · dsimp only at hfits
        rw [take_append_of_le_length (by omega)]
    rw [foldl_cons, hpush, ih, append_assoc, singleton_append]

theorem jsonEscapeStr_eq {cap : ℕ} (hcap : cap ≠ 0) (src : Bytes) :
    jsonEscapeStr cap (some src) =
      ⟨(escapeStr (cstr src)).take (cap - 1), (escapeStr (cstr src)).length⟩ := by
  rw [jsonEscapeStr, if_neg hcap, Option.getD_some, ← foldl_flatMap]
  have h := foldl_push cap (escapeStr (cstr src)) []
  rwa [nil_append, take_nil] at h

theorem length_escapeByte_le (c : UInt8) : (escapeByte c).length ≤ 6 := by
  rw [escapeByte]
  split_ifs <;> simp [hex4]

theorem length_escapeStr_le (s : Bytes) : (escapeStr s).length ≤ 6 * s.length := by
  induction s with
  | nil => exact Nat.zero_le _
  | cons c s ih =>
    have := length_escapeByte_le c
    rw [escapeStr, flatMap_cons, length_append, length_cons]
    rw [escapeStr] at ih
    omega

theorem dst_jsonEscapeStr {cap : ℕ} {src : Bytes} (h : 6 * src.length < cap) :
    (jsonEscapeStr cap (some src)).dst = escapeStr (cstr src) := by
  have hlen := length_escapeStr_le (cstr src)
  have hcstr : (cstr src).length ≤ src.length := (takeWhile_sublist _).length_le
  rw [jsonEscapeStr_eq (by omega)]
  exact take_of_length_le (by omega)

/-! ## What the escaped string stands for -/

theorem hexUnit_control (n : Fin 0x20) :
    Json.hexUnit 0x30 0x30 (hexDigit (n / 16)) (hexDigit (n % 16)) = some n.1 := by
  revert n
  decide

theorem hex4_control {n : ℕ} (h : n < 0x20) :
    hex4 n = [0x30, 0x30, hexDigit (n / 16), hexDigit (n % 16)] := by
  have h₀ : n / 4096 % 16 = 0 := by omega
  have h₁ : n / 256 % 16 = 0 := by omega
  have h₂ : n / 16 % 16 = n / 16 := by omega
  simp [hex4, range_succ, h₀, h₁, h₂, hexDigit]

theorem escapeByte_cases (c : UInt8) :
    (escapeByte c = [c] ∧ Json.isPlain c = true) ∨
      ∃ u, escapeByte c = 0x5C :: u ∧ Json.Escape u [c] := by
  rw [escapeByte]
  split_ifs with hquote hback hb hf hn hr ht hlt
  · exact .inr ⟨_, rfl, .short (by subst hquote; decide)⟩
  · exact .inr ⟨_, rfl, .short (by subst hback; decide)⟩
  · exact .inr ⟨_, rfl, .short (by subst hb; decide)⟩
  · exact .inr ⟨_, rfl, .short (by subst hf; decide)⟩
  · exact .inr ⟨_, rfl, .short (by subst hn; decide)⟩
  · exact .inr ⟨_, rfl, .short (by subst hr; decide)⟩
  · exact .inr ⟨_, rfl, .short (by subst ht; decide)⟩
  · have hc : c.toNat < 0x20 := hlt
    have hutf : Json.utf8 c.toNat = [c] := by
      rw [Json.utf8, if_pos (by omega), UInt8.ofNat_toNat]
    refine .inr ⟨_, rfl, ?_⟩
    rw [hex4_control hc, ← hutf]
    exact .unit (hexUnit_control ⟨c.toNat, hc⟩) (.inl (by omega))
  · exact .inl ⟨rfl, Json.isPlain_iff.mpr ⟨UInt8.not_lt.mp hlt, hquote, hback⟩⟩

/-- **The escaped string is a literal of the string.** -/
theorem body_escapeStr (s tail : Bytes) : Json.Body s (escapeStr s ++ 0x22 :: tail) tail := by
  induction s with
  | nil => exact .close tail
  | cons c s ih =>
    rw [escapeStr, flatMap_cons, append_assoc]
    rcases escapeByte_cases c with ⟨hc, hplain⟩ | ⟨u, hc, he⟩
    · rw [hc]
      exact .char hplain ih
    · rw [hc]
      exact .escape he ih

theorem space_le_hexDigit (n : Fin 16) : 0x20 ≤ hexDigit n := by
  revert n
  decide

theorem space_le_of_mem_escapeByte {c d : UInt8} (h : d ∈ escapeByte c) : 0x20 ≤ d := by
  rw [escapeByte] at h
  split_ifs at h with _ _ _ _ _ _ _ hlt
  iterate 7
    clear * - h
    revert d
    decide
  · have hc : c.toNat < 0x20 := hlt
    have hhi := space_le_hexDigit ⟨c.toNat / 16, by omega⟩
    have hlo := space_le_hexDigit ⟨c.toNat % 16, by omega⟩
    rw [hex4_control hc] at h
    simp only [mem_cons, not_mem_nil, or_false] at h
    obtain rfl | rfl | rfl | rfl | rfl | rfl := h
    iterate 4 decide
    · exact hhi
    · exact hlo
  · obtain rfl := mem_singleton.mp h
    exact UInt8.not_lt.mp hlt

theorem space_le_of_mem_escapeStr {s : Bytes} {d : UInt8} (h : d ∈ escapeStr s) : 0x20 ≤ d := by
  obtain ⟨c, -, hd⟩ := mem_flatMap.mp h
  exact space_le_of_mem_escapeByte hd

theorem newline_not_mem_escapeStr (s : Bytes) : 0x0A ∉ escapeStr s := fun h =>
  absurd (space_le_of_mem_escapeStr h) (by decide)

/-! ## A buffer that is too small -/

def IsBody (p : Bytes) : Prop :=
  ∃ v, Json.Body v (p ++ [0x22]) []

theorem not_isBody_of_cut {u x p t : Bytes} (he : Json.Escape u x) (hu : u = p ++ t) (ht : t ≠ []) :
    ¬ IsBody (0x5C :: p) := by
  rintro ⟨v, hbody⟩
  obtain ⟨hc, -⟩ | ⟨hc, -⟩ | ⟨-, w, y, b, s, hw, he', -, hrest⟩ := Json.body_cons_iff.mp hbody
  · exact absurd hc (by decide)
  · exact absurd hc (by decide)
  · rcases eq_nil_or_concat b with rfl | ⟨b', c, rfl⟩
    · cases hrest
    · -- the other escape ends before the cut, where the first one goes on
      have hp : p = w ++ b' := by
        rw [concat_eq_append, ← append_assoc] at hw
        exact (append_inj' hw rfl).1
      have hsame : u ++ [] = w ++ (b' ++ t) := by
        rw [append_nil, hu, hp, append_assoc]
      have hnil := (he.unique he' hsame).2
      exact ht (append_eq_nil_iff.mp hnil.symm).2

theorem isBody_of_escapeByte {c : UInt8} {p : Bytes} (h : IsBody (escapeByte c ++ p)) :
    IsBody p := by
  obtain ⟨v, hbody⟩ := h
  rw [append_assoc] at hbody
  rcases escapeByte_cases c with ⟨hc, hplain⟩ | ⟨u, hc, he⟩
  · obtain ⟨-, hquote, hback⟩ := Json.isPlain_iff.mp hplain
    rw [hc] at hbody
    obtain ⟨h, -⟩ | ⟨-, s, -, hrest⟩ | ⟨h, -⟩ := Json.body_cons_iff.mp hbody
    · exact absurd h hquote
    · exact ⟨s, hrest⟩
    · exact absurd h hback
  · rw [hc] at hbody
    obtain ⟨h, -⟩ | ⟨h, -⟩ | ⟨-, w, y, b, s, hw, he', -, hrest⟩ := Json.body_cons_iff.mp hbody
    · exact absurd h (by decide)
    · exact absurd h (by decide)
    · obtain ⟨-, rfl⟩ := he.unique he' hw
      exact ⟨s, hrest⟩

/-- **A cut of an escaped string is a literal** exactly if it falls between two bytes of the string.
-/
theorem isBody_take_iff (s : Bytes) (k : ℕ) :
    IsBody ((escapeStr s).take k) ↔ ∃ q, q <+: s ∧ (escapeStr s).take k = escapeStr q := by
  constructor
  · intro h
    induction s generalizing k with
    | nil => exact ⟨[], nil_prefix, take_nil⟩
    | cons c s ih =>
      rw [escapeStr, flatMap_cons, ← escapeStr] at h ⊢
      by_cases hk : (escapeByte c).length ≤ k
      · rw [take_append, take_of_length_le hk] at h ⊢
        obtain ⟨q, hq, heq⟩ := ih _ (isBody_of_escapeByte h)
        refine ⟨c :: q, cons_prefix_cons.mpr ⟨rfl, hq⟩, ?_⟩
        rw [heq, escapeStr, escapeStr, flatMap_cons]
      · rw [take_append_of_le_length (by omega)] at h ⊢
        rcases k with _ | k
        · exact ⟨[], nil_prefix, take_zero⟩
        · exfalso
          rcases escapeByte_cases c with ⟨hc, -⟩ | ⟨u, hc, he⟩
          · rw [hc, length_singleton] at hk
            omega
          · rw [hc, length_cons] at hk
            rw [hc, take_succ_cons] at h
            refine not_isBody_of_cut he (take_append_drop k u).symm ?_ h
            rw [Ne, drop_eq_nil_iff]
            omega
  · rintro ⟨q, -, hq⟩
    rw [hq]
    exact ⟨q, body_escapeStr q []⟩

/-- **What `json_escape_str` leaves behind.**  The number is the length of the escaped string and
the buffer holds as much of it as fits.  If all of it fits, it is a literal of the string without
control characters; and what the buffer holds is a literal exactly if it ends between two bytes of
the string. -/
theorem jsonEscapeStr_spec (cap : ℕ) (src : Bytes) :
    (cap = 0 → (jsonEscapeStr cap (some src)).dst = [] ∧ (jsonEscapeStr cap (some src)).out = 0) ∧
      (cap ≠ 0 → (jsonEscapeStr cap (some src)).dst = (escapeStr (cstr src)).take (cap - 1) ∧
        (jsonEscapeStr cap (some src)).out = (escapeStr (cstr src)).length) ∧
      ((jsonEscapeStr cap (some src)).out < cap →
        (∀ tail, Json.Body (cstr src) ((jsonEscapeStr cap (some src)).dst ++ 0x22 :: tail) tail) ∧
          ∀ c ∈ (jsonEscapeStr cap (some src)).dst, 0x20 ≤ c) ∧
      (IsBody (jsonEscapeStr cap (some src)).dst ↔
        ∃ q, q <+: cstr src ∧ (jsonEscapeStr cap (some src)).dst = escapeStr q) := by
  by_cases hcap : cap = 0
  · have hnone : jsonEscapeStr cap (some src) = ⟨[], 0⟩ := if_pos hcap
    rw [hnone]
    refine ⟨fun _ => ⟨rfl, rfl⟩, fun h => absurd hcap h, fun h => absurd hcap h.ne', ?_⟩
    have hempty := isBody_take_iff (cstr src) 0
    rwa [take_zero] at hempty
  · rw [jsonEscapeStr_eq hcap]
    refine ⟨fun h => absurd h hcap, fun _ => ⟨rfl, rfl⟩, fun hfits => ?_, isBody_take_iff _ _⟩
    have hwhole : (escapeStr (cstr src)).take (cap - 1) = escapeStr (cstr src) :=
      take_of_length_le (by dsimp only at hfits; omega)
    rw [hwhole]
    exact ⟨body_escapeStr _, fun c => space_le_of_mem_escapeStr⟩

/-- The escaped string is counted in full, one that fits is a literal of the string, and what is
left of one that does not fit is still a literal. -/
structure EscapesWell (cap : ℕ) (src : Bytes) : Prop where
  length : (jsonEscapeStr cap (some src)).out = (escapeStr (cstr src)).length
  whole : (jsonEscapeStr cap (some src)).out < cap →
    (∀ tail, Json.Body (cstr src) ((jsonEscapeStr cap (some src)).dst ++ 0x22 :: tail) tail) ∧
      ∀ c ∈ (jsonEscapeStr cap (some src)).dst, 0x20 ≤ c
  cut : cap ≤ (jsonEscapeStr cap (some src)).out →
    (jsonEscapeStr cap (some src)).dst <+: escapeStr (cstr src) ∧
      IsBody (jsonEscapeStr cap (some src)).dst

/-- The escape of a quote in a buffer for one byte: what is left is a backslash. -/
theorem not_escapesWell_quote : ¬ ∀ (cap : ℕ) (src : Bytes), EscapesWell cap src := by
  intro hall
  have hbody := ((hall 2 [0x22]).cut (by decide)).2
  have hescape : Json.Escape [0x22] [0x22] := .short (by decide)
  exact not_isBody_of_cut (p := []) hescape rfl (cons_ne_nil _ _) hbody

end TgCli.Core
