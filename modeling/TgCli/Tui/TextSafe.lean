import TgCli.Core.TlValues
import TgCli.Lib.Deletion
import TgCli.Lib.Utf8
import Mathlib.Data.List.GetD

/-!
# Bidi controls removed before a text is drawn

`tui_text_strip_bidi` goes over the bytes once.  At a bidi control it moves on by the length of the
control, and otherwise it copies one character, or one byte where the bytes are not UTF-8, until the
next one does not fit.

* On a text it does what its header says (`stripLoop_text`).
* On other bytes the output may contain a control.  `E2 80 8E` stands letter by letter around
  another control in `E2 | E2 80 8E | 80 8E`, and when the inner one is deleted the outer one is
  complete.  A network peer chooses these bytes.
-/

namespace TgCli.Tui

open List Lib TgCli.Core

/-! ## The function -/

/-- `bidi_len`; a byte behind the end is the NUL. -/
def bidiLen (s : Bytes) : ℕ :=
  if s.getD 0 0 = 0xD8 ∧ s.getD 1 0 = 0x9C then 2
  else if s.getD 0 0 = 0xE2 ∧ s.getD 1 0 = 0x80 ∧
      (s.getD 2 0 = 0x8E ∨ s.getD 2 0 = 0x8F ∨ (s.getD 2 0 ≥ 0xAA ∧ s.getD 2 0 ≤ 0xAE)) then 3
  else if s.getD 0 0 = 0xE2 ∧ s.getD 1 0 = 0x81 ∧ s.getD 2 0 ≥ 0xA6 ∧ s.getD 2 0 ≤ 0xA9 then 3
  else 0

/-- `char_len`: the announced length if that many continuation bytes follow, and 1 otherwise. -/
def charLen (s : Bytes) : ℕ :=
  let n := leadLength (s.getD 0 0)
  if (List.range' 1 (n - 1)).all fun i => s.getD i 0 &&& 0xC0 == 0x80 then n else 1

/-- The loop of `tui_text_strip_bidi` at the bytes `p`, with `o` bytes written.  Every round moves
on by at least one byte, so as many rounds as there are bytes are enough. -/
def stripLoop (cap : ℕ) : ℕ → ℕ → Bytes → Bytes
  | 0, _, _ => []
  | rounds + 1, o, p =>
    if p = [] then []
    else if bidiLen p ≠ 0 then stripLoop cap rounds o (p.drop (bidiLen p))
    else if o + charLen p ≥ cap then []
    else p.take (charLen p) ++ stripLoop cap rounds (o + charLen p) (p.drop (charLen p))

/-- `tui_text_strip_bidi`: the string that `out` holds afterwards; its length is what is returned.
-/
def tuiTextStripBidi (cap : ℕ) (input : Option Bytes) : Bytes :=
  if cap = 0 then []
  else
    match input with
    | none => []
    | some s => stripLoop cap (cstr s).length 0 (cstr s)

/-! ## The controls -/

/-- U+061C, U+200E, U+200F, U+202A to U+202E and U+2066 to U+2069. -/
def bidiChars : List Char :=
  [0x061C, 0x200E, 0x200F, 0x202A, 0x202B, 0x202C, 0x202D, 0x202E, 0x2066, 0x2067, 0x2068,
    0x2069].map Char.ofNat

def bidiControls : List Bytes :=
  bidiChars.map String.utf8EncodeChar

theorem bidiControls_eq : bidiControls =
    [[0xD8, 0x9C], [0xE2, 0x80, 0x8E], [0xE2, 0x80, 0x8F], [0xE2, 0x80, 0xAA], [0xE2, 0x80, 0xAB],
      [0xE2, 0x80, 0xAC], [0xE2, 0x80, 0xAD], [0xE2, 0x80, 0xAE], [0xE2, 0x81, 0xA6],
      [0xE2, 0x81, 0xA7], [0xE2, 0x81, 0xA8], [0xE2, 0x81, 0xA9]] := by
  decide +kernel

theorem bidiControls_shape :
    ∀ w ∈ bidiControls, ∃ b q, w = b :: q ∧ ¬ IsCont b ∧ ∀ x ∈ q, IsCont x := by
  intro w hw
  obtain ⟨c, -, rfl⟩ := mem_map.mp hw
  obtain ⟨b, q, hbq, hb, hq, -⟩ := encode_shape c
  exact ⟨b, q, hbq, hb, hq⟩

theorem bidiControls_prefix_free :
    ∀ v ∈ bidiControls, ∀ w ∈ bidiControls, v <+: w → v = w := by
  intro v hv w hw h
  obtain ⟨c, -, rfl⟩ := mem_map.mp hv
  obtain ⟨d, -, rfl⟩ := mem_map.mp hw
  rw [← append_nil (String.utf8EncodeChar d)] at h
  rw [eq_of_encode_isPrefix h]

def bidiMarks : Marks UInt8 where
  words := bidiControls
  tail := IsCont
  shape := bidiControls_shape
  prefix_free := bidiControls_prefix_free

theorem bidiLen_append {w : Bytes} (hw : w ∈ bidiControls) (r : Bytes) :
    bidiLen (w ++ r) = w.length := by
  rw [bidiControls_eq] at hw
  simp only [mem_cons, not_mem_nil, or_false] at hw
  rcases hw with rfl | rfl | rfl | rfl | rfl | rfl | rfl | rfl | rfl | rfl | rfl | rfl <;> rfl

theorem mem_bidiControls_of_bidiLen {a b c : UInt8} {r : Bytes}
    (h : bidiLen (a :: b :: c :: r) ≠ 0) :
    [a, b] ∈ bidiControls ∨ [a, b, c] ∈ bidiControls := by
  rw [bidiControls_eq]
  simp only [bidiLen, getD_cons_zero, getD_cons_succ] at h
  split_ifs at h with h1 h2 h3
  · obtain ⟨rfl, rfl⟩ := h1
    simp
  · obtain ⟨rfl, rfl, rfl | rfl | ⟨hlo, hhi⟩⟩ := h2
    · simp
    · simp
    · have hlo' : 0xAA ≤ c.toNat := UInt8.le_iff_toNat_le.mp hlo
      have hhi' : c.toNat ≤ 0xAE := UInt8.le_iff_toNat_le.mp hhi
      have hc :
          c.toNat = 0xAA ∨ c.toNat = 0xAB ∨ c.toNat = 0xAC ∨ c.toNat = 0xAD ∨ c.toNat = 0xAE := by
        omega
      simp only [← eq_ofNat_iff (show 0xAA < 256 by omega),
        ← eq_ofNat_iff (show 0xAB < 256 by omega),
        ← eq_ofNat_iff (show 0xAC < 256 by omega), ← eq_ofNat_iff (show 0xAD < 256 by omega),
        ← eq_ofNat_iff (show 0xAE < 256 by omega)] at hc
      rcases hc with rfl | rfl | rfl | rfl | rfl <;> simp
  · obtain ⟨rfl, rfl, hlo, hhi⟩ := h3
    have hlo' : 0xA6 ≤ c.toNat := UInt8.le_iff_toNat_le.mp hlo
    have hhi' : c.toNat ≤ 0xA9 := UInt8.le_iff_toNat_le.mp hhi
    have hc : c.toNat = 0xA6 ∨ c.toNat = 0xA7 ∨ c.toNat = 0xA8 ∨ c.toNat = 0xA9 := by
      omega
    simp only [← eq_ofNat_iff (show 0xA6 < 256 by omega), ← eq_ofNat_iff (show 0xA7 < 256 by omega),
      ← eq_ofNat_iff (show 0xA8 < 256 by omega), ← eq_ofNat_iff (show 0xA9 < 256 by omega)] at hc
    rcases hc with rfl | rfl | rfl | rfl <;> simp
  · exact absurd rfl h

theorem bidiLen_eq_zero_iff (s : Bytes) : bidiLen s = 0 ↔ bidiMarks.Unmarked s := by
  constructor
  · rintro h w hw ⟨r, rfl⟩
    obtain ⟨b, q, rfl, -, -⟩ := bidiControls_shape w hw
    rw [bidiLen_append hw, length_cons] at h
    omega
  · intro h
    by_contra hne
    rcases s with _ | ⟨a, _ | ⟨b, _ | ⟨c, r⟩⟩⟩
    · exact hne rfl
    · simp [bidiLen] at hne
    · have hab : [a, b] ∈ bidiControls := by
        simp only [bidiLen, getD_cons_zero, getD_cons_succ] at hne
        rw [bidiControls_eq]
        simp at hne
        simp [hne]
      exact h _ hab (prefix_refl _)
    · rcases mem_bidiControls_of_bidiLen hne with hw | hw
      · exact h _ hw (prefix_append [a, b] (c :: r))
      · exact h _ hw (prefix_append [a, b, c] r)

/-! ## One character -/

theorem leadLength_of_isCont {b : UInt8} (hb : IsCont b) : leadLength b = 1 := by
  have hb' := (isCont_iff b).mp hb
  have hlen := leadLength_ofNat b.toNat_lt
  rw [UInt8.ofNat_toNat] at hlen
  rw [hlen]
  split_ifs <;> omega

theorem exists_chunk (b : UInt8) (s : Bytes) :
    ∃ t r, s = t ++ r ∧ charLen (b :: s) = t.length + 1 ∧ (∀ x ∈ t, IsCont x) ∧
      (IsCont b → t = []) := by
  simp only [charLen, getD_cons_zero]
  split_ifs with h
  · rw [all_eq_true] at h
    have hcont : ∀ j < leadLength b - 1, IsCont (s.getD j 0) := by
      intro j hj
      have hj' := h (j + 1) (mem_range'_1.mpr (by omega))
      rwa [getD_cons_succ, beq_iff_eq] at hj'
    have hpos : 1 ≤ leadLength b := by
      unfold leadLength
      split_ifs <;> omega
    -- the byte behind the end is no continuation byte
    have hlen : leadLength b - 1 ≤ s.length := by
      by_contra hlt
      have h0 := hcont s.length (by omega)
      rw [getD_eq_default _ _ le_rfl] at h0
      exact absurd h0 (by decide)
    refine ⟨s.take (leadLength b - 1), s.drop (leadLength b - 1), (take_append_drop ..).symm,
      ?_, ?_, ?_⟩
    · rw [length_take_of_le hlen]
      omega
    · intro x hx
      obtain ⟨j, hj, rfl⟩ := mem_take_iff_getElem.mp hx
      have hx' := hcont j (by omega)
      rwa [getD_eq_getElem s 0 (by omega)] at hx'
    · intro hb
      rw [leadLength_of_isCont hb]
      rfl
  · exact ⟨[], s, rfl, rfl, by simp, fun _ => rfl⟩

theorem charLen_encode (c : Char) (rest : Bytes) :
    charLen (String.utf8EncodeChar c ++ rest) = (String.utf8EncodeChar c).length := by
  obtain ⟨b, t, hbt, -, ht, hlen⟩ := encode_shape c
  rw [hbt]
  simp only [charLen, cons_append, getD_cons_zero, hlen, Nat.add_sub_cancel, length_cons]
  rw [if_pos]
  rw [all_eq_true]
  intro i hi
  rw [mem_range'_1] at hi
  obtain ⟨j, rfl⟩ : ∃ j, i = j + 1 := ⟨i - 1, by omega⟩
  have hj : j < t.length := by omega
  have hget : (t ++ rest).getD j 0 = t[j] := by
    rw [getD_eq_getElem?_getD, getElem?_append_left hj, getElem?_eq_getElem hj]
    rfl
  rw [getD_cons_succ, hget, beq_iff_eq]
  exact ht _ (getElem_mem hj)

/-! ## The loop -/

/-- **Induction along the scan**: at the end, at a control, at a character. -/
theorem scan_induction {motive : Bytes → Prop} (nil : motive [])
    (control : ∀ w ∈ bidiControls, ∀ r, motive r → motive (w ++ r))
    (char : ∀ b t r, bidiMarks.Unmarked (b :: t ++ r) → charLen (b :: t ++ r) = (b :: t).length →
      (∀ x ∈ t, IsCont x) → (IsCont b → t = []) → motive r → motive (b :: t ++ r))
    (p : Bytes) : motive p := by
  induction hn : p.length using Nat.strong_induction_on generalizing p with
  | _ n ih =>
    cases p with
    | nil => exact nil
    | cons b s =>
      by_cases hu : bidiMarks.Unmarked (b :: s)
      · obtain ⟨t, r, rfl, hlen, ht, hb⟩ := exists_chunk b s
        refine char b t r hu hlen ht hb (ih r.length ?_ r rfl)
        rw [← hn, length_cons, length_append]
        omega
      · simp only [Marks.Unmarked, not_forall, not_not] at hu
        obtain ⟨w, hw, r, hr⟩ := hu
        obtain ⟨b', q, hbq, -, -⟩ := bidiControls_shape w hw
        rw [← hr] at hn ⊢
        refine control w hw r (ih r.length ?_ r rfl)
        rw [← hn, hbq, length_append, length_cons]
        omega

section Loop

variable {cap rounds o : ℕ}

theorem stripLoop_nil : stripLoop cap rounds o [] = [] := by
  cases rounds <;> simp [stripLoop]

variable {p r t w z : Bytes}

theorem stripLoop_control (hw : w ∈ bidiControls) (r : Bytes) :
    stripLoop cap (rounds + 1) o (w ++ r) = stripLoop cap rounds o r := by
  obtain ⟨b, q, hbq, -, -⟩ := bidiControls_shape w hw
  have hne : w ++ r ≠ [] := by simp [hbq]
  have hlen : bidiLen (w ++ r) ≠ 0 := by
    rw [bidiLen_append hw, hbq]
    simp
  rw [stripLoop, if_neg hne, if_pos hlen, bidiLen_append hw, drop_left]

theorem stripLoop_char {b : UInt8} (hu : bidiMarks.Unmarked (b :: t ++ r))
    (hlen : charLen (b :: t ++ r) = (b :: t).length) :
    stripLoop cap (rounds + 1) o (b :: t ++ r) =
      if o + (b :: t).length ≥ cap then []
      else b :: t ++ stripLoop cap rounds (o + (b :: t).length) r := by
  have hne : b :: t ++ r ≠ [] := by simp
  rw [stripLoop, if_neg hne, if_neg (not_not.mpr ((bidiLen_eq_zero_iff _).mpr hu)), hlen,
    take_left, drop_left]

theorem without_char {b : UInt8} (hu : bidiMarks.Unmarked (b :: t ++ r))
    (ht : ∀ x ∈ t, IsCont x) : bidiMarks.without (b :: t ++ r) = b :: t ++ bidiMarks.without r := by
  have hu' : bidiMarks.Unmarked (b :: (t ++ r)) := hu
  rw [cons_append, Marks.without_cons hu', Marks.without_tails ht, cons_append]

theorem rounds_control (hw : w ∈ bidiControls) (h : (w ++ r).length ≤ rounds) :
    ∃ k, rounds = k + 1 ∧ r.length ≤ k := by
  obtain ⟨b, q, rfl, -, -⟩ := bidiControls_shape w hw
  rw [length_append, length_cons] at h
  exact ⟨rounds - 1, by omega, by omega⟩

theorem rounds_char {b : UInt8} (h : (b :: t ++ r).length ≤ rounds) :
    ∃ k, rounds = k + 1 ∧ r.length ≤ k := by
  rw [length_append, length_cons] at h
  exact ⟨rounds - 1, by omega, by omega⟩

/-- The pass of the loop is the pass of `Lib.Marks`, cut off at the capacity. -/
theorem stripLoop_isPrefix (cap rounds o : ℕ) (p : Bytes) :
    stripLoop cap rounds o p <+: bidiMarks.without p := by
  induction p using scan_induction generalizing rounds o with
  | nil => simp [stripLoop_nil]
  | control w hw r ih =>
    rw [Marks.without_mark hw]
    cases rounds with
    | zero => exact nil_prefix
    | succ rounds =>
      rw [stripLoop_control hw]
      exact ih rounds o
  | char b t r hu hlen ht hb ih =>
    cases rounds with
    | zero => exact nil_prefix
    | succ rounds =>
      rw [stripLoop_char hu hlen, without_char hu ht]
      split_ifs
      · exact nil_prefix
      · exact (prefix_append_right_inj _).mpr (ih rounds _)

theorem length_stripLoop (rounds : ℕ) (ho : o < cap) (p : Bytes) :
    o + (stripLoop cap rounds o p).length < cap := by
  induction p using scan_induction generalizing rounds o with
  | nil => simpa [stripLoop_nil] using ho
  | control w hw r ih =>
    cases rounds with
    | zero => simpa [stripLoop] using ho
    | succ rounds =>
      rw [stripLoop_control hw]
      exact ih rounds ho
  | char b t r hu hlen ht hb ih =>
    cases rounds with
    | zero => simpa [stripLoop] using ho
    | succ rounds =>
      rw [stripLoop_char hu hlen]
      split_ifs with hfull
      · simpa using ho
      · have h := ih rounds (Nat.lt_of_not_ge hfull)
        rw [length_append]
        omega

/-- Where all of it fits, nothing is cut off. -/
theorem stripLoop_of_fits (hr : p.length ≤ rounds)
    (hfits : o + (bidiMarks.without p).length < cap) :
    stripLoop cap rounds o p = bidiMarks.without p := by
  induction p using scan_induction generalizing rounds o with
  | nil => simp [stripLoop_nil]
  | control w hw r ih =>
    rw [Marks.without_mark hw] at hfits ⊢
    obtain ⟨k, rfl, hk⟩ := rounds_control hw hr
    rw [stripLoop_control hw, ih hk hfits]
  | char b t r hu hlen ht hb ih =>
    rw [without_char hu ht] at hfits ⊢
    obtain ⟨k, rfl, hk⟩ := rounds_char hr
    rw [length_append] at hfits
    rw [stripLoop_char hu hlen, if_neg (by omega), ih hk (by omega)]

theorem stripLoop_tails {q : Bytes} (hr : p.length ≤ rounds) (hq : ∀ x ∈ q, IsCont x)
    (hp : bidiMarks.without p = q ++ z) (hfits : o + q.length < cap) :
    q <+: stripLoop cap rounds o p := by
  induction p using scan_induction generalizing rounds o q with
  | nil =>
    obtain ⟨rfl, -⟩ := append_eq_nil_iff.mp hp.symm
    exact nil_prefix
  | control w hw r ih =>
    rw [Marks.without_mark hw] at hp
    obtain ⟨k, rfl, hk⟩ := rounds_control hw hr
    rw [stripLoop_control hw]
    exact ih hk hq hp hfits
  | char b t r hu hlen ht hb ih =>
    obtain ⟨k, rfl, hk⟩ := rounds_char hr
    rw [without_char hu ht] at hp
    cases q with
    | nil => exact nil_prefix
    | cons x q =>
      rw [cons_append, cons_append, cons.injEq] at hp
      obtain ⟨rfl, hp⟩ := hp
      rw [forall_mem_cons] at hq
      -- a continuation byte is a character of its own here
      obtain rfl := hb hq.1
      rw [length_cons] at hfits
      rw [stripLoop_char hu hlen, length_singleton, if_neg (by omega), cons_append,
        cons_prefix_cons]
      exact ⟨rfl, ih hk hq.2 hp (by omega)⟩

/-- **A cut never falls into a control that is left**: if it ends before the capacity, it is written
whole. -/
theorem stripLoop_mark {y : Bytes} (hr : p.length ≤ rounds) (hw : w ∈ bidiControls)
    (hp : bidiMarks.without p = y ++ w ++ z) (hfits : o + (y ++ w).length < cap) :
    y ++ w <+: stripLoop cap rounds o p := by
  obtain ⟨b', q, rfl, hb', hq⟩ := bidiControls_shape w hw
  induction p using scan_induction generalizing rounds o y with
  | nil => simp at hp
  | control v hv r ih =>
    rw [Marks.without_mark hv] at hp
    obtain ⟨k, rfl, hk⟩ := rounds_control hv hr
    rw [stripLoop_control hv]
    exact ih hk hp hfits
  | char b t r hu hlen ht hb ih =>
    obtain ⟨k, rfl, hk⟩ := rounds_char hr
    rw [without_char hu ht] at hp
    rw [stripLoop_char hu hlen]
    cases y with
    | nil =>
      rw [nil_append] at hp hfits ⊢
      rw [cons_append, cons_append, cons.injEq] at hp
      obtain ⟨rfl, hp⟩ := hp
      -- the control begins with this character but is not all here, or it would have been found
      obtain ⟨q', rfl⟩ : ∃ q', q = t ++ q' := by
        rcases append_eq_append_iff.mp hp with ⟨q', h, -⟩ | ⟨t', rfl, -⟩
        · exact ⟨q', h⟩
        · refine absurd ?_ (hu _ hw)
          rw [cons_append, cons_prefix_cons, append_assoc]
          exact ⟨rfl, prefix_append q _⟩
      rw [append_assoc, append_cancel_left_eq] at hp
      rw [length_cons, length_append] at hfits
      rw [length_cons, if_neg (by omega), cons_append, cons_prefix_cons,
        prefix_append_right_inj]
      refine ⟨rfl, stripLoop_tails hk ?_ hp (by omega)⟩
      intro x hx
      exact hq x (mem_append_right t hx)
    | cons c y =>
      rw [cons_append, cons_append, cons_append, cons.injEq] at hp
      obtain ⟨rfl, hp⟩ := hp
      -- the first byte of the control is no continuation byte, so it is not in this character
      obtain ⟨y', rfl⟩ : ∃ y', y = t ++ y' := by
        rw [append_assoc] at hp
        rcases append_eq_append_iff.mp hp with ⟨y', h, -⟩ | ⟨t', rfl, h⟩
        · exact ⟨y', h⟩
        · cases t' with
          | nil => exact ⟨[], by simp⟩
          | cons x t' =>
            rw [cons_append, cons_append, cons.injEq] at h
            exact absurd (ht x (by simp)) (h.1 ▸ hb')
      rw [append_assoc, append_assoc, append_cancel_left_eq,
        ← append_assoc] at hp
      simp only [cons_append, length_cons, length_append, append_assoc] at hfits
      rw [length_cons, if_neg (by omega), cons_append, cons_append,
        cons_prefix_cons, append_assoc, prefix_append_right_inj]
      refine ⟨rfl, ih hk hp ?_⟩
      simp only [length_append, length_cons]
      omega

theorem unmarked_encode {c : Char} (hc : c ∉ bidiChars) (rest : Bytes) :
    bidiMarks.Unmarked (String.utf8EncodeChar c ++ rest) := by
  intro w hw hp
  obtain ⟨d, hd, rfl⟩ := mem_map.mp hw
  exact hc (eq_of_encode_isPrefix hp ▸ hd)

/-- On a text the output is the text of some first characters without the controls. -/
theorem stripLoop_text (cap rounds o : ℕ) (text : List Char) :
    ∃ l, l <+: text ∧ stripLoop cap rounds o (utf8Text text) =
      utf8Text (l.filter fun c => c ∉ bidiChars) := by
  induction text generalizing rounds o with
  | nil => exact ⟨[], prefix_refl _, stripLoop_nil⟩
  | cons c text ih =>
    cases rounds with
    | zero => exact ⟨[], nil_prefix, rfl⟩
    | succ rounds =>
      rw [utf8Text_cons]
      by_cases hc : c ∈ bidiChars
      · obtain ⟨l, hl, h⟩ := ih rounds o
        refine ⟨c :: l, cons_prefix_cons.mpr ⟨rfl, hl⟩, ?_⟩
        rw [stripLoop_control (mem_map_of_mem hc), h, filter_cons_of_neg (by simpa using hc)]
      · have hu := unmarked_encode hc (utf8Text text)
        have hlen := charLen_encode c (utf8Text text)
        obtain ⟨b, t, hbt, -, -, -⟩ := encode_shape c
        rw [hbt] at hu hlen ⊢
        rw [stripLoop_char hu hlen]
        split_ifs
        · exact ⟨[], nil_prefix, rfl⟩
        · obtain ⟨l, hl, h⟩ := ih rounds (o + (b :: t).length)
          refine ⟨c :: l, cons_prefix_cons.mpr ⟨rfl, hl⟩, ?_⟩
          rw [h, filter_cons_of_pos (by simpa using hc), utf8Text_cons, hbt]

end Loop

/-! ## The law -/

/-- What is asked of the function for one input and one capacity. -/
structure StripsBidi (cap : ℕ) (s : Bytes) : Prop where
  absent : ∀ w ∈ bidiControls, ¬ w <:+: tuiTextStripBidi cap (some s)
  stable :
    tuiTextStripBidi cap (some (tuiTextStripBidi cap (some s))) = tuiTextStripBidi cap (some s)
  text : ∀ text, cstr s = utf8Text text → ∃ l, l <+: text ∧
    tuiTextStripBidi cap (some s) = utf8Text (l.filter fun c => c ∉ bidiChars)

section Law

variable {cap : ℕ} {s : Bytes}

theorem tuiTextStripBidi_eq (hcap : 0 < cap) :
    tuiTextStripBidi cap (some s) = stripLoop cap (cstr s).length 0 (cstr s) := by
  rw [tuiTextStripBidi, if_neg (by omega)]

theorem infix_strip_iff (hcap : 0 < cap) :
    (∃ w ∈ bidiControls, w <:+: tuiTextStripBidi cap (some s)) ↔
      ∃ a, a <+: cstr s ∧ (bidiMarks.without a).length < cap ∧ bidiMarks.Torn a := by
  have hle : ∀ a, (bidiMarks.without a).length < cap ↔ (bidiMarks.without a).length ≤ cap - 1 := by
    intro a
    omega
  simp only [hle]
  rw [← Marks.exists_mark_iff, tuiTextStripBidi_eq hcap]
  constructor
  · rintro ⟨w, hw, y, z, hz⟩
    obtain ⟨r, hr⟩ := stripLoop_isPrefix cap (cstr s).length 0 (cstr s)
    have hlen := length_stripLoop (cstr s).length hcap (cstr s)
    rw [← hz, length_append] at hlen
    refine ⟨y, w, z ++ r, hw, ?_, by omega⟩
    rw [← hr, ← hz, append_assoc]
  · rintro ⟨y, w, z, hw, hp, hn⟩
    have hpre : y ++ w <+: stripLoop cap (cstr s).length 0 (cstr s) :=
      stripLoop_mark le_rfl hw hp (by omega)
    exact ⟨w, hw, (suffix_append y w).isInfix.trans hpre.isInfix⟩

theorem strip_strip (hcap : 0 < cap) :
    tuiTextStripBidi cap (some (tuiTextStripBidi cap (some s))) =
      bidiMarks.without (tuiTextStripBidi cap (some s)) := by
  have hsub : (tuiTextStripBidi cap (some s)).Sublist (cstr s) := by
    rw [tuiTextStripBidi_eq hcap]
    exact (stripLoop_isPrefix ..).sublist.trans (bidiMarks.without_sublist _)
  have hlen : (tuiTextStripBidi cap (some s)).length < cap := by
    rw [tuiTextStripBidi_eq hcap]
    have h := length_stripLoop (cstr s).length hcap (cstr s)
    omega
  generalize tuiTextStripBidi cap (some s) = out at hsub hlen
  have hzero : (0 : UInt8) ∉ out := fun h => zero_not_mem_cstr s (hsub.subset h)
  rw [tuiTextStripBidi_eq hcap, cstr_eq_self hzero]
  have hle := (bidiMarks.without_sublist out).length_le
  exact stripLoop_of_fits le_rfl (by omega)

end Law

theorem stripsBidi_zero (s : Bytes) : StripsBidi 0 s := by
  refine ⟨?_, rfl, ?_⟩
  · rintro w hw ⟨y, z, h⟩
    obtain ⟨b, q, rfl, -, -⟩ := bidiControls_shape w hw
    simp [tuiTextStripBidi] at h
  · intro text _
    exact ⟨[], nil_prefix, rfl⟩

/-- **When the controls are gone.**  For every byte string and capacity: exactly if no beginning of
the string that leaves fewer than `cap` bytes ends with a torn control. -/
theorem stripsBidi_iff (cap : ℕ) (s : Bytes) :
    StripsBidi cap s ↔
      ∀ a, a <+: cstr s → (bidiMarks.without a).length < cap → ¬ bidiMarks.Torn a := by
  rcases Nat.eq_zero_or_pos cap with rfl | hcap
  · refine iff_of_true (stripsBidi_zero s) fun a _ h => ?_
    omega
  · have habsent : (∀ w ∈ bidiControls, ¬ w <:+: tuiTextStripBidi cap (some s)) ↔
        ∀ a, a <+: cstr s → (bidiMarks.without a).length < cap → ¬ bidiMarks.Torn a := by
      have h := not_congr (infix_strip_iff (s := s) hcap)
      simpa only [not_exists, not_and] using h
    constructor
    · intro h
      exact habsent.mp h.absent
    · intro h
      refine ⟨habsent.mpr h, ?_, ?_⟩
      · rw [strip_strip hcap, Marks.without_eq_self_iff]
        exact habsent.mpr h
      · intro text ht
        rw [tuiTextStripBidi_eq hcap, ht]
        exact stripLoop_text ..

/-- U+200E around another U+200E. -/
theorem not_stripsBidi_nested : ¬ StripsBidi 64 [0xE2, 0xE2, 0x80, 0x8E, 0x80, 0x8E] := by
  intro h
  have hout :
      tuiTextStripBidi 64 (some [0xE2, 0xE2, 0x80, 0x8E, 0x80, 0x8E]) = [0xE2, 0x80, 0x8E] := by
    decide +kernel
  have hmem : [0xE2, 0x80, 0x8E] ∈ bidiControls := by
    rw [bidiControls_eq]
    simp
  have hab := h.absent _ hmem
  rw [hout] at hab
  exact hab (infix_refl _)

end TgCli.Tui
