import Mathlib.Data.List.Basic
import Mathlib.Data.List.Infix

/-!
# Deleting marks from a word

A filter deletes every occurrence of a few fixed words, the *marks*, in one pass from left to right.
What it leaves may contain a mark again: the letters on both sides of a deleted mark come together,
and they may be the two parts of another one.

The marks here are like the encodings of characters: each begins with a letter that is no tail
letter and goes on with tail letters only, and none is a beginning of another (`Marks`).  Then a
mark that the pass leaves behind is one that stood in the word letter by letter, with deleted marks
between its letters and nothing else (`Spread`).  `exists_mark_iff` makes this an equivalence: what
is left contains a mark exactly if the word contains a torn one.
-/

namespace TgCli.Lib

open List

variable {α : Type*} [DecidableEq α]

/-- Words of the shape of encoded characters. -/
structure Marks (α : Type*) where
  words : List (List α)
  tail : α → Prop
  shape : ∀ w ∈ words, ∃ b q, w = b :: q ∧ ¬ tail b ∧ ∀ x ∈ q, tail x
  prefix_free : ∀ v ∈ words, ∀ w ∈ words, v <+: w → v = w

namespace Marks

variable (M : Marks α)

def markAt (s : List α) : Option (List α) :=
  M.words.find? fun w => decide (w <+: s)

/-- The pass over a word of which the first `k` letters belong to a mark already found. -/
def pass : ℕ → List α → List α
  | _, [] => []
  | k + 1, _ :: s => pass k s
  | 0, b :: s =>
    match M.markAt (b :: s) with
    | some w => pass (w.length - 1) s
    | none => b :: pass 0 s

def without (s : List α) : List α :=
  M.pass 0 s

/-- No mark begins here. -/
def Unmarked (s : List α) : Prop :=
  ∀ w ∈ M.words, ¬ w <+: s

variable {M}

variable {b : α} {q s t w z : List α}

theorem markAt_eq_none : M.markAt s = none ↔ M.Unmarked s := by
  simp [markAt, Unmarked, find?_eq_none]

theorem markAt_append (hw : w ∈ M.words) (r : List α) : M.markAt (w ++ r) = some w := by
  rcases hm : M.markAt (w ++ r) with _ | v
  · exact absurd (prefix_append w r) (markAt_eq_none.mp hm w hw)
  · have hv : v ∈ M.words := mem_of_find?_eq_some hm
    have hp : v <+: w ++ r := by simpa using find?_some hm
    -- two marks at one place: one is a beginning of the other
    rcases prefix_or_prefix_of_prefix hp (prefix_append w r) with h | h
    · rw [M.prefix_free v hv w hw h]
    · rw [M.prefix_free w hw v hv h]

theorem pass_eq_drop (k : ℕ) (s : List α) : M.pass k s = M.without (s.drop k) := by
  induction s generalizing k with
  | nil => cases k <;> simp [without, pass]
  | cons b s ih =>
    cases k with
    | zero => rfl
    | succ k => rw [pass, ih, drop_succ_cons]

@[simp] theorem without_nil : M.without [] = [] := rfl

@[simp] theorem without_mark (hw : w ∈ M.words) (r : List α) :
    M.without (w ++ r) = M.without r := by
  obtain ⟨b, q, rfl, -, -⟩ := M.shape w hw
  have hm := markAt_append hw r
  rw [cons_append] at hm ⊢
  rw [without, pass, hm]
  simp only [length_cons, Nat.add_sub_cancel]
  rw [pass_eq_drop, drop_left]

theorem without_cons (h : M.Unmarked (b :: s)) :
    M.without (b :: s) = b :: M.without s := by
  rw [without, pass, markAt_eq_none.mpr h]
  rfl

omit [DecidableEq α] in
theorem unmarked_of_tail (hb : M.tail b) (s : List α) : M.Unmarked (b :: s) := by
  intro w hw hp
  obtain ⟨b', q, rfl, hb', -⟩ := M.shape w hw
  exact hb' ((cons_prefix_cons.mp hp).1 ▸ hb)

theorem without_tails (ht : ∀ x ∈ t, M.tail x) (r : List α) :
    M.without (t ++ r) = t ++ M.without r := by
  induction t with
  | nil => rfl
  | cons b t ih =>
    rw [forall_mem_cons] at ht
    rw [cons_append, without_cons (unmarked_of_tail ht.1 _), ih ht.2, cons_append]

omit [DecidableEq α] in
theorem Unmarked.of_append {r : List α} (h : M.Unmarked (s ++ r)) : M.Unmarked s :=
  fun w hw hp => h w hw (hp.trans (prefix_append s r))

omit [DecidableEq α] in
/-- **Induction along the pass**: the empty word, a mark in front, an unmarked letter in front. -/
theorem pass_induction {motive : List α → Prop} (nil : motive [])
    (mark : ∀ w ∈ M.words, ∀ r, motive r → motive (w ++ r))
    (letter : ∀ b s, M.Unmarked (b :: s) → motive s → motive (b :: s)) (s : List α) : motive s := by
  induction hn : s.length using Nat.strong_induction_on generalizing s with
  | _ n ih =>
    cases s with
    | nil => exact nil
    | cons b s =>
      by_cases hu : M.Unmarked (b :: s)
      · exact letter b s hu (ih s.length (by simp [← hn]) s rfl)
      · simp only [Unmarked, not_forall, not_not] at hu
        obtain ⟨w, hw, r, hr⟩ := hu
        obtain ⟨b', q, hbq, -, -⟩ := M.shape w hw
        have hlen : r.length < n := by
          rw [← hn, ← hr, hbq]
          simp only [cons_append, length_cons, length_append]
          omega
        rw [← hr]
        exact mark w hw r (ih r.length hlen r rfl)

theorem without_sublist (s : List α) : (M.without s).Sublist s := by
  induction s using M.pass_induction with
  | nil => exact List.Sublist.refl _
  | mark w hw r ih =>
    rw [without_mark hw]
    exact ih.trans (sublist_append_right w r)
  | letter b s hu ih =>
    rw [without_cons hu]
    exact ih.cons_cons b

theorem without_eq_self_iff (s : List α) :
    M.without s = s ↔ ∀ w ∈ M.words, ¬ w <:+: s := by
  induction s using M.pass_induction with
  | nil =>
    refine iff_of_true rfl ?_
    intro w hw hi
    obtain ⟨b, q, rfl, -, -⟩ := M.shape w hw
    simp at hi
  | mark w hw r ih =>
    refine iff_of_false ?_ fun h => h w hw (prefix_append w r).isInfix
    intro h
    have hlen := congrArg length h
    obtain ⟨b, q, hbq, -, -⟩ := M.shape w hw
    have hle := (M.without_sublist r).length_le
    rw [without_mark hw, length_append, hbq, length_cons] at hlen
    omega
  | letter b s hu ih =>
    rw [without_cons hu, cons.injEq, and_iff_right rfl, ih]
    constructor
    · intro h w hw hi
      rcases infix_cons_iff.mp hi with hp | hi
      · exact hu w hw hp
      · exact h w hw hi
    · intro h w hw hi
      exact h w hw (hi.trans (suffix_cons b s).isInfix)

theorem without_append (hb : ¬ M.tail b) (x p : List α) :
    M.without (x ++ b :: p) = M.without x ++ M.without (b :: p) := by
  induction x using M.pass_induction with
  | nil => rfl
  | mark w hw r ih => rw [append_assoc, without_mark hw, without_mark hw, ih]
  | letter a s hu ih =>
    have hu' : M.Unmarked (a :: (s ++ b :: p)) := by
      intro w hw hp
      refine hu w hw ?_
      obtain ⟨a', q, rfl, -, hq⟩ := M.shape w hw
      rw [cons_prefix_cons] at hp ⊢
      refine ⟨hp.1, ?_⟩
      rcases prefix_or_prefix_of_prefix hp.2 (prefix_append s (b :: p)) with h | h
      · exact h
      · -- a longer one would have the boundary among its tail letters
        obtain ⟨k, rfl⟩ := h
        have hk : k <+: b :: p := (prefix_append_right_inj s).mp hp.2
        cases k with
        | nil => rw [append_nil]
        | cons c k =>
          rw [cons_prefix_cons] at hk
          exact absurd (hq c (by simp)) (hk.1 ▸ hb)
    rw [cons_append, without_cons hu', ih, without_cons hu, cons_append]

/-! ## Torn marks -/

variable (M) in
/-- `t` is `q` with marks put in front of some of its letters. -/
inductive Spread : List α → List α → Prop
  | nil : Spread [] []
  | letter {b : α} {q t : List α} : Spread q t → Spread (b :: q) (b :: t)
  | mark {w : List α} {b : α} {q t : List α} :
    w ∈ M.words → Spread (b :: q) t → Spread (b :: q) (w ++ t)

variable (M) in
/-- The word ends with a torn mark: its first letter, and the others with marks put in between. -/
def Torn (a : List α) : Prop :=
  ∃ x b q t, b :: q ∈ M.words ∧ a = x ++ b :: t ∧ M.Spread q t ∧ t ≠ q

theorem without_spread (h : M.Spread q t) (hq : ∀ x ∈ q, M.tail x) (r : List α) :
    M.without (t ++ r) = q ++ M.without r := by
  induction h with
  | nil => rfl
  | letter _ ih =>
    rw [forall_mem_cons] at hq
    rw [cons_append, without_cons (unmarked_of_tail hq.1 _), ih hq.2, cons_append]
  | mark hw _ ih => rw [append_assoc, without_mark hw, ih hq]

omit [DecidableEq α] in
/-- The tail letters before the first mark that was put in are a proper beginning. -/
theorem Spread.exists_gap (h : M.Spread q t) (hne : t ≠ q) :
    ∃ q₁ b t', t = q₁ ++ b :: t' ∧ ¬ M.tail b ∧ q₁ <+: q ∧ q₁ ≠ q := by
  induction h with
  | nil => exact absurd rfl hne
  | @letter b q t _ ih =>
    obtain ⟨q₁, b', t', rfl, hb', hp, hq₁⟩ := ih (fun h => hne (by rw [h]))
    refine ⟨b :: q₁, b', t', rfl, hb', cons_prefix_cons.mpr ⟨rfl, hp⟩, ?_⟩
    intro h
    exact hq₁ (cons.inj h).2
  | @mark w b q t hw _ ih =>
    obtain ⟨b', q', rfl, hb', -⟩ := M.shape w hw
    exact ⟨[], b', q' ++ t, rfl, hb', nil_prefix, by simp⟩

omit [DecidableEq α] in
theorem unmarked_torn (hw : b :: q ∈ M.words) (h : M.Spread q t) (hne : t ≠ q)
    (r : List α) : M.Unmarked (b :: (t ++ r)) := by
  intro v hv hp
  obtain ⟨q₁, b', t', rfl, hb', hq₁, hneq⟩ := h.exists_gap hne
  obtain ⟨c, k, rfl, -, hk⟩ := M.shape v hv
  rw [cons_prefix_cons, append_assoc] at hp
  obtain ⟨rfl, hp⟩ := hp
  -- the mark found would end before the gap, so it would be a proper beginning of the torn one
  have hkq : k <+: q₁ := by
    rcases prefix_or_prefix_of_prefix hp (prefix_append q₁ _) with h | h
    · exact h
    · obtain ⟨l, rfl⟩ := h
      have hl : l <+: b' :: (t' ++ r) := (prefix_append_right_inj q₁).mp hp
      cases l with
      | nil => rw [append_nil]
      | cons d l =>
        rw [cons_prefix_cons] at hl
        exact absurd (hk d (by simp)) (hl.1 ▸ hb')
  have heq := M.prefix_free _ hv _ hw (cons_prefix_cons.mpr ⟨rfl, hkq.trans hq₁⟩)
  rw [(cons.inj heq).2] at hkq
  exact hneq (hq₁.eq_of_length_le hkq.length_le)

theorem without_torn (hw : b :: q ∈ M.words) (h : M.Spread q t) (hne : t ≠ q)
    (x r : List α) : M.without (x ++ b :: t ++ r) = M.without x ++ b :: q ++ M.without r := by
  obtain ⟨b', q', heq, hb, hq⟩ := M.shape _ hw
  obtain ⟨rfl, rfl⟩ := cons.inj heq
  rw [append_assoc, cons_append, without_append hb,
    without_cons (unmarked_torn hw h hne r), without_spread h hq r, append_assoc,
    cons_append]

theorem exists_spread (h : M.without s = q ++ z) :
    ∃ t r, s = t ++ r ∧ M.Spread q t ∧ M.without r = z := by
  induction s using M.pass_induction generalizing q with
  | nil =>
    obtain ⟨rfl, rfl⟩ := append_eq_nil_iff.mp h.symm
    exact ⟨[], [], rfl, .nil, rfl⟩
  | mark w hw r ih =>
    cases q with
    | nil => exact ⟨[], w ++ r, rfl, .nil, h⟩
    | cons b q =>
      rw [without_mark hw] at h
      obtain ⟨t, r', rfl, ht, hz⟩ := ih h
      exact ⟨w ++ t, r', (append_assoc ..).symm, .mark hw ht, hz⟩
  | letter a s hu ih =>
    cases q with
    | nil => exact ⟨[], a :: s, rfl, .nil, h⟩
    | cons b q =>
      rw [without_cons hu, cons_append, cons.injEq] at h
      obtain ⟨rfl, h⟩ := h
      obtain ⟨t, r', rfl, ht, hz⟩ := ih h
      exact ⟨a :: t, r', rfl, .letter ht, hz⟩

theorem exists_torn {y : List α} (hw : b :: q ∈ M.words) (h : M.without s = y ++ b :: q ++ z) :
    ∃ x t r, s = x ++ b :: t ++ r ∧ M.Spread q t ∧ t ≠ q ∧ M.without x = y ∧ M.without r = z := by
  induction s using M.pass_induction generalizing y with
  | nil => simp at h
  | mark w hw' r ih =>
    rw [without_mark hw'] at h
    obtain ⟨x, t, r', rfl, ht, hne, hy, hz⟩ := ih h
    exact ⟨w ++ x, t, r', by simp, ht, hne, by rw [without_mark hw', hy], hz⟩
  | letter a s hu ih =>
    rw [without_cons hu] at h
    cases y with
    | nil =>
      rw [nil_append, cons_append, cons.injEq] at h
      obtain ⟨rfl, h⟩ := h
      obtain ⟨t, r, rfl, ht, hz⟩ := exists_spread h
      refine ⟨[], t, r, rfl, ht, ?_, rfl, hz⟩
      -- an untorn one would have been found here
      rintro rfl
      exact hu _ hw (cons_prefix_cons.mpr ⟨rfl, prefix_append t r⟩)
    | cons c y =>
      rw [cons_append, cons_append, cons.injEq] at h
      obtain ⟨rfl, h⟩ := h
      obtain ⟨x, t, r, rfl, ht, hne, hy, hz⟩ := ih h
      refine ⟨a :: x, t, r, rfl, ht, hne, ?_, hz⟩
      have hu' : M.Unmarked ((a :: x) ++ (b :: t ++ r)) := by
        rw [← append_assoc]
        exact hu
      rw [without_cons hu'.of_append, hy]

/-- **What is left has a mark that ends within the first `n` letters exactly if some beginning of
the word that leaves at most `n` letters ends with a torn mark.** -/
theorem exists_mark_iff (s : List α) (n : ℕ) :
    (∃ y w z, w ∈ M.words ∧ M.without s = y ++ w ++ z ∧ (y ++ w).length ≤ n) ↔
      ∃ a, a <+: s ∧ (M.without a).length ≤ n ∧ M.Torn a := by
  constructor
  · rintro ⟨y, w, z, hw, hs, hn⟩
    obtain ⟨b, q, rfl, -, -⟩ := M.shape w hw
    obtain ⟨x, t, r, rfl, ht, hne, hy, -⟩ := exists_torn hw hs
    refine ⟨x ++ b :: t, prefix_append _ _, ?_, x, b, q, t, hw, rfl, ht, hne⟩
    have ha := without_torn hw ht hne x []
    rw [append_nil, without_nil, append_nil, hy] at ha
    rw [ha]
    exact hn
  · rintro ⟨a, ⟨r, rfl⟩, hn, x, b, q, t, hw, rfl, ht, hne⟩
    refine ⟨M.without x, b :: q, M.without r, hw, without_torn hw ht hne x r, ?_⟩
    have ha := without_torn hw ht hne x []
    rw [append_nil, without_nil, append_nil] at ha
    rw [← ha]
    exact hn

end Marks
end TgCli.Lib
