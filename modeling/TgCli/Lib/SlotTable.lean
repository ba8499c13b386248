import Mathlib.Order.Basic
import TgCli.Lib.KeyedList

/-!
# Tables with a fixed number of slots

A slot is in use or free.  What is stored goes to the first free slot, and if there is none to the
slot with the smallest stamp (`freeOrOldest`).

What such a table is good for is said against a log of everything that was ever stored, the newest
first: `Remembers` means that the slots in use have different keys and that each holds the newest
record for its key.  Freeing a slot keeps this, and so does a store, provided that no slot in use
has the key of what is stored (`Remembers.store`).  That proviso is the whole difference between a
cache and a heap of entries, and the table does not see to it by itself.
-/

namespace TgCli.Lib

open List

variable {ε ρ κ τ : Type*}

/-! ## The slot that is taken -/

section Choice

variable [LinearOrder τ] (live : ε → Bool) (stamp : ε → τ)

/-- The scan for a slot from place `i` on, when `slot` is the best place so far and `oldest` its
stamp. -/
def scanSlots : List ε → ℕ → ℕ → τ → ℕ
  | [], _, slot, _ => slot
  | e :: es, i, slot, oldest =>
    if !live e then i
    else if stamp e < oldest then scanSlots es (i + 1) i (stamp e)
    else scanSlots es (i + 1) slot oldest

/-- The first free slot, or the first one with the smallest stamp. -/
def freeOrOldest : List ε → ℕ
  | [] => 0
  | e :: es => scanSlots live stamp (e :: es) 0 0 (stamp e)

theorem scanSlots_oldest {all seen l : List ε} (hall : all = seen ++ l)
    (hlive : ∀ e ∈ l, live e = true) {slot : ℕ} {best : ε} (hbest : all[slot]? = some best)
    (hseen : ∀ e ∈ seen, stamp best ≤ stamp e) :
    ∃ e, all[scanSlots live stamp l seen.length slot (stamp best)]? = some e ∧
      ∀ e' ∈ all, stamp e ≤ stamp e' := by
  induction l generalizing seen slot best with
  | nil =>
    rw [append_nil] at hall
    exact ⟨best, hbest, hall ▸ hseen⟩
  | cons e es ih =>
    rw [forall_mem_cons] at hlive
    have hall' : all = (seen ++ [e]) ++ es := by rw [hall, append_assoc, singleton_append]
    have hlen : (seen ++ [e]).length = seen.length + 1 := by
      rw [length_append, length_singleton]
    rw [scanSlots, hlive.1, Bool.not_true, if_neg Bool.false_ne_true, ← hlen]
    split_ifs with hlt
    · refine ih hall' hlive.2 ?_ ?_
      · rw [hall, getElem?_append_right le_rfl, Nat.sub_self, getElem?_cons_zero]
      · intro e' he'
        obtain he' | he' := mem_append.mp he'
        · exact hlt.le.trans (hseen e' he')
        · rw [mem_singleton.mp he']
    · refine ih hall' hlive.2 hbest ?_
      intro e' he'
      obtain he' | he' := mem_append.mp he'
      · exact hseen e' he'
      · rw [mem_singleton.mp he']
        exact not_lt.mp hlt

/-- **Eviction**: with no free slot the one with the smallest stamp is taken. -/
theorem freeOrOldest_oldest {l : List ε} (h : 0 < l.length) (hlive : ∀ e ∈ l, live e = true) :
    ∃ e, l[freeOrOldest live stamp l]? = some e ∧ ∀ e' ∈ l, stamp e ≤ stamp e' := by
  cases l with
  | nil => exact absurd h (lt_irrefl 0)
  | cons e es =>
    exact scanSlots_oldest live stamp (nil_append _).symm hlive getElem?_cons_zero
      fun _ h => absurd h not_mem_nil

end Choice

/-! ## What the slots remember -/

section Remembers

def DistinctLive (live : ε → Bool) (key : ε → κ) (slots : List ε) : Prop :=
  slots.Pairwise fun a b => live a = true → live b = true → key a ≠ key b

theorem pairwise_set {R : ε → ε → Prop} {l : List ε} (h : l.Pairwise R) (i : ℕ) {a : ε}
    (ha : ∀ b ∈ l, R a b ∧ R b a) : (l.set i a).Pairwise R := by
  induction l generalizing i with
  | nil => exact List.Pairwise.nil
  | cons b l ih =>
    rw [pairwise_cons] at h
    rw [forall_mem_cons] at ha
    cases i with
    | zero => exact pairwise_cons.mpr ⟨fun c hc => (ha.2 c hc).1, h.2⟩
    | succ i =>
      refine pairwise_cons.mpr ⟨fun c hc => ?_, ih h.2 i ha.2⟩
      obtain hc | rfl := mem_or_eq_of_mem_set hc
      · exact h.1 c hc
      · exact ha.1.2

variable [DecidableEq κ] (live : ε → Bool) (record : ε → ρ) (key : ρ → κ)

/-- The slots in use hold the newest records of their keys, and these are different. -/
structure Remembers (slots : List ε) (log : List ρ) : Prop where
  distinct : DistinctLive live (fun e => key (record e)) slots
  newest : ∀ e ∈ slots, live e = true → lookupKey key log (key (record e)) = some (record e)

namespace Remembers

variable {live record key} {slots : List ε} {log : List ρ} {e : ε}

theorem of_free (h : ∀ e ∈ slots, live e = false) : Remembers live record key slots log where
  distinct := pairwise_of_forall_mem_list fun a ha _ _ hlive =>
    absurd hlive (by rw [h a ha]; exact Bool.false_ne_true)
  newest e he hlive := absurd hlive (by rw [h e he]; exact Bool.false_ne_true)

theorem free (h : Remembers live record key slots log) (i : ℕ) (he : live e = false) :
    Remembers live record key (slots.set i e) log where
  distinct := by
    refine pairwise_set h.distinct i fun b _ => ⟨fun hlive => ?_, fun _ hlive => ?_⟩ <;>
      exact absurd hlive (by rw [he]; exact Bool.false_ne_true)
  newest e' he' hlive := by
    obtain he' | rfl := mem_or_eq_of_mem_set he'
    · exact h.newest e' he' hlive
    · exact absurd hlive (by rw [he]; exact Bool.false_ne_true)

/-- **Stores**, of what is under no key in use. -/
theorem store (h : Remembers live record key slots log) (i : ℕ)
    (hnew : ∀ e' ∈ slots, live e' = true → key (record e') ≠ key (record e)) :
    Remembers live record key (slots.set i e) (record e :: log) where
  distinct := by
    refine pairwise_set h.distinct i fun b hb => ⟨fun _ hlive => ?_, fun hlive _ => ?_⟩
    · exact (hnew b hb hlive).symm
    · exact hnew b hb hlive
  newest e' he' hlive := by
    rw [lookupKey_cons]
    obtain he' | rfl := mem_or_eq_of_mem_set he'
    · rw [if_neg (hnew e' he' hlive).symm]
      exact h.newest e' he' hlive
    · exact if_pos rfl

end Remembers

end Remembers

end TgCli.Lib
