import Mathlib.Data.List.Nodup
import Mathlib.Data.Set.Card

/-!
# Lists with keys

A list whose elements have keys, used as a finite map: `lookupKey` finds the first element with a
key, `upsertKey` replaces that element or appends a new one.  On lists with distinct keys these are
lookup and update of a map.
-/

namespace TgCli.Lib

open List

section Keyed

variable {α κ : Type*} [DecidableEq κ] (key : α → κ)

def lookupKey (l : List α) (k : κ) : Option α :=
  l.find? fun a => decide (key a = k)

/-- `a` in place of the first element with its key, or at the end. -/
def upsertKey (l : List α) (a : α) : List α :=
  match l.findIdx? fun b => decide (key b = key a) with
  | some i => l.set i a
  | none => l ++ [a]

@[simp] theorem lookupKey_nil (k : κ) : lookupKey key [] k = none := rfl

theorem lookupKey_cons (b : α) (l : List α) (k : κ) :
    lookupKey key (b :: l) k = if key b = k then some b else lookupKey key l k := by
  rw [lookupKey, find?_cons]
  by_cases h : key b = k <;> simp [h, lookupKey]

theorem upsertKey_cons (b : α) (l : List α) (a : α) :
    upsertKey key (b :: l) a = if key b = key a then a :: l else b :: upsertKey key l a := by
  by_cases h : key b = key a
  · simp [upsertKey, findIdx?_cons, h]
  · rw [if_neg h, upsertKey, findIdx?_cons, if_neg (by simpa using h), upsertKey]
    rcases l.findIdx? fun b => decide (key b = key a) with _ | i <;> rfl

variable {l : List α}

theorem eq_or_mem_of_mem_upsertKey {a b : α} (h : b ∈ upsertKey key l a) :
    b = a ∨ b ∈ l := by
  induction l with
  | nil => exact Or.inl (mem_singleton.mp h)
  | cons c l ih =>
    rw [upsertKey_cons] at h
    split_ifs at h
    · exact (mem_cons.mp h).imp_right (mem_cons_of_mem c)
    · obtain rfl | h := mem_cons.mp h
      · exact Or.inr mem_cons_self
      · exact (ih h).imp_right (mem_cons_of_mem c)

theorem upsertKey_of_notMem {a : α} (h : key a ∉ l.map key) :
    upsertKey key l a = l ++ [a] := by
  induction l with
  | nil => rfl
  | cons b l ih =>
    rw [map_cons, mem_cons, not_or] at h
    rw [upsertKey_cons, if_neg (Ne.symm h.1), ih h.2, cons_append]

theorem upsertKey_of_mem {a : α} (hl : (l.map key).Nodup) (h : key a ∈ l.map key) :
    upsertKey key l a = l.map fun b => if key b = key a then a else b := by
  induction l with
  | nil => exact absurd h not_mem_nil
  | cons b l ih =>
    rw [map_cons, nodup_cons] at hl
    rw [map_cons, mem_cons] at h
    rw [upsertKey_cons, map_cons]
    by_cases hb : key b = key a
    · have hrest : (l.map fun b => if key b = key a then a else b) = l := by
        refine (map_congr_left fun c hc => ?_).trans (map_id l)
        refine if_neg fun he => hl.1 ?_
        rw [hb, ← he]
        exact mem_map_of_mem hc
      rw [if_pos hb, if_pos hb, hrest]
    · rw [if_neg hb, if_neg hb, ih hl.2 (h.resolve_left (Ne.symm hb))]

/-- **Lookup after an update** is lookup in the updated map. -/
theorem lookupKey_upsertKey (l : List α) (a : α) (k : κ) :
    lookupKey key (upsertKey key l a) k = if k = key a then some a else lookupKey key l k := by
  induction l with
  | nil =>
    rw [show upsertKey key [] a = [a] from rfl, lookupKey_cons]
    simp only [eq_comm, lookupKey_nil]
  | cons b l ih =>
    rw [upsertKey_cons]
    by_cases hb : key b = key a
    · rw [if_pos hb, lookupKey_cons, lookupKey_cons, hb]
      by_cases hk : key a = k
      · rw [if_pos hk, if_pos hk.symm]
      · rw [if_neg hk, if_neg (Ne.symm hk), if_neg hk]
    · rw [if_neg hb, lookupKey_cons, lookupKey_cons, ih]
      by_cases hk : key b = k
      · rw [if_pos hk, if_pos hk, if_neg fun h => hb (hk.trans h)]
      · rw [if_neg hk, if_neg hk]

theorem lookupKey_eq_none {k : κ} : lookupKey key l k = none ↔ k ∉ l.map key := by
  rw [lookupKey, find?_eq_none, mem_map]
  simp only [decide_eq_true_eq, not_exists, not_and]

theorem map_upsertKey (l : List α) (a : α) :
    (upsertKey key l a).map key =
      if key a ∈ l.map key then l.map key else l.map key ++ [key a] := by
  induction l with
  | nil => rfl
  | cons b l ih =>
    rw [upsertKey_cons]
    by_cases hb : key b = key a
    · rw [if_pos hb, map_cons, map_cons, hb, if_pos mem_cons_self]
    · rw [if_neg hb, map_cons, map_cons, ih]
      by_cases hm : key a ∈ l.map key
      · rw [if_pos hm, if_pos (mem_cons_of_mem _ hm)]
      · have hm' : key a ∉ key b :: l.map key := by
          rw [mem_cons, not_or]
          exact ⟨Ne.symm hb, hm⟩
        rw [if_neg hm, if_neg hm', cons_append]

/-- Distinct keys stay distinct. -/
theorem nodup_upsertKey (h : (l.map key).Nodup) (a : α) :
    ((upsertKey key l a).map key).Nodup := by
  rw [map_upsertKey]
  by_cases hm : key a ∈ l.map key
  · rw [if_pos hm]
    exact h
  · rw [if_neg hm]
    rw [← concat_eq_append]
    exact h.concat hm

/-- The length counts the keys. -/
theorem ncard_lookupKey (h : (l.map key).Nodup) :
    {k | lookupKey key l k ≠ none}.ncard = l.length := by
  have hset : {k | lookupKey key l k ≠ none} = ((l.map key).toFinset : Set κ) := by
    ext k
    rw [Set.mem_ofPred_eq, ne_eq, lookupKey_eq_none, not_not, coe_toFinset, Set.mem_ofPred_eq]
  rw [hset, Set.ncard_coe_finset, toFinset_card_of_nodup h, length_map]

end Keyed

end TgCli.Lib
