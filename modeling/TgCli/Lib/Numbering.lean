import Mathlib.Data.List.Nodup
import Mathlib.Order.Nat
import TgCli.Lib.Machine

/-!
# Numbered messages

Counters are started under a name, and a message takes the name and the number of the counter it is
sent with.  Nothing ties a name to one counter: a counter may be started under a name that has been
used before, and it starts at zero again.

The numbers are those of a `Scheme`: they repeat after `period` messages, and the counter itself
wraps round later.  Two messages never agree in name and number exactly if no counter at zero sends
under a used name and none sends beyond the period (`nodup_sent_iff`), whatever machine starts the
counters and sends with them.
-/

namespace TgCli.Lib

open List

variable {N T : Type*}

structure Scheme (T : Type*) where
  number : ℕ → T
  period : ℕ
  wrap : ℕ
  period_pos : 0 < period
  period_lt : period < wrap
  number_add_period : ∀ k, number (k + period) = number k
  number_inj : ∀ j k, j < period → k < period → number j = number k → j = k

structure Counter (N : Type*) where
  name : N
  count : ℕ

/-- The counters in use, and the names and numbers of the messages sent. -/
@[ext] structure Numbering (N T : Type*) where
  live : List (Counter N)
  sent : List (N × T)

namespace Numbering

inductive Op (N : Type*) where
  | start (name : N)
  | stop (i : ℕ)
  | send (i : ℕ)
  | idle

variable (sch : Scheme T)

def step (st : Numbering N T) : Op N → Numbering N T
  | .start name => { st with live := st.live ++ [⟨name, 0⟩] }
  | .stop i => { st with live := st.live.eraseIdx i }
  | .send i =>
    match st.live[i]? with
    | none => st
    | some c =>
      { live := st.live.set i ⟨c.name, (c.count + 1) % sch.wrap⟩
        sent := st.sent ++ [(c.name, sch.number c.count)] }
  | .idle => st

/-- A send is fresh if its counter is within the period, and, when it is at zero, has a name that
was not used. -/
def Fresh (st : Numbering N T) : Op N → Prop
  | .send i => ∀ c, st.live[i]? = some c →
      (c.count = 0 → ∀ m ∈ st.sent, m.1 ≠ c.name) ∧ c.count < sch.period
  | _ => True

variable {sch} {st : Numbering N T} {op : Op N} {i : ℕ} {c : Counter N}

theorem step_send (h : st.live[i]? = some c) :
    st.step sch (.send i) = ⟨st.live.set i ⟨c.name, (c.count + 1) % sch.wrap⟩,
      st.sent ++ [(c.name, sch.number c.count)]⟩ := by
  rw [step, h]

theorem step_send_of_none (h : st.live[i]? = none) : st.step sch (.send i) = st := by
  rw [step, h]

theorem sent_prefix_step : st.sent <+: (st.step sch op).sent := by
  cases op with
  | send i =>
    cases hi : st.live[i]? with
    | none => exact (step_send_of_none hi).symm ▸ prefix_rfl
    | some c => rw [step_send hi]; exact prefix_append _ _
  | _ => exact prefix_rfl

/-! ## What every run keeps -/

variable (sch) in
/-- Below the count of a counter every number has been used under its name, and a name that was
used was used with the first number. -/
structure Counted (st : Numbering N T) : Prop where
  below : ∀ c ∈ st.live, ∀ k < c.count, (c.name, sch.number k) ∈ st.sent
  first : ∀ m ∈ st.sent, (m.1, sch.number 0) ∈ st.sent

theorem Counted.step (h : st.Counted sch) : (st.step sch op).Counted sch := by
  cases op with
  | start name =>
    refine ⟨fun c hc k hk => ?_, h.first⟩
    rcases mem_append.mp hc with hc | hc
    · exact h.below c hc k hk
    · rw [mem_singleton.mp hc] at hk
      exact absurd hk (Nat.not_lt_zero k)
  | stop i => exact ⟨fun c hc => h.below c (mem_of_mem_eraseIdx hc), h.first⟩
  | idle => exact h
  | send i =>
    cases hi : st.live[i]? with
    | none => rwa [step_send_of_none hi]
    | some c =>
      have hc : c ∈ st.live := mem_of_getElem? hi
      rw [step_send hi]
      refine ⟨fun c' hc' k hk => mem_append.mpr ?_, fun m hm => mem_append.mpr ?_⟩
      · rcases mem_or_eq_of_mem_set hc' with hold | rfl
        · exact .inl (h.below c' hold k hk)
        · have hle : k ≤ c.count :=
            Nat.le_of_lt_succ (lt_of_lt_of_le hk (Nat.mod_le _ _))
          rcases hle.lt_or_eq with hlt | rfl
          · exact .inl (h.below c hc k hlt)
          · exact .inr (mem_singleton_self _)
      · rcases mem_append.mp hm with hold | hnew
        · exact .inl (h.first m hold)
        · rw [mem_singleton.mp hnew]
          rcases Nat.eq_zero_or_pos c.count with hzero | hpos
          · exact .inr (by rw [hzero]; exact mem_singleton_self _)
          · exact .inl (h.below c hc 0 hpos)

/-- **A send that is not fresh repeats a name and a number.** -/
theorem Counted.fresh_of_nodup (h : st.Counted sch) (hnd : (st.step sch op).sent.Nodup) :
    st.Fresh sch op := by
  cases op with
  | send i =>
    intro c hi
    have hc : c ∈ st.live := mem_of_getElem? hi
    rw [step_send hi] at hnd
    have hnew : (c.name, sch.number c.count) ∉ st.sent :=
      fun hm => (nodup_append.mp hnd).2.2 _ hm _ (mem_singleton_self _) rfl
    refine ⟨fun hzero m hm hname => hnew ?_, ?_⟩
    · rw [hzero, ← hname]
      exact h.first m hm
    · by_contra hge
      obtain ⟨k, hk⟩ := Nat.exists_eq_add_of_le' (Nat.le_of_not_lt hge)
      apply hnew
      rw [hk, sch.number_add_period]
      exact h.below c hc k (by have := sch.period_pos; omega)
  | _ => trivial

/-! ## What fresh sends keep -/

/-- At most one of the two has sent anything, if they share a name. -/
def Apart (a b : Counter N) : Prop :=
  a.name = b.name → a.count = 0 ∨ b.count = 0

theorem Apart.symm {a b : Counter N} (h : Apart a b) : Apart b a :=
  fun hname => (h hname.symm).symm

theorem pairwise_apart_iff {l : List (Counter N)} :
    l.Pairwise Apart ↔ ∀ (i j : ℕ) a b, i ≠ j → l[i]? = some a → l[j]? = some b → Apart a b := by
  rw [pairwise_iff_getElem]
  constructor
  · intro h i j a b hne hi hj
    obtain ⟨hilt, rfl⟩ := List.getElem?_eq_some_iff.mp hi
    obtain ⟨hjlt, rfl⟩ := List.getElem?_eq_some_iff.mp hj
    rcases Nat.lt_or_gt_of_ne hne with hlt | hgt
    · exact h i j hilt hjlt hlt
    · exact (h j i hjlt hilt hgt).symm
  · intro h i j hi hj hlt
    exact h i j _ _ hlt.ne (getElem?_eq_getElem hi) (getElem?_eq_getElem hj)

variable (sch) in
/-- No name and number twice; no counter beyond the period; the messages under the name of a counter
that has sent are its own; and counters that share a name are apart. -/
structure Distinct (st : Numbering N T) : Prop where
  nodup : st.sent.Nodup
  bound : ∀ c ∈ st.live, c.count ≤ sch.period
  own : ∀ c ∈ st.live, c.count ≠ 0 → ∀ t, (c.name, t) ∈ st.sent → ∃ k < c.count, t = sch.number k
  apart : st.live.Pairwise Apart

theorem Distinct.not_mem_of_fresh (h : st.Distinct sch) (hi : st.live[i]? = some c)
    (hfresh : st.Fresh sch (.send i)) : (c.name, sch.number c.count) ∉ st.sent := by
  obtain ⟨hzero, hlt⟩ := hfresh c hi
  intro hm
  by_cases hc : c.count = 0
  · exact hzero hc _ hm rfl
  · obtain ⟨k, hk, hnum⟩ := h.own c (mem_of_getElem? hi) hc _ hm
    exact hk.ne' (sch.number_inj _ _ hlt (hk.trans hlt) hnum)

theorem Distinct.eq_zero_of_fresh (h : st.Distinct sch) (hcount : st.Counted sch)
    (hi : st.live[i]? = some c) (hfresh : st.Fresh sch (.send i)) {j : ℕ} {d : Counter N}
    (hne : j ≠ i) (hj : st.live[j]? = some d) (hname : d.name = c.name) : d.count = 0 := by
  rcases pairwise_apart_iff.mp h.apart j i d c hne hj hi hname with hd | hc
  · exact hd
  · by_contra hpos
    exact (hfresh c hi).1 hc _
      (hcount.below d (mem_of_getElem? hj) 0 (Nat.pos_of_ne_zero hpos)) hname

theorem Distinct.send (h : st.Distinct sch) (hcount : st.Counted sch)
    (hfresh : st.Fresh sch (.send i)) : (st.step sch (.send i)).Distinct sch := by
  cases hi : st.live[i]? with
  | none => rwa [step_send_of_none hi]
  | some c =>
    obtain ⟨hzero, hlt⟩ := hfresh c hi
    have hnext : (c.count + 1) % sch.wrap = c.count + 1 :=
      Nat.mod_eq_of_lt (lt_of_le_of_lt hlt sch.period_lt)
    have hget : ∀ j d, (st.live.set i ⟨c.name, c.count + 1⟩)[j]? = some d →
        (j = i ∧ d = ⟨c.name, c.count + 1⟩) ∨ (j ≠ i ∧ st.live[j]? = some d) := by
      intro j d hj
      rw [getElem?_set] at hj
      split_ifs at hj with hij
      · exact .inl ⟨hij.symm, (Option.some_inj.mp hj).symm⟩
      · exact .inr ⟨Ne.symm hij, hj⟩
    rw [step_send hi, hnext]
    refine ⟨?_, fun d hd => ?_, fun d hd hpos t ht => ?_, ?_⟩
    · rw [← concat_eq_append]
      exact h.nodup.concat (h.not_mem_of_fresh hi hfresh)
    · rcases mem_or_eq_of_mem_set hd with hold | rfl
      · exact h.bound d hold
      · exact hlt
    · obtain ⟨j, hj⟩ := mem_iff_getElem?.mp hd
      rcases hget j d hj with ⟨-, rfl⟩ | ⟨hne, hj⟩
      · rcases mem_append.mp ht with hold | hnew
        · have hc : c.count ≠ 0 := fun hc => hzero hc _ hold rfl
          obtain ⟨k, hk, hnum⟩ := h.own c (mem_of_getElem? hi) hc t hold
          exact ⟨k, Nat.lt_succ_of_lt hk, hnum⟩
        · exact ⟨c.count, Nat.lt_succ_self _, (Prod.mk.inj (mem_singleton.mp hnew)).2⟩
      · rcases mem_append.mp ht with hold | hnew
        · exact h.own d (mem_of_getElem? hj) hpos t hold
        · have hname := (Prod.mk.inj (mem_singleton.mp hnew)).1
          exact absurd (h.eq_zero_of_fresh hcount hi hfresh hne hj hname) hpos
    · rw [pairwise_apart_iff]
      intro j k a b hne hj hk
      rcases hget j a hj with ⟨hji, rfl⟩ | ⟨hji, hja⟩ <;>
        rcases hget k b hk with ⟨hki, rfl⟩ | ⟨hki, hkb⟩
      · exact absurd (hji.trans hki.symm) hne
      · exact fun hname => .inr (h.eq_zero_of_fresh hcount hi hfresh hki hkb hname.symm)
      · exact fun hname => .inl (h.eq_zero_of_fresh hcount hi hfresh hji hja hname)
      · exact pairwise_apart_iff.mp h.apart j k a b hne hja hkb

/-- **One step.** -/
theorem Distinct.step (h : st.Distinct sch) (hcount : st.Counted sch) (hfresh : st.Fresh sch op) :
    (st.step sch op).Distinct sch := by
  cases op with
  | start name =>
    have hmem : ∀ c ∈ st.live ++ [⟨name, 0⟩], c ∈ st.live ∨ c.count = 0 := by
      intro c hc
      rcases mem_append.mp hc with hold | hnew
      · exact .inl hold
      · exact .inr (by rw [mem_singleton.mp hnew])
    refine ⟨h.nodup, fun c hc => ?_, fun c hc hpos => ?_, ?_⟩
    · rcases hmem c hc with hold | hzero
      · exact h.bound c hold
      · rw [hzero]
        exact Nat.zero_le _
    · exact h.own c ((hmem c hc).resolve_right hpos) hpos
    · refine pairwise_append.mpr ⟨h.apart, pairwise_singleton _ _, ?_⟩
      intro a _ b hb _
      exact .inr (by rw [mem_singleton.mp hb])
  | stop i =>
    have hsub : st.live.eraseIdx i ⊆ st.live := fun _ => mem_of_mem_eraseIdx
    exact ⟨h.nodup, fun c hc => h.bound c (hsub hc), fun c hc => h.own c (hsub hc),
      h.apart.sublist (eraseIdx_sublist _ _)⟩
  | send i => exact h.send hcount hfresh
  | idle => exact h

/-! ## Whole runs -/

variable (N sch) in
theorem counted_empty : (⟨[], []⟩ : Numbering N T).Counted sch :=
  ⟨fun _ h => absurd h not_mem_nil, fun _ h => absurd h not_mem_nil⟩

variable (N sch) in
theorem distinct_empty : (⟨[], []⟩ : Numbering N T).Distinct sch :=
  ⟨nodup_nil, fun _ h => absurd h not_mem_nil, fun _ h => absurd h not_mem_nil,
    List.Pairwise.nil⟩

section Machine

variable {S E : Type*} {exec : S → E → S} {abs : S → Numbering N T} {act : S → E → Op N}

theorem sent_prefix_run (habs : ∀ s e, abs (exec s e) = (abs s).step sch (act s e)) (s : S)
    (es : List E) : (abs s).sent <+: (abs (es.foldl exec s)).sent := by
  induction es generalizing s with
  | nil => exact prefix_rfl
  | cons e es ih =>
    refine List.IsPrefix.trans ?_ (ih (exec s e))
    rw [habs]
    exact sent_prefix_step

/-- **When numbers are not used twice.**  A machine whose steps act on the counters, from a state
in which both invariants hold. -/
theorem nodup_sent_iff (habs : ∀ s e, abs (exec s e) = (abs s).step sch (act s e)) {s : S}
    (hcount : (abs s).Counted sch) (hdist : (abs s).Distinct sch) (es : List E) :
    (abs (es.foldl exec s)).sent.Nodup ↔
      ∀ x ∈ trace exec s es, (abs x.1).Fresh sch (act x.1 x.2) := by
  induction es generalizing s with
  | nil => exact ⟨fun _ x hx => absurd hx not_mem_nil, fun _ => hdist.nodup⟩
  | cons e es ih =>
    rw [trace, forall_mem_cons, foldl_cons]
    have hcount' : (abs (exec s e)).Counted sch := by
      rw [habs]
      exact hcount.step
    have hstep : (abs s).Fresh sch (act s e) → (abs (exec s e)).Distinct sch := by
      intro hfresh
      rw [habs]
      exact hdist.step hcount hfresh
    constructor
    · intro hnd
      have hfresh : (abs s).Fresh sch (act s e) := by
        refine hcount.fresh_of_nodup ?_
        rw [← habs]
        exact hnd.sublist (sent_prefix_run habs _ es).sublist
      exact ⟨hfresh, (ih hcount' (hstep hfresh)).mp hnd⟩
    · intro h
      exact (ih hcount' (hstep h.1)).mpr h.2

end Machine

end Numbering

end TgCli.Lib
