import Mathlib.Data.List.Chain
import Mathlib.Data.UInt
import TgCli.Lib.Machine
import TgCli.Core.MtprotoSession

/-!
# The message ids and sequence numbers of a session

A run of a session is any interleaving of `mtproto_session_next_msg_id` and
`mtproto_session_next_seq_no`, with any clock and any random words.  The ids are multiples of four,
and each is greater than the one before it; the sequence numbers count the content-related messages.

Both stop where the words end.  An id is taken from the clock if that gives a greater one, and else
it is the last one plus four, which is no greater if the last one was among the last four numbers
below `2 ^ 64` (`lt_msgIdAfter_iff`).  A sequence number is twice a count and does not fit 32 bits
from `2 ^ 31` messages on.  `numbersLawful_iff` says that nothing else can go wrong.
-/

namespace TgCli.Core

open Lib

/-! ## Runs -/

inductive SessionCall where
  | nextMsgId (now : UInt64) (low : UInt32)
  | nextSeqNo (contentRelated : Bool)
  deriving DecidableEq

namespace SessionCall

def exec (s : MtProtoSession) : SessionCall → MtProtoSession
  | nextMsgId now low => (mtprotoSessionNextMsgId s now low).2
  | nextSeqNo contentRelated => (mtprotoSessionNextSeqNo s contentRelated).2

/-- The numbers of this call are not at their end. -/
def InRange (s : MtProtoSession) : SessionCall → Prop
  | nextMsgId _ _ => s.lastMsgId.toNat < 2 ^ 64 - 4
  | nextSeqNo _ => s.seqNo.toNat < 2 ^ 31

end SessionCall

def msgIds (s : MtProtoSession) : List SessionCall → List UInt64
  | [] => []
  | .nextMsgId now low :: calls =>
    let x := mtprotoSessionNextMsgId s now low
    x.1 :: msgIds x.2 calls
  | .nextSeqNo c :: calls => msgIds (mtprotoSessionNextSeqNo s c).2 calls

/-- After `n` content-related messages, every sequence number of a run is twice the number of those
before it, plus one for a content-related message. -/
def SeqNosCount : ℕ → MtProtoSession → List SessionCall → Prop
  | _, _, [] => True
  | n, s, .nextMsgId now low :: calls => SeqNosCount n (mtprotoSessionNextMsgId s now low).2 calls
  | n, s, .nextSeqNo c :: calls =>
    let x := mtprotoSessionNextSeqNo s c
    x.1.toNat = 2 * n + c.toNat ∧ SeqNosCount (n + c.toNat) x.2 calls

/-- The numbers of a run are as they should be.  The last id of the session counts as returned
before the run, and its counter as the number of content-related messages before the run. -/
structure NumbersLawful (s : MtProtoSession) (calls : List SessionCall) : Prop where
  increasing : (s.lastMsgId :: msgIds s calls).Pairwise (· < ·)
  divisible : ∀ id ∈ msgIds s calls, id.toNat % 4 = 0
  counted : SeqNosCount s.seqNo.toNat s calls

/-! ## One id -/

theorem land_mask_four {n w : ℕ} (h : n < 2 ^ (w + 2)) :
    n &&& (2 ^ w - 1) <<< 2 = 4 * (n / 4) := by
  have hshift : n &&& (2 ^ w - 1) <<< 2 = ((n >>> 2) &&& (2 ^ w - 1)) <<< 2 := by
    refine Nat.eq_of_testBit_eq fun i => ?_
    rw [Nat.testBit_and, Nat.testBit_shiftLeft, Nat.testBit_shiftLeft, Nat.testBit_and,
      Nat.testBit_shiftRight]
    by_cases hi : 2 ≤ i
    · rw [Nat.add_sub_cancel' hi]
      simp [hi]
    · simp [hi]
  have hlt : n / 4 < 2 ^ w := by
    rw [pow_add] at h
    omega
  rw [hshift, Nat.and_two_pow_sub_one_eq_mod, Nat.shiftRight_eq_div_pow, Nat.shiftLeft_eq,
    Nat.mod_eq_of_lt hlt, mul_comm]

theorem toNat_clear_two (x : UInt64) : (x &&& ~~~3).toNat = 4 * (x.toNat / 4) := by
  rw [UInt64.toNat_and, show (~~~3 : UInt64).toNat = (2 ^ 62 - 1) <<< 2 by decide]
  exact land_mask_four x.toNat_lt

theorem toNat_clockId (now : UInt64) (low : UInt32) :
    ((now <<< 32) ||| (low.toUInt64 &&& 0xFFFFFFFC)).toNat =
      now.toNat % 2 ^ 32 * 2 ^ 32 + 4 * (low.toNat / 4) := by
  have hlow : (low.toUInt64 &&& 0xFFFFFFFC).toNat = 4 * (low.toNat / 4) := by
    rw [UInt64.toNat_and, UInt32.toNat_toUInt64,
      show (0xFFFFFFFC : UInt64).toNat = (2 ^ 30 - 1) <<< 2 by decide]
    exact land_mask_four low.toNat_lt
  have hnow : (now <<< 32).toNat = (now.toNat % 2 ^ 32) <<< 32 := by
    rw [UInt64.toNat_shiftLeft, Nat.shiftLeft_eq, Nat.shiftLeft_eq]
    show now.toNat * 2 ^ 32 % 2 ^ 64 = _
    omega
  have hlt : 4 * (low.toNat / 4) < 2 ^ 32 := by
    have := low.toNat_lt
    omega
  rw [UInt64.toNat_or, hlow, hnow, ← Nat.shiftLeft_add_eq_or_of_lt hlt, Nat.shiftLeft_eq]

theorem msgIdAfter_mod_four (last now : UInt64) (low : UInt32) :
    (msgIdAfter last now low).toNat % 4 = 0 := by
  rw [msgIdAfter, toNat_clear_two]
  exact Nat.mul_mod_right 4 _

theorem toNat_msgIdAfter (last now : UInt64) (low : UInt32) :
    (msgIdAfter last now low).toNat =
      if now.toNat % 2 ^ 32 * 2 ^ 32 + 4 * (low.toNat / 4) ≤ last.toNat then
        4 * ((last.toNat + 4) % 2 ^ 64 / 4)
      else now.toNat % 2 ^ 32 * 2 ^ 32 + 4 * (low.toNat / 4) := by
  have hclock := toNat_clockId now low
  rw [msgIdAfter, toNat_clear_two]
  by_cases hle : (now <<< 32) ||| (low.toUInt64 &&& 0xFFFFFFFC) ≤ last
  · rw [if_pos hle, if_pos (hclock ▸ UInt64.le_iff_toNat_le.mp hle), UInt64.toNat_add]
    rfl
  · rw [if_neg hle, if_neg fun h => hle (UInt64.le_iff_toNat_le.mpr (hclock ▸ h)), hclock]
    omega

/-- **The next id is greater exactly if the last one leaves room for it.** -/
theorem lt_msgIdAfter_iff (last now : UInt64) (low : UInt32) :
    last < msgIdAfter last now low ↔ last.toNat < 2 ^ 64 - 4 := by
  have hlow := low.toNat_lt
  rw [UInt64.lt_iff_toNat_lt, toNat_msgIdAfter]
  split_ifs with hle
  · omega
  · omega

/-! ## Whole runs -/

variable (s : MtProtoSession)

theorem divisible_msgIds (calls : List SessionCall) :
    ∀ id ∈ msgIds s calls, id.toNat % 4 = 0 := by
  induction calls generalizing s with
  | nil =>
    intro id h
    exact absurd h List.not_mem_nil
  | cons call calls ih =>
    cases call with
    | nextMsgId now low =>
      rw [msgIds, List.forall_mem_cons]
      exact ⟨msgIdAfter_mod_four _ now low, ih _⟩
    | nextSeqNo c => exact ih _

def SessionCall.IdInRange (s : MtProtoSession) : SessionCall → Prop
  | nextMsgId _ _ => s.lastMsgId.toNat < 2 ^ 64 - 4
  | nextSeqNo _ => True

def SessionCall.SeqInRange (s : MtProtoSession) : SessionCall → Prop
  | nextMsgId _ _ => True
  | nextSeqNo _ => s.seqNo.toNat < 2 ^ 31

theorem increasing_iff (calls : List SessionCall) :
    (s.lastMsgId :: msgIds s calls).Pairwise (· < ·) ↔
      ∀ x ∈ trace SessionCall.exec s calls, x.2.IdInRange x.1 := by
  rw [← List.isChain_iff_pairwise]
  induction calls generalizing s with
  | nil => simp [msgIds, trace]
  | cons call calls ih =>
    rw [trace, List.forall_mem_cons, ← ih]
    cases call with
    | nextMsgId now low =>
      rw [msgIds, List.isChain_cons_cons]
      exact and_congr_left fun _ => lt_msgIdAfter_iff _ now low
    | nextSeqNo c =>
      rw [msgIds, ← lastMsgId_mtprotoSessionNextSeqNo s c]
      exact (and_iff_right trivial).symm

theorem toNat_mtprotoSessionNextSeqNo (c : Bool) :
    (mtprotoSessionNextSeqNo s c).1.toNat = (2 * s.seqNo.toNat + c.toNat) % 2 ^ 32 ∧
      (mtprotoSessionNextSeqNo s c).2.seqNo.toNat = (s.seqNo.toNat + c.toNat) % 2 ^ 32 := by
  have hlt := s.seqNo.toNat_lt
  have htwo : (s.seqNo * 2).toNat = s.seqNo.toNat * 2 % 2 ^ 32 := UInt32.toNat_mul _ _
  cases c with
  | false =>
    refine ⟨htwo.trans ?_, (Nat.mod_eq_of_lt hlt).symm⟩
    rw [mul_comm]
    rfl
  | true =>
    refine ⟨(UInt32.toNat_add _ _).trans ?_, UInt32.toNat_add _ _⟩
    rw [htwo, Bool.toNat_true, UInt32.toNat_one, Nat.mod_add_mod, mul_comm]

theorem counted_iff (calls : List SessionCall) :
    SeqNosCount s.seqNo.toNat s calls ↔
      ∀ x ∈ trace SessionCall.exec s calls, x.2.SeqInRange x.1 := by
  induction calls generalizing s with
  | nil => simp [SeqNosCount, trace]
  | cons call calls ih =>
    rw [trace, List.forall_mem_cons, ← ih]
    cases call with
    | nextMsgId now low => exact (and_iff_right trivial).symm
    | nextSeqNo c =>
      have hc : c.toNat ≤ 1 := Bool.toNat_le c
      obtain ⟨hseq, hnext⟩ := toNat_mtprotoSessionNextSeqNo s c
      have hfits : (2 * s.seqNo.toNat + c.toNat) % 2 ^ 32 = 2 * s.seqNo.toNat + c.toNat ↔
          s.seqNo.toNat < 2 ^ 31 := by
        omega
      rw [SeqNosCount]
      rw [hseq, hfits]
      refine and_congr_right fun hlt => ?_
      rw [SessionCall.exec, hnext, Nat.mod_eq_of_lt (by omega)]

/-- **The numbers of a run are as they should be exactly if none is taken at the end of its
range.** -/
theorem numbersLawful_iff (s : MtProtoSession) (calls : List SessionCall) :
    NumbersLawful s calls ↔ ∀ x ∈ trace SessionCall.exec s calls, x.2.InRange x.1 := by
  have hsplit : ∀ x : MtProtoSession × SessionCall,
      x.2.InRange x.1 ↔ x.2.IdInRange x.1 ∧ x.2.SeqInRange x.1 := by
    rintro ⟨s, call⟩
    cases call with
    | nextMsgId now low => exact (and_iff_left trivial).symm
    | nextSeqNo c => exact (and_iff_right trivial).symm
  constructor
  · intro h x hx
    exact (hsplit x).mpr
      ⟨(increasing_iff s calls).mp h.increasing x hx, (counted_iff s calls).mp h.counted x hx⟩
  · intro h
    exact ⟨(increasing_iff s calls).mpr fun x hx => ((hsplit x).mp (h x hx)).1,
      divisible_msgIds s calls, (counted_iff s calls).mpr fun x hx => ((hsplit x).mp (h x hx)).2⟩

/-- In the last second of a clock of 32 bits, the last id can be drawn, and zero is next. -/
theorem msgIds_wrap :
    msgIds (mtprotoSessionInit 7)
      [.nextMsgId (2 ^ 32 - 1) (2 ^ 32 - 1), .nextMsgId (2 ^ 32 - 1) 0] = [2 ^ 64 - 4, 0] ∧
    ¬ (msgIds (mtprotoSessionInit 7)
      [.nextMsgId (2 ^ 32 - 1) (2 ^ 32 - 1), .nextMsgId (2 ^ 32 - 1) 0]).Pairwise (· < ·) := by
  decide +kernel

end TgCli.Core
