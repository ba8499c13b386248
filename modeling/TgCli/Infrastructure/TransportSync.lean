import Mathlib.Logic.Relation
import TgCli.Infrastructure.Transport

/-!
# `transport_recv` and the boundaries of frames

The bytes that arrive on a connection fall into frames, and where each begins is decided by the
bytes alone: the first begins at the start, and the length at the beginning of a frame says where
the next one begins (`Boundary`).  `transport_recv` keeps no note of where it is.  A call takes the
next byte of the stream for the beginning of a frame, and what it has read when it gives up is
gone.

So a call that begins a frame it does not finish --- the payload does not fit the buffer, the
length arrives in two pieces, a call on the socket fails, the stream ends --- leaves the stream
inside that frame, and the next call that reads anything reads the inside of a frame as a length.
A run stays at the boundaries exactly if no call reads from the stream after such a call
(`inSync_iff`).

The socket is one whose calls may fail.  Where none does, `transport_recv` on it is
`transportRecv` (`transportRecv_of_errs`).
-/

namespace TgCli.Infrastructure

open Option List Lib

namespace Faulty

/-! ## Receiving -/

/-- `transport_recv` behind the length: the payload, when it fits the buffer and arrives. -/
def recvPayload (s : FaultySocket) (wireLen maxLen : ℕ) : Option Bytes × FaultySocket :=
  let payloadLen := wireLen * 4
  if payloadLen = 0 then (some [], s)
  else if payloadLen > maxLen then (none, s)
  else FaultySocket.recvLoop payloadLen s payloadLen

/-- `transport_recv` behind the marker of a long length, whose three bytes it asks for once. -/
def recvLong (s : FaultySocket) (maxLen : ℕ) : Option Bytes × FaultySocket :=
  let extra := s.recvRetry 3
  match extra.1 with
  | some e => if e.length ≠ 3 then (none, extra.2) else recvPayload extra.2 (leNat e) maxLen
  | none => (none, extra.2)

/-- `transport_recv`: the payload when it returned 0, and the socket. -/
def transportRecv (s : FaultySocket) (maxLen : ℕ) : Option Bytes × FaultySocket :=
  let first := s.recvRetry 1
  match first.1 with
  | some [b] =>
    if b < 0x7F then recvPayload first.2 b.toNat maxLen else recvLong first.2 maxLen
  | _ => (none, first.2)

def recvRun : List ℕ → FaultySocket → List (FaultySocket × ℕ)
  | [], _ => []
  | m :: ms, s => (s, m) :: recvRun ms (transportRecv s m).2

/-! ## Boundaries -/

/-- The length at the beginning of a frame: the bytes it takes, and the bytes of the payload. -/
def lengthAt : Bytes → Option (ℕ × ℕ)
  | [] => none
  | b :: t =>
    if b < 0x7F then some (1, b.toNat * 4)
    else if t.length < 3 then none
    else some (4, leNat (t.take 3) * 4)

/-- A frame that begins at `o` is all there and ends at `o'`. -/
def FrameFrom (stream : Bytes) (o o' : ℕ) : Prop :=
  ∃ w n, lengthAt (stream.drop o) = some (w, n) ∧ o' = o + w + n ∧ o' ≤ stream.length

/-- A frame begins at `o`, or would if the stream went on. -/
def Boundary (stream : Bytes) (o : ℕ) : Prop :=
  Relation.ReflTransGen (FrameFrom stream) 0 o

/-- What a call returns is the payload of a frame that begins at a boundary, and what it reads as a
length begins at a boundary. -/
structure CallInSync (stream : Bytes) (c : FaultySocket × ℕ) : Prop where
  payload : ∀ p, (transportRecv c.1 c.2).1 = some p → Boundary stream c.1.sock.offset ∧
    ∃ w n, lengthAt (stream.drop c.1.sock.offset) = some (w, n) ∧
      c.1.sock.offset + w + n ≤ stream.length ∧ p = slice stream (c.1.sock.offset + w) n
  length : (transportRecv c.1 c.2).2.sock.offset ≠ c.1.sock.offset →
    Boundary stream c.1.sock.offset

def InSync (stream : Bytes) (s : FaultySocket) (ms : List ℕ) : Prop :=
  ∀ c ∈ recvRun ms s, CallInSync stream c

/-! ## Calls that finish what they begin -/

/-- The next call on the socket does not fail, and there is something to read. -/
def Starts (s : FaultySocket) : Prop :=
  s.errs s.sock.offset = 0 ∧ s.sock.rest ≠ []

/-- The frame at the socket is all there and fits `maxLen` bytes, its length arrives in one piece,
and no call on the socket fails before its end. -/
def Finishes (s : FaultySocket) (maxLen : ℕ) : Prop :=
  ∃ w n, lengthAt s.sock.rest = some (w, n) ∧ n ≤ maxLen ∧
    (w = 4 → 3 ≤ s.sock.pace.chunk (s.sock.offset + 1)) ∧ s.Clear (w + n)

/-- A call begins a frame that it does not finish. -/
def Abandons (c : FaultySocket × ℕ) : Prop :=
  Starts c.1 ∧ ¬ Finishes c.1 c.2

theorem recvPayload_cases (s : FaultySocket) (wireLen maxLen : ℕ) :
    (wireLen * 4 ≤ maxLen ∧ s.Clear (wireLen * 4) ∧
        (recvPayload s wireLen maxLen).1 = some (s.sock.rest.take (wireLen * 4)) ∧
        FaultySocket.Moved s (recvPayload s wireLen maxLen).2 (wireLen * 4)) ∨
      (¬ (wireLen * 4 ≤ maxLen ∧ s.Clear (wireLen * 4)) ∧
        (recvPayload s wireLen maxLen).1 = none ∧
        ∃ j < wireLen * 4, FaultySocket.Moved s (recvPayload s wireLen maxLen).2 j) := by
  rw [recvPayload]
  by_cases hzero : wireLen * 4 = 0
  · rw [if_pos hzero, hzero]
    exact Or.inl ⟨Nat.zero_le _, ⟨Nat.zero_le _, fun k hk => absurd hk (Nat.not_lt_zero k)⟩, rfl,
      ⟨rfl, rfl⟩⟩
  by_cases hmax : wireLen * 4 > maxLen
  · rw [if_neg hzero, if_pos hmax]
    exact Or.inr ⟨fun h => by omega, rfl, 0, by omega, ⟨rfl, rfl⟩⟩
  · rw [if_neg hzero, if_neg hmax]
    rcases s.recvLoop_spec (wireLen * 4) (wireLen * 4) (le_refl _) (by omega) with
      ⟨hclear, hloop⟩ | ⟨hclear, hnone, hmoved⟩
    · rw [hloop]
      exact Or.inl ⟨by omega, hclear, rfl, s.moved_took _⟩
    · exact Or.inr ⟨fun h => hclear h.2, hnone, hmoved⟩

variable {stream : Bytes} {j n o w o' : ℕ} {s : FaultySocket}

theorem transportRecv_idle (h : ¬ Starts s) (maxLen : ℕ) :
    (transportRecv s maxLen).1 = none ∧ FaultySocket.Moved s (transportRecv s maxLen).2 0 := by
  rw [transportRecv]
  by_cases herr : s.errs s.sock.offset = 0
  · have hnil : s.sock.rest = [] := by
      by_contra hne
      exact h ⟨herr, hne⟩
    have hy : s.sock.yields 1 = 0 := by
      rw [InSocket.yields, hnil]
      exact Nat.min_zero _
    rw [FaultySocket.recvRetry_of_errs herr, hy, hnil]
    exact ⟨rfl, s.moved_took 0⟩
  · rw [FaultySocket.recvRetry, if_neg herr]
    exact ⟨rfl, s.moved_failed⟩

theorem recvRetry_first (herr : s.errs s.sock.offset = 0) {b : UInt8} {t : Bytes}
    (hrest : s.sock.rest = b :: t) : s.recvRetry 1 = (some [b], s.took 1) := by
  have hy : s.sock.yields 1 = 1 := by
    have := s.sock.pace.one_le_chunk s.sock.offset
    rw [InSocket.yields, hrest, length_cons]
    omega
  rw [FaultySocket.recvRetry_of_errs herr, hy, hrest]
  rfl

theorem clear_one (h : Starts s) : s.Clear 1 := by
  refine ⟨length_pos_iff.mpr h.2, fun k hk => ?_⟩
  rw [Nat.lt_one_iff.mp hk]
  exact h.1

section OneCall

variable {s : FaultySocket} {b : UInt8} {t : Bytes}

/-- What one call does once it has started. -/
def Outcome (s : FaultySocket) (maxLen : ℕ) : Prop :=
  (Finishes s maxLen ∧ ∃ w n, lengthAt s.sock.rest = some (w, n) ∧ w + n ≤ s.sock.rest.length ∧
      (transportRecv s maxLen).1 = some (slice s.sock.rest w n) ∧
      FaultySocket.Moved s (transportRecv s maxLen).2 (w + n)) ∨
    (¬ Finishes s maxLen ∧ (transportRecv s maxLen).1 = none ∧
      ∃ j, 0 < j ∧ FaultySocket.Moved s (transportRecv s maxLen).2 j ∧
        ∀ w n, lengthAt s.sock.rest = some (w, n) → j < w + n)

theorem outcome_of_length {maxLen : ℕ} (w wireLen : ℕ) (hw : 0 < w)
    (hlen : lengthAt s.sock.rest = some (w, wireLen * 4)) (hclear : s.Clear w)
    (hchunk : w = 4 → 3 ≤ s.sock.pace.chunk (s.sock.offset + 1))
    (hrecv : transportRecv s maxLen = recvPayload (s.took w) wireLen maxLen) :
    Outcome s maxLen := by
  have hfin : Finishes s maxLen ↔
      wireLen * 4 ≤ maxLen ∧ (s.took w).Clear (wireLen * 4) := by
    constructor
    · rintro ⟨w', n', hlen', hle, -, hc⟩
      obtain ⟨rfl, rfl⟩ : w' = w ∧ n' = wireLen * 4 := by
        rw [hlen] at hlen'
        exact ⟨(congrArg Prod.fst (some.inj hlen')).symm,
          (congrArg Prod.snd (some.inj hlen')).symm⟩
      exact ⟨hle, ((s.clear_add _ _).mp hc).2⟩
    · rintro ⟨hle, hc⟩
      exact ⟨w, wireLen * 4, hlen, hle, hchunk, (s.clear_add _ _).mpr ⟨hclear, hc⟩⟩
  rw [Outcome, hfin, hrecv]
  rcases recvPayload_cases (s.took w) wireLen maxLen with
    ⟨hle, hc, hp, hmoved⟩ | ⟨hnot, hnone, j, hj, hmoved⟩
  · exact Or.inl ⟨⟨hle, hc⟩, w, wireLen * 4, hlen, ((s.clear_add _ _).mpr ⟨hclear, hc⟩).1, hp,
      (s.moved_took w).trans hmoved⟩
  · refine Or.inr ⟨hnot, hnone, w + j, by omega, (s.moved_took w).trans hmoved, ?_⟩
    intro w' n' hlen'
    rw [hlen] at hlen'
    obtain ⟨rfl, rfl⟩ := Prod.mk.inj (some.inj hlen')
    omega

theorem outcome_of_cut {maxLen j : ℕ} (hrest : s.sock.rest = b :: t) (hb : ¬ b < 0x7F)
    (hj : 0 < j) (hj4 : j < 4) (hfin : ¬ Finishes s maxLen)
    (hnone : (transportRecv s maxLen).1 = none)
    (hmoved : FaultySocket.Moved s (transportRecv s maxLen).2 j) : Outcome s maxLen := by
  refine Or.inr ⟨hfin, hnone, j, hj, hmoved, ?_⟩
  intro w n hlen
  rw [hrest, lengthAt, if_neg hb] at hlen
  split_ifs at hlen
  obtain ⟨rfl, rfl⟩ := Prod.mk.inj (some.inj hlen)
  omega

/-- **One call that starts** returns the payload of the frame at the socket and ends behind it, if
it can finish the frame.  If not, it fails, and ends inside the frame. -/
theorem outcome_of_starts (h : Starts s) (maxLen : ℕ) : Outcome s maxLen := by
  obtain ⟨b, t, hrest⟩ := exists_cons_of_ne_nil h.2
  have hclear := clear_one h
  have hfirst := recvRetry_first h.1 hrest
  by_cases hb : b < 0x7F
  · refine outcome_of_length 1 b.toNat Nat.one_pos ?_ hclear ?_ ?_
    · rw [hrest, lengthAt, if_pos hb]
    · intro h14
      omega
    · rw [transportRecv, hfirst]
      exact if_pos hb
  have hrecv : transportRecv s maxLen = recvLong (s.took 1) maxLen := by
    rw [transportRecv, hfirst]
    exact if_neg hb
  have hrest1 : (s.took 1).sock.rest = t := by
    rw [FaultySocket.sock_took, InSocket.took, hrest]
    rfl
  by_cases herr : (s.took 1).errs (s.took 1).sock.offset = 0
  · have hretry := FaultySocket.recvRetry_of_errs herr 3
    have hy : (s.took 1).sock.yields 3 = min (min (s.sock.pace.chunk (s.sock.offset + 1)) 3)
        t.length := by
      rw [InSocket.yields, hrest1]
      rfl
    have hlen : (t.take ((s.took 1).sock.yields 3)).length = (s.took 1).sock.yields 3 :=
      length_take_of_le (by omega)
    rw [hrest1] at hretry
    by_cases hthree : (s.took 1).sock.yields 3 = 3
    · rw [hthree] at hretry hlen
      refine outcome_of_length 4 (leNat (t.take 3)) (by decide) ?_ ?_ ?_ ?_
      · rw [hrest, lengthAt, if_neg hb, if_neg (by omega)]
      · exact (s.clear_add 1 3).mpr ⟨hclear, hthree ▸ FaultySocket.clear_yields herr 3⟩
      · intro _
        omega
      · rw [hrecv, recvLong, hretry]
        dsimp only
        rw [if_neg (by omega), FaultySocket.took_took]
    · have hlong : transportRecv s maxLen =
          (none, s.took (1 + (s.took 1).sock.yields 3)) := by
        rw [hrecv, recvLong, hretry]
        dsimp only
        rw [if_pos (by omega), FaultySocket.took_took]
      refine outcome_of_cut (j := 1 + (s.took 1).sock.yields 3) hrest hb (by omega) (by omega) ?_
        (by rw [hlong]) (by rw [hlong]; exact s.moved_took _)
      -- all three are there, so it is the pace that cuts them
      rintro ⟨w, n, hw, -, hchunk, -⟩
      rw [hrest, lengthAt, if_neg hb] at hw
      split_ifs at hw with hshort
      have := hchunk (congrArg Prod.fst (some.inj hw)).symm
      omega
  · have hlong : transportRecv s maxLen = (none, (s.took 1).failed) := by
      rw [hrecv, recvLong, FaultySocket.recvRetry, if_neg herr]
    refine outcome_of_cut (j := 1) hrest hb (by decide) (by decide) ?_ (by rw [hlong])
      (by rw [hlong]; exact (s.moved_took 1).trans (s.took 1).moved_failed)
    rintro ⟨w, n, hw, -, -, hc⟩
    rw [hrest, lengthAt, if_neg hb] at hw
    split_ifs at hw
    obtain ⟨rfl, rfl⟩ := Prod.mk.inj (some.inj hw)
    exact herr (hc.2 1 (by omega))

end OneCall

/-! ## A socket whose calls do not fail -/

theorem recvPayload_of_errs (h : ∀ o, s.errs o = 0) (wireLen maxLen : ℕ) :
    (recvPayload s wireLen maxLen).1 = (Infrastructure.recvPayload s.sock wireLen maxLen).1 ∧
      (recvPayload s wireLen maxLen).2.sock =
        (Infrastructure.recvPayload s.sock wireLen maxLen).2 := by
  rw [recvPayload, Infrastructure.recvPayload]
  split_ifs
  · exact ⟨rfl, rfl⟩
  · exact ⟨rfl, rfl⟩
  · exact FaultySocket.recvLoop_of_errs h _ _

/-- **Without failures** this is `transport_recv` on a socket that has none. -/
theorem transportRecv_of_errs (h : ∀ o, s.errs o = 0) (maxLen : ℕ) :
    (transportRecv s maxLen).1 = (Infrastructure.transportRecv s.sock maxLen).1 ∧
      (transportRecv s maxLen).2.sock = (Infrastructure.transportRecv s.sock maxLen).2 := by
  rw [transportRecv, Infrastructure.transportRecv, FaultySocket.recvRetry_of_errs (h _),
    InSocket.recvRetry_eq]
  rcases hfirst : s.sock.rest.take (s.sock.yields 1) with _ | ⟨b, _ | ⟨c, t⟩⟩
  · exact ⟨rfl, rfl⟩
  · dsimp only
    by_cases hb : b < 0x7F
    · rw [if_pos hb, if_pos hb]
      exact recvPayload_of_errs (s := s.took _) h _ _
    · rw [if_neg hb, if_neg hb, recvLong,
        FaultySocket.recvRetry_of_errs (s := s.took _) (h _), InSocket.recvRetry_eq]
      dsimp only
      rw [FaultySocket.sock_took]
      split_ifs
      · exact ⟨rfl, rfl⟩
      · exact recvPayload_of_errs (s := (s.took _).took _) h _ _
  · exact ⟨rfl, rfl⟩

/-! ## Boundaries in order -/

theorem frameFrom_unique : Relator.RightUnique (FrameFrom stream) := by
  rintro o a b ⟨w, n, hw, rfl, -⟩ ⟨w', n', hw', rfl, -⟩
  rw [hw] at hw'
  obtain ⟨rfl, rfl⟩ := Prod.mk.inj (some.inj hw')
  rfl

theorem lengthAt_pos {b : Bytes} (h : lengthAt b = some (w, n)) : 0 < w := by
  cases b with
  | nil => exact absurd h (some_ne_none _).symm
  | cons x t =>
    rw [lengthAt] at h
    split_ifs at h
    · exact (Prod.mk.inj (some.inj h)).1 ▸ Nat.one_pos
    · exact (Prod.mk.inj (some.inj h)).1 ▸ Nat.succ_pos 3

theorem FrameFrom.lt (h : FrameFrom stream o o') : o < o' := by
  obtain ⟨w, n, hw, rfl, -⟩ := h
  have := lengthAt_pos hw
  omega

theorem le_of_frames (h : Relation.ReflTransGen (FrameFrom stream) o o') : o ≤ o' := by
  induction h with
  | refl => exact le_refl _
  | tail _ hstep ih => exact ih.trans hstep.lt.le

theorem not_boundary (h : Boundary stream o) (hj : 0 < j)
    (hin : ∀ w n, lengthAt (stream.drop o) = some (w, n) → j < w + n) :
    ¬ Boundary stream (o + j) := by
  intro h'
  rcases Relation.ReflTransGen.total_of_right_unique frameFrom_unique h h' with hchain | hchain
  · rcases hchain.cases_head with heq | ⟨x, ⟨w, n, hw, rfl, -⟩, hrest⟩
    · omega
    · have := hin w n hw
      have := le_of_frames hrest
      omega
  · have := le_of_frames hchain
    omega

/-! ## Runs -/

def On (stream : Bytes) (s : FaultySocket) : Prop :=
  s.sock.rest = stream.drop s.sock.offset

theorem On.moved {s' : FaultySocket} (h : On stream s)
    (hm : FaultySocket.Moved s s' j) : On stream s' := by
  rw [On, hm.rest, hm.offset, h, drop_drop]

theorem offset_ne_of_starts (h : Starts s) (maxLen : ℕ) :
    (transportRecv s maxLen).2.sock.offset ≠ s.sock.offset := by
  rcases outcome_of_starts h maxLen with ⟨-, w, n, hw, -, -, hmoved⟩ | ⟨-, -, j, hj, hmoved, -⟩
  · have := lengthAt_pos hw
    rw [hmoved.offset]
    omega
  · rw [hmoved.offset]
    omega

theorem inSync_lost (ms : List ℕ) (hon : On stream s) (hlost : ¬ Boundary stream s.sock.offset) :
    InSync stream s ms ↔ ∀ c ∈ recvRun ms s, ¬ Starts c.1 := by
  induction ms generalizing s with
  | nil => exact ⟨fun _ c hc => absurd hc not_mem_nil, fun _ c hc => absurd hc not_mem_nil⟩
  | cons m ms ih =>
    rw [InSync, recvRun, forall_mem_cons, forall_mem_cons]
    by_cases hs : Starts s
    · exact ⟨fun h => absurd (h.1.length (offset_ne_of_starts hs m)) hlost, fun h => absurd hs h.1⟩
    · obtain ⟨hnone, hmoved⟩ := transportRecv_idle hs m
      have hoff : (transportRecv s m).2.sock.offset = s.sock.offset := hmoved.offset
      refine and_congr ⟨fun _ => hs, fun _ => ?_⟩
        (ih (hon.moved hmoved) (by rw [hoff]; exact hlost))
      exact ⟨fun p hp => absurd (hnone.symm.trans hp) (some_ne_none p).symm,
        fun hne => absurd hoff hne⟩

theorem callInSync_of_finishes {m : ℕ} (hon : On stream s)
    (hb : Boundary stream s.sock.offset) (hlen : lengthAt s.sock.rest = some (w, n))
    (hle : w + n ≤ s.sock.rest.length) (hp : (transportRecv s m).1 = some (slice s.sock.rest w n)) :
    CallInSync stream (s, m) ∧ Boundary stream (s.sock.offset + (w + n)) := by
  rw [hon] at hlen hle hp
  rw [length_drop] at hle
  have := lengthAt_pos hlen
  have hfit : s.sock.offset + w + n ≤ stream.length := by omega
  refine ⟨⟨fun p hp' => ⟨hb, w, n, hlen, hfit, ?_⟩, fun _ => hb⟩, hb.tail ?_⟩
  · rw [hp, some_inj] at hp'
    rw [← hp', slice, slice, drop_drop]
  · exact ⟨w, n, hlen, (Nat.add_assoc _ _ _).symm, by omega⟩

theorem inSync_of_boundary (ms : List ℕ) (hon : On stream s) (hb : Boundary stream s.sock.offset) :
    InSync stream s ms ↔
      (recvRun ms s).Pairwise fun a b => Abandons a → ¬ Starts b.1 := by
  induction ms generalizing s with
  | nil => exact ⟨fun _ => List.Pairwise.nil, fun _ c hc => absurd hc not_mem_nil⟩
  | cons m ms ih =>
    rw [InSync, recvRun, forall_mem_cons, pairwise_cons]
    by_cases hs : Starts s
    · rcases outcome_of_starts hs m with
        ⟨hfin, w, n, hlen, hle, hp, hmoved⟩ | ⟨hfin, hnone, j, hj, hmoved, hin⟩
      · obtain ⟨hcall, hnext⟩ := callInSync_of_finishes hon hb hlen hle hp
        rw [← hmoved.offset] at hnext
        exact and_congr ⟨fun _ b _ h => absurd hfin h.2, fun _ => hcall⟩
          (ih (hon.moved hmoved) hnext)
      · -- the next call that starts is inside the frame
        have hcall : CallInSync stream (s, m) :=
          ⟨fun p hp => absurd (hnone.symm.trans hp) (some_ne_none p).symm, fun _ => hb⟩
        have hlost : ¬ Boundary stream (transportRecv s m).2.sock.offset := by
          rw [hmoved.offset]
          rw [hon] at hin
          exact not_boundary hb hj hin
        have hrest := inSync_lost ms (hon.moved hmoved) hlost
        constructor
        · intro h
          have hstart := hrest.mp h.2
          exact ⟨fun c hc _ => hstart c hc,
            pairwise_of_forall_mem_list fun a ha _ _ h => absurd h.1 (hstart a ha)⟩
        · intro h
          exact ⟨hcall, hrest.mpr fun c hc => h.1 c hc ⟨hs, hfin⟩⟩
    · obtain ⟨hnone, hmoved⟩ := transportRecv_idle hs m
      have hcall : CallInSync stream (s, m) :=
        ⟨fun p hp => absurd (hnone.symm.trans hp) (some_ne_none p).symm, fun _ => hb⟩
      have hoff : (transportRecv s m).2.sock.offset = s.sock.offset := hmoved.offset
      exact and_congr ⟨fun _ b _ h => absurd h.1 hs, fun _ => hcall⟩
        (ih (hon.moved hmoved) (by rw [hoff]; exact hb))

/-- **When a connection keeps its place.**  Whatever arrives, however the socket behaves and
whatever buffers the calls have, `transport_recv` returns only payloads of frames at their
boundaries, and reads lengths only there, exactly if no call reads from the stream after a call that
has begun a frame without finishing it. -/
theorem inSync_iff (stream : Bytes) (p : FaultyPace) (ms : List ℕ) :
    InSync stream (FaultySocket.start p stream) ms ↔
      (recvRun ms (FaultySocket.start p stream)).Pairwise fun a b => Abandons a → ¬ Starts b.1 :=
  inSync_of_boundary ms (drop_zero).symm Relation.ReflTransGen.refl

def steadyPace : FaultyPace where
  chunk _ := 100
  intr _ := 0
  one_le_chunk _ := by decide
  errs _ := 0
  not_past _ _ _ h := absurd rfl h

/-- A frame of two units, whose payload begins like a frame of one. -/
def frameInFrame : Bytes :=
  [2, 1, 0xAA, 0xBB, 0xCC, 0xDD, 0, 0, 0]

/-- Two calls with buffers of four bytes: the first refuses the frame, the second returns the four
bytes inside it. -/
theorem inside_taken_for_frame :
    ¬ ∀ (stream : Bytes) (p : FaultyPace) (ms : List ℕ),
      InSync stream (FaultySocket.start p stream) ms := by
  intro hall
  have hin : Boundary frameInFrame 1 :=
    ((hall frameInFrame steadyPace [4, 4]) _ (mem_cons_of_mem _ mem_cons_self)).payload
      [0xAA, 0xBB, 0xCC, 0xDD] (by decide) |>.1
  exact not_boundary (j := 1) Relation.ReflTransGen.refl Nat.one_pos (by
    intro w n h
    obtain ⟨rfl, rfl⟩ := Prod.mk.inj (some.inj h)
    decide) hin

end Faulty

end TgCli.Infrastructure
