import TgCli.Lib.FaultySocket

/-!
# `infrastructure/transport.c`: abridged frames on a stream socket

A frame is a length in units of four bytes --- one byte below `0x7F`, else `0x7F` and three bytes
--- and the payload.  The payload is sent and received in loops, the length is not: `transport_send`
sends the four bytes of a long length with a single `send` and gives up when it takes fewer, and
`transport_recv` asks for the three bytes behind `0x7F` with a single `recv` and gives up when it
yields fewer.

So it is the long frames that may not arrive (`transport_delivers_iff`).
-/

namespace TgCli.Infrastructure

open List Lib

/-! ## Sending and receiving -/

/-- The length prefix of a frame of `wireLen` units. -/
def lengthHeader (wireLen : ℕ) : Bytes :=
  if wireLen < 0x7F then [UInt8.ofNat wireLen] else 0x7F :: leBytes 3 wireLen

/-- `transport_send`: whether it returned 0, and the socket. -/
def transportSend (s : OutSocket) (data : Bytes) : Bool × OutSocket :=
  if data.length = 0 ∨ data.length % 4 ≠ 0 then (false, s) else
  let header := lengthHeader (data.length / 4)
  let n := s.sendRetry header
  if n.1 ≠ header.length then (false, n.2) else OutSocket.sendLoop data.length n.2 data

/-- `transport_recv` behind the length: the payload, when it fits the buffer and arrives. -/
def recvPayload (s : InSocket) (wireLen maxLen : ℕ) : Option Bytes × InSocket :=
  let payloadLen := wireLen * 4
  if payloadLen = 0 then (some [], s)
  else if payloadLen > maxLen then (none, s)
  else InSocket.recvLoop payloadLen s payloadLen

/-- `transport_recv`: the payload when it returned 0, and the socket. -/
def transportRecv (s : InSocket) (maxLen : ℕ) : Option Bytes × InSocket :=
  let first := s.recvRetry 1
  match first.1 with
  | [b] =>
    if b < 0x7F then recvPayload first.2 b.toNat maxLen else
    let extra := first.2.recvRetry 3
    if extra.1.length ≠ 3 then (none, extra.2) else recvPayload extra.2 (leNat extra.1) maxLen
  | _ => (none, first.2)

def sendAll (s : OutSocket) (payloads : List Bytes) : OutSocket :=
  payloads.foldl (fun s p => (transportSend s p).2) s

def recvAll (maxLen : ℕ) : ℕ → InSocket → List (Option Bytes)
  | 0, _ => []
  | n + 1, s => (transportRecv s maxLen).1 :: recvAll maxLen n (transportRecv s maxLen).2

/-! ## Frames -/

def frame (p : Bytes) : Bytes :=
  lengthHeader (p.length / 4) ++ p

/-- A payload that the encoding has room for. -/
structure Sendable (p : Bytes) : Prop where
  ne_nil : p ≠ []
  aligned : p.length % 4 = 0
  lt : p.length < 2 ^ 24 * 4

def LongFrame (p : Bytes) : Prop :=
  0x7F ≤ p.length / 4

instance (p : Bytes) : Decidable (LongFrame p) :=
  inferInstanceAs (Decidable (_ ≤ _))

theorem length_lengthHeader (n : ℕ) : (lengthHeader n).length = if n < 0x7F then 1 else 4 := by
  rw [lengthHeader]
  split_ifs
  · rfl
  · rw [length_cons, length_leBytes]

/-! ## One frame -/

variable {maxLen : ℕ} {p rest : Bytes} {s s' : InSocket}

/-- **One `transport_send`.**  A sendable payload goes out as its frame, unless the frame is long
and the socket does not take its length at once; then only a part of the length goes out. -/
theorem transportSend_spec (hp : Sendable p) (s : OutSocket) :
    transportSend s p =
      if LongFrame p ∧ s.pace.chunk s.sent.length < 4 then
        (false, s.wrote ((lengthHeader (p.length / 4)).take (s.pace.chunk s.sent.length)))
      else (true, s.wrote (frame p)) := by
  have hpos := length_pos_iff.mpr hp.ne_nil
  have hal := hp.aligned
  have hchunk := s.pace.one_le_chunk s.sent.length
  have hlen := length_lengthHeader (p.length / 4)
  rw [transportSend, if_neg (by omega)]
  dsimp only
  rw [OutSocket.sendRetry_eq]
  by_cases hcut : LongFrame p ∧ s.pace.chunk s.sent.length < 4
  · rw [if_neg (Nat.not_lt.mpr hcut.1)] at hlen
    have htakes : s.takes (lengthHeader (p.length / 4)).length = s.pace.chunk s.sent.length := by
      rw [OutSocket.takes, hlen]
      omega
    rw [htakes, if_pos (by omega), if_pos hcut]
  · have htakes : s.takes (lengthHeader (p.length / 4)).length =
        (lengthHeader (p.length / 4)).length := by
      rw [OutSocket.takes, hlen]
      rw [not_and, not_lt] at hcut
      split_ifs with hshort
      · omega
      · have := hcut (Nat.not_lt.mp hshort)
        omega
    rw [htakes, take_length, if_neg (by omega), if_neg hcut,
      OutSocket.sendLoop_spec _ _ _ (le_refl _) hp.ne_nil, OutSocket.wrote_wrote]
    rfl

theorem recvPayload_spec (hp : Sendable p) (hmax : p.length ≤ maxLen) (hrest : s.rest = p ++ rest) :
    recvPayload s (p.length / 4) maxLen = (some p, s.took p.length) := by
  have hpos := length_pos_iff.mpr hp.ne_nil
  have hlen : p.length / 4 * 4 = p.length := by
    have := hp.aligned
    omega
  rw [recvPayload, hlen, if_neg (by omega), if_neg (by omega)]
  rcases s.recvLoop_cases hpos with ⟨-, hloop⟩ | ⟨hlt, -⟩
  · rw [hloop, hrest, take_left]
  · rw [hrest, length_append] at hlt
    omega

theorem recvRetry_one {b : UInt8} (hrest : s.rest = b :: rest) :
    s.recvRetry 1 = ([b], s.took 1) := by
  have hy : s.yields 1 = 1 := by
    have := s.pace.one_le_chunk s.offset
    rw [InSocket.yields, hrest, length_cons]
    omega
  rw [InSocket.recvRetry_eq, hy, hrest]
  rfl

/-- **One `transport_recv`** at the start of a frame yields its payload, unless the frame is long
and the socket does not yield the rest of its length at once. -/
theorem transportRecv_spec (hp : Sendable p) (hmax : p.length ≤ maxLen)
    (hrest : s.rest = frame p ++ rest) :
    transportRecv s maxLen =
      if LongFrame p ∧ s.pace.chunk (s.offset + 1) < 3 then
        (none, s.took (1 + s.pace.chunk (s.offset + 1)))
      else (some p, s.took (frame p).length) := by
  have hlt := hp.lt
  rw [transportRecv]
  by_cases hlong : LongFrame p
  · have hheader : frame p = 0x7F :: (leBytes 3 (p.length / 4) ++ p) := by
      rw [frame, lengthHeader, if_neg (Nat.not_lt.mpr hlong)]
      rfl
    have hrest1 : (s.took 1).rest = leBytes 3 (p.length / 4) ++ (p ++ rest) := by
      rw [InSocket.took, hrest, hheader, ← append_assoc]
      rfl
    rw [recvRetry_one (b := 0x7F) (by rw [hrest, hheader]; rfl)]
    dsimp only
    rw [if_neg (by decide), InSocket.length_recvRetry]
    by_cases hcut : s.pace.chunk (s.offset + 1) < 3
    · have hy : (s.took 1).yields 3 = s.pace.chunk (s.offset + 1) := by
        rw [InSocket.yields, hrest1, length_append, length_leBytes]
        show min (min (s.pace.chunk (s.offset + 1)) 3) _ = _
        omega
      rw [hy, if_pos (by omega), if_pos ⟨hlong, hcut⟩, InSocket.recvRetry_eq, hy,
        InSocket.took_took]
    · have hy : (s.took 1).yields 3 = 3 := by
        rw [InSocket.yields, hrest1, length_append, length_leBytes]
        show min (min (s.pace.chunk (s.offset + 1)) 3) _ = _
        omega
      have hextra : (s.took 1).recvRetry 3 = (leBytes 3 (p.length / 4), s.took 4) := by
        rw [InSocket.recvRetry_eq, hy, hrest1, take_left' (length_leBytes _ _),
          InSocket.took_took]
      have hrest4 : (s.took 4).rest = p ++ rest := by
        have := congrArg (drop 3) hrest1
        rw [drop_left' (length_leBytes _ _)] at this
        rw [← this, InSocket.took, InSocket.took, drop_drop]
      rw [hy, if_neg (by omega), if_neg (fun h => hcut h.2), hextra]
      rw [leNat_leBytes_of_lt (by omega), recvPayload_spec hp hmax hrest4,
        InSocket.took_took, hheader, length_cons, length_append, length_leBytes]
      congr 2
      omega
  · have hw : p.length / 4 < 0x7F := Nat.not_le.mp hlong
    have hheader : frame p = UInt8.ofNat (p.length / 4) :: p := by
      rw [frame, lengthHeader, if_pos hw]
      rfl
    have hb : (UInt8.ofNat (p.length / 4)).toNat = p.length / 4 := by
      rw [UInt8.toNat_ofNat']
      omega
    have hrest1 : (s.took 1).rest = p ++ rest := by
      rw [InSocket.took, hrest, hheader]
      rfl
    rw [recvRetry_one (by rw [hrest, hheader]; rfl)]
    dsimp only
    rw [if_pos (by rw [UInt8.lt_iff_toNat_lt, hb]; exact hw), hb, recvPayload_spec hp hmax hrest1,
      InSocket.took_took, if_neg (fun h => hlong h.1), hheader, length_cons]
    congr 2
    omega

/-! ## How much a frame takes -/

theorem length_frame (p : Bytes) :
    (frame p).length = (if p.length / 4 < 0x7F then 1 else 4) + p.length := by
  rw [frame, length_append, length_lengthHeader]

theorem length_recvPayload {wireLen : ℕ} (h : recvPayload s wireLen maxLen = (some p, s')) :
    p.length = wireLen * 4 ∧ s'.rest.length + p.length = s.rest.length := by
  rw [recvPayload] at h
  split_ifs at h with h0 hmax
  · obtain ⟨rfl, rfl⟩ : [] = p ∧ s = s' := by simpa using h
    exact ⟨h0.symm, rfl⟩
  · exact absurd (congrArg Prod.fst h) (by simp)
  · rcases s.recvLoop_cases (Nat.pos_of_ne_zero h0) with ⟨hle, hloop⟩ | ⟨-, hnone⟩
    · obtain ⟨rfl, rfl⟩ : s.rest.take (wireLen * 4) = p ∧ s.took (wireLen * 4) = s' := by
        simpa using hloop.symm.trans h
      rw [length_take_of_le hle]
      exact ⟨rfl, InSocket.length_rest_took hle⟩
    · rw [h] at hnone
      exact absurd hnone (by simp)

/-- **A payload costs at least its frame**, wherever in a stream it is read. -/
theorem length_transportRecv (h : transportRecv s maxLen = (some p, s')) :
    s'.rest.length + (frame p).length ≤ s.rest.length := by
  have hfirst := s.length_rest_recvRetry 1
  rw [transportRecv] at h
  rw [length_frame]
  split at h
  · rename_i b hb
    rw [hb, length_singleton] at hfirst
    dsimp only at h
    split_ifs at h with hshort hcut
    · obtain ⟨hlen, hrest⟩ := length_recvPayload h
      rw [UInt8.lt_iff_toNat_lt] at hshort
      have : b.toNat < 127 := hshort
      rw [if_pos (by omega)]
      omega
    · exact absurd (congrArg Prod.fst h) (by simp)
    · have hextra := (s.recvRetry 1).2.length_rest_recvRetry 3
      obtain ⟨hlen, hrest⟩ := length_recvPayload h
      split_ifs <;> omega
  · exact absurd (congrArg Prod.fst h) (by simp)

def framesLength (payloads : List Bytes) : ℕ :=
  (payloads.map fun p => (frame p).length).sum

theorem length_recvAll {payloads : List Bytes}
    (h : recvAll maxLen payloads.length s = payloads.map some) :
    framesLength payloads ≤ s.rest.length := by
  induction payloads generalizing s with
  | nil => exact Nat.zero_le _
  | cons p ps ih =>
    obtain ⟨hp, hps⟩ := cons.inj h
    have hrecv : transportRecv s maxLen = (some p, (transportRecv s maxLen).2) := Prod.ext hp rfl
    have hone := length_transportRecv hrecv
    have hrest := ih hps
    rw [framesLength, map_cons, sum_cons]
    rw [framesLength] at hrest
    omega

theorem sendAll_sent (s : OutSocket) (payloads : List Bytes) (hp : ∀ p ∈ payloads, Sendable p) :
    ∃ b, (sendAll s payloads).sent = s.sent ++ b ∧ b.length ≤ framesLength payloads := by
  induction payloads generalizing s with
  | nil => exact ⟨[], (append_nil _).symm, le_refl _⟩
  | cons p ps ih =>
    rw [forall_mem_cons] at hp
    have hone : ∃ b, (transportSend s p).2 = s.wrote b ∧ b.length ≤ (frame p).length := by
      rw [transportSend_spec hp.1]
      split_ifs
      · refine ⟨_, rfl, ?_⟩
        rw [frame, length_append, length_take]
        omega
      · exact ⟨_, rfl, le_refl _⟩
    obtain ⟨a, ha, hla⟩ := hone
    obtain ⟨b, hb, hlb⟩ := ih (transportSend s p).2 hp.2
    refine ⟨a ++ b, ?_, ?_⟩
    · show (sendAll (transportSend s p).2 ps).sent = _
      rw [hb, ha, OutSocket.wrote, append_assoc]
    · rw [framesLength, map_cons, sum_cons, length_append]
      rw [framesLength] at hlb
      omega

/-! ## Whole lengths -/

/-- For each long frame, the sending socket takes the four bytes of its length at once, and the
receiving socket yields the last three of them at once; `o` is where the first frame starts. -/
def WholeLengths (out inn : Pace) : ℕ → List Bytes → Prop
  | _, [] => True
  | o, p :: ps =>
    (LongFrame p → 4 ≤ out.chunk o ∧ 3 ≤ inn.chunk (o + 1)) ∧
      WholeLengths out inn (o + (frame p).length) ps

theorem recvAll_iff {payloads : List Bytes} (hp : ∀ p ∈ payloads, Sendable p)
    (hmax : ∀ p ∈ payloads, p.length ≤ maxLen) (out : OutSocket) (inn : InSocket)
    (hoff : inn.offset = out.sent.length)
    (hrest : (sendAll out payloads).sent = out.sent ++ inn.rest) :
    recvAll maxLen payloads.length inn = payloads.map some ↔
      WholeLengths out.pace inn.pace out.sent.length payloads := by
  induction payloads generalizing out inn with
  | nil => exact ⟨fun _ => trivial, fun _ => rfl⟩
  | cons p ps ih =>
    rw [forall_mem_cons] at hp hmax
    obtain ⟨b, hb, hlb⟩ := sendAll_sent (transportSend out p).2 ps hp.2
    have hstream : (transportSend out p).2.sent ++ b = out.sent ++ inn.rest := by
      rw [← hb]
      exact hrest
    rw [transportSend_spec hp.1] at hb hstream
    by_cases hsend : LongFrame p ∧ out.pace.chunk out.sent.length < 4
    · -- too few bytes are in the stream
      rw [if_pos hsend, OutSocket.wrote, append_assoc, append_cancel_left_eq] at hstream
      refine ⟨fun h => ?_, fun h => absurd (h.1 hsend.1).1 (by omega)⟩
      have hlen := length_recvAll h
      rw [framesLength, map_cons, sum_cons, ← hstream, length_append,
        length_take, length_frame, if_neg (Nat.not_lt.mpr hsend.1)] at hlen
      rw [framesLength] at hlb
      have := length_pos_iff.mpr hp.1.ne_nil
      omega
    · rw [if_neg hsend] at hb hstream
      have hrest' : inn.rest = frame p ++ b := by
        rw [OutSocket.wrote, append_assoc, append_cancel_left_eq] at hstream
        exact hstream.symm
      show (transportRecv inn maxLen).1 :: recvAll maxLen ps.length (transportRecv inn maxLen).2 =
        some p :: ps.map some ↔ _
      rw [transportRecv_spec hp.1 hmax.1 hrest']
      by_cases hrecv : LongFrame p ∧ inn.pace.chunk (inn.offset + 1) < 3
      · rw [if_pos hrecv]
        refine ⟨fun h => absurd (cons.inj h).1 (by simp), fun h => ?_⟩
        have := (h.1 hrecv.1).2
        rw [← hoff] at this
        omega
      · rw [if_neg hrecv]
        have hwhole : LongFrame p → 4 ≤ out.pace.chunk out.sent.length ∧
            3 ≤ inn.pace.chunk (out.sent.length + 1) := by
          intro hlong
          refine ⟨Nat.not_lt.mp fun h => hsend ⟨hlong, h⟩, Nat.not_lt.mp fun h => hrecv ⟨hlong, ?_⟩⟩
          rw [hoff]
          exact h
        have hih := ih hp.2 hmax.2 (out.wrote (frame p)) (inn.took (frame p).length)
          (by rw [InSocket.took, OutSocket.wrote, length_append, hoff])
          (by rw [hb, InSocket.took, hrest', drop_left])
        rw [WholeLengths, ← length_append]
        constructor
        · intro h
          exact ⟨hwhole, hih.mp (cons.inj h).2⟩
        · rintro ⟨-, h⟩
          dsimp only
          rw [hih.mpr h]

/-- **When payloads arrive as they were sent.**  Whatever the two sockets do, `transport_recv`
returns the payloads passed to `transport_send`, in order and whole, exactly if the length of every
long frame is taken and yielded whole. -/
theorem transport_delivers_iff (payloads : List Bytes) (hp : ∀ p ∈ payloads, Sendable p)
    (maxLen : ℕ) (hmax : ∀ p ∈ payloads, p.length ≤ maxLen) (out inn : Pace) :
    recvAll maxLen payloads.length
        (InSocket.start inn (sendAll (OutSocket.start out) payloads).sent) = payloads.map some ↔
      WholeLengths out inn 0 payloads :=
  recvAll_iff hp hmax (OutSocket.start out) _ rfl rfl

/-! ## A short frame and a long one -/

instance decidableWholeLengths (out inn : Pace) :
    (o : ℕ) → (payloads : List Bytes) → Decidable (WholeLengths out inn o payloads)
  | _, [] => isTrue trivial
  | o, p :: ps =>
    have := decidableWholeLengths out inn (o + (frame p).length) ps
    inferInstanceAs (Decidable ((LongFrame p → _) ∧ _))

/-- A hundred bytes per call, after an interruption, but `n + 1` at offset `o`. -/
def demoPace (o n : ℕ) : Pace where
  chunk k := if k = o then n + 1 else 100
  intr _ := 1
  one_le_chunk k := by split_ifs <;> omega

/-- A payload of one unit and one of 127, the shortest with a long length. -/
def demoPayloads : List Bytes :=
  [[1, 2, 3, 4], List.replicate 508 7]

theorem transport_delivers_demoPayloads :
    recvAll 508 2 (InSocket.start (demoPace 6 2)
      (sendAll (OutSocket.start (demoPace 5 3)) demoPayloads).sent) = demoPayloads.map some := by
  refine (transport_delivers_iff demoPayloads ?_ 508 ?_ (demoPace 5 3) (demoPace 6 2)).mpr ?_
  · intro p hp
    rcases mem_cons.mp hp with rfl | hp
    · exact ⟨by decide, by decide, by decide⟩
    · obtain rfl := mem_singleton.mp hp
      exact ⟨by decide +kernel, by decide +kernel, by decide +kernel⟩
  · decide +kernel
  · decide +kernel

/-- A receiving socket that yields two of the three bytes makes `transport_recv` fail on the long
frame; a sending socket that takes three of the four makes `transport_send` fail on it. -/
theorem transport_loses_long_frame :
    recvAll 508 2 (InSocket.start (demoPace 6 1)
        (sendAll (OutSocket.start (demoPace 5 3)) demoPayloads).sent) =
      [some [1, 2, 3, 4], none] ∧
    (transportSend (OutSocket.start (demoPace 0 2)) (List.replicate 508 7)).1 = false := by
  decide +kernel

end TgCli.Infrastructure
