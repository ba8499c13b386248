import TgCli.Lib.Bytes

/-!
# Stream sockets that move as many bytes as they like

A call on a stream socket moves at least one byte and at most what was asked for, and may be
interrupted before it moves any.  What a socket does is given in advance, as a function of the place
in the stream: `chunk o` is the most that the call at offset `o` moves, and `intr o` the number of
interruptions before it.  Since every call that gets through moves the offset on, this describes
every behaviour with finitely many interruptions in a row.

Two loops are the usual ones: retry while interrupted, and go on until everything has been moved.
The second does not depend on the pace, for sending (`sendLoop_spec`) as for receiving, where it is
a case of what `Lib.FaultySocket` shows; a single call does.
-/

namespace TgCli.Lib

open List

structure Pace where
  chunk : ℕ → ℕ
  intr : ℕ → ℕ
  one_le_chunk : ∀ o, 1 ≤ chunk o

/-! ## Sending -/

/-- The sending end: what has been written so far, and the interruptions to come before the next
call gets through. -/
structure OutSocket where
  pace : Pace
  sent : Bytes
  waits : ℕ

namespace OutSocket

def start (pace : Pace) : OutSocket :=
  ⟨pace, [], pace.intr 0⟩

def wrote (s : OutSocket) (b : Bytes) : OutSocket :=
  ⟨s.pace, s.sent ++ b, s.pace.intr (s.sent ++ b).length⟩

/-- How much of a request of `n` bytes the next call takes. -/
def takes (s : OutSocket) (n : ℕ) : ℕ :=
  min (s.pace.chunk s.sent.length) n

/-- `send`: the number of bytes taken, or `none` when it was interrupted. -/
def send (s : OutSocket) (buf : Bytes) : Option ℕ × OutSocket :=
  match s.waits with
  | 0 => (some (s.takes buf.length), s.wrote (buf.take (s.takes buf.length)))
  | w + 1 => (none, { s with waits := w })

/-- `send`, again while it is interrupted. -/
def sendRetry (s : OutSocket) (buf : Bytes) : ℕ × OutSocket :=
  go s.waits s
where
  /-- At most `n` further attempts. -/
  go : ℕ → OutSocket → ℕ × OutSocket
    | 0, s => (((s.send buf).1).getD 0, (s.send buf).2)
    | n + 1, s =>
      match s.send buf with
      | (some k, s') => (k, s')
      | (none, s') => go n s'

/-- **A retried `send` gets through.** -/
theorem sendRetry_eq (s : OutSocket) (buf : Bytes) :
    s.sendRetry buf = (s.takes buf.length, s.wrote (buf.take (s.takes buf.length))) := by
  have hgo (w : ℕ) : ∀ s : OutSocket, s.waits = w →
      sendRetry.go buf w s = (s.takes buf.length, s.wrote (buf.take (s.takes buf.length))) := by
    induction w with
    | zero =>
      intro s hw
      rw [sendRetry.go, send, hw]
      rfl
    | succ w ih =>
      intro s hw
      have hsend : s.send buf = (none, { s with waits := w }) := by rw [send, hw]
      rw [sendRetry.go, hsend]
      exact ih { s with waits := w } rfl
  exact hgo s.waits s rfl

/-- `send` until the whole buffer is out, with room for `n` calls. -/
def sendLoop : ℕ → OutSocket → Bytes → Bool × OutSocket
  | 0, s, buf => (decide (buf = []), s)
  | n + 1, s, buf =>
    if buf = [] then (true, s) else
    let r := s.sendRetry buf
    if r.1 = 0 then (false, r.2) else sendLoop n r.2 (buf.drop r.1)

theorem takes_pos (s : OutSocket) {n : ℕ} (h : 0 < n) : 0 < s.takes n :=
  Nat.lt_min.mpr ⟨s.pace.one_le_chunk _, h⟩

theorem wrote_wrote (s : OutSocket) (a b : Bytes) : (s.wrote a).wrote b = s.wrote (a ++ b) := by
  rw [wrote, wrote, wrote, append_assoc]

/-- **The loop writes the whole buffer**, at every pace. -/
theorem sendLoop_spec (n : ℕ) (s : OutSocket) (buf : Bytes) (hn : buf.length ≤ n) (hne : buf ≠ []) :
    sendLoop n s buf = (true, s.wrote buf) := by
  induction n generalizing s buf with
  | zero => exact absurd (length_eq_zero_iff.mp (Nat.le_zero.mp hn)) hne
  | succ n ih =>
    have hpos := s.takes_pos (length_pos_iff.mpr hne)
    rw [sendLoop, if_neg hne, sendRetry_eq]
    rw [if_neg (by omega)]
    by_cases hrest : buf.drop (s.takes buf.length) = []
    · -- the call took everything
      have htake : buf.take (s.takes buf.length) = buf :=
        take_of_length_le (drop_eq_nil_iff.mp hrest)
      rw [hrest, htake]
      cases n <;> simp [sendLoop]
    · rw [ih _ _ (by rw [length_drop]; omega) hrest, wrote_wrote, take_append_drop]

end OutSocket

/-! ## Receiving -/

/-- The receiving end: what is still to be read, and where in the stream it starts. -/
structure InSocket where
  pace : Pace
  offset : ℕ
  rest : Bytes
  waits : ℕ

namespace InSocket

def start (pace : Pace) (stream : Bytes) : InSocket :=
  ⟨pace, 0, stream, pace.intr 0⟩

def took (s : InSocket) (n : ℕ) : InSocket :=
  ⟨s.pace, s.offset + n, s.rest.drop n, s.pace.intr (s.offset + n)⟩

/-- How much the next call for `n` bytes yields; nothing at the end of the stream. -/
def yields (s : InSocket) (n : ℕ) : ℕ :=
  min (min (s.pace.chunk s.offset) n) s.rest.length

/-- `recv`: the bytes read, or `none` when it was interrupted. -/
def recv (s : InSocket) (n : ℕ) : Option Bytes × InSocket :=
  match s.waits with
  | 0 => (some (s.rest.take (s.yields n)), s.took (s.yields n))
  | w + 1 => (none, { s with waits := w })

/-- `recv`, again while it is interrupted. -/
def recvRetry (s : InSocket) (n : ℕ) : Bytes × InSocket :=
  go s.waits s
where
  /-- At most `k` further attempts. -/
  go : ℕ → InSocket → Bytes × InSocket
    | 0, s => (((s.recv n).1).getD [], (s.recv n).2)
    | k + 1, s =>
      match s.recv n with
      | (some b, s') => (b, s')
      | (none, s') => go k s'

variable (s : InSocket)

/-- **A retried `recv` gets through.** -/
theorem recvRetry_eq (n : ℕ) :
    s.recvRetry n = (s.rest.take (s.yields n), s.took (s.yields n)) := by
  have hgo (w : ℕ) : ∀ s : InSocket, s.waits = w →
      recvRetry.go n w s = (s.rest.take (s.yields n), s.took (s.yields n)) := by
    induction w with
    | zero =>
      intro s hw
      rw [recvRetry.go, recv, hw]
      rfl
    | succ w ih =>
      intro s hw
      have hrecv : s.recv n = (none, { s with waits := w }) := by rw [recv, hw]
      rw [recvRetry.go, hrecv]
      exact ih { s with waits := w } rfl
  exact hgo s.waits s rfl

theorem length_recvRetry (n : ℕ) : (s.recvRetry n).1.length = s.yields n := by
  rw [recvRetry_eq, length_take]
  exact Nat.min_eq_left (Nat.min_le_right _ _)

/-- `recv` until `n` bytes are there, with room for `k` calls; `none` when the stream ends before.
-/
def recvLoop : ℕ → InSocket → ℕ → Option Bytes × InSocket
  | 0, s, n => (if n = 0 then some [] else none, s)
  | k + 1, s, n =>
    if n = 0 then (some [], s) else
    let r := s.recvRetry n
    if r.1.length = 0 then (none, r.2) else
    let more := recvLoop k r.2 (n - r.1.length)
    (more.1.map (r.1 ++ ·), more.2)

theorem took_took (a b : ℕ) : (s.took a).took b = s.took (a + b) := by
  rw [took, took, took, drop_drop, Nat.add_assoc]

theorem length_rest_took {s : InSocket} {n : ℕ} (h : n ≤ s.rest.length) :
    (s.took n).rest.length + n = s.rest.length := by
  rw [took, length_drop]
  omega

theorem length_rest_recvRetry (n : ℕ) :
    (s.recvRetry n).2.rest.length + (s.recvRetry n).1.length = s.rest.length := by
  rw [length_recvRetry, recvRetry_eq]
  exact length_rest_took (Nat.min_le_right _ _)

end InSocket

end TgCli.Lib
