import TgCli.Lib.Socket

/-!
# Receiving ends whose calls may fail

Besides moving bytes or being interrupted, a call on a socket may fail for good, without moving
anything, and the next call may get through again.  `errs o` is the number of calls that still have
to fail at offset `o` of the stream.  No call moves bytes past a place where one has yet to fail
(`not_past`): the pace and the failures of a run say where its calls stopped, and every run is
described in this way.

The loop that goes on until everything is there gives up at the first failure, at a place before
the end of what it was to read (`recvLoop_spec`).
-/

namespace TgCli.Lib

/-- How a socket with calls that fail paces its calls. -/
structure FaultyPace extends Pace where
  errs : ℕ → ℕ
  not_past : ∀ o k, 0 < k → errs (o + k) ≠ 0 → chunk o ≤ k

/-- A receiving end with calls that fail; `errs` is what remains of the failures. -/
structure FaultySocket where
  sock : InSocket
  errs : ℕ → ℕ
  not_past : ∀ o k, 0 < k → errs (o + k) ≠ 0 → sock.pace.chunk o ≤ k

namespace FaultySocket

/-- A connection on which `stream` arrives. -/
def start (p : FaultyPace) (stream : Bytes) : FaultySocket :=
  ⟨InSocket.start p.toPace stream, p.errs, p.not_past⟩

/-- The socket after `n` bytes have been read. -/
def took (s : FaultySocket) (n : ℕ) : FaultySocket :=
  ⟨s.sock.took n, s.errs, s.not_past⟩

def failed (s : FaultySocket) : FaultySocket where
  sock := s.sock
  errs := Function.update s.errs s.sock.offset (s.errs s.sock.offset - 1)
  not_past o k hk herr := by
    refine s.not_past o k hk fun h => herr ?_
    by_cases ho : o + k = s.sock.offset
    · rw [ho, Function.update_self, ← ho, h]
    · rw [Function.update_of_ne ho, h]

@[simp] theorem sock_took (s : FaultySocket) (n : ℕ) : (s.took n).sock = s.sock.took n := rfl

@[simp] theorem errs_took (s : FaultySocket) (n : ℕ) : (s.took n).errs = s.errs := rfl

theorem took_took (s : FaultySocket) (a b : ℕ) : (s.took a).took b = s.took (a + b) := by
  simp only [took, InSocket.took_took]

/-- `recv`, again while it is interrupted; `none` when it fails. -/
def recvRetry (s : FaultySocket) (n : ℕ) : Option Bytes × FaultySocket :=
  if s.errs s.sock.offset = 0 then (some (s.sock.recvRetry n).1, s.took (s.sock.yields n))
  else (none, s.failed)

/-- `recv` until `n` bytes are there, with room for `k` calls; `none` when a call fails or the
stream ends before. -/
def recvLoop : ℕ → FaultySocket → ℕ → Option Bytes × FaultySocket
  | 0, s, n => (if n = 0 then some [] else none, s)
  | k + 1, s, n =>
    if n = 0 then (some [], s) else
    match s.recvRetry n with
    | (none, s') => (none, s')
    | (some b, s') =>
      if b.length = 0 then (none, s') else
      let more := recvLoop k s' (n - b.length)
      (more.1.map (b ++ ·), more.2)

variable {s : FaultySocket}

theorem recvRetry_of_errs (h : s.errs s.sock.offset = 0) (n : ℕ) :
    s.recvRetry n = (some (s.sock.rest.take (s.sock.yields n)), s.took (s.sock.yields n)) := by
  rw [recvRetry, if_pos h, InSocket.recvRetry_eq]

/-- The next `n` bytes are there, and no call fails before the last of them. -/
def Clear (s : FaultySocket) (n : ℕ) : Prop :=
  n ≤ s.sock.rest.length ∧ ∀ k < n, s.errs (s.sock.offset + k) = 0

/-- The socket has moved on by `j` bytes. -/
structure Moved (s s' : FaultySocket) (j : ℕ) : Prop where
  offset : s'.sock.offset = s.sock.offset + j
  rest : s'.sock.rest = s.sock.rest.drop j

theorem moved_took (s : FaultySocket) (n : ℕ) : Moved s (s.took n) n :=
  ⟨rfl, rfl⟩

theorem moved_failed (s : FaultySocket) : Moved s s.failed 0 :=
  ⟨rfl, rfl⟩

theorem Moved.trans {s' s'' : FaultySocket} {i j : ℕ} (h : Moved s s' i) (h' : Moved s' s'' j) :
    Moved s s'' (i + j) :=
  ⟨by rw [h'.offset, h.offset, Nat.add_assoc], by rw [h'.rest, h.rest, List.drop_drop]⟩

theorem clear_add (s : FaultySocket) (a n : ℕ) :
    Clear s (a + n) ↔ Clear s a ∧ Clear (s.took a) n := by
  simp only [Clear, sock_took, errs_took, InSocket.took, List.length_drop]
  constructor
  · rintro ⟨hle, h⟩
    refine ⟨⟨by omega, fun k hk => h k (by omega)⟩, by omega, fun k hk => ?_⟩
    rw [Nat.add_assoc]
    exact h _ (by omega)
  · rintro ⟨⟨hle, h⟩, hle', h'⟩
    refine ⟨by omega, fun k hk => ?_⟩
    by_cases hlt : k < a
    · exact h k hlt
    · have := h' (k - a) (by omega)
      rwa [Nat.add_assoc, Nat.add_sub_cancel' (Nat.not_lt.mp hlt)] at this

theorem clear_yields (herr : s.errs s.sock.offset = 0) (n : ℕ) :
    Clear s (s.sock.yields n) := by
  refine ⟨Nat.min_le_right _ _, fun k hk => ?_⟩
  rcases Nat.eq_zero_or_pos k with rfl | hpos
  · exact herr
  · by_contra hne
    have := s.not_past _ k hpos hne
    rw [InSocket.yields] at hk
    omega

theorem recvLoop_succ {k : ℕ} {n : ℕ} (hpos : 0 < n)
    (herr : s.errs s.sock.offset = 0) (hy : 0 < s.sock.yields n) :
    recvLoop (k + 1) s n =
      ((recvLoop k (s.took (s.sock.yields n)) (n - s.sock.yields n)).1.map
          (s.sock.rest.take (s.sock.yields n) ++ ·),
        (recvLoop k (s.took (s.sock.yields n)) (n - s.sock.yields n)).2) := by
  have hlen : (s.sock.rest.take (s.sock.yields n)).length = s.sock.yields n :=
    List.length_take_of_le (Nat.min_le_right _ _)
  rw [recvLoop, if_neg (by omega), recvRetry_of_errs herr]
  dsimp only
  rw [hlen, if_neg (by omega)]

theorem recvLoop_stop {k : ℕ} {n : ℕ} (hpos : 0 < n)
    (h : s.errs s.sock.offset ≠ 0 ∨ s.sock.rest = []) :
    ¬ Clear s n ∧ (recvLoop (k + 1) s n).1 = none ∧ Moved s (recvLoop (k + 1) s n).2 0 := by
  rw [recvLoop, if_neg (by omega)]
  by_cases herr : s.errs s.sock.offset = 0
  · have hnil := h.resolve_left (not_not.mpr herr)
    have hy : s.sock.yields n = 0 := by
      rw [InSocket.yields, hnil]
      exact Nat.min_zero _
    rw [recvRetry_of_errs herr, hy]
    refine ⟨fun hc => ?_, rfl, moved_took s 0⟩
    have := hc.1
    rw [hnil, List.length_nil] at this
    omega
  · rw [recvRetry, if_neg herr]
    exact ⟨fun hc => herr (hc.2 0 hpos), rfl, moved_failed s⟩

/-- **The loop reads `n` bytes** if they are there and no call fails; else it stops before the last
of them. -/
theorem recvLoop_spec (k : ℕ) (s : FaultySocket) (n : ℕ) (hk : n ≤ k) (hpos : 0 < n) :
    (Clear s n ∧ recvLoop k s n = (some (s.sock.rest.take n), s.took n)) ∨
      (¬ Clear s n ∧ (recvLoop k s n).1 = none ∧ ∃ j < n, Moved s (recvLoop k s n).2 j) := by
  induction k generalizing s n with
  | zero => omega
  | succ k ih =>
    by_cases hstop : s.errs s.sock.offset ≠ 0 ∨ s.sock.rest = []
    · obtain ⟨hclear, hnone, hmoved⟩ := recvLoop_stop (k := k) hpos hstop
      exact Or.inr ⟨hclear, hnone, 0, hpos, hmoved⟩
    rw [not_or, not_not] at hstop
    obtain ⟨herr, hrest⟩ := hstop
    have hchunk := s.sock.pace.one_le_chunk s.sock.offset
    have hlen := List.length_pos_iff.mpr hrest
    have hy : 0 < s.sock.yields n ∧ s.sock.yields n ≤ n ∧
        s.sock.yields n ≤ s.sock.rest.length := by
      rw [InSocket.yields]
      omega
    rw [recvLoop_succ hpos herr hy.1]
    by_cases hall : s.sock.yields n = n
    · -- the call read everything
      refine Or.inl ⟨hall ▸ clear_yields herr n, ?_⟩
      rw [hall, Nat.sub_self]
      cases k <;> simp [recvLoop]
    · have hclear_iff : Clear s n ↔ Clear (s.took (s.sock.yields n)) (n - s.sock.yields n) := by
        have := clear_add s (s.sock.yields n) (n - s.sock.yields n)
        rw [Nat.add_sub_cancel' hy.2.1] at this
        exact this.trans (and_iff_right (clear_yields herr n))
      rw [hclear_iff]
      rcases ih (s.took (s.sock.yields n)) (n - s.sock.yields n) (by omega) (by omega) with
        ⟨hclear, hloop⟩ | ⟨hclear, hnone, j, hj, hmoved⟩
      · refine Or.inl ⟨hclear, ?_⟩
        have hsplit : s.sock.rest.take (s.sock.yields n) ++
            (s.sock.rest.drop (s.sock.yields n)).take (n - s.sock.yields n) =
              s.sock.rest.take n := by
          rw [← List.take_add]
          congr 1
          omega
        rw [hloop, took_took, Nat.add_sub_cancel' hy.2.1]
        exact congrArg (fun b => (some b, s.took n)) hsplit
      · refine Or.inr ⟨hclear, by rw [hnone]; rfl, s.sock.yields n + j, by omega, ?_⟩
        exact (moved_took s _).trans hmoved

/-- **Without failures** the loop is that of a socket that has none. -/
theorem recvLoop_of_errs (h : ∀ o, s.errs o = 0) (k n : ℕ) :
    (recvLoop k s n).1 = (InSocket.recvLoop k s.sock n).1 ∧
      (recvLoop k s n).2.sock = (InSocket.recvLoop k s.sock n).2 := by
  induction k generalizing s n with
  | zero => exact ⟨rfl, rfl⟩
  | succ k ih =>
    obtain ⟨h₁, h₂⟩ := ih (s := s.took (s.sock.yields n)) h
      (n - (s.sock.rest.take (s.sock.yields n)).length)
    rw [recvLoop, InSocket.recvLoop, recvRetry_of_errs (h _), InSocket.recvRetry_eq]
    dsimp only
    split_ifs
    · exact ⟨rfl, rfl⟩
    · exact ⟨rfl, rfl⟩
    · exact ⟨by rw [h₁]; rfl, h₂⟩

/-- A receiving end whose calls do not fail. -/
def ofInSocket (s : InSocket) : FaultySocket :=
  ⟨s, fun _ => 0, fun _ _ _ h => absurd rfl h⟩

end FaultySocket

/-- **The loop reads `n` bytes**, at every pace, if there are as many; else it fails. -/
theorem InSocket.recvLoop_cases (s : InSocket) {n : ℕ} (hpos : 0 < n) :
    (n ≤ s.rest.length ∧ s.recvLoop n n = (some (s.rest.take n), s.took n)) ∨
      (s.rest.length < n ∧ (s.recvLoop n n).1 = none) := by
  obtain ⟨h₁, h₂⟩ := FaultySocket.recvLoop_of_errs (s := .ofInSocket s) (fun _ => rfl) n n
  rcases FaultySocket.recvLoop_spec n (.ofInSocket s) n (le_refl n) hpos with
    ⟨hclear, hloop⟩ | ⟨hclear, hnone, -⟩
  · rw [hloop] at h₁ h₂
    exact Or.inl ⟨hclear.1, Prod.ext h₁.symm h₂.symm⟩
  · refine Or.inr ⟨Nat.not_le.mp fun hle => hclear ⟨hle, fun _ _ => rfl⟩, h₁.symm.trans hnone⟩

end TgCli.Lib
