import Mathlib.Data.List.DropRight
import Mathlib.Data.List.TakeWhile
import TgCli.Lib.Stdio

/-!
# Lines read with `fgets`

`fgets` returns a line with its newline, or as much of it as the buffer holds; what is left of the
line comes with the next call, as if it were a line of its own.  `pieces` is what the calls return
until the end of the file.

The pieces of a text are the pieces of its lines (`pieces_append_line`), and a line that fits is one
piece (`pieces_line`).  A reader that takes every piece for a line, and does not care for the
newline at its end, therefore sees the lines of the text, and more where they are too long
(`filterMap_piecesFrom`); `continuations` are the pieces with which it goes wrong.
-/

namespace TgCli.Lib

open List

variable {cap : ℕ} {s l t : Bytes}

/-- What `fgets` into `cap` bytes returns until the end of the file. -/
def pieces (cap : ℕ) (s : Bytes) : List Bytes :=
  fgetsAll cap s.length s

theorem fgets_line (hl : 0x0a ∉ l) (t : Bytes) :
    fgets cap (l ++ 0x0a :: t) = (l ++ [0x0a]).take (cap - 1) := by
  rw [fgets, takeWhile_ne_append hl, dropWhile_ne_append hl]
  rfl

/-- A line that fits comes with its newline. -/
theorem fgets_short (hl : 0x0a ∉ l) (hfit : l.length + 2 ≤ cap) (t : Bytes) :
    fgets cap (l ++ 0x0a :: t) = l ++ [0x0a] := by
  rw [fgets_line hl, take_of_length_le]
  rw [length_append, length_singleton]
  omega

theorem drop_line (l t : Bytes) : (l ++ 0x0a :: t).drop (l ++ [0x0a]).length = t := by
  have hcut : l ++ 0x0a :: t = (l ++ [0x0a]) ++ t := append_cons l 0x0a t
  rw [hcut, drop_left]

theorem fgets_last (hs : 0x0a ∉ s) : fgets cap s = s.take (cap - 1) := by
  have hne := forall_decide_ne hs
  rw [fgets, takeWhile_eq_self_iff.mpr hne, dropWhile_eq_nil_iff.mpr hne, take_nil,
    append_nil]

/-- A beginning without a newline only takes its place in the buffer. -/
theorem fgets_append (hl : 0x0a ∉ l) (hfit : l.length + 1 ≤ cap) (t : Bytes) :
    fgets cap (l ++ t) = l ++ fgets (cap - l.length) t := by
  have hne := forall_decide_ne hl
  rw [fgets, takeWhile_append_of_pos hne, dropWhile_append_of_pos hne, append_assoc,
    take_append, take_of_length_le (by omega), Nat.sub_right_comm]
  rfl

/-- What comes back is the beginning of a line, or all of it with its newline. -/
theorem fgets_cases (cap : ℕ) (s : Bytes) :
    ∃ w, 0x0a ∉ w ∧ w <+: s ∧ (fgets cap s = w ∨ fgets cap s = w ++ [0x0a]) := by
  by_cases hs : 0x0a ∈ s
  · obtain ⟨l, t, rfl, hl⟩ := eq_append_cons_of_mem hs
    rw [fgets_line hl]
    by_cases hfit : l.length < cap - 1
    · refine ⟨l, hl, prefix_append l _, Or.inr (take_of_length_le ?_)⟩
      rw [length_append, length_singleton]
      exact hfit
    · have htake : l.take (cap - 1) <+: l := take_prefix _ l
      refine ⟨l.take (cap - 1), fun h => hl (mem_of_mem_take h), htake.trans (prefix_append l _),
        Or.inl ?_⟩
      exact take_append_of_le_length (by omega)
  · refine ⟨s.take (cap - 1), fun h => hs (mem_of_mem_take h), take_prefix _ s, Or.inl ?_⟩
    exact fgets_last hs

theorem fgets_prefix_of (cap : ℕ) (s : Bytes) : fgets cap s <+: s := by
  have hline : s.takeWhile (· ≠ 0x0a) ++ (s.dropWhile (· ≠ 0x0a)).take 1 <+: s := by
    conv_rhs => rw [← takeWhile_append_dropWhile (p := (· ≠ 0x0a)) (l := s)]
    rw [prefix_append_right_inj]
    exact take_prefix 1 _
  refine List.IsPrefix.trans ?_ hline
  exact take_prefix _ _

theorem fgets_ne_nil (hcap : 2 ≤ cap) (hs : s ≠ []) : fgets cap s ≠ [] := by
  rcases s with _ | ⟨c, s⟩
  · exact absurd rfl hs
  · have hpos : cap - 1 ≠ 0 := by omega
    rw [fgets, Ne, take_eq_nil_iff, not_or]
    refine ⟨hpos, ?_⟩
    by_cases hc : c = 0x0a <;> simp [hc]

theorem fgetsAll_eq (hcap : 2 ≤ cap) {n m : ℕ} (hn : s.length ≤ n) (hm : s.length ≤ m) :
    fgetsAll cap n s = fgetsAll cap m s := by
  induction n generalizing s m with
  | zero =>
    obtain rfl := length_eq_zero_iff.mp (Nat.le_zero.mp hn)
    cases m <;> rfl
  | succ n ih =>
    by_cases hs : s = []
    · subst hs
      cases m <;> rfl
    · cases m with
      | zero => exact absurd (length_eq_zero_iff.mp (Nat.le_zero.mp hm)) hs
      | succ m =>
        have hpos := length_pos_iff.mpr (fgets_ne_nil hcap hs)
        rw [fgetsAll, if_neg hs, fgetsAll, if_neg hs]
        congr 1
        refine ih ?_ ?_ <;> rw [length_drop] <;> omega

@[simp] theorem pieces_nil (cap : ℕ) : pieces cap [] = [] :=
  rfl

/-- One call, and then the rest of the file. -/
theorem pieces_of_ne_nil (hcap : 2 ≤ cap) (hs : s ≠ []) :
    pieces cap s = fgets cap s :: pieces cap (s.drop (fgets cap s).length) := by
  obtain ⟨n, hn⟩ := Nat.exists_eq_succ_of_ne_zero (length_pos_iff.mpr hs).ne'
  have hpos := length_pos_iff.mpr (fgets_ne_nil hcap hs)
  rw [pieces, hn, fgetsAll, if_neg hs]
  congr 1
  refine fgetsAll_eq hcap ?_ le_rfl
  rw [length_drop]
  omega

/-- What `fgets` returns when the first call is one into `c` bytes. -/
def piecesFrom (c cap : ℕ) (s : Bytes) : List Bytes :=
  fgets c s :: pieces cap (s.drop (fgets c s).length)

theorem piecesFrom_self (hcap : 2 ≤ cap) (hs : s ≠ []) : piecesFrom cap cap s = pieces cap s :=
  (pieces_of_ne_nil hcap hs).symm

theorem piecesFrom_line {c : ℕ} (hl : 0x0a ∉ l) (hfit : l.length + 2 ≤ c) (t : Bytes) :
    piecesFrom c cap (l ++ 0x0a :: t) = (l ++ [0x0a]) :: pieces cap t := by
  rw [piecesFrom, fgets_short hl hfit, drop_line]

theorem piecesFrom_full {c : ℕ} (hl : 0x0a ∉ l) (hfull : c ≤ l.length + 1) (t : Bytes) :
    piecesFrom c cap (l ++ 0x0a :: t) =
      l.take (c - 1) :: pieces cap (l.drop (c - 1) ++ 0x0a :: t) := by
  rw [piecesFrom, fgets_line hl, take_append_of_le_length (by omega),
    length_take_of_le (by omega), drop_append_of_le_length (by omega)]

/-- A line that fits is one piece. -/
theorem pieces_line (hl : 0x0a ∉ l) (hfit : l.length + 2 ≤ cap) (t : Bytes) :
    pieces cap (l ++ 0x0a :: t) = (l ++ [0x0a]) :: pieces cap t := by
  rw [← piecesFrom_self (by omega) (by simp), piecesFrom_line hl hfit]

/-- Of a line that does not fit, a full buffer is the first piece. -/
theorem pieces_full (hcap : 2 ≤ cap) (hl : 0x0a ∉ l) (hfull : cap ≤ l.length + 1) (t : Bytes) :
    pieces cap (l ++ 0x0a :: t) =
      l.take (cap - 1) :: pieces cap (l.drop (cap - 1) ++ 0x0a :: t) := by
  rw [← piecesFrom_self hcap (by simp), piecesFrom_full hl hfull]

theorem pieces_full_line (hl : 0x0a ∉ l) (hfull : l.length + 1 = cap) (hpos : l ≠ []) (t : Bytes) :
    pieces cap (l ++ 0x0a :: t) = l :: [0x0a] :: pieces cap t := by
  have hlen := length_pos_iff.mpr hpos
  rw [pieces_full (by omega) hl (by omega), take_of_length_le (by omega),
    drop_of_length_le (by omega), pieces_line not_mem_nil (by rw [length_nil]; omega)]
  rfl

/-- **The pieces of a text are the pieces of its lines.** -/
theorem pieces_append_line (hcap : 2 ≤ cap) (hl : 0x0a ∉ l) (t : Bytes) :
    pieces cap (l ++ 0x0a :: t) = pieces cap (l ++ [0x0a]) ++ pieces cap t := by
  induction hn : l.length using Nat.strong_induction_on generalizing l with
  | _ n ih =>
    by_cases hfit : l.length + 2 ≤ cap
    · rw [pieces_line hl hfit t, pieces_line hl hfit [], pieces_nil]
      rfl
    · have hcall := pieces_full hcap hl (by omega)
      have hdrop : 0x0a ∉ l.drop (cap - 1) := fun h => hl (mem_of_mem_drop h)
      rw [hcall t, hcall [], ih (l.drop (cap - 1)).length (by rw [length_drop]; omega) hdrop rfl,
        cons_append]

/-! ## Lines of a text -/

/-- The lines of a text, without their newlines. -/
def textLines (s : Bytes) : List Bytes :=
  s.splitOn 0x0a

theorem textLines_of_notMem (hs : 0x0a ∉ s) : textLines s = [s] := by
  refine splitOnP_eq_singleton fun c hc => ?_
  rw [beq_eq_false_iff_ne]
  rintro rfl
  exact hs hc

theorem textLines_append (hl : 0x0a ∉ l) (t : Bytes) :
    textLines (l ++ 0x0a :: t) = l :: textLines t := by
  refine splitOnP_append_cons_of_forall_mem (p := (· == 0x0a)) (fun c hc => ?_) 0x0a rfl t
  rw [beq_eq_false_iff_ne]
  rintro rfl
  exact hl hc

variable {ls : List Bytes}

theorem textLines_append_left {a : Bytes} (ha : 0x0a ∉ a)
    (hs : textLines s = l :: ls) : textLines (a ++ s) = (a ++ l) :: ls := by
  have hline : ∀ {b : Bytes}, 0x0a ∉ b → 0x0a ∉ a ++ b := fun hb h =>
    (mem_append.mp h).elim ha hb
  by_cases hmem : 0x0a ∈ s
  · obtain ⟨l', t, rfl, hl'⟩ := eq_append_cons_of_mem hmem
    rw [textLines_append hl', cons.injEq] at hs
    rw [← append_assoc, textLines_append (hline hl'), ← hs.1, hs.2]
  · rw [textLines_of_notMem hmem, cons.injEq] at hs
    rw [textLines_of_notMem (hline hmem), hs.1, ← hs.2]

/-- Induction over the lines of a text. -/
@[elab_as_elim] theorem lines_induction {motive : Bytes → Prop} (last : ∀ s, 0x0a ∉ s → motive s)
    (line : ∀ l t, 0x0a ∉ l → motive t → motive (l ++ 0x0a :: t)) (s : Bytes) : motive s := by
  induction hn : s.length using Nat.strong_induction_on generalizing s with
  | _ n ih =>
    by_cases hs : 0x0a ∈ s
    · obtain ⟨l, t, rfl, hl⟩ := eq_append_cons_of_mem hs
      refine line l t hl (ih t.length ?_ t rfl)
      rw [← hn, length_append, length_cons]
      omega
    · exact last s hs

theorem notMem_of_mem_textLines (h : l ∈ textLines s) : 0x0a ∉ l := by
  induction s using lines_induction with
  | last s hs =>
    rw [textLines_of_notMem hs, mem_singleton] at h
    rwa [h]
  | line l' t hl ih =>
    rw [textLines_append hl, mem_cons] at h
    obtain rfl | h := h
    · exact hl
    · exact ih h

theorem textLines_ne_nil (s : Bytes) : textLines s ≠ [] := by
  induction s using lines_induction with
  | last s hs => simp [textLines_of_notMem hs]
  | line l t hl _ => simp [textLines_append hl]

/-- The lines with their newlines; behind the last one there is none. -/
def terminated : List Bytes → List Bytes
  | [] => []
  | [l] => if l = [] then [] else [l]
  | l :: ls => (l ++ [0x0a]) :: terminated ls

theorem terminated_cons (l : Bytes) (hls : ls ≠ []) :
    terminated (l :: ls) = (l ++ [0x0a]) :: terminated ls := by
  cases ls with
  | nil => exact absurd rfl hls
  | cons _ _ => rfl

theorem terminated_append (as : List Bytes) (hls : ls ≠ []) :
    terminated (as ++ ls) = as.map (· ++ [0x0a]) ++ terminated ls := by
  induction as with
  | nil => rfl
  | cons a as ih =>
    rw [cons_append, terminated_cons a (by simp [hls]), ih, map_cons, cons_append]

theorem mem_terminated {x : Bytes} (h : x ∈ terminated ls) :
    ∃ l ∈ ls, x = l ∨ x = l ++ [0x0a] := by
  induction ls with
  | nil => exact absurd h not_mem_nil
  | cons l ls ih =>
    by_cases hls : ls = []
    · subst hls
      rw [terminated] at h
      split_ifs at h
      · exact absurd h not_mem_nil
      · exact ⟨l, mem_cons_self, Or.inl (mem_singleton.mp h)⟩
    · rw [terminated_cons l hls, mem_cons] at h
      obtain rfl | h := h
      · exact ⟨l, mem_cons_self, Or.inr rfl⟩
      · obtain ⟨l', hl', hx⟩ := ih h
        exact ⟨l', mem_cons_of_mem l hl', hx⟩

/-- A file of short lines is read line by line. -/
theorem pieces_flatMap (h : ∀ l ∈ ls, 0x0a ∉ l ∧ l.length + 2 ≤ cap) :
    pieces cap (ls.flatMap (· ++ [0x0a])) = ls.map (· ++ [0x0a]) := by
  induction ls with
  | nil => exact pieces_nil cap
  | cons l ls ih =>
    rw [forall_mem_cons] at h
    rw [flatMap_cons, append_assoc, singleton_append, pieces_line h.1.1 h.1.2,
      ih h.2, map_cons]

/-! ## The pieces of a line -/

/-- The pieces of a line that is read so; there is always one. -/
def linePieces (c cap : ℕ) (l : Bytes) : List Bytes :=
  l.take (c - 1) :: pieces cap (l.drop (c - 1))

theorem piecesFrom_of_notMem (c : ℕ) (hs : 0x0a ∉ s) : piecesFrom c cap s = linePieces c cap s := by
  rw [piecesFrom, linePieces, fgets_last hs]
  by_cases hlen : c - 1 ≤ s.length
  · rw [length_take_of_le hlen]
  · rw [take_of_length_le (by omega), drop_length, drop_of_length_le (by omega)]

theorem pieces_of_notMem (hcap : 2 ≤ cap) (hs : 0x0a ∉ s) (hne : s ≠ []) :
    pieces cap s = s.take (cap - 1) :: pieces cap (s.drop (cap - 1)) := by
  rw [← piecesFrom_self hcap hne, piecesFrom_of_notMem cap hs, linePieces]

theorem notMem_of_mem_pieces (hcap : 2 ≤ cap) (hs : 0x0a ∉ s) {x : Bytes} (hx : x ∈ pieces cap s) :
    0x0a ∉ x := by
  induction hn : s.length using Nat.strong_induction_on generalizing s with
  | _ n ih =>
    by_cases hne : s = []
    · rw [hne, pieces_nil] at hx
      exact absurd hx not_mem_nil
    · rw [pieces_of_notMem hcap hs hne, mem_cons] at hx
      obtain rfl | hx := hx
      · exact fun h => hs (mem_of_mem_take h)
      · have hpos := length_pos_iff.mpr hne
        refine ih _ ?_ (fun h => hs (mem_of_mem_drop h)) hx rfl
        rw [length_drop]
        omega

/-- A newline at the end is a piece of its own, or the end of the last piece. -/
theorem pieces_newline (hcap : 2 ≤ cap) (hl : 0x0a ∉ l) :
    pieces cap (l ++ [0x0a]) = pieces cap l ++ [[0x0a]] ∨
      ∃ ps p, pieces cap l = ps ++ [p] ∧ pieces cap (l ++ [0x0a]) = ps ++ [p ++ [0x0a]] := by
  induction hn : l.length using Nat.strong_induction_on generalizing l with
  | _ n ih =>
    by_cases hne : l = []
    · left
      have hline : pieces cap ([] ++ [0x0a]) = [[0x0a]] :=
        pieces_line not_mem_nil (by simpa using hcap) []
      rw [hne, hline, pieces_nil]
      rfl
    rw [pieces_of_notMem hcap hl hne]
    by_cases hfit : l.length + 2 ≤ cap
    · right
      refine ⟨[], l, ?_, pieces_line hl hfit []⟩
      rw [take_of_length_le (by omega), drop_of_length_le (by omega), pieces_nil]
      rfl
    · have hcall := pieces_full hcap hl (by omega) []
      have hdrop : 0x0a ∉ l.drop (cap - 1) := fun h => hl (mem_of_mem_drop h)
      rw [hcall]
      obtain h | ⟨ps, p, h₁, h₂⟩ :=
        ih (l.drop (cap - 1)).length (by rw [length_drop]; omega) hdrop rfl
      · exact Or.inl (congrArg _ h)
      · exact Or.inr ⟨l.take (cap - 1) :: ps, p, congrArg _ h₁, congrArg _ h₂⟩

theorem piecesFrom_long {c : ℕ} (hcap : 2 ≤ cap) (hl : 0x0a ∉ l) (hlong : c ≤ l.length + 1)
    (t : Bytes) : piecesFrom c cap (l ++ 0x0a :: t) =
      l.take (c - 1) :: (pieces cap (l.drop (c - 1) ++ [0x0a]) ++ pieces cap t) := by
  have hdrop : 0x0a ∉ l.drop (c - 1) := fun h => hl (mem_of_mem_drop h)
  rw [piecesFrom_full hl hlong, pieces_append_line hcap hdrop]

section Readers

variable {β : Type*} {f : Bytes → Option β}

theorem filterMap_pieces_newline (hf : ∀ p, f (p ++ [0x0a]) = f p) (hnil : f [] = none)
    (hcap : 2 ≤ cap) (hl : 0x0a ∉ l) :
    (pieces cap (l ++ [0x0a])).filterMap f = (pieces cap l).filterMap f := by
  have hblank : f [0x0a] = none := (hf []).trans hnil
  obtain h | ⟨ps, p, h₁, h₂⟩ := pieces_newline hcap hl
  · rw [h, filterMap_append, filterMap_cons_none hblank, filterMap_nil,
      append_nil]
  · rw [h₁, h₂, filterMap_append, filterMap_append]
    simp only [filterMap_cons, hf]

theorem filterMap_piecesFrom_self (hnil : f [] = none) (hcap : 2 ≤ cap) (s : Bytes) :
    (piecesFrom cap cap s).filterMap f = (pieces cap s).filterMap f := by
  by_cases hs : s = []
  · rw [hs, piecesFrom_of_notMem cap not_mem_nil, linePieces, take_nil, drop_nil,
      pieces_nil, filterMap_cons_none hnil]
  · rw [piecesFrom_self hcap hs]

/-- **A reader that takes every piece for a line** sees the pieces of every line. -/
theorem filterMap_piecesFrom (hf : ∀ p, f (p ++ [0x0a]) = f p) (hnil : f [] = none)
    (hcap : 2 ≤ cap) (c : ℕ) {ls : List Bytes} (hs : textLines s = l :: ls) :
    (piecesFrom c cap s).filterMap f = (linePieces c cap l).filterMap f ++
      ls.flatMap fun l => (linePieces cap cap l).filterMap f := by
  induction s using lines_induction generalizing c l ls with
  | last s hs' =>
    rw [textLines_of_notMem hs', cons.injEq] at hs
    rw [piecesFrom_of_notMem c hs', hs.1, ← hs.2, flatMap_nil, append_nil]
  | line l' t hl' ih =>
    rw [textLines_append hl', cons.injEq] at hs
    obtain ⟨rfl, rfl⟩ := hs
    obtain ⟨l₁, ls, ht⟩ := exists_cons_of_ne_nil (textLines_ne_nil t)
    have hrest := ih cap ht
    rw [filterMap_piecesFrom_self hnil hcap] at hrest
    rw [ht, flatMap_cons, ← hrest]
    by_cases hfit : l'.length + 2 ≤ c
    · rw [piecesFrom_line hl' hfit, linePieces, take_of_length_le (by omega),
        drop_of_length_le (by omega), pieces_nil, filterMap_cons, hf, filterMap_cons,
        filterMap_nil]
      cases f l' <;> rfl
    · have hdrop : 0x0a ∉ l'.drop (c - 1) := fun h => hl' (mem_of_mem_drop h)
      rw [piecesFrom_long hcap hl' (by omega), linePieces, ← cons_append,
        filterMap_append, filterMap_cons, filterMap_cons,
        filterMap_pieces_newline hf hnil hcap hdrop]

end Readers

/-! ## Trimming -/

section Trimming

variable {α : Type*} {p : α → Bool} {k r : List α}

theorem rdropWhile_append_of_pos (hr : ∀ c ∈ r, p c = true) :
    (k ++ r).rdropWhile p = k.rdropWhile p := by
  have hrev : ∀ c ∈ r.reverse, p c = true := fun c hc => hr c (mem_reverse.mp hc)
  rw [rdropWhile, reverse_append, dropWhile_append_of_pos hrev, rdropWhile]

theorem exists_append_rdropWhile (p : α → Bool) (k : List α) :
    ∃ r, k = k.rdropWhile p ++ r ∧ ∀ c ∈ r, p c = true := by
  refine ⟨(k.reverse.takeWhile p).reverse, ?_, fun c hc => ?_⟩
  · rw [rdropWhile, ← reverse_append, takeWhile_append_dropWhile, reverse_reverse]
  · exact mem_takeWhile_imp (mem_reverse.mp hc)

theorem rdropWhile_append_cons {c : α} (hc : p c = false) (k r : List α) :
    (k ++ c :: r).rdropWhile p = k ++ c :: r.rdropWhile p := by
  obtain ⟨w, hr, hw⟩ := exists_append_rdropWhile p r
  have hcut : k ++ c :: r = k ++ c :: r.rdropWhile p ++ w := by
    rw [append_assoc, cons_append, ← hr]
  rw [hcut, rdropWhile_append_of_pos hw]
  refine rdropWhile_eq_self_iff.mpr fun hne => ?_
  rw [getLast_append_of_ne_nil _ (cons_ne_nil _ _)]
  by_cases hnil : r.rdropWhile p = []
  · simp [hnil, hc]
  · rw [getLast_cons hnil]
    exact rdropWhile_last_not p r hnil

theorem take_takeWhile (p : α → Bool) (k : List α) (n : ℕ) :
    (k.take n).takeWhile p = (k.takeWhile p).take n := by
  induction k generalizing n with
  | nil => simp
  | cons c k ih =>
    cases n with
    | zero => simp
    | succ n =>
      by_cases hc : p c = true
      · rw [take_succ_cons, takeWhile_cons_of_pos hc, takeWhile_cons_of_pos hc, ih,
          take_succ_cons]
      · rw [take_succ_cons, takeWhile_cons_of_neg hc, takeWhile_cons_of_neg hc,
          take_nil]

/-- Cutting and skipping change places, with a cut as much earlier as was skipped. -/
theorem take_dropWhile (p : α → Bool) (k : List α) (n : ℕ) :
    (k.take n).dropWhile p = (k.dropWhile p).take (n - (k.length - (k.dropWhile p).length)) := by
  induction k generalizing n with
  | nil => simp
  | cons c k ih =>
    cases n with
    | zero => simp
    | succ n =>
      by_cases hc : p c = true
      · have hlen := (dropWhile_suffix p (l := k)).length_le
        rw [take_succ_cons, dropWhile_cons_of_pos hc, dropWhile_cons_of_pos hc, ih,
          length_cons]
        congr 1
        omega
      · rw [take_succ_cons, dropWhile_cons_of_neg hc, dropWhile_cons_of_neg hc,
          Nat.sub_self, Nat.sub_zero, take_succ_cons]

end Trimming

/-! ## Pieces that begin within a line -/

/-- The pieces that come after one that does not end its line. -/
def continuations : List Bytes → List Bytes
  | [] => []
  | a :: l => (if a.getLast? = some 0x0a then [] else l.take 1) ++ continuations l

theorem continuations_of_notMem {x : Bytes} {xs : List Bytes} (hx : ∀ y ∈ x :: xs, 0x0a ∉ y) :
    continuations (x :: xs) = xs := by
  induction xs generalizing x with
  | nil => simp [continuations]
  | cons y xs ih =>
    rw [forall_mem_cons] at hx
    have hopen : x.getLast? ≠ some 0x0a := fun h => hx.1 (mem_of_getLast? h)
    rw [continuations, if_neg hopen, ih hx.2]
    rfl

/-- The first piece of a line leaves the others of that line as continuations. -/
theorem continuations_line (hcap : 2 ≤ cap) (hl : 0x0a ∉ l) {x : Bytes} (hx : 0x0a ∉ x)
    (rest : List Bytes) :
    continuations (x :: (pieces cap (l ++ [0x0a]) ++ rest)) =
      pieces cap (l ++ [0x0a]) ++ continuations rest := by
  have hopen : ∀ {y : Bytes}, 0x0a ∉ y → y.getLast? ≠ some 0x0a := fun hy h =>
    hy (mem_of_getLast? h)
  have hpieces : ∀ ps : List Bytes, (∀ y ∈ ps, 0x0a ∉ y) → ∀ (p : Bytes) {x : Bytes}, 0x0a ∉ x →
      continuations (x :: (ps ++ (p ++ [0x0a]) :: rest)) =
        ps ++ (p ++ [0x0a]) :: continuations rest := by
    intro ps
    induction ps with
    | nil =>
      intro _ p x hx
      rw [nil_append, continuations, if_neg (hopen hx), continuations,
        if_pos getLast?_concat]
      rfl
    | cons y ps ih =>
      intro hps p x hx
      rw [forall_mem_cons] at hps
      rw [cons_append, continuations, if_neg (hopen hx), ih hps.2 p hps.1]
      rfl
  have hmem : ∀ y ∈ pieces cap l, 0x0a ∉ y := fun y hy => notMem_of_mem_pieces hcap hl hy
  obtain h | ⟨ps, p, h₁, h₂⟩ := pieces_newline hcap hl
  · rw [h, append_assoc, append_assoc]
    exact hpieces _ hmem [] hx
  · rw [h₂, append_assoc, append_assoc]
    refine hpieces ps (fun y hy => hmem y ?_) p hx
    rw [h₁]
    exact mem_append_left _ hy

section Continuations

variable {N : Bytes → Prop}

theorem forall_pieces_newline (hN : ∀ p, N (p ++ [0x0a]) ↔ N p) (hnil : N []) (hcap : 2 ≤ cap)
    (hl : 0x0a ∉ l) : (∀ x ∈ pieces cap (l ++ [0x0a]), N x) ↔ ∀ x ∈ pieces cap l, N x := by
  have hblank : N [0x0a] := (hN []).mpr hnil
  obtain h | ⟨ps, p, h₁, h₂⟩ := pieces_newline hcap hl
  · rw [h, forall_mem_append, forall_mem_singleton]
    exact and_iff_left hblank
  · rw [h₁, h₂, forall_mem_append, forall_mem_append, forall_mem_singleton,
      forall_mem_singleton, hN]

/-- **The pieces that begin within a line**, line by line. -/
theorem forall_continuations_iff (hN : ∀ p, N (p ++ [0x0a]) ↔ N p) (hnil : N []) (hcap : 2 ≤ cap)
    (c : ℕ) {ls : List Bytes} (hs : textLines s = l :: ls) :
    (∀ x ∈ continuations (piecesFrom c cap s), N x) ↔
      (∀ x ∈ pieces cap (l.drop (c - 1)), N x) ∧
        ∀ l ∈ ls, ∀ x ∈ pieces cap (l.drop (cap - 1)), N x := by
  induction s using lines_induction generalizing c l ls with
  | last s hs' =>
    rw [textLines_of_notMem hs', cons.injEq] at hs
    obtain ⟨rfl, rfl⟩ := hs
    have hopen : ∀ y ∈ linePieces c cap s, 0x0a ∉ y := by
      intro y hy
      obtain rfl | hy := mem_cons.mp hy
      · exact fun h => hs' (mem_of_mem_take h)
      · exact notMem_of_mem_pieces hcap (fun h => hs' (mem_of_mem_drop h)) hy
    rw [piecesFrom_of_notMem c hs', linePieces, continuations_of_notMem hopen]
    simp
  | line l' t hl' ih =>
    rw [textLines_append hl', cons.injEq] at hs
    obtain ⟨rfl, rfl⟩ := hs
    obtain ⟨l₁, ls, ht⟩ := exists_cons_of_ne_nil (textLines_ne_nil t)
    have hself : continuations (piecesFrom cap cap t) = continuations (pieces cap t) := by
      by_cases hnil : t = []
      · rw [hnil, piecesFrom_of_notMem cap not_mem_nil, linePieces, drop_nil, pieces_nil]
        simp [continuations]
      · rw [piecesFrom_self hcap hnil]
    have hrest := ih cap ht
    rw [hself] at hrest
    rw [ht, forall_mem_cons, ← hrest]
    by_cases hfit : l'.length + 2 ≤ c
    · rw [piecesFrom_line hl' hfit, continuations, if_pos getLast?_concat,
        drop_of_length_le (by omega), pieces_nil]
      simp
    · have hdrop : 0x0a ∉ l'.drop (c - 1) := fun h => hl' (mem_of_mem_drop h)
      have htake : 0x0a ∉ l'.take (c - 1) := fun h => hl' (mem_of_mem_take h)
      rw [piecesFrom_long hcap hl' (by omega), continuations_line hcap hdrop htake,
        forall_mem_append, forall_pieces_newline hN hnil hcap hdrop]

end Continuations

end TgCli.Lib
