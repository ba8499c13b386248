import TgCli.Core.TlValues
import TgCli.Domain.Updates
import TgCli.Lib.InodeFs

/-!
# `infrastructure/updates_state_store.c`: the state of the updates in a file

The state is written as one line for every field, `name=number`, and read back line by line.

* What has been saved is loaded again, for every state (`updatesStateLoad_save`).
* A file that was not written by `updates_state_save` is accepted when every line can be read and at
  least four lines name one of the four fields it needs.  Which fields these are is not looked at,
  so four lines for `pts` do; and a number that does not fit into its field is cut to it.

A line that does not fit into the 256 bytes of `fgets` is read as several, so what is loaded comes
from the last *piece* that names the field.
-/

namespace TgCli.Infrastructure

open List Lib TgCli.Core Domain

/-! ## The fields -/

inductive StateField
  | pts
  | qts
  | date
  | seq
  | unreadCount
  deriving DecidableEq

namespace StateField

def key : StateField → Bytes
  | pts => ascii "pts"
  | qts => ascii "qts"
  | date => ascii "date"
  | seq => ascii "seq"
  | unreadCount => ascii "unread_count"

/-- In the order of the comparisons, and of the lines that are written. -/
def all : List StateField :=
  [pts, qts, date, seq, unreadCount]

def ofKey (k : Bytes) : Option StateField :=
  all.find? fun f => f.key == k

/-- Whether a file needs the field; `unread_count` is informational only. -/
def isRequired : StateField → Bool
  | unreadCount => false
  | _ => true

def get : StateField → UpdatesState → ℤ
  | pts, st => st.pts.toInt
  | qts, st => st.qts.toInt
  | date, st => st.date.toInt
  | seq, st => st.seq.toInt
  | unreadCount, st => st.unreadCount.toInt

def store : StateField → ℤ → UpdatesState → UpdatesState
  | pts, val, st => { st with pts := Int32.ofInt val }
  | qts, val, st => { st with qts := Int32.ofInt val }
  | date, val, st => { st with date := Int64.ofInt val }
  | seq, val, st => { st with seq := Int32.ofInt val }
  | unreadCount, val, st => { st with unreadCount := Int32.ofInt val }

end StateField

/-! ## The file -/

def statePathMax : ℕ := 2048

/-- `build_state_path`; `base` is `platform_cache_dir`. -/
def buildStatePath (base : Option Bytes) : Option Bytes :=
  match base with
  | none => none
  | some base =>
    let path := base ++ ascii "/tg-cli/updates.state"
    if path.length ≥ statePathMax then none else some path

def stateTmpPath (path : Bytes) : Bytes :=
  snprintf (statePathMax + 8) (path ++ ascii ".tmp")

/-- The comment in the first line; the dash is not ASCII. -/
def stateComment : Bytes :=
  ascii "# tg-cli updates state " ++ [0xE2, 0x80, 0x94] ++ ascii " do not edit by hand"

def StateField.line (st : UpdatesState) (f : StateField) : Bytes :=
  f.key ++ 0x3D :: decimal (f.get st)

def stateRows (st : UpdatesState) : List Bytes :=
  stateComment :: StateField.all.map (StateField.line st)

/-- What `updates_state_save` prints. -/
def stateText (st : UpdatesState) : Bytes :=
  (stateRows st).flatMap (· ++ [0x0a])

/-- Which of the operations on files work; `lost` bytes of the text do not make it to the file when
`fclose` flushes it. -/
structure StateIo where
  makesDir : Bool
  opens : Bool
  lost : ℕ
  renames : Bool
  deriving DecidableEq

def StateIo.working : StateIo :=
  ⟨true, true, 0, true⟩

/-- `updates_state_save`: whether it returns 0, and the files behind it. -/
def updatesStateSave (io : StateIo) (base : Option Bytes) (st : UpdatesState) (fs : InodeFs Bytes) :
    Bool × InodeFs Bytes :=
  match buildStatePath base with
  | none => (false, fs)
  | some path =>
    if !io.makesDir || !io.opens then (false, fs)
    else
      let (fd, fs) := fs.openTrunc (stateTmpPath path)
      let text := stateText st
      let fs := fs.write fd (text.take (text.length - io.lost))
      if io.lost ≠ 0 then (false, fs)
      else if !io.renames then (false, fs)
      else
        match fs.rename (stateTmpPath path) path with
        | none => (false, fs)
        | some fs => (true, fs)

def stateLine (buf : Bytes) : Bytes :=
  (cstr buf).takeWhile (· ≠ 0x0a)

def isSkipped : Bytes → Bool
  | [] => true
  | c :: _ => c == 0x23

/-- `sscanf` with `%63[^=]=%lld`, when it returns 2.  As `strtol`, it answers with the nearest
64-bit number. -/
def scanEntry (line : Bytes) : Option (Bytes × ℤ) :=
  let key := (line.takeWhile (· ≠ 0x3D)).take 63
  if key = [] then none
  else
    match line.drop key.length with
    | 0x3D :: rest => (leadingNumber rest).map fun _ => (key, strtol rest)
    | _ => none

/-- The loop of `updates_state_load`, with the state and the number of fields so far; `none` is the
return for a malformed line. -/
def scanState : UpdatesState → ℕ → List Bytes → Option (UpdatesState × ℕ)
  | tmp, fields, [] => some (tmp, fields)
  | tmp, fields, line :: lines =>
    if isSkipped line then scanState tmp fields lines
    else
      match scanEntry line with
      | none => none
      | some (key, val) =>
        match StateField.ofKey key with
        | none => scanState tmp fields lines
        | some f => scanState (f.store val tmp) (if f.isRequired then fields + 1 else fields) lines

inductive LoadResult
  | ok (st : UpdatesState)
  | unreadable
  | malformed
  deriving DecidableEq

/-- The lines that `updates_state_load` sees. -/
def stateLines (content : Bytes) : List Bytes :=
  (pieces 256 content).map stateLine

/-- `updates_state_load` on the file, if it can be opened. -/
def loadState (file : Option Bytes) : LoadResult :=
  match file with
  | none => .unreadable
  | some content =>
    match scanState ⟨0, 0, 0, 0, 0⟩ 0 (stateLines content) with
    | none => .malformed
    | some (tmp, fields) => if fields < 4 then .malformed else .ok tmp

def updatesStateLoad (base : Option Bytes) (fs : InodeFs Bytes) : LoadResult :=
  match buildStatePath base with
  | none => .unreadable
  | some path => loadState (fs.read path)

/-! ## What a file says -/

namespace StateField

variable (f : StateField)

/-- What a line says for the field: the number behind its name and `=`. -/
def number (line : Bytes) : Option ℤ :=
  if (f.key ++ [0x3D]).isPrefixOf line then leadingNumber (line.drop (f.key.length + 1)) else none

/-- The number in the last line for the field.  As everywhere, a line is a C string. -/
def written (content : Bytes) : Option ℤ :=
  ((textLines content).filterMap fun l => f.number (cstr l)).getLast?

/-- The number in the last of the lines that `updates_state_load` sees. -/
def mentioned (content : Bytes) : Option ℤ :=
  ((stateLines content).filterMap f.number).getLast?

def cast : StateField → ℤ → ℤ
  | date, val => (Int64.ofInt val).toInt
  | _, val => (Int32.ofInt val).toInt

/-- What becomes of a number that is read into the field. -/
def stored (n : ℤ) : ℤ :=
  f.cast (max (-2 ^ 63) (min (2 ^ 63 - 1) n))

def InRange : StateField → ℤ → Prop
  | date, n => -2 ^ 63 ≤ n ∧ n < 2 ^ 63
  | _, n => -2 ^ 31 ≤ n ∧ n < 2 ^ 31

end StateField

/-- **A file is loaded right**: if it is accepted, each of the four fields is written in it, and
every field that is returned is the one that is written, 0 if there is none. -/
def LoadsRight (content : Bytes) : Prop :=
  ∀ st, loadState (some content) = .ok st →
    (∀ f : StateField, f.isRequired = true → (f.written content).isSome = true) ∧
      ∀ f : StateField, f.get st = (f.written content).getD 0

/-- A line that `updates_state_load` does not reject. -/
def LineReads (line : Bytes) : Prop :=
  isSkipped line = true ∨ (scanEntry line).isSome = true

def isCounted (line : Bytes) : Bool :=
  StateField.all.any fun f => f.isRequired && (f.number line).isSome

/-- A file with no malformed line and four lines for the fields it needs. -/
structure StateAccepted (content : Bytes) : Prop where
  reads : ∀ line ∈ stateLines content, LineReads line
  four : 4 ≤ (stateLines content).countP isCounted

/-- The field keeps what is written for it: the number that `updates_state_load` takes, cut to the
type of the field, is the one in the last line. -/
def FieldKept (content : Bytes) (f : StateField) : Prop :=
  ∀ n ∈ f.mentioned content, f.stored n = (f.written content).getD 0

/-- Each of the four fields has a line, and all fields keep what is written. -/
structure StateComplete (content : Bytes) : Prop where
  present : ∀ f : StateField, f.isRequired = true → (f.written content).isSome = true
  kept : ∀ f : StateField, FieldKept content f

/-! ## One line -/

theorem scanEntry_append {k : Bytes} (hk : 0x3D ∉ k) (hne : k ≠ []) (hlen : k.length ≤ 63)
    (rest : Bytes) :
    scanEntry (k ++ 0x3D :: rest) = (leadingNumber rest).map fun _ => (k, strtol rest) := by
  unfold scanEntry
  rw [takeWhile_ne_append hk, take_of_length_le hlen]
  rw [if_neg hne, drop_left]
  rfl

theorem exists_of_scanEntry {line k : Bytes} {v : ℤ} (h : scanEntry line = some (k, v)) :
    ∃ rest n, line = k ++ 0x3D :: rest ∧ leadingNumber rest = some n ∧ v = strtol rest := by
  unfold scanEntry at h
  dsimp only at h
  have htake : (line.takeWhile (· ≠ 0x3D)).take 63 <+: _ := take_prefix _ _
  have hwhile : line.takeWhile (· ≠ 0x3D) <+: line := takeWhile_prefix _
  have happ := prefix_iff_eq_append.mp (htake.trans hwhile)
  split_ifs at h
  split at h
  · rename_i rest hdrop
    rcases hn : leadingNumber rest with _ | n
    · rw [hn] at h
      exact absurd h (Option.some_ne_none _).symm
    · rw [hn, Option.map_some, Option.some.injEq, Prod.mk.injEq] at h
      obtain ⟨rfl, rfl⟩ := h
      exact ⟨rest, n, by rw [← hdrop, happ], hn, rfl⟩
  · exact absurd h (Option.some_ne_none _).symm

namespace StateField

variable {f g : StateField} {line rest : Bytes} {n : ℤ}

theorem equals_notMem_key (f : StateField) : 0x3D ∉ f.key := by
  cases f <;> decide

theorem key_injective : Function.Injective key := by
  intro f g h
  cases f <;> cases g <;> first | rfl | exact absurd h (by decide)

@[simp] theorem ofKey_key (f : StateField) : ofKey f.key = some f := by
  cases f <;> decide

theorem key_of_ofKey {k : Bytes} (h : ofKey k = some f) : f.key = k := by
  have hbeq := find?_some (p := fun g : StateField => g.key == k) h
  exact beq_iff_eq.mp hbeq

@[simp] theorem mem_all (f : StateField) : f ∈ all := by
  cases f <;> decide

theorem number_append (f : StateField) (rest : Bytes) :
    f.number (f.key ++ 0x3D :: rest) = leadingNumber rest := by
  have happ : f.key ++ 0x3D :: rest = (f.key ++ [0x3D]) ++ rest := by simp
  have hlen : f.key.length + 1 = (f.key ++ [0x3D]).length := by simp
  have hpre : (f.key ++ [0x3D]).isPrefixOf (f.key ++ [0x3D] ++ rest) = true :=
    isPrefixOf_iff_prefix.mpr (prefix_append _ _)
  rw [number, happ, if_pos hpre, hlen, drop_left]

theorem number_eq_some : f.number line = some n ↔
    ∃ rest, line = f.key ++ 0x3D :: rest ∧ leadingNumber rest = some n := by
  constructor
  · intro h
    have hpre : (f.key ++ [0x3D]).isPrefixOf line = true := by
      by_contra hne
      rw [number, if_neg hne] at h
      exact absurd h (Option.some_ne_none n).symm
    obtain ⟨rest, rfl⟩ := isPrefixOf_iff_prefix.mp hpre
    rw [append_assoc, singleton_append] at h ⊢
    exact ⟨rest, rfl, (f.number_append rest).symm.trans h⟩
  · rintro ⟨rest, rfl, h⟩
    rw [number_append, h]

theorem number_of_ne (h : f ≠ g) (rest : Bytes) : f.number (g.key ++ 0x3D :: rest) = none := by
  rcases hn : f.number (g.key ++ 0x3D :: rest) with _ | n
  · rfl
  · obtain ⟨rest', happ, -⟩ := number_eq_some.mp hn
    have hkey := congrArg (takeWhile (· ≠ (0x3D : UInt8))) happ
    rw [takeWhile_ne_append g.equals_notMem_key, takeWhile_ne_append f.equals_notMem_key] at hkey
    exact absurd (key_injective hkey.symm) h

end StateField

/-- The field that a line names, with the number as it is read. -/
def lineField (line : Bytes) : Option (StateField × ℤ) :=
  (scanEntry line).bind fun e => (StateField.ofKey e.1).map fun f => (f, e.2)

def applyLine (tmp : UpdatesState) (line : Bytes) : UpdatesState :=
  (lineField line).elim tmp fun e => e.1.store e.2 tmp

section Line

variable {line : Bytes} {f : StateField} {v : ℤ}

theorem lineField_eq_some : lineField line = some (f, v) ↔
    ∃ n, f.number line = some n ∧ v = max (-2 ^ 63) (min (2 ^ 63 - 1) n) := by
  constructor
  · intro h
    obtain ⟨⟨k, w⟩, hscan, hmap⟩ := Option.bind_eq_some_iff.mp h
    obtain ⟨g, hg, he⟩ := Option.map_eq_some_iff.mp hmap
    obtain ⟨rfl, rfl⟩ := Prod.mk.inj he
    obtain ⟨rest, n, rfl, hn, hv⟩ := exists_of_scanEntry hscan
    obtain rfl : g.key = k := StateField.key_of_ofKey hg
    refine ⟨n, ?_, hv.trans (strtol_of_leadingNumber hn)⟩
    rw [StateField.number_append, hn]
  · rintro ⟨n, hnum, rfl⟩
    obtain ⟨rest, rfl, hn⟩ := StateField.number_eq_some.mp hnum
    have hne : f.key ≠ [] ∧ f.key.length ≤ 63 := by cases f <;> decide
    rw [lineField, scanEntry_append f.equals_notMem_key hne.1 hne.2, hn, Option.map_some,
      Option.bind_some, StateField.ofKey_key, strtol_of_leadingNumber hn]
    rfl

theorem number_of_lineField_none (h : lineField line = none) (f : StateField) :
    f.number line = none := by
  rcases hn : f.number line with _ | n
  · rfl
  · rw [lineField_eq_some.mpr ⟨n, hn, rfl⟩] at h
    exact absurd h (Option.some_ne_none _)

theorem isCounted_eq (line : Bytes) :
    isCounted line = (lineField line).any fun e => e.1.isRequired := by
  rw [Bool.eq_iff_iff, isCounted, any_eq_true]
  constructor
  · rintro ⟨f, -, hf⟩
    rw [Bool.and_eq_true] at hf
    obtain ⟨n, hn⟩ := Option.isSome_iff_exists.mp hf.2
    rw [lineField_eq_some.mpr ⟨n, hn, rfl⟩]
    exact hf.1
  · intro h
    rcases hl : lineField line with _ | ⟨f, v⟩
    · rw [hl] at h
      exact absurd h Bool.false_ne_true
    · rw [hl] at h
      obtain ⟨n, hn, -⟩ := lineField_eq_some.mp hl
      refine ⟨f, f.mem_all, ?_⟩
      rw [hn, Option.isSome_some, Bool.and_true]
      exact h

theorem lineField_of_isSkipped (h : isSkipped line = true) : lineField line = none := by
  rcases hl : lineField line with _ | ⟨f, v⟩
  · rfl
  · obtain ⟨n, hn, -⟩ := lineField_eq_some.mp hl
    obtain ⟨rest, rfl, -⟩ := StateField.number_eq_some.mp hn
    cases f <;> exact absurd h Bool.false_ne_true

/-- **One line**: if it is not malformed, the loop goes on with the field stored and counted. -/
theorem scanState_cons (h : LineReads line) (tmp : UpdatesState) (fields : ℕ) (lines : List Bytes) :
    scanState tmp fields (line :: lines) =
      scanState (applyLine tmp line) (if isCounted line then fields + 1 else fields) lines := by
  rw [scanState]
  by_cases hskip : isSkipped line = true
  · rw [if_pos hskip, applyLine, isCounted_eq, lineField_of_isSkipped hskip]
    rfl
  · obtain ⟨⟨k, v⟩, hscan⟩ := Option.isSome_iff_exists.mp (h.resolve_left hskip)
    have hfield : lineField line = (StateField.ofKey k).map fun f => (f, v) := by
      rw [lineField, hscan]
      rfl
    rw [if_neg hskip, hscan]
    dsimp only
    split
    · rename_i hk
      rw [applyLine, isCounted_eq, hfield, hk]
      rfl
    · rename_i f hk
      rw [applyLine, isCounted_eq, hfield, hk]
      rfl

theorem scanState_cons_of_not (h : ¬ LineReads line) (tmp : UpdatesState) (fields : ℕ)
    (lines : List Bytes) : scanState tmp fields (line :: lines) = none := by
  obtain ⟨hskip, hscan⟩ := not_or.mp h
  rw [scanState, if_neg hskip, Option.not_isSome_iff_eq_none.mp hscan]

end Line

/-! ## The loop -/

section Loop

variable {lines : List Bytes}

theorem scanState_of_reads (h : ∀ line ∈ lines, LineReads line) (tmp : UpdatesState) (fields : ℕ) :
    scanState tmp fields lines =
      some (lines.foldl applyLine tmp, fields + lines.countP isCounted) := by
  induction lines generalizing tmp fields with
  | nil => rfl
  | cons line lines ih =>
    rw [forall_mem_cons] at h
    rw [scanState_cons h.1, ih h.2, foldl_cons, countP_cons]
    congr 2
    split_ifs <;> omega

theorem reads_of_scanState {tmp : UpdatesState} {fields : ℕ} {x : UpdatesState × ℕ}
    (h : scanState tmp fields lines = some x) : ∀ line ∈ lines, LineReads line := by
  induction lines generalizing tmp fields with
  | nil => exact forall_mem_nil _
  | cons line lines ih =>
    by_cases hline : LineReads line
    · rw [scanState_cons hline] at h
      exact forall_mem_cons.mpr ⟨hline, ih h⟩
    · rw [scanState_cons_of_not hline] at h
      exact absurd h (Option.some_ne_none x).symm

theorem StateField.get_store (f g : StateField) (v : ℤ) (st : UpdatesState) :
    f.get (g.store v st) = if f = g then f.cast v else f.get st := by
  cases f <;> cases g <;> rfl

theorem get_applyLine (f : StateField) (tmp : UpdatesState) (line : Bytes) :
    f.get (applyLine tmp line) = ((f.number line).map f.stored).getD (f.get tmp) := by
  rw [applyLine]
  rcases hl : lineField line with _ | ⟨g, v⟩
  · rw [number_of_lineField_none hl]
    rfl
  · obtain ⟨n, hn, rfl⟩ := lineField_eq_some.mp hl
    rw [Option.elim_some, StateField.get_store]
    split_ifs with hfg
    · rw [hfg, hn]
      rfl
    · obtain ⟨rest, rfl, -⟩ := StateField.number_eq_some.mp hn
      rw [StateField.number_of_ne hfg]
      rfl

theorem get_foldl_applyLine (f : StateField) (tmp : UpdatesState) (lines : List Bytes) :
    f.get (lines.foldl applyLine tmp) =
      (((lines.filterMap f.number).getLast?).map f.stored).getD (f.get tmp) := by
  induction lines using reverseRecOn with
  | nil => rfl
  | append_singleton lines line ih =>
    rw [foldl_concat, get_applyLine, ih, filterMap_append]
    rcases hn : f.number line with _ | n <;> simp [hn]

end Loop

variable {st : UpdatesState}

theorem loadState_eq_ok {content : Bytes} :
    loadState (some content) = .ok st ↔
      StateAccepted content ∧ st = (stateLines content).foldl applyLine ⟨0, 0, 0, 0, 0⟩ := by
  constructor
  · intro h
    rw [loadState] at h
    rcases hscan : scanState ⟨0, 0, 0, 0, 0⟩ 0 (stateLines content) with _ | x
    · rw [hscan] at h
      exact absurd h (by simp)
    · have hreads := reads_of_scanState hscan
      rw [scanState_of_reads hreads, Nat.zero_add] at h
      dsimp only at h
      split_ifs at h with hfour
      exact ⟨⟨hreads, not_lt.mp hfour⟩, (LoadResult.ok.inj h).symm⟩
  · rintro ⟨⟨hreads, hfour⟩, rfl⟩
    rw [loadState, scanState_of_reads hreads, Nat.zero_add]
    exact if_neg (not_lt.mpr hfour)

theorem get_of_loadState {content : Bytes}
    (h : loadState (some content) = .ok st) (f : StateField) :
    f.get st = ((f.mentioned content).map f.stored).getD 0 := by
  have hzero : f.get ⟨0, 0, 0, 0, 0⟩ = 0 := by cases f <;> rfl
  rw [(loadState_eq_ok.mp h).2, get_foldl_applyLine, hzero]
  rfl

/-! ## Lines and pieces -/

theorem stateLine_newline (x : Bytes) : stateLine (x ++ [0x0a]) = stateLine x := by
  rw [stateLine, stateLine]
  obtain h | h := cstr_newline x
  · rw [h]
  · rw [h]
    by_cases hx : ∀ c ∈ cstr x, decide (c ≠ 0x0a) = true
    · rw [takeWhile_append_of_pos hx, takeWhile_eq_self_iff.mpr hx]
      exact append_nil _
    · rw [takeWhile_append, if_neg]
      intro hlen
      exact hx (takeWhile_eq_self_iff.mp ((takeWhile_sublist _).eq_of_length hlen))

theorem stateLine_take {l : Bytes} (hl : 0x0a ∉ l) (m : ℕ) :
    stateLine (l.take m) = (cstr l).take m := by
  rw [stateLine, cstr_take, takeWhile_eq_self_iff]
  exact forall_decide_ne fun h => hl (takeWhile_subset _ (mem_of_mem_take h))

section Pieces

variable {content : Bytes}

theorem filterMap_stateLines {β : Type*} {g : Bytes → Option β} (hnil : g [] = none)
    (content : Bytes) : (stateLines content).filterMap g =
      (textLines content).flatMap fun l =>
        (linePieces 256 256 l).filterMap fun x => g (stateLine x) := by
  obtain ⟨l, ls, hlines⟩ := exists_cons_of_ne_nil (textLines_ne_nil content)
  have hnewline : ∀ x, g (stateLine (x ++ [0x0a])) = g (stateLine x) := fun x => by
    rw [stateLine_newline]
  have hread := filterMap_piecesFrom (f := fun x => g (stateLine x)) hnewline hnil
    (by decide : 2 ≤ 256) 256 hlines
  rw [filterMap_piecesFrom_self (f := fun x => g (stateLine x)) hnil (by decide)] at hread
  rw [stateLines, filterMap_map, hlines, flatMap_cons]
  exact hread

theorem mem_stateLines {l : Bytes} (hl : l ∈ textLines content) (hne : (cstr l).take 255 ≠ []) :
    (cstr l).take 255 ∈ stateLines content := by
  have hread := filterMap_stateLines (g := fun line => if line = [] then none else some line) rfl
    content
  have hmem : (cstr l).take 255 ∈
      (stateLines content).filterMap fun line => if line = [] then none else some line := by
    rw [hread, mem_flatMap]
    refine ⟨l, hl, mem_filterMap.mpr ⟨l.take 255, mem_cons_self, ?_⟩⟩
    rw [stateLine_take (notMem_of_mem_textLines hl), if_neg hne]
  obtain ⟨line, hline, h⟩ := mem_filterMap.mp hmem
  split_ifs at h
  exact Option.some.inj h ▸ hline

theorem isSome_mentioned (hreads : ∀ line ∈ stateLines content, LineReads line) {f : StateField}
    (h : (f.written content).isSome = true) : (f.mentioned content).isSome = true := by
  have hshort : ∃ m, 255 = f.key.length + (m + 1) := by
    refine ⟨255 - f.key.length - 1, ?_⟩
    cases f <;> decide
  obtain ⟨m, hm⟩ := hshort
  obtain ⟨n, hn⟩ := Option.isSome_iff_exists.mp h
  obtain ⟨l, hl, hnum⟩ := mem_filterMap.mp (mem_of_getLast? hn)
  obtain ⟨rest, hline, -⟩ := StateField.number_eq_some.mp hnum
  -- the name and the `=` are in the first piece, and without a digit there it would be malformed
  have hcut : (cstr l).take 255 = f.key ++ 0x3D :: rest.take m := by
    rw [hline, hm, take_length_add_append, take_succ_cons]
  have hmem := mem_stateLines hl (by rw [hcut]; simp)
  rw [hcut] at hmem
  have hnskip : ¬ isSkipped (f.key ++ 0x3D :: rest.take m) = true := by
    cases f <;> exact Bool.false_ne_true
  have hkey : f.key ≠ [] ∧ f.key.length ≤ 63 := by cases f <;> decide
  have hscan := (hreads _ hmem).resolve_left hnskip
  rw [scanEntry_append f.equals_notMem_key hkey.1 hkey.2, Option.isSome_map] at hscan
  obtain ⟨n', hn'⟩ := Option.isSome_iff_exists.mp hscan
  have hfound : n' ∈ (stateLines content).filterMap f.number :=
    mem_filterMap.mpr ⟨_, hmem, (f.number_append _).trans hn'⟩
  rw [StateField.mentioned, getLast?_isSome]
  exact ne_nil_of_mem hfound

theorem mentioned_of_short (hshort : ∀ l ∈ textLines content, l.length ≤ 255) (f : StateField) :
    f.mentioned content = f.written content := by
  have hnil : f.number [] = none := by cases f <;> rfl
  rw [StateField.mentioned, StateField.written, filterMap_stateLines hnil,
    filterMap_eq_flatMap_toList]
  congr 1
  refine flatMap_congr fun l hl => ?_
  have hlen := hshort l hl
  have hline : stateLine l = cstr l := by
    have htake := stateLine_take (notMem_of_mem_textLines hl) l.length
    rw [take_length] at htake
    rw [htake]
    exact take_of_length_le (takeWhile_sublist _).length_le
  rw [linePieces, take_of_length_le hlen, drop_of_length_le hlen, pieces_nil,
    filterMap_cons, hline]
  cases f.number (cstr l) <;> rfl

theorem StateField.stored_eq_iff (f : StateField) (n : ℤ) : f.stored n = n ↔ f.InRange n := by
  have h32 : (Int32.ofInt (max (-2 ^ 63) (min (2 ^ 63 - 1) n))).toInt = n ↔
      -2 ^ 31 ≤ n ∧ n < 2 ^ 31 := by
    constructor
    · intro h
      exact h ▸ ⟨Int32.le_toInt _, Int32.toInt_lt _⟩
    · intro h
      rw [show max (-2 ^ 63) (min (2 ^ 63 - 1) n) = n by omega]
      exact Int32.toInt_ofInt_of_le h.1 h.2
  cases f with
  | date =>
    constructor
    · intro h
      exact h ▸ ⟨Int64.le_toInt _, Int64.toInt_lt _⟩
    · intro h
      obtain ⟨hlo, hhi⟩ : -2 ^ 63 ≤ n ∧ n < 2 ^ 63 := h
      rw [stored, show max (-2 ^ 63) (min (2 ^ 63 - 1) n) = n by omega]
      exact Int64.toInt_ofInt_of_le hlo hhi
  | _ => exact h32

/-- **Where the lines fit, a field keeps what is written** exactly if it can hold the number. -/
theorem kept_iff_of_short (hshort : ∀ l ∈ textLines content, l.length ≤ 255) (f : StateField) :
    FieldKept content f ↔ ∀ n ∈ f.written content, f.InRange n := by
  rw [FieldKept, mentioned_of_short hshort]
  refine forall₂_congr fun n hn => ?_
  rw [Option.mem_def.mp hn, Option.getD_some, f.stored_eq_iff]

end Pieces

theorem loadsRight_iff (content : Bytes) :
    LoadsRight content ↔ (StateAccepted content → StateComplete content) := by
  constructor
  · intro h hacc
    have hok := loadState_eq_ok.mpr ⟨hacc, rfl⟩
    obtain ⟨hpresent, hvalue⟩ := h _ hok
    refine ⟨hpresent, fun f n hn => ?_⟩
    rw [← hvalue f, get_of_loadState hok f, Option.mem_def.mp hn]
    rfl
  · intro h st hok
    obtain ⟨hpresent, hkept⟩ := h (loadState_eq_ok.mp hok).1
    refine ⟨hpresent, fun f => ?_⟩
    rw [get_of_loadState hok f]
    rcases hn : f.mentioned content with _ | n
    · have hnone : f.written content = none := by
        rw [← Option.not_isSome_iff_eq_none]
        intro hsome
        have hsome' := isSome_mentioned (loadState_eq_ok.mp hok).1.reads hsome
        rw [hn] at hsome'
        exact Bool.false_ne_true hsome'
      rw [hnone]
      rfl
    · exact hkept f n hn

/-! ## What has been saved -/

section Saved

variable (st : UpdatesState)

theorem StateField.inRange_get (f : StateField) : f.InRange (f.get st) := by
  cases f with
  | date => exact ⟨Int64.le_toInt _, Int64.toInt_lt _⟩
  | _ => exact ⟨Int32.le_toInt _, Int32.toInt_lt _⟩

theorem StateField.length_decimal_get (f : StateField) : (decimal (f.get st)).length ≤ 20 := by
  have hrange : -2 ^ 63 ≤ f.get st ∧ f.get st < 2 ^ 63 := by
    have h := f.inRange_get st
    cases f with
    | date => exact h
    | _ =>
      obtain ⟨hlo, hhi⟩ := h
      constructor <;> omega
  have hlen := length_decimal_le (Int64.ofInt (f.get st))
  rwa [Int64.toInt_ofInt_of_le hrange.1 hrange.2] at hlen

theorem StateField.number_line (f g : StateField) :
    f.number (g.line st) = if f = g then some (f.get st) else none := by
  rw [StateField.line]
  split_ifs with hfg
  · rw [← hfg, number_append]
    have h := leadingNumber_decimal_append (f.get st) (t := []) fun d hd =>
      absurd hd (Option.not_mem_none d)
    rwa [append_nil] at h
  · exact number_of_ne hfg _

theorem row_spec {row : Bytes} (h : row ∈ stateRows st) :
    (0x0a ∉ row ∧ row.length + 2 ≤ 256) ∧ 0 ∉ row := by
  rw [stateRows, mem_cons, mem_map] at h
  obtain rfl | ⟨f, -, rfl⟩ := h
  · decide
  · have hkey : 0x0a ∉ f.key ∧ 0 ∉ f.key ∧ f.key.length ≤ 12 := by cases f <;> decide
    have hlen := f.length_decimal_get st
    simp only [StateField.line, mem_append, mem_cons, not_or, length_append,
      length_cons]
    exact ⟨⟨⟨hkey.1, by decide, not_mem_decimal (by decide) _⟩, by omega⟩,
      hkey.2.1, by decide, not_mem_decimal (by decide) _⟩

theorem stateLines_stateText : stateLines (stateText st) = stateRows st := by
  rw [stateLines, stateText, pieces_flatMap fun row hrow => (row_spec st hrow).1, map_map]
  refine (map_congr_left fun row hrow => ?_).trans (map_id _)
  have hline := stateLine_take (row_spec st hrow).1.1 row.length
  rw [take_length, cstr_eq_self (row_spec st hrow).2, take_length] at hline
  rw [Function.comp_apply, stateLine_newline, hline, id]

theorem accepted_stateText : StateAccepted (stateText st) := by
  constructor
  · rw [stateLines_stateText, stateRows, forall_mem_cons, forall_mem_map]
    refine ⟨Or.inl rfl, fun f _ => Or.inr ?_⟩
    have hfield := lineField_eq_some.mpr ⟨f.get st, by rw [f.number_line, if_pos rfl], rfl⟩
    obtain ⟨e, he, -⟩ := Option.bind_eq_some_iff.mp hfield
    rw [he, Option.isSome_some]
  · have hcount : ∀ f : StateField, isCounted (f.line st) = f.isRequired := by
      intro f
      rw [isCounted]
      cases f <;> simp [StateField.all, StateField.number_line, StateField.isRequired]
    have hcomment : isCounted stateComment = false := by decide
    rw [stateLines_stateText, stateRows, countP_cons_of_neg (by simp [hcomment]),
      countP_map]
    have hcongr : StateField.all.countP (isCounted ∘ StateField.line st) =
        StateField.all.countP StateField.isRequired :=
      countP_congr fun f _ => by rw [Function.comp_apply, hcount]
    rw [hcongr]
    decide

theorem StateField.mentioned_stateText (f : StateField) :
    f.mentioned (stateText st) = some (f.get st) := by
  have hcomment : f.number stateComment = none := by cases f <;> decide
  rw [mentioned, stateLines_stateText, stateRows, filterMap_cons_none hcomment,
    filterMap_map]
  have hrows : ∀ g, (f.number ∘ StateField.line st) g = if f = g then some (f.get st) else none :=
    f.number_line st
  rw [funext hrows]
  cases f <;> rfl

end Saved

theorem StateField.ext_get {st' : UpdatesState} (h : ∀ f : StateField, f.get st = f.get st') :
    st = st' := by
  obtain ⟨p, q, d, s, u⟩ := st
  obtain ⟨p', q', d', s', u'⟩ := st'
  obtain rfl : p = p' := Int32.toInt_inj.mp (h pts)
  obtain rfl : q = q' := Int32.toInt_inj.mp (h qts)
  obtain rfl : d = d' := Int64.toInt_inj.mp (h date)
  obtain rfl : s = s' := Int32.toInt_inj.mp (h seq)
  obtain rfl : u = u' := Int32.toInt_inj.mp (h unreadCount)
  rfl

theorem loadState_stateText (st : UpdatesState) : loadState (some (stateText st)) = .ok st := by
  have hok := loadState_eq_ok.mpr ⟨accepted_stateText st, rfl⟩
  rw [hok]
  refine congrArg LoadResult.ok (StateField.ext_get fun f => ?_)
  rw [get_of_loadState hok f, f.mentioned_stateText]
  exact (f.stored_eq_iff _).mpr (f.inRange_get st)

theorem read_updatesStateSave {io : StateIo} {base : Option Bytes}
    {fs : InodeFs Bytes} (h : (updatesStateSave io base st fs).1 = true) :
    ∃ path, buildStatePath base = some path ∧
      (updatesStateSave io base st fs).2.read path = some (stateText st) := by
  unfold updatesStateSave at h ⊢
  generalize buildStatePath base = built at h ⊢
  rcases built with _ | path
  · exact absurd h Bool.false_ne_true
  · refine ⟨path, rfl, ?_⟩
    have hwritten := fs.read_write_openTrunc (stateTmpPath path) (stateText st)
    dsimp only at h ⊢
    generalize fs.openTrunc (stateTmpPath path) = x at h hwritten ⊢
    split_ifs at h ⊢ with hdir hlost hren
    have hnone : io.lost = 0 := not_not.mp hlost
    rw [hnone, Nat.sub_zero, take_length] at h ⊢
    rcases hfs : (x.2.write x.1 (stateText st)).rename (stateTmpPath path) path with _ | fs'
    · rw [hfs] at h
      exact absurd h Bool.false_ne_true
    · exact (InodeFs.read_of_rename hfs).trans hwritten

/-- **What has been saved is loaded.** -/
theorem updatesStateLoad_save {io : StateIo} {base : Option Bytes}
    {fs : InodeFs Bytes} (h : (updatesStateSave io base st fs).1 = true) :
    updatesStateLoad base (updatesStateSave io base st fs).2 = .ok st := by
  obtain ⟨path, hpath, hread⟩ := read_updatesStateSave h
  rw [updatesStateLoad, hpath]
  dsimp only
  rw [hread, loadState_stateText]

/-- A save fails only where a file operation does, or where there is no place for the file. -/
theorem fst_updatesStateSave_working {base : Option Bytes} (h : (buildStatePath base).isSome)
    (fs : InodeFs Bytes) : (updatesStateSave .working base st fs).1 = true := by
  obtain ⟨path, hpath⟩ := Option.isSome_iff_exists.mp h
  have hmoved := fs.rename_write_openTrunc (stateTmpPath path) path (stateText st)
  obtain ⟨fs', hfs⟩ := Option.isSome_iff_exists.mp hmoved
  have hall : (stateText st).take ((stateText st).length - StateIo.working.lost) = stateText st :=
    take_length
  rw [updatesStateSave, hpath]
  dsimp only
  rw [hall, hfs]
  rfl

theorem isSome_of_updatesStateLoad {base : Option Bytes} {fs : InodeFs Bytes}
    (h : updatesStateLoad base fs = .ok st) : (buildStatePath base).isSome := by
  rw [updatesStateLoad] at h
  rcases hpath : buildStatePath base with _ | path
  · rw [hpath] at h
    cases h
  · rfl

/-! ## All files -/

/-- **The law of the store.**  What has been saved is loaded.  A file is loaded right exactly if it
is complete or not accepted; and where its lines fit into the buffer, it is complete exactly if each
of the four fields has a line and every field can hold the number in its last line. -/
theorem updatesState_law (content : Bytes) :
    (∀ (io : StateIo) (base : Option Bytes) (st : UpdatesState) (fs : InodeFs Bytes),
      (updatesStateSave io base st fs).1 = true →
        updatesStateLoad base (updatesStateSave io base st fs).2 = .ok st) ∧
      (LoadsRight content ↔ (StateAccepted content → StateComplete content)) ∧
        ((∀ l ∈ textLines content, l.length ≤ 255) → (StateComplete content ↔
          (∀ f : StateField, f.isRequired = true → (f.written content).isSome = true) ∧
            ∀ f : StateField, ∀ n ∈ f.written content, f.InRange n)) := by
  refine ⟨fun io base st fs h => updatesStateLoad_save h, loadsRight_iff content, fun hshort => ?_⟩
  constructor
  · rintro ⟨hpresent, hkept⟩
    exact ⟨hpresent, fun f => (kept_iff_of_short hshort f).mp (hkept f)⟩
  · rintro ⟨hpresent, hrange⟩
    exact ⟨hpresent, fun f => (kept_iff_of_short hshort f).mpr (hrange f)⟩

/-- A state that is saved, and a file that was written by hand. -/
theorem updatesState_law_seven :
    updatesStateLoad (some (ascii "/c")) (updatesStateSave ⟨true, true, 0, true⟩ (some (ascii "/c"))
        ⟨-7, 7, 2 ^ 40, 7, 0⟩ .empty).2 = .ok ⟨-7, 7, 2 ^ 40, 7, 0⟩ ∧
      LoadsRight (ascii "seq=7\nqts=7\n\ndate=7\npts=7\n") := by
  obtain ⟨hsave, hload, hshort⟩ := updatesState_law (ascii "seq=7\nqts=7\n\ndate=7\npts=7\n")
  refine ⟨hsave _ _ _ _ (by decide +kernel), ?_⟩
  have hseven : ∀ f : StateField, f.written (ascii "seq=7\nqts=7\n\ndate=7\npts=7\n") =
      if f.isRequired then some 7 else none := by
    intro f
    cases f <;> decide +kernel
  refine hload.mpr fun _ => (hshort (by decide)).mpr ⟨?_, ?_⟩
  · intro f hf
    rw [hseven, if_pos hf]
    rfl
  · intro f n hn
    rw [hseven] at hn
    split_ifs at hn
    · obtain rfl := Option.some.inj hn
      cases f <;> exact ⟨by decide, by decide⟩
    · exact absurd hn (Option.not_mem_none n)

/-- **The fields are counted, not looked at**: four lines for `pts` make a state. -/
theorem loadState_pts_only : ¬ ∀ content, LoadsRight content := by
  intro h
  have hok : loadState (some (ascii "pts=1\npts=1\npts=1\npts=1\n")) = .ok ⟨1, 0, 0, 0, 0⟩ := by
    decide +kernel
  have hqts := (h _ _ hok).1 .qts rfl
  exact absurd hqts (by decide +kernel)

end TgCli.Infrastructure
