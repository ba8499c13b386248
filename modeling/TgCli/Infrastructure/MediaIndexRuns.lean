import TgCli.Core.TlValues
import TgCli.Infrastructure.MediaIndex
import TgCli.Lib.KeyedList
import TgCli.Lib.Machine

/-!
# `infrastructure/media_index.c`: the index as a map

What the two functions are for is a map from the ids of media to paths.  The index keeps it as text,
so a path has to survive the way through a line: it must not be empty, since an empty path means
that there is none, it must not contain a newline nor end in a carriage return, which is taken for a
part of the line end, and the line must fit into the buffer it is printed to.  Nothing of this is
checked when a path is put into the index, and the caller is told that it has been recorded.

`Recordable` collects the four conditions, and an `IndexTable` is an index that only such paths went
into.  For it the text is the map (`IndexTable.lookup_eq`, `IndexTable.put_eq`), and `indexLaw_iff`
says that these paths and no others are kept.
-/

namespace TgCli.Infrastructure

open List Lib TgCli.Core

/-! ## A put on the file -/

/-- `media_index_put`: whether it returns 0, and the index behind it. -/
def indexPut (mediaId : Int64) (localPath : Bytes) (file : Option Bytes) : Bool × Option Bytes :=
  match indexText mediaId localPath file with
  | none => (false, file)
  | some text => (true, some text)

/-! ## Lines -/

def entryLine (e : Int64 × Bytes) : Bytes :=
  decimal e.1.toInt ++ 0x09 :: e.2

/-- A path that survives the way through the index. -/
def Recordable (e : Int64 × Bytes) : Prop :=
  e.2 ≠ [] ∧ 0x0a ∉ e.2 ∧ e.2.getLast? ≠ some 0x0d ∧ (entryLine e).length < mediaIdxMaxLine

theorem stripEol_newline (s : Bytes) : stripEol (s ++ [0x0a]) = stripEol s :=
  rdropWhile_concat_pos _ _ _ rfl

theorem stripEol_of_getLast {s : Bytes} (hn : 0x0a ∉ s) (hr : s.getLast? ≠ some 0x0d) :
    stripEol s = s := by
  refine rdropWhile_eq_self_iff.mpr fun hs hlast => ?_
  rw [Bool.or_eq_true, beq_iff_eq, beq_iff_eq] at hlast
  obtain h | h := hlast
  · exact hn (h ▸ getLast_mem hs)
  · exact hr (by rw [getLast?_eq_some_getLast hs, h])

theorem splitTab_line (e : Int64 × Bytes) (t : Bytes) :
    splitTab (entryLine e ++ t) = some (decimal e.1.toInt, e.2 ++ t) := by
  have hne := forall_decide_ne (not_mem_decimal (c := 0x09) (by decide) e.1.toInt)
  rw [entryLine, append_assoc, splitTab, if_pos (by simp), takeWhile_append_of_pos hne,
    dropWhile_append_of_pos hne]
  simp

variable {e : Int64 × Bytes}

theorem not_mem_entryLine {c : UInt8} (hc : c < 0x20) (htab : c ≠ 0x09)
    (he : c ∉ e.2) : c ∉ entryLine e := by
  rw [entryLine, mem_append, mem_cons]
  rintro (h | h | h)
  · exact not_mem_decimal hc _ h
  · exact htab h
  · exact he h

theorem getLast?_entryLine (he : e.2 ≠ []) :
    (entryLine e).getLast? = e.2.getLast? := by
  obtain ⟨c, s, hs⟩ := exists_cons_of_ne_nil he
  rw [entryLine, getLast?_append_of_ne_nil _ (cons_ne_nil _ _), hs,
    getLast?_cons_cons]

/-! ## Tables -/

/-- **An index that only such paths went into**, as a list of the entries. -/
structure IndexTable where
  entries : List (Int64 × Bytes)
  recordable : ∀ e ∈ entries, Recordable e
  noNul : ∀ e ∈ entries, 0 ∉ e.2
  distinct : (entries.map Prod.fst).Nodup
  short : entries.length ≤ mediaIdxMaxEntries

def entriesText (entries : List (Int64 × Bytes)) : Bytes :=
  entries.flatMap fun e => entryLine e ++ [0x0a]

section Entries

variable {e : Int64 × Bytes} {entries : List (Int64 × Bytes)}

theorem snprintf_entryLine (he : Recordable e) :
    snprintf mediaIdxMaxLine (entryLine e) = entryLine e :=
  take_of_length_le (Nat.le_sub_one_of_lt he.2.2.2)

theorem indexBufs_cons (he : Recordable e) (hnul : 0 ∉ e.2) (t : Bytes) :
    indexBufs (entryLine e ++ [0x0a] ++ t) = (entryLine e ++ [0x0a]) :: indexBufs t ∨
      indexBufs (entryLine e ++ [0x0a] ++ t) = entryLine e :: [0x0a] :: indexBufs t := by
  obtain ⟨hne, hnl, -, hlen⟩ := he
  have hline : 0x0a ∉ entryLine e := not_mem_entryLine (by decide) (by decide) hnl
  have hzero : 0 ∉ entryLine e := not_mem_entryLine (by decide) (by decide) hnul
  have hcut : entryLine e ++ [0x0a] ++ t = entryLine e ++ 0x0a :: t := by
    rw [append_assoc]
    rfl
  have hbufs : ∀ s, indexBufs s = (pieces mediaIdxMaxLine s).map cstr := fun _ => rfl
  rw [hcut, hbufs, hbufs]
  by_cases hfull : (entryLine e).length + 1 = mediaIdxMaxLine
  · right
    have hpos : entryLine e ≠ [] := by
      rw [entryLine]
      simp
    rw [pieces_full_line hline hfull hpos, map_cons, map_cons, cstr_eq_self hzero]
    rfl
  · left
    have hzero' : 0 ∉ entryLine e ++ [0x0a] := by
      rw [mem_append, not_or]
      exact ⟨hzero, by decide⟩
    rw [pieces_line hline (by omega), map_cons, cstr_eq_self hzero']

theorem findPath_cons (he : Recordable e) (hnul : 0 ∉ e.2) (mediaId : Int64) (t : Bytes) :
    findPath mediaId (indexBufs (entryLine e ++ [0x0a] ++ t)) =
      if e.1 = mediaId then some e.2 else findPath mediaId (indexBufs t) := by
  have hstrip : stripEol e.2 = e.2 := stripEol_of_getLast he.2.1 he.2.2.1
  have hid : strtol (decimal e.1.toInt) = mediaId.toInt ↔ e.1 = mediaId := by
    rw [strtol_decimal, Int64.toInt_inj]
  have hnext : ∀ bufs, findPath mediaId ([0x0a] :: bufs) = findPath mediaId bufs := fun _ => rfl
  obtain h | h := indexBufs_cons he hnul t <;> rw [h, findPath]
  · rw [splitTab_line]
    dsimp only
    rw [stripEol_newline, hstrip, if_neg he.1, ite_not]
    simp only [hid]
  · rw [← append_nil (entryLine e), splitTab_line, append_nil, hnext]
    dsimp only
    rw [hstrip, if_neg he.1, ite_not]
    simp only [hid]

theorem findPath_entries (hrec : ∀ e ∈ entries, Recordable e) (hnul : ∀ e ∈ entries, 0 ∉ e.2)
    (mediaId : Int64) : findPath mediaId (indexBufs (entriesText entries)) =
      (lookupKey Prod.fst entries mediaId).map Prod.snd := by
  induction entries with
  | nil => rfl
  | cons e entries ih =>
    rw [forall_mem_cons] at hrec hnul
    rw [entriesText, flatMap_cons, findPath_cons hrec.1 hnul.1, lookupKey_cons]
    split_ifs
    · rfl
    · exact ih hrec.2 hnul.2

theorem putLines_of_full {count : ℕ} (h : mediaIdxMaxEntries ≤ count) (mediaId : Int64)
    (localPath : Bytes) (bufs : List Bytes) :
    putLines mediaId localPath count bufs = ([], false) := by
  cases bufs with
  | nil => rfl
  | cons buf bufs => rw [putLines, if_pos h]

theorem putLines_blank (mediaId : Int64) (localPath : Bytes) (count : ℕ) (bufs : List Bytes) :
    putLines mediaId localPath count ([0x0a] :: bufs) = putLines mediaId localPath count bufs := by
  by_cases h : mediaIdxMaxEntries ≤ count
  · rw [putLines_of_full h, putLines_of_full h]
  · rw [putLines, if_neg h]
    rfl

theorem putLines_cons (he : Recordable e) (hnul : 0 ∉ e.2) (mediaId : Int64) (localPath : Bytes)
    {count : ℕ} (hcount : count < mediaIdxMaxEntries) (t : Bytes) :
    putLines mediaId localPath count (indexBufs (entryLine e ++ [0x0a] ++ t)) =
      ((if e.1 = mediaId then indexLine mediaId localPath else entryLine e) ::
        (putLines mediaId localPath (count + 1) (indexBufs t)).1,
        decide (e.1 = mediaId) || (putLines mediaId localPath (count + 1) (indexBufs t)).2) := by
  have hstrip : stripEol (entryLine e) = entryLine e := by
    refine stripEol_of_getLast (not_mem_entryLine (by decide) (by decide) he.2.1) ?_
    rw [getLast?_entryLine he.1]
    exact he.2.2.1
  have hne : entryLine e ≠ [] := by
    rw [entryLine]
    simp
  have hsplit : splitTab (entryLine e) = some (decimal e.1.toInt, e.2) := by
    have h := splitTab_line e []
    rwa [append_nil, append_nil] at h
  -- with or without its newline, the line is stripped to the same text
  have hstep : ∀ buf bufs, stripEol buf = entryLine e →
      putLines mediaId localPath count (buf :: bufs) =
        ((if e.1 = mediaId then indexLine mediaId localPath else entryLine e) ::
          (putLines mediaId localPath (count + 1) bufs).1,
          decide (e.1 = mediaId) || (putLines mediaId localPath (count + 1) bufs).2) := by
    intro buf bufs hbuf
    rw [putLines, if_neg (by omega)]
    rw [hbuf, if_neg hne, hsplit, snprintf_entryLine he, Option.elim_some, strtol_decimal]
    simp only [Int64.toInt_inj, decide_eq_true_eq]
  obtain h | h := indexBufs_cons he hnul t
  · rw [h, hstep _ _ ((stripEol_newline _).trans hstrip)]
  · rw [h, hstep _ _ hstrip, putLines_blank]

theorem putLines_entries (hrec : ∀ e ∈ entries, Recordable e) (hnul : ∀ e ∈ entries, 0 ∉ e.2)
    (mediaId : Int64) (localPath : Bytes) (count : ℕ)
    (hcount : count + entries.length ≤ mediaIdxMaxEntries) :
    putLines mediaId localPath count (indexBufs (entriesText entries)) =
      (entries.map fun e => if e.1 = mediaId then indexLine mediaId localPath else entryLine e,
        decide (mediaId ∈ entries.map Prod.fst)) := by
  induction entries generalizing count with
  | nil => rfl
  | cons e entries ih =>
    rw [forall_mem_cons] at hrec hnul
    rw [length_cons] at hcount
    rw [entriesText, flatMap_cons, putLines_cons hrec.1 hnul.1 _ _ (by omega)]
    have hrest := ih hrec.2 hnul.2 (count + 1) (by omega)
    rw [entriesText] at hrest
    have hmem : mediaId ∈ e.1 :: entries.map Prod.fst ↔
        e.1 = mediaId ∨ mediaId ∈ entries.map Prod.fst := by
      rw [mem_cons, eq_comm]
    rw [hrest, map_cons, map_cons, decide_eq_decide.mpr hmem, Bool.decide_or]

theorem indexText_entries (hrec : ∀ e ∈ entries, Recordable e) (hnul : ∀ e ∈ entries, 0 ∉ e.2)
    (hdistinct : (entries.map Prod.fst).Nodup) (hshort : entries.length ≤ mediaIdxMaxEntries)
    (he : Recordable e) {old : Option Bytes} (hold : old.getD [] = entriesText entries) :
    indexText e.1 e.2 old =
      if e.1 ∈ entries.map Prod.fst ∨ entries.length < mediaIdxMaxEntries then
        some (entriesText (upsertKey Prod.fst entries e))
      else none := by
  have hbufs : old.elim [] indexBufs = indexBufs (entriesText entries) := by
    rw [← hold]
    cases old <;> rfl
  have hlines : ∀ l : List (Int64 × Bytes),
      (l.map entryLine).flatMap (· ++ [0x0a]) = entriesText l := fun l =>
    flatMap_map entryLine (· ++ [0x0a]) l
  have hline : indexLine e.1 e.2 = entryLine e := snprintf_entryLine he
  rw [indexText, hbufs, putLines_entries hrec hnul e.1 e.2 0 (by omega)]
  dsimp only
  rw [hline]
  by_cases hmem : e.1 ∈ entries.map Prod.fst
  · rw [decide_eq_true hmem, if_pos rfl, if_pos (Or.inl hmem),
      upsertKey_of_mem Prod.fst hdistinct hmem, ← hlines, map_map]
    congr 3
    ext d : 1
    exact (apply_ite entryLine _ _ _).symm
  · have hall : (entries.map fun d => if d.1 = e.1 then entryLine e else entryLine d) =
        entries.map entryLine :=
      map_congr_left fun d hd =>
        if_neg fun h : d.1 = e.1 => hmem (h ▸ mem_map_of_mem hd)
    rw [decide_eq_false hmem, if_neg Bool.false_ne_true, hall, upsertKey_of_notMem Prod.fst hmem,
      ← hlines, map_append, length_map, map_singleton]
    simp only [hmem, false_or]

end Entries

/-! ## The index as a map -/

namespace IndexTable

/-- The text of the file is the table; a file that is not there is an empty one. -/
def Holds (T : IndexTable) (file : Option Bytes) : Prop :=
  file.getD [] = entriesText T.entries

def put (T : IndexTable) (e : Int64 × Bytes) (he : Recordable e) (hnul : 0 ∉ e.2)
    (hroom : e.1 ∈ T.entries.map Prod.fst ∨ T.entries.length < mediaIdxMaxEntries) :
    IndexTable where
  entries := upsertKey Prod.fst T.entries e
  recordable := by
    intro d hd
    obtain rfl | hd := eq_or_mem_of_mem_upsertKey Prod.fst hd
    · exact he
    · exact T.recordable d hd
  noNul := by
    intro d hd
    obtain rfl | hd := eq_or_mem_of_mem_upsertKey Prod.fst hd
    · exact hnul
    · exact T.noNul d hd
  distinct := nodup_upsertKey Prod.fst T.distinct e
  short := by
    have hshort := T.short
    have hlen := congrArg List.length (map_upsertKey Prod.fst T.entries e)
    rw [List.length_map] at hlen
    rw [hlen]
    split_ifs with hmem
    · rw [List.length_map]
      exact hshort
    · rw [List.length_append, List.length_map, List.length_singleton]
      exact hroom.resolve_left hmem

variable {T : IndexTable} {file : Option Bytes}

/-- **A lookup in the text is a lookup in the map.** -/
theorem lookup_eq (h : T.Holds file) {cap : ℕ} (hcap : cap ≠ 0) (mediaId : Int64) :
    indexGet cap mediaId file =
      (lookupKey Prod.fst T.entries mediaId).map fun e => snprintf cap e.2 := by
  have hscan : (file.bind fun text => findPath mediaId (indexBufs text)) =
      findPath mediaId (indexBufs (file.getD [])) := by
    cases file <;> rfl
  rw [indexGet, if_neg hcap, hscan, h, findPath_entries T.recordable T.noNul, Option.map_map]
  rfl

/-- **A path that is put into the text is put into the map**, unless the index is full. -/
theorem put_eq (h : T.Holds file) {e : Int64 × Bytes} (he : Recordable e) (hnul : 0 ∉ e.2) :
    indexPut e.1 e.2 file = (false, file) ∨
      ∃ hroom, indexPut e.1 e.2 file =
        (true, some (entriesText (T.put e he hnul hroom).entries)) := by
  have htext := indexText_entries T.recordable T.noNul T.distinct T.short he h
  rw [indexPut, htext]
  split_ifs with hroom
  · exact Or.inr ⟨hroom, rfl⟩
  · exact Or.inl rfl

def empty : IndexTable where
  entries := []
  recordable := List.forall_mem_nil _
  noNul := List.forall_mem_nil _
  distinct := List.nodup_nil
  short := Nat.zero_le _

theorem holds_empty : empty.Holds none :=
  rfl

end IndexTable

/-! ## Runs -/

/-- The calls of a run.  A path is a C string. -/
inductive IndexOp
  | put (mediaId : Int64) (localPath : {p : Bytes // 0 ∉ p})
  | get (mediaId : Int64)

/-- The index behind a call; a lookup leaves it as it is. -/
def IndexOp.step (file : Option Bytes) : IndexOp → Option Bytes
  | .put mediaId localPath => (indexPut mediaId localPath file).2
  | .get _ => file

/-- The puts of a run are from `Q`. -/
def IndexOp.PutsFrom (Q : Set (Int64 × {p : Bytes // 0 ∉ p})) : IndexOp → Prop
  | .put mediaId localPath => (mediaId, localPath) ∈ Q
  | .get _ => True

/-- **The law of a map**: when a put has returned 0, a lookup of the id returns exactly the path,
and lookups of other ids return what they returned before. -/
def PutRight (file : Option Bytes) (mediaId : Int64) (localPath : Bytes) : Prop :=
  (indexPut mediaId localPath file).1 = true →
    (∀ cap, localPath.length < cap →
      indexGet cap mediaId (indexPut mediaId localPath file).2 = some localPath) ∧
    ∀ cap otherId, otherId ≠ mediaId →
      indexGet cap otherId (indexPut mediaId localPath file).2 = indexGet cap otherId file

/-- The law holds for every put of a run that starts without an index. -/
def IndexLaw (ops : List IndexOp) : Prop :=
  ∀ x ∈ trace IndexOp.step none ops, ∀ mediaId localPath, x.2 = .put mediaId localPath →
    PutRight x.1 mediaId localPath

theorem putRight_of_holds {T : IndexTable} {file : Option Bytes} (h : T.Holds file)
    (he : Recordable e) (hnul : 0 ∉ e.2) : PutRight file e.1 e.2 := by
  intro hok
  obtain hfull | ⟨hroom, hput⟩ := T.put_eq h he hnul
  · rw [hfull] at hok
    exact absurd hok Bool.false_ne_true
  have hafter : (T.put e he hnul hroom).Holds (indexPut e.1 e.2 file).2 := by
    rw [hput]
    rfl
  constructor
  · intro cap hcap
    rw [IndexTable.lookup_eq hafter (by omega)]
    show (lookupKey Prod.fst (upsertKey Prod.fst T.entries e) e.1).map _ = _
    rw [lookupKey_upsertKey, if_pos rfl, Option.map_some, snprintf,
      take_of_length_le (by omega)]
  · intro cap otherId hne
    by_cases hcap : cap = 0
    · rw [indexGet, indexGet, if_pos hcap, if_pos hcap]
    · rw [IndexTable.lookup_eq hafter hcap, IndexTable.lookup_eq h hcap]
      show (lookupKey Prod.fst (upsertKey Prod.fst T.entries e) otherId).map _ = _
      rw [lookupKey_upsertKey, if_neg hne]

theorem exists_holds_step (file : Option Bytes) (op : IndexOp)
    (hop : op.PutsFrom {q | Recordable (q.1, q.2.1)}) (h : ∃ T : IndexTable, T.Holds file) :
    ∃ T : IndexTable, T.Holds (op.step file) := by
  obtain ⟨T, h⟩ := h
  cases op with
  | get mediaId => exact ⟨T, h⟩
  | put mediaId localPath =>
    have hrec : Recordable (mediaId, localPath.1) := hop
    rw [IndexOp.step]
    obtain hfull | ⟨hroom, hput⟩ := T.put_eq h hrec localPath.2
    · rw [hfull]
      exact ⟨T, h⟩
    · rw [hput]
      exact ⟨T.put _ hrec localPath.2 hroom, rfl⟩

theorem indexLaw_of_recordable {ops : List IndexOp}
    (hops : ∀ op ∈ ops, op.PutsFrom {q | Recordable (q.1, q.2.1)}) : IndexLaw ops := by
  intro x hx mediaId localPath hput
  obtain ⟨⟨T, hT⟩, hvalid⟩ :=
    trace_invariant exists_holds_step ⟨_, IndexTable.holds_empty⟩ hops x hx
  rw [hput] at hvalid
  exact putRight_of_holds hT hvalid localPath.2

theorem findPath_single (hnul : 0 ∉ e.2) {p : Bytes}
    (h : findPath e.1 (indexBufs (indexLine e.1 e.2 ++ [0x0a])) = some p) :
    ∃ w, 0x0a ∉ w ∧ w <+: e.2.take (mediaIdxMaxLine - 2 - (decimal e.1.toInt).length) ∧
      p = stripEol w ∧ p ≠ [] := by
  set k := mediaIdxMaxLine - 2 - (decimal e.1.toInt).length with hk
  have hdec := length_decimal_le e.1
  have hmax : mediaIdxMaxLine = 2048 := rfl
  have hstart : entryLine (e.1, []) = decimal e.1.toInt ++ [0x09] := rfl
  have hlen : (entryLine (e.1, [])).length = (decimal e.1.toInt).length + 1 := by
    rw [hstart, length_append, length_singleton]
  have hline : indexLine e.1 e.2 = entryLine (e.1, []) ++ e.2.take k := by
    have hcut : mediaIdxMaxLine - 1 - (entryLine (e.1, [])).length = k := by omega
    rw [indexLine, snprintf, ← singleton_append, ← append_assoc, ← hstart,
      take_append, take_of_length_le (by omega), hcut]
  have hnl : 0x0a ∉ entryLine (e.1, []) :=
    not_mem_entryLine (by decide) (by decide) not_mem_nil
  -- the first piece begins with the number and the tab
  obtain ⟨w, hw, hpre₀, hcall⟩ := fgets_cases (mediaIdxMaxLine - (entryLine (e.1, [])).length)
    (e.2.take k ++ [0x0a])
  have hpre : w <+: e.2.take k := by
    obtain rfl | h := prefix_concat_iff.mp hpre₀
    · exact absurd (mem_append_right _ mem_cons_self) hw
    · exact h
  generalize hr : fgets (mediaIdxMaxLine - (entryLine (e.1, [])).length) (e.2.take k ++ [0x0a]) = r
    at hcall
  have hstrip : stripEol r = stripEol w := by
    obtain rfl | rfl := hcall
    · rfl
    · exact stripEol_newline w
  have hzero : 0 ∉ r := by
    have hw0 : 0 ∉ w := fun h => hnul (mem_of_mem_take (hpre.subset h))
    obtain rfl | rfl := hcall
    · exact hw0
    · rw [mem_append, not_or]
      exact ⟨hw0, by decide⟩
  have hzero' : 0 ∉ entryLine (e.1, []) ++ r := by
    rw [mem_append, not_or]
    exact ⟨not_mem_entryLine (by decide) (by decide) not_mem_nil, hzero⟩
  have hbufs : ∀ s, indexBufs s = (pieces mediaIdxMaxLine s).map cstr := fun _ => rfl
  rw [hbufs, hline, append_assoc, pieces_of_ne_nil (by decide) (by simp [hstart]),
    fgets_append hnl (by omega), hr, map_cons, cstr_eq_self hzero', findPath,
    splitTab_line] at h
  dsimp only at h
  rw [strtol_decimal, nil_append, if_neg (not_not.mpr rfl), hstrip] at h
  split_ifs at h with hnil
  refine ⟨w, hw, hpre, (Option.some.inj h).symm, ?_⟩
  rw [← Option.some.inj h]
  exact hnil

theorem recordable_of_putRight (hnul : 0 ∉ e.2) (h : PutRight none e.1 e.2) :
    Recordable e := by
  have htext : indexText e.1 e.2 none = some (indexLine e.1 e.2 ++ [0x0a]) := by
    rw [indexText, Option.elim_none, putLines]
    dsimp only
    rw [if_neg Bool.false_ne_true, if_pos (by decide), nil_append, flatMap_singleton]
  have hput : indexPut e.1 e.2 none = (true, some (indexLine e.1 e.2 ++ [0x0a])) := by
    rw [indexPut, htext]
  rw [PutRight, hput] at h
  have hget := (h rfl).1 (e.2.length + 1) (Nat.lt_succ_self _)
  rw [indexGet, if_neg (Nat.succ_ne_zero _), Option.bind_some] at hget
  obtain ⟨p, hp, hcut⟩ := Option.map_eq_some_iff.mp hget
  obtain ⟨w, hw, hpre, rfl, hne⟩ := findPath_single hnul hp
  -- the path is a part of `stripEol w`, which is a part of the path
  set k := mediaIdxMaxLine - 2 - (decimal e.1.toInt).length with hk
  have hle : e.2.length ≤ (stripEol w).length := by
    have hlen := congrArg length hcut
    rw [snprintf, length_take] at hlen
    omega
  have hstrip : stripEol w <+: w := rdropWhile_prefix _ w
  have htake : e.2.take k <+: e.2 := take_prefix k e.2
  have h₁ := hstrip.length_le
  have h₂ := hpre.length_le
  have h₃ := htake.length_le
  have heq : stripEol w = w := hstrip.eq_of_length (by omega)
  obtain rfl : w = e.2 := (hpre.trans htake).eq_of_length (by omega)
  refine ⟨heq ▸ hne, hw, ?_, ?_⟩
  · intro hlast
    refine rdropWhile_eq_self_iff.mp heq (heq ▸ hne) ?_
    rw [getLast_eq_iff_getLast?_eq_some (heq ▸ hne) |>.mpr hlast]
    rfl
  · have hdec := length_decimal_le e.1
    have hmax : mediaIdxMaxLine = 2048 := rfl
    rw [entryLine, length_append, length_cons]
    rw [length_take] at h₂
    omega

/-- **The paths that the index keeps**: calls with puts from `Q` all obey the law of a map exactly
when every path in `Q` is recordable. -/
theorem indexLaw_iff (Q : Set (Int64 × {p : Bytes // 0 ∉ p})) :
    (∀ ops : List IndexOp, (∀ op ∈ ops, op.PutsFrom Q) → IndexLaw ops) ↔
      ∀ q ∈ Q, Recordable (q.1, q.2.1) := by
  constructor
  · intro h q hq
    refine recordable_of_putRight q.2.2 ?_
    refine h [.put q.1 q.2] ?_ (none, .put q.1 q.2) mem_cons_self q.1 q.2 rfl
    intro op hop
    obtain rfl := mem_singleton.mp hop
    exact hq
  · intro h ops hops
    refine indexLaw_of_recordable fun op hop => ?_
    have hfrom := hops op hop
    cases op with
    | get mediaId => trivial
    | put mediaId localPath => exact h _ hfrom

/-- A file name may contain a newline: it cuts the path. -/
theorem indexGet_newline : ¬ IndexLaw [.put 7 ⟨ascii "a\nb", by decide⟩, .get 7] := by
  intro h
  have hlaw := h (none, .put 7 ⟨ascii "a\nb", by decide⟩) mem_cons_self 7 _ rfl
  have hget := (hlaw (by decide +kernel)).1 4096 (by decide)
  exact absurd hget (by decide +kernel)

end TgCli.Infrastructure
