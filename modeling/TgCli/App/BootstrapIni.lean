import TgCli.App.ConfigIni
import TgCli.Infrastructure.MediaIndex

/-!
# `app/bootstrap.c`: the other reader of `config.ini`

`bootstrap_read_ini_key` looks for the lines of a key as `read_ini_key` does, but what it makes of
them is its own.  A value in quotes ends at the next quote, on whatever line that is, and what
stands behind it does not count; a value that does not fit ends the search; the mark at the start of
a file is a part of its first line.

The function is two nested loops over the lines.  Here they are one, with a mode: between values,
within a value in quotes, or given up.

Two readers of one file should agree on what it says.  `agree_iff` says when these two do, for a key
whose value is on one line and fits.
-/

namespace TgCli.App

open List Lib TgCli.Core Infrastructure

/-- The results of `bootstrap_read_ini_key`: 0, -1 and -2. -/
inductive BootResult where
  | value (v : Bytes)
  | notFound
  | tooLong
  deriving DecidableEq

/-- Where the loops are: before the next line, with what is in `out` if `result` is 0; within a
quoted value, with what is in `out`; or at the end, since a value was too long. -/
inductive BootMode where
  | scanning (result : Option Bytes)
  | quoted (out : Bytes)
  | tooLong
  deriving DecidableEq

namespace BootMode

/-- A value that is in `out`; an empty one counts as none. -/
def stored (out : Bytes) : BootMode :=
  .scanning (if out = [] then none else some out)

/-- One round of the loop over a quoted value; `p` is what is left of the line. -/
def quote (cap : ℕ) (out p : Bytes) : BootMode :=
  if 0x22 ∈ p then
    let chunk := p.takeWhile (· ≠ 0x22)
    if out.length + chunk.length ≥ cap then .tooLong else stored (out ++ chunk)
  else
    let chunk := stripEol p
    if out.length + chunk.length + 1 ≥ cap then .tooLong else .quoted (out ++ chunk ++ [0x0a])

def step (key : Bytes) (cap : ℕ) : BootMode → Bytes → BootMode
  | .scanning result, line =>
    match lineValue key line with
    | none => .scanning result
    | some (0x22 :: p) => quote cap [] p
    | some p => if p.length ≥ cap then .tooLong else stored (rtrim p)
  | .quoted out, line => quote cap out line
  | .tooLong, _ => .tooLong

/-- The next line, and what is left of the file.  Only between values the rest of a line that is too
long for the buffer is skipped. -/
def read (s : Bytes) : BootMode → Bytes × Bytes
  | .scanning _ =>
    let line := cstr (fgets 8192 s)
    let rest := s.drop (fgets 8192 s).length
    if line.length = 8191 ∧ line.getLast? ≠ some 0x0a then
      (line, (rest.dropWhile (· ≠ 0x0a)).drop 1)
    else (line, rest)
  | _ => (cstr (fgets 8192 s), s.drop (fgets 8192 s).length)

/-- The loops, up to the end of the file; every line takes at least one byte. -/
def run (key : Bytes) (cap : ℕ) : ℕ → BootMode → Bytes → BootMode
  | 0, m, _ => m
  | n + 1, m, s =>
    if s = [] then m else run key cap n (m.step key cap (m.read s).1) (m.read s).2

/-- What is returned.  When the file ends within a quoted value, `out` is not empty. -/
def finish : BootMode → BootResult
  | .scanning none => .notFound
  | .scanning (some v) => .value v
  | .quoted out => .value out
  | .tooLong => .tooLong

end BootMode

/-- `bootstrap_read_ini_key`; `file` is `none` when the file cannot be opened. -/
def bootstrapReadIniKey (file : Option Bytes) (key : Bytes) (cap : ℕ) : BootResult :=
  match file with
  | none => .notFound
  | some text => (BootMode.run key cap text.length (.scanning none) text).finish

/-! ## The scan, line by line -/

section Lines

variable {key : Bytes} {cap : ℕ}

theorem BootMode.read_of_short {s : Bytes} (h : (fgets 8192 s).length < 8191) (m : BootMode) :
    m.read s = (cstr (fgets 8192 s), s.drop (fgets 8192 s).length) := by
  have hcstr : (cstr (fgets 8192 s)).length ≤ (fgets 8192 s).length :=
    (takeWhile_sublist _).length_le
  cases m with
  | scanning result => exact if_neg fun hlong => absurd hlong.1 (by omega)
  | quoted out => rfl
  | tooLong => rfl

theorem BootMode.run_eq {s : Bytes} (hshort : ∀ l ∈ textLines s, l.length < 512) {n : ℕ}
    (hn : s.length ≤ n) (m : BootMode) :
    BootMode.run key cap n m s =
      ((terminated (textLines s)).map cstr).foldl (BootMode.step key cap) m := by
  induction s using lines_induction generalizing n m with
  | last s hs =>
    rw [textLines_of_notMem hs] at hshort ⊢
    have hlen := hshort s mem_cons_self
    by_cases hnil : s = []
    · subst hnil
      cases n <;> rfl
    · obtain ⟨n, rfl⟩ := Nat.exists_eq_succ_of_ne_zero
        (n := n) (by have := length_pos_iff.mpr hnil; omega)
      have hline : fgets 8192 s = s := by
        rw [fgets_last hs, take_of_length_le (by omega)]
      have hread := BootMode.read_of_short (s := s) (by rw [hline]; omega) m
      rw [hline, drop_length] at hread
      have hdone : ∀ n m, BootMode.run key cap n m [] = m := fun n m => by cases n <;> rfl
      rw [BootMode.run, if_neg hnil, hread, hdone, terminated, if_neg hnil]
      rfl
  | line l t hl ih =>
    rw [textLines_append hl] at hshort ⊢
    rw [forall_mem_cons] at hshort
    rw [length_append, length_cons] at hn
    obtain ⟨n, rfl⟩ := Nat.exists_eq_succ_of_ne_zero (n := n) (by omega)
    have hline : fgets 8192 (l ++ 0x0a :: t) = l ++ [0x0a] := fgets_short hl (by omega) t
    have hread := BootMode.read_of_short (s := l ++ 0x0a :: t)
      (by rw [hline, length_append, length_singleton]; omega) m
    rw [hline, drop_line] at hread
    rw [BootMode.run, if_neg (by simp), hread, ih hshort.2 (by omega),
      terminated_cons l (textLines_ne_nil t), map_cons, foldl_cons]

end Lines

/-! ## What has to be the same -/

/-- Both readers find no value, or both find the same one. -/
def Agree (b : BootResult) (r : IniResult) : Prop :=
  (b = .notFound ∧ (r = .notOpened ∨ r = .notPresent ∨ r = .emptyValue)) ∨
    ∃ v, b = .value v ∧ r = .value v

def lineEnd (post : List Bytes) : Bytes :=
  if post = [] then [] else [0x0a]

/-- `p` is what the last line for the key says, with the line end; the lines before it are `pre`. -/
def LastText (text : Bytes) (key : IniKey) (pre : List Bytes) (p : Bytes) : Prop :=
  ∃ l post, fileLines text = pre ++ l :: post ∧ (∀ x ∈ post, keyText key.val (cstr x) = none) ∧
    keyText key.val (cstr (l ++ lineEnd post)) = some p

/-- The lines of the file are shorter than 512 bytes, and the value of the key is on one line, so
that a quote is closed there, and fits into both buffers. -/
structure OnOneLine (text : Bytes) (key : IniKey) (capB capC : ℕ) : Prop where
  short : ∀ l ∈ textLines text, l.length < 512
  closed : ∀ pre p, LastText text key pre p → p.head? = some 0x22 → 0x22 ∈ p.tail
  fitsB : ∀ pre p, LastText text key pre p → (rtrim p).length < capB
  fitsC : ∀ pre p, LastText text key pre p → (rtrim p).length < capC

def Between (key : IniKey) (cap : ℕ) (lines : List Bytes) : Prop :=
  ∃ result, (lines.map fun l => cstr (l ++ [0x0a])).foldl (BootMode.step key.val cap)
    (.scanning none) = .scanning result

/-- A text with nothing but blanks behind the second quote; without quotes, one that fits as it is.
-/
def PlainText (cap : ℕ) (p : Bytes) : Prop :=
  if p.head? = some 0x22 then rtrim ((p.tail.dropWhile (· ≠ 0x22)).drop 1) = [] else p.length < cap

/-- What the file has to be like around the last line for the key: if it is behind the mark, its
value is empty; otherwise the scan comes to it between values, and its text is plain. -/
def ReadAlike (text : Bytes) (key : IniKey) (capB : ℕ) : Prop :=
  ∀ pre p, LastText text key pre p →
    if pre = [] ∧ bom <+: text then unquote (rtrim p) = []
    else Between key capB (if bom <+: text then pre.tail else pre) ∧ PlainText capB p

/-! ## What `bootstrap_read_ini_key` finds -/

section Bootstrap

variable {key : IniKey} {cap : ℕ}

variable {lines : List Bytes}

theorem foldl_step_scanning (h : ∀ x ∈ lines, lineValue key.val x = none) (result : Option Bytes) :
    lines.foldl (BootMode.step key.val cap) (.scanning result) = .scanning result := by
  induction lines with
  | nil => rfl
  | cons x lines ih =>
    rw [forall_mem_cons] at h
    rw [foldl_cons, BootMode.step, h.1, ih h.2]

theorem foldl_step_tooLong (lines : List Bytes) :
    lines.foldl (BootMode.step key.val cap) .tooLong = .tooLong := by
  induction lines with
  | nil => rfl
  | cons x lines ih => rw [foldl_cons, BootMode.step, ih]

/-- A value of several lines is under way, or has been found, or was too long. -/
def Multi : BootMode → Prop
  | .scanning result => ∃ v, result = some v ∧ 0x0a ∈ v
  | .quoted out => 0x0a ∈ out
  | .tooLong => True

theorem multi_quote {out : Bytes} (h : 0x0a ∈ out) (p : Bytes) :
    Multi (BootMode.quote cap out p) := by
  have hmem : ∀ t, 0x0a ∈ out ++ t := fun t => mem_append_left t h
  rw [BootMode.quote]
  dsimp only
  split_ifs
  · trivial
  · rw [BootMode.stored, if_neg (ne_nil_of_mem (hmem _))]
    exact ⟨_, rfl, hmem _⟩
  · trivial
  · rw [append_assoc]
    exact hmem _

theorem multi_foldl (h : ∀ x ∈ lines, lineValue key.val x = none) {m : BootMode}
    (hm : Multi m) : Multi (lines.foldl (BootMode.step key.val cap) m) := by
  induction lines generalizing m with
  | nil => exact hm
  | cons x lines ih =>
    rw [forall_mem_cons] at h
    refine ih h.2 ?_
    cases m with
    | scanning result =>
      rw [BootMode.step, h.1]
      exact hm
    | quoted out => exact multi_quote hm x
    | tooLong => trivial

theorem mem_of_quote_eq_quoted {out p out' : Bytes}
    (h : BootMode.quote cap out p = .quoted out') : 0x0a ∈ out' := by
  rw [BootMode.quote] at h
  dsimp only [BootMode.stored] at h
  split_ifs at h
  cases h
  exact mem_append_right _ mem_cons_self

theorem mem_of_foldl_eq_quoted {result : Option Bytes} {out : Bytes}
    (h : lines.foldl (BootMode.step key.val cap) (.scanning result) = .quoted out) :
    0x0a ∈ out := by
  rcases eq_nil_or_concat lines with rfl | ⟨lines, x, rfl⟩
  · exact absurd h BootMode.noConfusion
  rw [concat_eq_append, foldl_append, foldl_cons, foldl_nil] at h
  cases hm : lines.foldl (BootMode.step key.val cap) (.scanning result) with
  | scanning result' =>
    rw [hm, BootMode.step] at h
    split at h
    · exact absurd h BootMode.noConfusion
    · exact mem_of_quote_eq_quoted h
    · rw [BootMode.stored] at h
      split_ifs at h
  | quoted out' =>
    rw [hm] at h
    exact mem_of_quote_eq_quoted h
  | tooLong =>
    rw [hm] at h
    exact absurd h BootMode.noConfusion

end Bootstrap

/-! ## Comparing -/

theorem iniResult_ne_nil {v : Bytes} (h : v ≠ []) : iniResult (some v) = .value v := by
  cases v with
  | nil => exact absurd rfl h
  | cons c v => rfl

theorem agree_notFound_iff (u : Bytes) : Agree .notFound (iniResult (some u)) ↔ u = [] := by
  by_cases hu : u = []
  · subst hu
    simp [Agree, iniResult]
  · rw [iniResult_ne_nil hu]
    simp [Agree, hu]

theorem agree_value_iff {v : Bytes} (hv : v ≠ []) (u : Bytes) :
    Agree (.value v) (iniResult (some u)) ↔ v = u := by
  by_cases hu : u = []
  · subst hu
    simp [Agree, iniResult, hv]
  · rw [iniResult_ne_nil hu]
    simp [Agree, eq_comm]

theorem agree_stored_iff (v u : Bytes) :
    Agree (BootMode.stored v).finish (iniResult (some u)) ↔ v = u := by
  rw [BootMode.stored]
  by_cases hv : v = []
  · rw [if_pos hv, hv, eq_comm]
    exact agree_notFound_iff u
  · rw [if_neg hv]
    exact agree_value_iff hv u

theorem not_agree_tooLong (r : IniResult) : ¬ Agree .tooLong r := by
  simp [Agree]

theorem not_agree_of_multi {m : BootMode} (hm : Multi m) {u : Bytes} (hu : 0x0a ∉ u) :
    ¬ Agree m.finish (iniResult (some u)) := by
  have hvalue : ∀ v, 0x0a ∈ v → ¬ Agree (.value v) (iniResult (some u)) := by
    intro v hv h
    rw [agree_value_iff (ne_nil_of_mem hv)] at h
    exact hu (h ▸ hv)
  cases m with
  | scanning result =>
    obtain ⟨v, rfl, hv⟩ := hm
    exact hvalue v hv
  | quoted out => exact hvalue out hm
  | tooLong => exact not_agree_tooLong _

theorem rtrim_append_quote (a w : Bytes) : rtrim (a ++ 0x22 :: w) = a ++ 0x22 :: rtrim w :=
  rdropWhile_append_cons rfl a w

theorem takeWhile_eq_unquote_iff {t : Bytes} (ht : 0x22 ∈ t) :
    t.takeWhile (· ≠ 0x22) = unquote (rtrim (0x22 :: t)) ↔
      rtrim ((t.dropWhile (· ≠ 0x22)).drop 1) = [] := by
  obtain ⟨q, w, rfl, hq⟩ := eq_append_cons_of_mem ht
  rw [takeWhile_ne_append hq, dropWhile_ne_append hq, drop_one, tail_cons,
    ← cons_append, rtrim_append_quote]
  generalize rtrim w = w'
  by_cases hw : w' = []
  · subst hw
    have hquoted : unquote (0x22 :: q ++ [0x22]) = q := by
      rw [unquote, if_pos ⟨by simp, rfl, getLast?_concat⟩, cons_append, tail_cons,
        dropLast_concat]
    exact iff_of_true hquoted.symm rfl
  · -- a quote is left over in one reading, and not in the other
    have hmem : 0x22 ∈ unquote (0x22 :: q ++ 0x22 :: w') := by
      rw [unquote]
      split_ifs
      · rw [cons_append, tail_cons, dropLast_append_of_ne_nil (cons_ne_nil _ _),
          dropLast_cons_of_ne_nil hw]
        exact mem_append_right q mem_cons_self
      · exact mem_cons_self
    refine iff_of_false (fun h => hq ?_) hw
    rw [h]
    exact hmem

theorem length_takeWhile_lt {t : Bytes} (ht : 0x22 ∈ t) :
    (t.takeWhile (· ≠ 0x22)).length < (rtrim (0x22 :: t)).length := by
  obtain ⟨q, w, rfl, hq⟩ := eq_append_cons_of_mem ht
  rw [takeWhile_ne_append hq, ← cons_append, rtrim_append_quote, length_append,
    length_cons]
  omega

theorem unquote_of_head {r : Bytes} (h : r.head? ≠ some 0x22) : unquote r = r :=
  if_neg fun hq => h hq.2.1

theorem head?_of_head?_rtrim {p : Bytes} {c : UInt8} (h : (rtrim p).head? = some c) :
    p.head? = some c := by
  have htrim : rtrim p <+: p := rdropWhile_prefix _ p
  obtain ⟨t, ht⟩ := htrim
  have hne : rtrim p ≠ [] := by
    intro hnil
    rw [hnil] at h
    exact absurd h (by simp)
  rw [← ht, head?_append_of_ne_nil _ hne, h]

theorem unquote_subset (r : Bytes) : unquote r ⊆ r := by
  rw [unquote]
  split_ifs
  · exact fun c hc => mem_of_mem_tail (mem_of_mem_dropLast hc)
  · exact List.Subset.refl r

section Fold

variable {key : IniKey} {cap : ℕ} {lines post : List Bytes} {b p : Bytes}

theorem agree_foldl_iff (hb : lineValue key.val b = some p)
    (hpost : ∀ x ∈ post, lineValue key.val x = none)
    (hclosed : p.head? = some 0x22 → 0x22 ∈ p.tail) (hfits : (rtrim p).length < cap)
    (hline : 0x0a ∉ unquote (rtrim p)) :
    Agree ((lines ++ b :: post).foldl (BootMode.step key.val cap) (.scanning none)).finish
        (iniResult (some (unquote (rtrim p)))) ↔
      (∃ result, lines.foldl (BootMode.step key.val cap) (.scanning none) = .scanning result) ∧
        PlainText cap p := by
  rw [foldl_append, foldl_cons]
  cases hm : lines.foldl (BootMode.step key.val cap) (.scanning none) with
  | scanning result =>
    rw [and_iff_right ⟨result, rfl⟩, PlainText]
    by_cases hhead : p.head? = some 0x22
    · obtain ⟨t, rfl⟩ := head?_eq_some_iff.mp hhead
      have ht : 0x22 ∈ t := hclosed rfl
      have hlen := length_takeWhile_lt ht
      have hstep : BootMode.step key.val cap (.scanning result) b =
          BootMode.stored (t.takeWhile (· ≠ 0x22)) := by
        rw [BootMode.step, hb]
        show BootMode.quote cap [] t = _
        rw [BootMode.quote, if_pos ht]
        rw [length_nil, if_neg (by omega), nil_append]
      rw [hstep, BootMode.stored, foldl_step_scanning hpost, ← BootMode.stored, agree_stored_iff,
        if_pos hhead, tail_cons]
      exact takeWhile_eq_unquote_iff ht
    · have hstep : BootMode.step key.val cap (.scanning result) b =
          if p.length ≥ cap then .tooLong else BootMode.stored (rtrim p) := by
        rw [BootMode.step, hb]
        split
        · rename_i h
          exact absurd h (Option.some_ne_none p)
        · rename_i h
          obtain rfl := Option.some.inj h
          exact absurd rfl hhead
        · rename_i h
          obtain rfl := Option.some.inj h
          rfl
      have hvalue : rtrim p = unquote (rtrim p) :=
        (unquote_of_head fun h => hhead (head?_of_head?_rtrim h)).symm
      rw [hstep, if_neg hhead]
      by_cases hlong : p.length ≥ cap
      · rw [if_pos hlong, foldl_step_tooLong]
        exact iff_of_false (not_agree_tooLong _) (by omega)
      · rw [if_neg hlong, BootMode.stored, foldl_step_scanning hpost, ← BootMode.stored,
          agree_stored_iff]
        exact iff_of_true hvalue (by omega)
  | quoted out =>
    have hmulti : Multi (BootMode.step key.val cap (.quoted out) b) :=
      multi_quote (mem_of_foldl_eq_quoted hm) b
    refine iff_of_false (not_agree_of_multi (multi_foldl hpost hmulti) hline) ?_
    rintro ⟨⟨result, h⟩, -⟩
    exact absurd h BootMode.noConfusion
  | tooLong =>
    rw [BootMode.step, foldl_step_tooLong]
    refine iff_of_false (not_agree_tooLong _) ?_
    rintro ⟨⟨result, h⟩, -⟩
    exact absurd h BootMode.noConfusion

end Fold

/-! ## The two readers of a file -/

theorem lineEnd_cases (post : List Bytes) : lineEnd post = [] ∨ lineEnd post = [0x0a] := by
  rw [lineEnd]
  split_ifs
  · exact Or.inl rfl
  · exact Or.inr rfl

theorem terminated_lineEnd {l : Bytes} (hl : l ≠ []) (post : List Bytes) :
    terminated (l :: post) = (l ++ lineEnd post) :: terminated post := by
  by_cases hpost : post = []
  · have hone : terminated [l] = [l] := if_neg hl
    rw [hpost, hone, lineEnd, if_pos rfl, append_nil]
    rfl
  · rw [terminated_cons l hpost, lineEnd, if_neg hpost]

section Readers

variable {text : Bytes} {key : IniKey} {capB capC : ℕ} {pre : List Bytes} {p : Bytes}

theorem keyText_lineEnd (key : IniKey) (l : Bytes) (post : List Bytes) :
    keyText key.val (cstr (l ++ lineEnd post)) = keyText key.val (cstr l) ∨
      keyText key.val (cstr (l ++ lineEnd post)) =
        (keyText key.val (cstr l)).map (· ++ [0x0a]) := by
  obtain h | h := lineEnd_cases post <;> rw [h]
  · rw [append_nil]
    exact Or.inl rfl
  · obtain h | h := cstr_newline l <;> rw [h]
    · exact Or.inl rfl
    · exact Or.inr (keyText_newline _ _)

variable {ls : List Bytes}

theorem lineValue_terminated (h : ∀ x ∈ ls, keyText key.val (cstr x) = none) :
    ∀ y ∈ (terminated ls).map cstr, lineValue key.val y = none := by
  intro y hy
  obtain ⟨x, hx, rfl⟩ := mem_map.mp hy
  obtain ⟨l, hl, rfl | rfl⟩ := mem_terminated hx
  · rw [lineValue_eq, h x hl]
  · rw [lineValue_newline, lineValue_eq, h l hl]

theorem lineValue_bom (hkey : ¬ bom <+: key.val) (y : Bytes) :
    lineValue key.val (cstr (bom ++ y)) = none := by
  have hcstr : cstr (bom ++ y) = bom ++ cstr y := rfl
  have hmark : ∀ {a : Bytes}, 0x3D ∉ a → 0x3D ∉ bom ++ a := fun ha h =>
    (mem_append.mp h).elim (by decide) ha
  rw [hcstr, lineValue_eq]
  by_cases hy : 0x3D ∈ cstr y
  · obtain ⟨a, b, hab, ha⟩ := eq_append_cons_of_mem hy
    rw [hab, ← append_assoc, keyText_append (hmark ha), if_neg]
    intro hnames
    rw [names, Bool.and_eq_true, beq_iff_eq] at hnames
    refine hkey (hnames.2 ▸ ?_)
    have htrim : trimBlanks (bom ++ a) = [0xEF, 0xBB] ++ 0xBF :: a.rdropWhile isBlank :=
      rdropWhile_append_cons rfl [0xEF, 0xBB] a
    rw [htrim]
    exact prefix_append bom _
  · exact keyText_of_notMem (hmark hy) _

theorem bootstrapReadIniKey_eq (hshort : ∀ l ∈ textLines text, l.length < 512) :
    bootstrapReadIniKey (some text) key.val capB =
      (((terminated (textLines text)).map cstr).foldl (BootMode.step key.val capB)
        (.scanning none)).finish := by
  rw [bootstrapReadIniKey, BootMode.run_eq hshort le_rfl]

theorem textLines_of_bom (hbom : bom <+: text) {l : Bytes}
    (h : fileLines text = l :: ls) : textLines text = (bom ++ l) :: ls := by
  obtain ⟨body, rfl⟩ := hbom
  exact textLines_append_left (by decide) h

theorem textLines_of_not_bom (hbom : ¬ bom <+: text) : textLines text = fileLines text := by
  rw [fileLines, stripBom_of_not hbom]

theorem lineValue_marked (hkey : ¬ bom <+: key.val) (hbom : bom <+: text) {l : Bytes}
    (hfile : fileLines text = l :: ls) (h : ∀ x ∈ ls, keyText key.val (cstr x) = none) :
    ∀ y ∈ (terminated (textLines text)).map cstr, lineValue key.val y = none := by
  rw [textLines_of_bom hbom hfile, terminated_lineEnd (by simp [bom]), map_cons,
    forall_mem_cons, append_assoc]
  exact ⟨lineValue_bom hkey _, lineValue_terminated h⟩

theorem filterMap_cutValue (h : ∀ x ∈ ls, keyText key.val (cstr x) = none) :
    (ls.filterMap fun l => (keyText key.val (cstr l)).map (cutValue capC)) = [] := by
  refine filterMap_eq_nil_iff.mpr fun x hx => ?_
  rw [h x hx, Option.map_none]

theorem scanLines_of_short (hshort : ∀ l ∈ textLines text, l.length < 512) :
    scanLines key.val capC (iniLines text) =
      ((fileLines text).filterMap fun l =>
        (keyText key.val (cstr l)).map (cutValue capC)).getLast? := by
  obtain ⟨l, ls, hlines⟩ := exists_cons_of_ne_nil (textLines_ne_nil (stripBom text))
  have hfile : fileLines text = l :: ls := hlines
  have hone : ∀ c l, l.length ≤ c - 1 → (linePieces c 512 l).filterMap (pieceValue key.val capC) =
      ((keyText key.val (cstr l)).map (cutValue capC)).toList := by
    intro c l hl
    rw [linePieces, take_of_length_le hl, drop_of_length_le hl, pieces_nil,
      filterMap_eq_flatMap_toList, flatMap_singleton, pieceValue, lineValue_eq]
  have hlen : l.length ≤ firstCap text - 1 ∧ ∀ l ∈ ls, l.length ≤ 512 - 1 := by
    by_cases hbom : bom <+: text
    · rw [textLines_of_bom hbom hfile, forall_mem_cons] at hshort
      refine ⟨?_, fun l hl => Nat.le_sub_one_of_lt (hshort.2 l hl)⟩
      have hfirst := hshort.1
      obtain ⟨body, rfl⟩ := hbom
      rw [length_append] at hfirst
      rw [firstCap_bom]
      have hmark : bom.length = 3 := rfl
      omega
    · rw [textLines_of_not_bom hbom, hfile, forall_mem_cons] at hshort
      rw [firstCap_of_not hbom]
      exact ⟨Nat.le_sub_one_of_lt hshort.1, fun l hl => Nat.le_sub_one_of_lt (hshort.2 l hl)⟩
  rw [scanLines_iniLines hfile, hfile, hone _ _ hlen.1, filterMap_eq_flatMap_toList,
    flatMap_cons, flatMap_congr fun l hl => hone _ _ (hlen.2 l hl)]

theorem readIniKey_of_lastText (h : OnOneLine text key capB capC)
    (hlast : LastText text key pre p) :
    readIniKey (some text) key.val capC = iniResult (some (unquote (rtrim p))) ∧
      0x0a ∉ unquote (rtrim p) := by
  have hfits := h.fitsC pre p hlast
  obtain ⟨l, post, hfile, hpost, hp⟩ := hlast
  have hnl : 0x0a ∉ l := by
    refine notMem_of_mem_textLines (s := stripBom text) ?_
    show l ∈ fileLines text
    rw [hfile]
    exact mem_append_right _ mem_cons_self
  -- the text without the line end
  obtain ⟨p₀, hp₀, hcut, htrim⟩ : ∃ p₀, keyText key.val (cstr l) = some p₀ ∧
      cutValue capC p₀ = cutValue capC p ∧ rtrim p = rtrim p₀ := by
    obtain heq | heq := keyText_lineEnd key l post
    · exact ⟨p, heq ▸ hp, rfl, rfl⟩
    · rw [hp] at heq
      obtain ⟨p₀, hp₀, rfl⟩ := Option.map_eq_some_iff.mp heq.symm
      exact ⟨p₀, hp₀, (cutValue_newline capC p₀).symm, rdropWhile_concat_pos _ _ _ rfl⟩
  have hvalue : cutValue capC p = unquote (rtrim p) := cutValue_of_le (Nat.le_sub_one_of_lt hfits)
  have hscan : scanLines key.val capC (iniLines text) = some (unquote (rtrim p)) := by
    rw [scanLines_of_short h.short, hfile, filterMap_append, filterMap_cons, hp₀,
      filterMap_cutValue hpost]
    rw [Option.map_some, getLast?_append, getLast?_singleton, hcut, hvalue]
    rfl
  refine ⟨by rw [readIniKey_some, hscan], fun hmem => hnl ?_⟩
  have hrtrim := unquote_subset _ hmem
  rw [htrim] at hrtrim
  have hpre : rtrim p₀ <+: p₀ := rdropWhile_prefix _ p₀
  exact takeWhile_subset _ (keyText_subset hp₀ (hpre.subset hrtrim))

theorem agree_iff_of_marked (hkey : ¬ bom <+: key.val) (h : OnOneLine text key capB capC)
    (hlast : LastText text key [] p) (hbom : bom <+: text) :
    Agree (bootstrapReadIniKey (some text) key.val capB) (readIniKey (some text) key.val capC) ↔
      unquote (rtrim p) = [] := by
  rw [(readIniKey_of_lastText h hlast).1, bootstrapReadIniKey_eq h.short]
  obtain ⟨l, post, hfile, hpost, -⟩ := hlast
  rw [foldl_step_scanning (lineValue_marked hkey hbom hfile hpost)]
  exact agree_notFound_iff _

theorem agree_iff_of_lines (h : OnOneLine text key capB capC) (hlast : LastText text key pre p)
    {rawPre : List Bytes} (hraw : ∀ l post, fileLines text = pre ++ l :: post →
      textLines text = rawPre ++ l :: post) :
    Agree (bootstrapReadIniKey (some text) key.val capB) (readIniKey (some text) key.val capC) ↔
      Between key capB rawPre ∧ PlainText capB p := by
  obtain ⟨hread, hline⟩ := readIniKey_of_lastText h hlast
  have hclosed := h.closed pre p hlast
  have hfits := h.fitsB pre p hlast
  obtain ⟨l, post, hfile, hpost, hp⟩ := hlast
  have hl : l ≠ [] := by
    rintro rfl
    have hnone : keyText key.val (cstr (lineEnd post)) = none := by
      obtain hend | hend := lineEnd_cases post <;> rw [hend] <;>
        exact keyText_of_notMem (by decide) _
    rw [nil_append, hnone] at hp
    exact Option.some_ne_none p hp.symm
  rw [hread, bootstrapReadIniKey_eq h.short, hraw l post hfile,
    terminated_append rawPre (cons_ne_nil l post), terminated_lineEnd hl, map_append,
    map_map, map_cons]
  refine agree_foldl_iff ?_ (lineValue_terminated hpost) hclosed hfits hline
  rw [lineValue_eq, hp]

theorem exists_lastText (h : ∃ l ∈ fileLines text, keyText key.val (cstr l) ≠ none) :
    ∃ pre p, LastText text key pre p := by
  have hsplit : ∀ ls : List Bytes, (∃ l ∈ ls, keyText key.val (cstr l) ≠ none) →
      ∃ pre l post, ls = pre ++ l :: post ∧ keyText key.val (cstr l) ≠ none ∧
        ∀ x ∈ post, keyText key.val (cstr x) = none := by
    intro ls
    induction ls with
    | nil =>
      rintro ⟨l, hl, -⟩
      exact absurd hl not_mem_nil
    | cons a ls ih =>
      intro h
      by_cases hls : ∃ l ∈ ls, keyText key.val (cstr l) ≠ none
      · obtain ⟨pre, l, post, rfl, hl, hpost⟩ := ih hls
        exact ⟨a :: pre, l, post, rfl, hl, hpost⟩
      · obtain ⟨l, hl, hsome⟩ := h
        have hnone : ∀ x ∈ ls, keyText key.val (cstr x) = none := fun x hx =>
          not_not.mp fun hx' => hls ⟨x, hx, hx'⟩
        obtain rfl | hl := mem_cons.mp hl
        · exact ⟨[], l, ls, rfl, hsome, hnone⟩
        · exact absurd (hnone l hl) hsome
  obtain ⟨pre, l, post, hfile, hl, hpost⟩ := hsplit _ h
  obtain ⟨p, hp⟩ := Option.ne_none_iff_exists'.mp hl
  obtain heq | heq := keyText_lineEnd key l post
  · exact ⟨pre, p, l, post, hfile, hpost, heq.trans hp⟩
  · exact ⟨pre, p ++ [0x0a], l, post, hfile, hpost, by rw [heq, hp]; rfl⟩

theorem agree_of_none (hkey : ¬ bom <+: key.val) (hshort : ∀ l ∈ textLines text, l.length < 512)
    (hnone : ∀ l ∈ fileLines text, keyText key.val (cstr l) = none) :
    Agree (bootstrapReadIniKey (some text) key.val capB) (readIniKey (some text) key.val capC) := by
  have hlines : ∀ y ∈ (terminated (textLines text)).map cstr, lineValue key.val y = none := by
    by_cases hbom : bom <+: text
    · obtain ⟨l, ls, hfile⟩ := exists_cons_of_ne_nil (textLines_ne_nil (stripBom text))
      have hfile : fileLines text = l :: ls := hfile
      rw [hfile, forall_mem_cons] at hnone
      exact lineValue_marked hkey hbom hfile hnone.2
    · rw [textLines_of_not_bom hbom]
      exact lineValue_terminated hnone
  rw [bootstrapReadIniKey_eq hshort, foldl_step_scanning hlines, readIniKey_some,
    scanLines_of_short hshort, filterMap_cutValue hnone]
  exact Or.inl ⟨rfl, Or.inr (Or.inl rfl)⟩

theorem between_marked (hkey : ¬ bom <+: key.val) (l : Bytes) (ls : List Bytes) :
    Between key capB ((bom ++ l) :: ls) ↔ Between key capB ls := by
  have hstep : BootMode.step key.val capB (.scanning none) (cstr (bom ++ l ++ [0x0a])) =
      .scanning none := by
    rw [append_assoc, BootMode.step, lineValue_bom hkey]
  rw [Between, Between, map_cons, foldl_cons, hstep]

theorem agree_iff_of_lastText (hkey : ¬ bom <+: key.val) (h : OnOneLine text key capB capC)
    (hlast : LastText text key pre p) :
    Agree (bootstrapReadIniKey (some text) key.val capB) (readIniKey (some text) key.val capC) ↔
      if pre = [] ∧ bom <+: text then unquote (rtrim p) = []
      else Between key capB (if bom <+: text then pre.tail else pre) ∧ PlainText capB p := by
  by_cases hbom : bom <+: text
  · rcases pre with _ | ⟨l₀, pre⟩
    · rw [if_pos ⟨rfl, hbom⟩]
      exact agree_iff_of_marked hkey h hlast hbom
    · rw [if_neg fun hm => absurd hm.1 (cons_ne_nil _ _), if_pos hbom, tail_cons,
        ← between_marked hkey l₀ pre]
      refine agree_iff_of_lines h hlast fun l post hfile => ?_
      rw [textLines_of_bom hbom hfile]
      rfl
  · rw [if_neg fun hm => hbom hm.2, if_neg hbom]
    refine agree_iff_of_lines h hlast fun l post hfile => ?_
    rw [textLines_of_not_bom hbom, hfile]

/-- **When the two readers agree**, on a key whose value is on one line and fits: the last line for
the key is not the one behind the mark, unless its value is empty, the scan comes to it between
values, and its text is plain. -/
theorem agree_iff (hkey : ¬ bom <+: key.val) (h : OnOneLine text key capB capC) :
    Agree (bootstrapReadIniKey (some text) key.val capB) (readIniKey (some text) key.val capC) ↔
      ReadAlike text key capB := by
  by_cases hex : ∃ pre p, LastText text key pre p
  · obtain ⟨pre, p, hlast⟩ := hex
    constructor
    · intro hagree pre' p' hlast'
      exact (agree_iff_of_lastText hkey h hlast').mp hagree
    · intro halike
      exact (agree_iff_of_lastText hkey h hlast).mpr (halike pre p hlast)
  · have hnone : ∀ l ∈ fileLines text, keyText key.val (cstr l) = none := fun l hl =>
      not_not.mp fun hsome => hex (exists_lastText ⟨l, hl, hsome⟩)
    exact iff_of_true (agree_of_none hkey h.short hnone) fun pre p hlast =>
      absurd ⟨pre, p, hlast⟩ hex

theorem onOneLine_of_seven (hfile : fileLines text = [ascii "api_id=7", []])
    (hshort : ∀ l ∈ textLines text, l.length < 512) : OnOneLine text apiIdKey 32 32 := by
  have hseven : ∀ pre p, LastText text apiIdKey pre p → p = ascii "7\n" := by
    rintro pre p ⟨l, post, hlines, -, hp⟩
    rw [hfile] at hlines
    rcases pre with _ | ⟨x, _ | ⟨y, pre⟩⟩
    · obtain ⟨rfl, rfl⟩ := cons.inj hlines
      have hsome : keyText apiIdKey.val (cstr (ascii "api_id=7" ++ lineEnd [[]])) =
          some (ascii "7\n") := by decide
      exact Option.some.inj (hp.symm.trans hsome)
    · obtain ⟨-, hlines⟩ := cons.inj hlines
      obtain ⟨rfl, rfl⟩ := cons.inj hlines
      have hnone : keyText apiIdKey.val (cstr ([] ++ lineEnd [])) = none := by decide
      exact absurd (hp.symm.trans hnone) (Option.some_ne_none p)
    · have hlen := congrArg length hlines
      simp at hlen
  constructor
  · exact hshort
  · intro pre p hlast hhead
    rw [hseven pre p hlast] at hhead
    exact absurd hhead (by decide)
  all_goals
    intro pre p hlast
    rw [hseven pre p hlast]
    decide

end Readers

theorem agree_iff_seven :
    Agree (bootstrapReadIniKey (some (ascii "api_id=7\n")) (ascii "api_id") 32)
        (readIniKey (some (ascii "api_id=7\n")) (ascii "api_id") 32) ↔
      ReadAlike (ascii "api_id=7\n") apiIdKey 32 :=
  agree_iff (by decide) (onOneLine_of_seven (by decide) (by decide))

theorem not_agree_behind_mark : ¬ ∀ (text : Bytes) (key : IniKey) (capB capC : ℕ),
    ¬ bom <+: key.val → OnOneLine text key capB capC →
      Agree (bootstrapReadIniKey (some text) key.val capB)
        (readIniKey (some text) key.val capC) := by
  intro h
  have hagree := h (bom ++ ascii "api_id=7\n") apiIdKey 32 32 (by decide)
    (onOneLine_of_seven (by decide) (by decide))
  have hboot :
      bootstrapReadIniKey (some (bom ++ ascii "api_id=7\n")) apiIdKey.val 32 = .notFound := by
    decide +kernel
  have hread : readIniKey (some (bom ++ ascii "api_id=7\n")) apiIdKey.val 32 =
      iniResult (some (ascii "7")) := by
    decide +kernel
  rw [hboot, hread, agree_notFound_iff] at hagree
  exact absurd hagree (by decide)

end TgCli.App
