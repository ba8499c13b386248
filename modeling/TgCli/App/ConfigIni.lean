import TgCli.App.Credentials
import TgCli.Core.TlValues

/-!
# The lines of `config.ini`

What `read_ini_key` is for is to find the last line of the file for a key: `keyText` is what a line
says, `writtenValue` is what it means, and `writtenKey` is the answer.  The function looks at what
`fgets` delivers instead.  Where a line does not fit into its 512 bytes, the rest of it is looked at
as if it were a line, be it the rest of a comment, and of the line itself only the beginning is
seen; and the text is cut to the capacity of the output before it is trimmed and the quotes are
taken off, not after.

`FileOk` says when this makes no difference for a file: no later piece of a line is a line for the
key, and the last line for the key of which the `=` is seen gives the value that the last line for
the key has.  `readsRight_iff` says that this is exact.  The buffer has 512 bytes for a line, and
509 for the first one of a file that begins with a byte order mark.  A file is as it should be if
each of its lines is (`fileOk_of_lineOk`).
-/

namespace TgCli.App

open Option List Lib TgCli.Core

/-! ## What a file says -/

/-- A key: it contains no `=`, and no blank comes last. -/
structure IniKey where
  val : Bytes
  noEquals : 0x3D ∉ val
  noBlank : ∀ c ∈ val.getLast?, isBlank c = false

def trimBlanks (s : Bytes) : Bytes :=
  (skipBlanks s).rdropWhile isBlank

/-- What a line says for a key: the text after the `=`, if it is not a comment and the key stands
before the `=`. -/
def keyText (key s : Bytes) : Option Bytes :=
  if isIgnored (skipBlanks s) = false ∧ 0x3D ∈ s ∧ trimBlanks (s.takeWhile (· ≠ 0x3D)) = key then
    some (skipBlanks ((s.dropWhile (· ≠ 0x3D)).drop 1))
  else none

/-- The value of a text: trimmed and unquoted, up to the capacity. -/
def writtenValue (cap : ℕ) (p : Bytes) : Bytes :=
  (unquote (rtrim p)).take (cap - 1)

/-- The lines of a file, without the mark. -/
def fileLines (text : Bytes) : List Bytes :=
  textLines (stripBom text)

def iniResult : Option Bytes → IniResult
  | none => .notPresent
  | some [] => .emptyValue
  | some v => .value v

/-- The value of the last line for the key.  As everywhere, a line is a C string. -/
def writtenKey (text : Bytes) (key : IniKey) (cap : ℕ) : IniResult :=
  iniResult (((fileLines text).filterMap fun l => keyText key.val (cstr l)).getLast?.map
    (writtenValue cap))

/-! ## Lines for a key -/

theorem skipBlanks_append {c : UInt8} (hc : isBlank c = false) (a b : Bytes) :
    skipBlanks (a ++ c :: b) = skipBlanks a ++ c :: b := by
  induction a with
  | nil =>
    rw [nil_append, skipBlanks, dropWhile_cons_of_neg (by simp [hc])]
    rfl
  | cons d a ih =>
    by_cases hd : isBlank d = true
    · rw [cons_append, skipBlanks, skipBlanks, dropWhile_cons_of_pos hd,
        dropWhile_cons_of_pos hd]
      exact ih
    · rw [cons_append, skipBlanks, skipBlanks, dropWhile_cons_of_neg hd,
        dropWhile_cons_of_neg hd, cons_append]

theorem isIgnored_append_equals (a b : Bytes) :
    isIgnored (a ++ 0x3D :: b) = isIgnored (a ++ [0x3D]) := by
  cases a <;> rfl

/-- What stands before the `=` of a line makes it a line for the key. -/
def names (key a : Bytes) : Bool :=
  !isIgnored (skipBlanks a ++ [0x3D]) && trimBlanks a == key

variable {a p s key text : Bytes}

theorem keyText_append (ha : 0x3D ∉ a) (key b : Bytes) :
    keyText key (a ++ 0x3D :: b) = if names key a then some (skipBlanks b) else none := by
  rw [keyText, skipBlanks_append rfl, isIgnored_append_equals, takeWhile_ne_append ha,
    dropWhile_ne_append ha]
  exact if_congr (by simp [names]) rfl rfl

theorem keyText_of_notMem (hs : 0x3D ∉ s) (key : Bytes) : keyText key s = none :=
  if_neg fun h => hs h.2.1

theorem length_keyText_le (h : keyText key s = some p) : p.length ≤ s.length := by
  rw [keyText] at h
  split_ifs at h
  have hskip : (skipBlanks ((s.dropWhile (· ≠ 0x3D)).drop 1)).length ≤
      ((s.dropWhile (· ≠ 0x3D)).drop 1).length := (dropWhile_suffix _).length_le
  have hdrop : (s.dropWhile (· ≠ 0x3D)).length ≤ s.length := (dropWhile_suffix _).length_le
  rw [← some.inj h]
  rw [length_drop] at hskip
  omega

theorem keyText_subset (h : keyText key s = some p) : p ⊆ s := by
  rw [keyText] at h
  split_ifs at h
  rw [← some.inj h]
  intro c hc
  have hdrop := mem_of_mem_drop ((dropWhile_suffix _).subset hc)
  exact (dropWhile_suffix _).subset hdrop

theorem prefix_of_prefix_equals {k u b : Bytes} (hk : 0x3D ∉ k) (h : k <+: u ++ 0x3D :: b) :
    k <+: u := by
  obtain hle | ⟨r, rfl⟩ := prefix_or_prefix_of_prefix h (prefix_append u _)
  · exact hle
  · rw [prefix_append_right_inj] at h
    cases r with
    | nil => simp
    | cons c r =>
      obtain rfl := (cons_prefix_cons.mp h).1
      exact absurd (mem_append_right u mem_cons_self) hk

theorem IniKey.rdropWhile_val (key : IniKey) : key.val.rdropWhile isBlank = key.val := by
  refine rdropWhile_eq_self_iff.mpr fun hne => ?_
  rw [key.noBlank _ (getLast?_eq_some_getLast hne)]
  exact Bool.false_ne_true

theorem lineValue_of_notMem (hs : 0x3D ∉ s) (key : Bytes) : lineValue key s = none := by
  rw [lineValue]
  split_ifs
  · rfl
  · rfl
  · split
    · rename_i p hp
      have hmem : 0x3D ∈ skipBlanks ((skipBlanks s).drop key.length) := hp ▸ mem_cons_self
      have hdrop := mem_of_mem_drop ((dropWhile_suffix _).subset hmem)
      exact absurd ((dropWhile_suffix _).subset hdrop) hs
    · rfl

theorem lineValue_append (key : IniKey) (ha : 0x3D ∉ a) (b : Bytes) :
    lineValue key.val (a ++ 0x3D :: b) = if names key.val a then some (skipBlanks b) else none := by
  have hne : 0x3D ∉ skipBlanks a := fun h => ha ((dropWhile_suffix _).subset h)
  rw [lineValue, skipBlanks_append rfl, isIgnored_append_equals, names, trimBlanks]
  generalize skipBlanks a = u at hne ⊢
  by_cases hign : isIgnored (u ++ [0x3D]) = true
  · rw [if_pos hign, hign, if_neg (by simp)]
  rw [if_neg hign, Bool.eq_false_iff.mpr hign, Bool.not_false, Bool.true_and]
  by_cases hpre : key.val <+: u
  · obtain ⟨r, rfl⟩ := hpre
    have hstarts : key.val.isPrefixOf (key.val ++ r ++ 0x3D :: b) = true := by
      rw [append_assoc, isPrefixOf_iff_prefix]
      exact prefix_append _ _
    rw [hstarts, Bool.not_true, if_neg Bool.false_ne_true, append_assoc, drop_left,
      skipBlanks_append rfl]
    by_cases hr : ∀ c ∈ r, isBlank c = true
    · rw [skipBlanks, dropWhile_eq_nil_iff.mpr hr, rdropWhile_append_of_pos hr,
        key.rdropWhile_val, beq_self_eq_true]
      rfl
    · -- something else stands between the key and the `=`
      have hnames : (key.val ++ r).rdropWhile isBlank ≠ key.val := by
        intro he
        obtain ⟨r', happ, hr'⟩ := exists_append_rdropWhile isBlank (key.val ++ r)
        rw [he, append_right_inj] at happ
        exact hr (happ ▸ hr')
      obtain ⟨c, r', hc⟩ := exists_cons_of_ne_nil (mt dropWhile_eq_nil_iff.mp hr)
      have hmem : c ∈ key.val ++ r :=
        mem_append_right _ ((dropWhile_suffix _).subset (hc ▸ mem_cons_self))
      have hcne : c ≠ 0x3D := by
        rintro rfl
        exact hne hmem
      rw [skipBlanks, hc, beq_eq_false_iff_ne.mpr hnames, if_neg Bool.false_ne_true]
      split
      · rename_i hp
        exact absurd (cons.inj hp).1 hcne
      · rfl
  · have hstarts : ¬ key.val.isPrefixOf (u ++ 0x3D :: b) = true := by
      intro h
      have hkey : key.val <+: u ++ 0x3D :: b := isPrefixOf_iff_prefix.mp h
      exact hpre (prefix_of_prefix_equals key.noEquals hkey)
    have hnames : u.rdropWhile isBlank ≠ key.val := fun he => hpre (he ▸ rdropWhile_prefix _ u)
    rw [Bool.eq_false_iff.mpr hstarts, Bool.not_false, if_pos rfl, beq_eq_false_iff_ne.mpr hnames,
      if_neg Bool.false_ne_true]

/-- **The function finds in a line what the line says.** -/
theorem lineValue_eq (key : IniKey) (s : Bytes) : lineValue key.val s = keyText key.val s := by
  by_cases hs : 0x3D ∈ s
  · obtain ⟨a, b, rfl, ha⟩ := eq_append_cons_of_mem hs
    rw [lineValue_append key ha, keyText_append ha]
  · rw [keyText_of_notMem hs, lineValue_of_notMem hs]

theorem keyText_newline (key s : Bytes) :
    keyText key (s ++ [0x0a]) = (keyText key s).map (· ++ [0x0a]) := by
  by_cases hs : 0x3D ∈ s
  · obtain ⟨a, b, rfl, ha⟩ := eq_append_cons_of_mem hs
    rw [append_assoc, cons_append, keyText_append ha, keyText_append ha,
      skipBlanks_append rfl]
    split_ifs <;> rfl
  · have hs' : 0x3D ∉ s ++ [0x0a] := by
      rw [mem_append, not_or]
      exact ⟨hs, by decide⟩
    rw [keyText_of_notMem hs, keyText_of_notMem hs']
    rfl

/-- What a line says of which only the first `m` bytes are there. -/
theorem keyText_take (key s : Bytes) (m : ℕ) :
    keyText key (s.take m) = if 0x3D ∈ s.take m then
      (keyText key s).map fun p => p.take (m - (s.length - p.length)) else none := by
  split_ifs with hmem
  · obtain ⟨a, b, hs, ha⟩ := eq_append_cons_of_mem (mem_of_mem_take hmem)
    have hlt : a.length < m := by
      by_contra hge
      rw [hs, take_append_of_le_length (by omega)] at hmem
      exact ha (mem_of_mem_take hmem)
    have hcut : s.take m = a ++ 0x3D :: b.take (m - a.length - 1) := by
      rw [hs, take_append, take_of_length_le hlt.le, take_cons (by omega)]
    rw [hcut, hs, keyText_append ha, keyText_append ha]
    split_ifs
    · have hle : (skipBlanks b).length ≤ b.length := (dropWhile_suffix _).length_le
      rw [map_some, skipBlanks, take_dropWhile, ← skipBlanks, length_append,
        length_cons]
      congr 2
      omega
    · rfl
  · exact keyText_of_notMem hmem key

/-! ## What the function makes of a piece -/

/-- What `read_ini_key` puts into `out` for a text. -/
def cutValue (cap : ℕ) (p : Bytes) : Bytes :=
  unquote (rtrim (p.take (cap - 1)))

theorem rtrim_take {k : ℕ} (hk : (rtrim p).length ≤ k) : rtrim (p.take k) = rtrim p := by
  have htrim : rtrim p = p.rdropWhile fun c => c == 0x0A || c == 0x0D || c == 0x20 || c == 0x09 :=
    rfl
  obtain ⟨w, hp, hw⟩ := exists_append_rdropWhile _ p
  rw [← htrim] at hp
  have hcut : p.take k = rtrim p ++ w.take (k - (rtrim p).length) := by
    conv_lhs => rw [hp, take_append, take_of_length_le hk]
  rw [hcut]
  refine (rdropWhile_append_of_pos fun c hc => hw c (mem_of_mem_take hc)).trans ?_
  exact rdropWhile_idempotent _ p

theorem cutValue_of_le {cap : ℕ} (h : (rtrim p).length ≤ cap - 1) :
    cutValue cap p = unquote (rtrim p) := by
  rw [cutValue, rtrim_take h]

theorem length_unquote_le (r : Bytes) : (unquote r).length ≤ r.length := by
  rw [unquote]
  split_ifs
  · rw [length_dropLast, length_tail]
    omega
  · rfl

/-- What a piece puts into `out`. -/
def pieceValue (key : Bytes) (cap : ℕ) (x : Bytes) : Option Bytes :=
  (lineValue key (cstr x)).map (cutValue cap)

/-- The last line for the key counts. -/
theorem scanLines_eq (key : Bytes) (cap : ℕ) (lines : List Bytes) : scanLines key cap lines =
    (lines.filterMap fun s => (lineValue key s).map (cutValue cap)).getLast? := by
  induction lines using reverseRecOn with
  | nil => rfl
  | append_singleton lines s ih =>
    rw [scanLines, foldl_append, ← scanLines, ih, filterMap_append, getLast?_append]
    cases hv : lineValue key s with
    | none => simp [hv]
    | some p => simp [hv, cutValue]

theorem readIniKey_some (text key : Bytes) (cap : ℕ) :
    readIniKey (some text) key cap = iniResult (scanLines key cap (iniLines text)) := by
  rw [readIniKey]
  rcases scanLines key cap (iniLines text) with _ | _ | ⟨c, v⟩ <;> rfl

theorem cutValue_newline (cap : ℕ) (p : Bytes) : cutValue cap (p ++ [0x0a]) = cutValue cap p := by
  rw [cutValue, cutValue]
  by_cases hlen : cap - 1 ≤ p.length
  · rw [take_append_of_le_length hlen]
  · rw [take_of_length_le (by simp; omega), take_of_length_le (by omega)]
    exact congrArg unquote (rdropWhile_concat_pos _ _ _ rfl)

section Pieces

variable (key : IniKey) (cap : ℕ)

theorem lineValue_newline (x : Bytes) : lineValue key.val (cstr (x ++ [0x0a])) = none ↔
    lineValue key.val (cstr x) = none := by
  obtain h | h := cstr_newline x
  · rw [h]
  · rw [h, lineValue_eq, lineValue_eq, keyText_newline, map_eq_none_iff]

theorem pieceValue_newline (x : Bytes) :
    pieceValue key.val cap (x ++ [0x0a]) = pieceValue key.val cap x := by
  rw [pieceValue, pieceValue]
  obtain h | h := cstr_newline x
  · rw [h]
  · rw [h, lineValue_eq, lineValue_eq, keyText_newline, Option.map_map]
    congr 1
    funext p
    exact cutValue_newline cap p

theorem pieceValue_nil : pieceValue key.val cap [] = none :=
  rfl

/-- Cutting a text after `k` bytes does not change its value. -/
def CutsAlike (cap k : ℕ) (p : Bytes) : Prop :=
  unquote (rtrim (p.take k)) = writtenValue cap p

/-- It does not when the text, with the quotes, ends before the cut. -/
theorem cutsAlike_of_le {cap k : ℕ} {p : Bytes} (hk : (rtrim p).length ≤ k) (hcap : k ≤ cap - 1) :
    CutsAlike cap k p := by
  have hlen := length_unquote_le (rtrim p)
  rw [CutsAlike, rtrim_take hk, writtenValue, take_of_length_le (by omega)]

/-- **A line that is read right**, when the buffer has `c` bytes for it. -/
structure LineOk (c : ℕ) (l : Bytes) : Prop where
  /-- No piece after the first is a line for the key. -/
  later : ∀ x ∈ pieces 512 (l.drop (c - 1)), lineValue key.val (cstr x) = none
  /-- If the line is one for the key, its `=` is in the first piece, and it makes no difference
  where its text is cut. -/
  first : ∀ p, keyText key.val (cstr l) = some p → 0x3D ∈ (cstr l).take (c - 1) ∧
    CutsAlike cap (min (cap - 1) (c - 1 - ((cstr l).length - p.length))) p

/-- What the function puts into `out` for a line of which it has the first `c - 1` bytes, if the `=`
is among them. -/
def seenValue (c : ℕ) (l : Bytes) : Option Bytes :=
  if 0x3D ∈ (cstr l).take (c - 1) then
    (keyText key.val (cstr l)).map fun p =>
      unquote (rtrim (p.take (min (cap - 1) (c - 1 - ((cstr l).length - p.length)))))
  else none

theorem pieceValue_take (c : ℕ) (l : Bytes) :
    pieceValue key.val cap (l.take (c - 1)) = seenValue key cap c l := by
  rw [pieceValue, lineValue_eq, cstr_take, keyText_take, seenValue]
  split_ifs
  · rw [Option.map_map]
    congr 1
    funext p
    show unquote (rtrim ((p.take _).take _)) = _
    rw [take_take]
  · rfl

theorem seenValue_of_none {c : ℕ} {l : Bytes} (h : keyText key.val (cstr l) = none) :
    seenValue key cap c l = none := by
  rw [seenValue, h, map_none, ite_self]

theorem LineOk.seenValue_eq {c : ℕ} {l : Bytes} (h : LineOk key cap c l) :
    seenValue key cap c l = (keyText key.val (cstr l)).map (writtenValue cap) := by
  rcases hkey : keyText key.val (cstr l) with _ | p
  · exact seenValue_of_none key cap hkey
  · obtain ⟨hmem, hcut⟩ := h.first p hkey
    rw [seenValue, if_pos hmem, hkey]
    exact congrArg some hcut

theorem lineOk_of_le {c : ℕ} {l : Bytes} (hlen : l.length ≤ c - 1)
    (hfits : ∀ p, keyText key.val (cstr l) = some p → (rtrim p).length ≤ cap - 1) :
    LineOk key cap c l where
  later := by
    rw [drop_of_length_le hlen, pieces_nil]
    exact forall_mem_nil _
  first := by
    intro p hp
    have hcstr : (cstr l).length ≤ l.length := (takeWhile_sublist _).length_le
    have hmem : 0x3D ∈ cstr l := by
      by_contra h
      rw [keyText_of_notMem h] at hp
      exact absurd hp (some_ne_none p).symm
    have htext : p.length ≤ (cstr l).length := length_keyText_le hp
    have htrim : rtrim p <+: p := rdropWhile_prefix _ p
    have := htrim.length_le
    refine ⟨by rwa [take_of_length_le (by omega)], cutsAlike_of_le ?_ (min_le_left _ _)⟩
    refine le_min (hfits p hp) ?_
    omega

/-- Of the pieces of a line only the first one counts. -/
theorem filterMap_linePieces {c : ℕ} {l : Bytes}
    (h : ∀ x ∈ pieces 512 (l.drop (c - 1)), lineValue key.val (cstr x) = none) :
    (linePieces c 512 l).filterMap (pieceValue key.val cap) = (seenValue key cap c l).toList := by
  have hlater : (pieces 512 (l.drop (c - 1))).filterMap (pieceValue key.val cap) = [] := by
    refine filterMap_eq_nil_iff.mpr fun x hx => ?_
    rw [pieceValue, h x hx, map_none]
  rw [linePieces, filterMap_cons, hlater, pieceValue_take]
  cases seenValue key cap c l <;> rfl

end Pieces

/-! ## The mark -/

def bom : Bytes :=
  [0xEF, 0xBB, 0xBF]

/-- What the buffer has for the first line, in front of which the mark stands. -/
def firstCap (text : Bytes) : ℕ :=
  if bom.isPrefixOf text then 509 else 512

theorem stripBom_bom (body : Bytes) : stripBom (bom ++ body) = body :=
  rfl

theorem firstCap_bom (body : Bytes) : firstCap (bom ++ body) = 509 :=
  rfl

theorem stripBom_of_not (h : ¬ bom <+: text) : stripBom text = text := by
  refine if_neg fun hb => h ?_
  exact isPrefixOf_iff_prefix.mp hb

theorem firstCap_of_not (h : ¬ bom <+: text) : firstCap text = 512 := by
  refine if_neg fun hb => h ?_
  exact isPrefixOf_iff_prefix.mp hb

theorem pieces_bom (body : Bytes) : pieces 512 (bom ++ body) =
    (bom ++ fgets 509 body) :: pieces 512 (body.drop (fgets 509 body).length) := by
  have hcall : fgets 512 (bom ++ body) = bom ++ fgets 509 body :=
    fgets_append (by decide) (by decide) body
  rw [pieces_of_ne_nil (by decide) (by simp [bom]), hcall, length_append, ← drop_drop,
    drop_left]

theorem iniLines_of_pieces {x : Bytes} {xs : List Bytes} (h : pieces 512 text = x :: xs) :
    iniLines text = stripBom (cstr x) :: xs.map cstr := by
  have hcalls : fgetsAll 512 text.length text = x :: xs := h
  rw [iniLines, hcalls]
  rfl

theorem filterMap_iniLines {β : Type} {f : Bytes → Option β} (hnil : f [] = none) (text : Bytes) :
    (iniLines text).filterMap f =
      (piecesFrom (firstCap text) 512 (stripBom text)).filterMap fun x => f (cstr x) := by
  have hmap : ∀ ps : List Bytes, (ps.filterMap fun x => f (cstr x)) = (ps.map cstr).filterMap f :=
    fun ps => filterMap_map.symm
  by_cases hb : bom <+: text
  · obtain ⟨body, rfl⟩ := hb
    rw [iniLines_of_pieces (pieces_bom body), firstCap_bom, stripBom_bom, piecesFrom, hmap,
      map_cons]
    rfl
  · rw [firstCap_of_not hb, stripBom_of_not hb,
      filterMap_piecesFrom_self (f := fun x => f (cstr x)) hnil (by decide), hmap]
    rcases hps : pieces 512 text with _ | ⟨x, xs⟩
    · have hcalls : fgetsAll 512 text.length text = [] := hps
      rw [iniLines, hcalls]
      rfl
    · have hx : ¬ bom <+: cstr x := by
        intro h
        have hne : text ≠ [] := by
          rintro rfl
          exact absurd hps (by simp)
        rw [pieces_of_ne_nil (by decide) hne, cons.injEq] at hps
        have hcstr : cstr x <+: x := takeWhile_prefix _
        exact hb (h.trans (hcstr.trans (hps.1 ▸ fgets_prefix_of 512 text)))
      rw [iniLines_of_pieces hps, stripBom_of_not hx, map_cons]

theorem continuations_pieces (text : Bytes) : continuations (pieces 512 text) =
    continuations (piecesFrom (firstCap text) 512 (stripBom text)) := by
  by_cases hb : bom <+: text
  · obtain ⟨body, rfl⟩ := hb
    have hlast : (bom ++ fgets 509 body).getLast? = some 0x0a ↔
        (fgets 509 body).getLast? = some 0x0a := by
      rcases fgets 509 body with _ | ⟨c, x⟩
      · decide
      · rw [getLast?_append_of_ne_nil _ (cons_ne_nil c x)]
    rw [pieces_bom, firstCap_bom, stripBom_bom, piecesFrom, continuations, continuations]
    simp only [hlast]
  · rw [firstCap_of_not hb, stripBom_of_not hb]
    by_cases htext : text = []
    · rw [htext]
      decide
    · rw [piecesFrom_self (by decide) htext]

/-! ## Files -/

/-- **The file is read right**: the value is the one that is written in it, and no text within a
line is taken for a line. -/
structure ReadsRight (key : IniKey) (cap : ℕ) (text : Bytes) : Prop where
  value : readIniKey (some text) key.val cap = writtenKey text key cap
  lines : ∀ x ∈ continuations (pieces 512 text), lineValue key.val (cstr x) = none

/-- The lines of a file, each with the number of bytes that the buffer has for it. -/
def cappedLines (text : Bytes) : List (ℕ × Bytes) :=
  match fileLines text with
  | [] => []
  | l :: ls => (firstCap text, l) :: ls.map (512, ·)

/-- **A file that is read right**, said of its lines. -/
structure FileOk (key : IniKey) (cap : ℕ) (text : Bytes) : Prop where
  /-- No piece of a line after the first is a line for the key. -/
  later : ∀ l ∈ cappedLines text, ∀ x ∈ pieces 512 (l.2.drop (l.1 - 1)),
    lineValue key.val (cstr x) = none
  /-- If there is a line for the key, the last one that is seen has the value of the last one. -/
  last : ∀ p, ((fileLines text).filterMap fun l => keyText key.val (cstr l)).getLast? = some p →
    ((cappedLines text).filterMap fun l => seenValue key cap l.1 l.2).getLast? =
      some (writtenValue cap p)

section Files

variable {key : IniKey} {cap : ℕ} {text l : Bytes} {ls : List Bytes}

/-- What is left in `out`, line by line. -/
theorem scanLines_iniLines (h : fileLines text = l :: ls) :
    scanLines key.val cap (iniLines text) =
      ((linePieces (firstCap text) 512 l).filterMap (pieceValue key.val cap) ++
        ls.flatMap fun l =>
          (linePieces 512 512 l).filterMap (pieceValue key.val cap)).getLast? := by
  rw [scanLines_eq, filterMap_iniLines rfl]
  exact congrArg _ (filterMap_piecesFrom (pieceValue_newline key cap) (pieceValue_nil key cap)
    (by decide) _ h)

theorem cappedLines_eq (h : fileLines text = l :: ls) :
    cappedLines text = (firstCap text, l) :: ls.map (512, ·) := by
  rw [cappedLines, h]

theorem exists_fileLines (text : Bytes) : ∃ l ls, fileLines text = l :: ls :=
  exists_cons_of_ne_nil (textLines_ne_nil (stripBom text))

theorem map_snd_cappedLines (text : Bytes) : (cappedLines text).map Prod.snd = fileLines text := by
  obtain ⟨l, ls, h⟩ := exists_fileLines text
  rw [cappedLines_eq h, h, map_cons, List.map_map]
  exact congrArg (l :: ·) (map_id ls)

/-- The later pieces of a file are those of its lines. -/
theorem lines_iff : (∀ x ∈ continuations (pieces 512 text), lineValue key.val (cstr x) = none) ↔
    ∀ l ∈ cappedLines text, ∀ x ∈ pieces 512 (l.2.drop (l.1 - 1)),
      lineValue key.val (cstr x) = none := by
  obtain ⟨l, ls, h⟩ := exists_fileLines text
  rw [continuations_pieces, cappedLines_eq h, forall_mem_cons, List.forall_mem_map]
  exact forall_continuations_iff (N := fun x => lineValue key.val (cstr x) = none)
    (lineValue_newline key) rfl (by decide) _ h

/-- What is left in `out` when no later piece counts. -/
theorem scanLines_cappedLines (hlater : ∀ l ∈ cappedLines text,
      ∀ x ∈ pieces 512 (l.2.drop (l.1 - 1)), lineValue key.val (cstr x) = none) :
    scanLines key.val cap (iniLines text) =
      ((cappedLines text).filterMap fun l => seenValue key cap l.1 l.2).getLast? := by
  obtain ⟨l, ls, h⟩ := exists_fileLines text
  rw [cappedLines_eq h, forall_mem_cons, List.forall_mem_map] at hlater
  rw [scanLines_iniLines h, cappedLines_eq h, filterMap_linePieces key cap hlater.1,
    flatMap_congr fun l hl => filterMap_linePieces key cap (hlater.2 l hl),
    filterMap_eq_flatMap_toList, flatMap_cons, flatMap_map]

theorem iniResult_injective : Function.Injective iniResult := by
  intro a b h
  rcases a with _ | _ | ⟨c, a⟩ <;> rcases b with _ | _ | ⟨d, b⟩ <;> simp_all [iniResult]

/-- The results are the same exactly if what is left in `out` is. -/
theorem value_iff : readIniKey (some text) key.val cap = writtenKey text key cap ↔
    scanLines key.val cap (iniLines text) =
      ((fileLines text).filterMap fun l => keyText key.val (cstr l)).getLast?.map
        (writtenValue cap) := by
  rw [readIniKey_some, writtenKey, iniResult_injective.eq_iff]

theorem FileOk.readsRight (h : FileOk key cap text) : ReadsRight key cap text := by
  refine ⟨value_iff.mpr ?_, lines_iff.mpr h.later⟩
  rw [scanLines_cappedLines h.later]
  rcases hp : ((fileLines text).filterMap fun l => keyText key.val (cstr l)).getLast? with _ | p
  · -- no line is one for the key, so none is seen
    rw [getLast?_eq_none_iff, ← map_snd_cappedLines, filterMap_map, filterMap_eq_nil_iff] at hp
    rw [map_none, getLast?_eq_none_iff, filterMap_eq_nil_iff]
    exact fun l hl => seenValue_of_none key cap (hp l hl)
  · exact h.last p hp

/-- **When a file is read right**, for one file. -/
theorem readsRight_iff (key : IniKey) (cap : ℕ) (text : Bytes) :
    ReadsRight key cap text ↔ FileOk key cap text := by
  refine ⟨fun h => ?_, FileOk.readsRight⟩
  have hlater := lines_iff.mp h.lines
  refine ⟨hlater, fun p hp => ?_⟩
  rw [← scanLines_cappedLines hlater, value_iff.mp h.value, hp, map_some]

/-- A file is read right if all its lines are. -/
theorem fileOk_of_lineOk (h : ∀ l ∈ cappedLines text, LineOk key cap l.1 l.2) :
    FileOk key cap text := by
  refine ⟨fun l hl => (h l hl).later, fun p hp => ?_⟩
  have hseen : ((cappedLines text).filterMap fun l => seenValue key cap l.1 l.2) =
      ((fileLines text).filterMap fun l => keyText key.val (cstr l)).map (writtenValue cap) := by
    rw [← map_snd_cappedLines, filterMap_map, map_filterMap]
    exact filterMap_congr fun l hl => (h l hl).seenValue_eq key cap
  rw [hseen, getLast?_map, hp, map_some]

/-- Short lines fit into the buffer, and short texts into the output. -/
theorem readIniKey_of_short (hlen : ∀ l ∈ fileLines text, l.length ≤ 508)
    (hfits : ∀ l ∈ fileLines text, ∀ p, keyText key.val (cstr l) = some p →
      (rtrim p).length ≤ cap - 1) :
    readIniKey (some text) key.val cap = writtenKey text key cap := by
  refine (fileOk_of_lineOk fun l hl => ?_).readsRight.value
  have hmem : l.2 ∈ fileLines text := by
    rw [← map_snd_cappedLines]
    exact mem_map_of_mem hl
  have hcap : 509 ≤ l.1 := by
    obtain ⟨l₀, ls, h⟩ := exists_fileLines text
    rw [cappedLines_eq h, mem_cons, List.mem_map] at hl
    rcases hl with rfl | ⟨l', -, rfl⟩
    · show 509 ≤ firstCap text
      rw [firstCap]
      split_ifs <;> omega
    · exact (by decide : 509 ≤ 512)
  refine lineOk_of_le key cap ?_ (hfits l.2 hmem)
  have hshort := hlen l.2 hmem
  omega

end Files

theorem apiId_noEquals : 0x3D ∉ ascii "api_id" := by
  decide

theorem apiId_noBlank : ∀ c ∈ (ascii "api_id").getLast?, isBlank c = false := by
  intro c hc
  obtain rfl : 0x64 = c := some.inj hc
  rfl

def apiIdKey : IniKey where
  val := ascii "api_id"
  noEquals := apiId_noEquals
  noBlank := apiId_noBlank

theorem apiHash_noEquals : 0x3D ∉ ascii "api_hash" := by
  decide

theorem apiHash_noBlank : ∀ c ∈ (ascii "api_hash").getLast?, isBlank c = false := by
  intro c hc
  obtain rfl : 0x68 = c := some.inj hc
  rfl

def apiHashKey : IniKey where
  val := ascii "api_hash"
  noEquals := apiHash_noEquals
  noBlank := apiHash_noBlank

/-- A comment of 519 bytes: the last eight of them are read as a line. -/
theorem readIniKey_longComment :
    ¬ ∀ (key : IniKey) (cap : ℕ) (text : Bytes), ReadsRight key cap text := by
  intro h
  have hvalue := (h apiIdKey 32 (0x23 :: replicate 510 0x78 ++ ascii "api_id=7")).value
  exact absurd hvalue (by decide +kernel)

end TgCli.App
