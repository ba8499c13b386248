import TgCli.App.ConfigIni
import TgCli.Lib.InodeFs

/-!
# `app/config_wizard.c`: credentials are written to be read again

The wizard checks a number and a hash and writes them into `config.ini`, from where
`credentials_load` takes them.  On the way the number is read with `strtol`, printed, found again in
its line and read with `atoi`; the hash is checked twice.  The two sides also compute the name of
the file separately, with buffers of their own, and cut it alike (`configPath_getConfigDir`).

`credentialsLoad_of_written` says that what the wizard has accepted and written is what is loaded,
and `credentialsLoad_of_runs` that this is so after any runs, some of which fail.  What is asked on
the terminal and the modes of the files are not modelled.
-/

namespace TgCli.App

open List Lib TgCli.Core Infrastructure

/-! ## Validation -/

def apiHashLen : ℕ := 32

/-- `parse_api_id`; `none` is -1. -/
def parseApiId (s : Bytes) : Option Int32 :=
  if s = [] then none
  else if strtolEnd s ≠ [] then none
  else if strtol s ≤ 0 ∨ strtol s > 0x7FFFFFFF then none
  else some (Int32.ofInt (strtol s))

def validateApiHash (s : Bytes) : Bool :=
  s.length == apiHashLen && s.all isLowerHex

/-! ## The file -/

def getConfigDir (base : Bytes) : Bytes :=
  snprintf 1024 (base ++ ascii "/tg-cli")

def configPath (dir : Bytes) : Bytes :=
  snprintf 1024 (dir ++ ascii "/config.ini")

def configTmpPath (dir : Bytes) : Bytes :=
  snprintf 1040 (dir ++ ascii "/config.ini.tmp")

def credentialsPath (base : Bytes) : Bytes :=
  snprintf 1024 (base ++ ascii "/tg-cli/config.ini")

/-- What `write_config` prints. -/
def configText (apiId : Int32) (apiHash : Bytes) : Bytes :=
  ascii "# tg-cli configuration\n" ++
    ascii "# Generated by `login` wizard. Do NOT share this file.\n" ++
    (ascii "api_id=" ++ decimal apiId.toInt ++ [0x0a]) ++ (ascii "api_hash=" ++ apiHash ++ [0x0a])

/-- Which of the operations on files work; `lost` bytes of the text do not make it to the file when
it is flushed. -/
structure ConfigIo where
  makesDir : Bool
  opens : Bool
  fdopens : Bool
  lost : ℕ
  syncs : Bool
  renames : Bool

/-- `write_config`: whether it returns 0, and the files behind it. -/
def writeConfig (io : ConfigIo) (dir : Bytes) (apiId : Int32) (apiHash : Bytes)
    (fs : InodeFs Bytes) : Bool × InodeFs Bytes :=
  if !io.makesDir || !io.opens then (false, fs)
  else
    let (fd, fs) := fs.openTrunc (configTmpPath dir)
    if !io.fdopens then (false, fs)
    else
      let text := configText apiId apiHash
      let fs := fs.write fd (text.take (text.length - io.lost))
      if io.lost ≠ 0 then (false, fs)
      else if !io.syncs then (false, fs)
      else if !io.renames then (false, fs.sync fd)
      else
        match (fs.sync fd).rename (configTmpPath dir) (configPath dir) with
        | none => (false, fs.sync fd)
        | some fs => (true, fs)

def fileNonempty (path : Bytes) (fs : InodeFs Bytes) : Bool :=
  (fs.read path).any fun b => !b.isEmpty

/-- `config_wizard_run_batch`; `base` is `platform_config_dir`. -/
def configWizardRunBatch (io : ConfigIo) (base apiIdStr apiHashStr : Option Bytes) (force : Bool)
    (fs : InodeFs Bytes) : Bool × InodeFs Bytes :=
  match apiIdStr, apiHashStr with
  | some idText, some hash =>
    match parseApiId idText with
    | none => (false, fs)
    | some apiId =>
      if !validateApiHash hash then (false, fs)
      else
        match base with
        | none => (false, fs)
        | some base =>
          let dir := getConfigDir base
          if !force && fileNonempty (snprintf 1040 (dir ++ ascii "/config.ini")) fs then (false, fs)
          else writeConfig io dir apiId hash fs
  | _, _ => (false, fs)

/-! ## What is written -/

theorem take_append_take (n : ℕ) (a b : Bytes) : (a.take n ++ b).take n = (a ++ b).take n := by
  rcases le_total a.length n with h | h
  · rw [take_of_length_le h]
  · have hlen : n ≤ (a.take n).length := by rw [length_take_of_le h]
    rw [take_append_of_le_length hlen, take_append_of_le_length h, take_take, min_self]

/-- **Both sides mean the same file**, even where its name is too long for them. -/
theorem configPath_getConfigDir (base : Bytes) :
    configPath (getConfigDir base) = credentialsPath base := by
  have hname : ascii "/tg-cli/config.ini" = ascii "/tg-cli" ++ ascii "/config.ini" := by decide
  rw [credentialsPath, hname, ← append_assoc]
  exact take_append_take 1023 _ _

variable {v apiHash : Bytes}

theorem read_writeConfig {io : ConfigIo} {dir : Bytes} {apiId : Int32}
    {fs : InodeFs Bytes} (h : (writeConfig io dir apiId apiHash fs).1 = true) :
    (writeConfig io dir apiId apiHash fs).2.read (configPath dir) =
      some (configText apiId apiHash) := by
  have hwritten := fs.read_write_openTrunc (configTmpPath dir) (configText apiId apiHash)
  unfold writeConfig at h ⊢
  dsimp only at h ⊢
  generalize fs.openTrunc (configTmpPath dir) = x at h hwritten ⊢
  split_ifs at h ⊢ with hdir hfd hlost hsync hren
  have hnone : io.lost = 0 := not_not.mp hlost
  rw [hnone, Nat.sub_zero, take_length] at h ⊢
  rcases hfs : ((x.2.write x.1 (configText apiId apiHash)).sync x.1).rename (configTmpPath dir)
      (configPath dir) with _ | fs'
  · rw [hfs] at h
    exact absurd h Bool.false_ne_true
  · exact (InodeFs.read_of_rename hfs).trans hwritten

/-! ## What is read -/

/-- A text without blanks, quotes and control characters. -/
def Plain (v : Bytes) : Prop :=
  ∀ c ∈ v, 0x30 ≤ c

section Plain

variable {v : Bytes} (hv : Plain v)

include hv

theorem Plain.notMem {c : UInt8} (hc : c < 0x30) : c ∉ v := fun h =>
  UInt8.not_lt.mpr (hv c h) hc

theorem Plain.skipBlanks_eq : skipBlanks v = v := by
  rcases v with _ | ⟨c, v⟩
  · rfl
  · refine dropWhile_cons_of_neg fun hc => ?_
    rw [isBlank, Bool.or_eq_true, beq_iff_eq, beq_iff_eq] at hc
    obtain rfl | rfl := hc <;> exact hv.notMem (by decide) mem_cons_self

theorem Plain.rtrim_eq : rtrim v = v := by
  refine rdropWhile_eq_self_iff.mpr fun hne hlast => ?_
  have hmem := getLast_mem hne
  generalize v.getLast hne = c at hlast hmem
  simp only [Bool.or_eq_true, beq_iff_eq] at hlast
  obtain ((rfl | rfl) | rfl) | rfl := hlast <;> exact hv.notMem (by decide) hmem

theorem Plain.unquote_eq : unquote v = v := by
  refine if_neg fun h => ?_
  exact hv.notMem (by decide) (mem_of_head? h.2.1)

theorem Plain.writtenValue_eq {cap : ℕ} (hcap : v.length < cap) : writtenValue cap v = v := by
  rw [writtenValue, hv.rtrim_eq, hv.unquote_eq, take_of_length_le (by omega)]

end Plain

theorem plain_of_isDigit (h : ∀ d ∈ v, isDigit d = true) : Plain v := by
  intro c hc
  have hdigit := h c hc
  rw [isDigit, Bool.and_eq_true, decide_eq_true_eq] at hdigit
  exact hdigit.1

theorem plain_of_isLowerHex (h : ∀ d ∈ v, isLowerHex d = true) : Plain v := by
  intro c hc
  have hhex := h c hc
  simp only [isLowerHex, Bool.or_eq_true, Bool.and_eq_true, decide_eq_true_eq] at hhex
  obtain hdigit | hletter := hhex
  · exact hdigit.1
  · exact UInt8.le_trans (by decide) hletter.1

def assignment (name : String) (v : Bytes) : Bytes :=
  ascii name ++ 0x3D :: v

section Assignment

variable {key : IniKey} {name : String} {v : Bytes}

theorem notMem_assignment (hname : ∀ c ∈ ascii name, 0x30 ≤ c) (hv : Plain v) {c : UInt8}
    (hc : c < 0x30) : c ∉ assignment name v := by
  rw [assignment, mem_append, mem_cons]
  rintro (h | rfl | h)
  · exact UInt8.not_lt.mpr (hname c h) hc
  · exact absurd hc (by decide)
  · exact hv.notMem hc h

theorem keyText_assignment (hname : ∀ c ∈ ascii name, 0x30 ≤ c ∧ c ≠ 0x3D) (hv : Plain v) :
    keyText key.val (cstr (assignment name v)) =
      if names key.val (ascii name) then some v else none := by
  rw [cstr_eq_self (notMem_assignment (fun c hc => (hname c hc).1) hv (by decide)), assignment,
    keyText_append (fun h => (hname _ h).2 rfl), hv.skipBlanks_eq]

end Assignment

section Written

variable {apiId : Int32} {apiHash : Bytes} (hid : Plain (decimal apiId.toInt))
  (hhash : Plain apiHash)

include hid hhash

theorem fileLines_configText : fileLines (configText apiId apiHash) =
    [ascii "# tg-cli configuration",
      ascii "# Generated by `login` wizard. Do NOT share this file.",
      assignment "api_id" (decimal apiId.toInt), assignment "api_hash" apiHash, []] := by
  have htitle : ascii "# tg-cli configuration\n" = ascii "# tg-cli configuration" ++ [0x0a] := by
    decide
  have hwarning : ascii "# Generated by `login` wizard. Do NOT share this file.\n" =
      ascii "# Generated by `login` wizard. Do NOT share this file." ++ [0x0a] := by
    decide
  have hidName : ascii "api_id=" = ascii "api_id" ++ [0x3D] := by decide
  have hhashName : ascii "api_hash=" = ascii "api_hash" ++ [0x3D] := by decide
  have htext : configText apiId apiHash = ascii "# tg-cli configuration" ++ 0x0a ::
      (ascii "# Generated by `login` wizard. Do NOT share this file." ++ 0x0a ::
        (assignment "api_id" (decimal apiId.toInt) ++ 0x0a ::
          (assignment "api_hash" apiHash ++ 0x0a :: []))) := by
    rw [configText, htitle, hwarning, hidName, hhashName, assignment, assignment]
    simp only [append_assoc, cons_append, nil_append]
  have hmark : ¬ bom <+: configText apiId apiHash := by
    rintro ⟨t, ht⟩
    have hhead : (configText apiId apiHash).head? = some 0x23 := by
      rw [htext]
      rfl
    have hbom : (bom ++ t).head? = some 0xEF := rfl
    rw [← ht, hbom] at hhead
    exact absurd hhead (by decide)
  rw [fileLines, stripBom_of_not hmark, htext, textLines_append (by decide),
    textLines_append (by decide), textLines_append (notMem_assignment (by decide) hid (by decide)),
    textLines_append (notMem_assignment (by decide) hhash (by decide)),
    textLines_of_notMem not_mem_nil]

theorem filterMap_configText (key : IniKey) :
    ((fileLines (configText apiId apiHash)).filterMap fun l => keyText key.val (cstr l)) =
      (if names key.val (ascii "api_id") then [decimal apiId.toInt] else []) ++
        if names key.val (ascii "api_hash") then [apiHash] else [] := by
  have htitle : keyText key.val (cstr (ascii "# tg-cli configuration")) = none :=
    if_neg fun h => absurd h.1 (by decide)
  have hwarning : keyText key.val
      (cstr (ascii "# Generated by `login` wizard. Do NOT share this file.")) = none :=
    if_neg fun h => absurd h.1 (by decide)
  have hlast : keyText key.val (cstr []) = none := if_neg fun h => absurd h.1 (by decide)
  have hidLine : keyText key.val (cstr (assignment "api_id" (decimal apiId.toInt))) = _ :=
    keyText_assignment (by decide) hid
  have hhashLine : keyText key.val (cstr (assignment "api_hash" apiHash)) = _ :=
    keyText_assignment (by decide) hhash
  rw [fileLines_configText hid hhash]
  simp only [filterMap_cons, filterMap_nil, htitle, hwarning, hlast, hidLine, hhashLine]
  split_ifs <;> rfl

theorem length_le_of_mem_fileLines (hlen : apiHash.length = 32) :
    ∀ l ∈ fileLines (configText apiId apiHash), l.length ≤ 508 := by
  have hdec := length_decimal_le apiId.toInt64
  rw [Int32.toInt_toInt64] at hdec
  have hassign : ∀ name v, (assignment name v).length = (ascii name).length + (v.length + 1) := by
    intro name v
    rw [assignment, length_append, length_cons]
  have hidName : (ascii "api_id").length = 6 := by decide
  have hhashName : (ascii "api_hash").length = 8 := by decide
  rw [fileLines_configText hid hhash]
  simp only [forall_mem_cons, hassign, hidName, hhashName]
  refine ⟨by decide, by decide, by omega, by omega, by decide, forall_mem_nil _⟩

end Written

theorem readIniKey_of_plain (key : IniKey) {text : Bytes} {cap : ℕ}
    (hlen : ∀ l ∈ fileLines text, l.length ≤ 508)
    (hlines : ((fileLines text).filterMap fun l => keyText key.val (cstr l)) = [v]) (hv : Plain v)
    (hne : v ≠ []) (hcap : v.length < cap) : readIniKey (some text) key.val cap = .value v := by
  have hfits : ∀ l ∈ fileLines text, ∀ p, keyText key.val (cstr l) = some p →
      (rtrim p).length ≤ cap - 1 := by
    intro l hl p hp
    have hmem : p ∈ (fileLines text).filterMap fun l => keyText key.val (cstr l) :=
      mem_filterMap.mpr ⟨l, hl, hp⟩
    rw [hlines, mem_singleton] at hmem
    rw [hmem, hv.rtrim_eq]
    omega
  rw [readIniKey_of_short hlen hfits, writtenKey, hlines, getLast?_singleton, Option.map_some,
    hv.writtenValue_eq hcap]
  cases v with
  | nil => exact absurd rfl hne
  | cons c v => rfl

/-! ## The round trip -/

theorem parseApiId_eq_some {s : Bytes} {apiId : Int32} (h : parseApiId s = some apiId) :
    0 < apiId.toInt ∧ numeral s = some apiId.toInt := by
  rw [parseApiId] at h
  split_ifs at h with hnil hend hrange
  rw [not_or, not_le, not_lt] at hrange
  obtain ⟨v, hv⟩ := Option.isSome_iff_exists.mp ((strtolEnd_eq_nil_iff hnil).mp (not_not.mp hend))
  have hstrtol := strtol_of_numeral hv
  have hint : apiId.toInt = strtol s := by
    rw [← Option.some.inj h, Int32.toInt_ofInt_of_le (by omega) (by omega)]
  rw [hint]
  refine ⟨hrange.1, hv.trans (congrArg some ?_)⟩
  omega

theorem atoi_decimal (n : Int32) : atoi (decimal n.toInt) = n := by
  have hlo := n.le_toInt
  have hhi := n.toInt_lt
  have h := strtol_decimal_append (n := n.toInt) (t := []) (by omega) (by omega) fun d hd =>
    absurd hd (Option.not_mem_none d)
  rw [append_nil] at h
  rw [atoi, h, Int32.ofInt_toInt]

/-- **What the wizard has written is loaded**, unless a variable comes before it. -/
theorem credentialsLoad_of_written {apiId : Int32} (hid : 0 < apiId.toInt)
    (hhash : validateApiHash apiHash = true) {c : CredentialSources}
    (henvId : CredentialSources.isSet c.envId = false)
    (henvHash : CredentialSources.isSet c.envHash = false)
    (hfile : c.iniFile = some (configText apiId apiHash)) :
    credentialsLoad c = .ok { apiConfigInit with apiId := apiId, apiHash := some apiHash } := by
  have hvalid : isValidApiHash apiHash = true := hhash
  obtain ⟨hlen, hhex⟩ := (CredentialSources.isValidApiHash_iff apiHash).mp hvalid
  have hhashPlain := plain_of_isLowerHex hhex
  have hidPlain : Plain (decimal apiId.toInt) := by
    refine plain_of_isDigit fun d hd => ?_
    rw [← Int.toNat_of_nonneg hid.le] at hd
    exact isDigit_of_mem_decimal_natCast hd
  have hshort := length_le_of_mem_fileLines hidPlain hhashPlain hlen
  have hdec := length_decimal_le apiId.toInt64
  rw [Int32.toInt_toInt64] at hdec
  have hne : apiHash ≠ [] := by
    rintro rfl
    exact absurd hlen (by decide)
  have hidRead : readIniKey (some (configText apiId apiHash)) (ascii "api_id") 32 =
      .value (decimal apiId.toInt) :=
    readIniKey_of_plain apiIdKey hshort (filterMap_configText hidPlain hhashPlain _) hidPlain
      (decimal_ne_nil _) (by omega)
  have hhashRead : readIniKey (some (configText apiId apiHash)) (ascii "api_hash") 65 =
      .value apiHash :=
    readIniKey_of_plain apiHashKey hshort (filterMap_configText hidPlain hhashPlain _)
      hhashPlain hne (by omega)
  have hidEnv : c.idFromEnv = 0 := by
    rw [CredentialSources.idFromEnv, henvId, if_neg Bool.false_ne_true]
  have hhashEnv := (CredentialSources.hashFromEnv_eq_nil_iff c).mpr henvHash
  have hidFile : c.idFromFile = apiId := by
    rw [CredentialSources.idFromFile, hfile, hidRead]
    exact atoi_decimal apiId
  have hhashFile : c.hashFromFile = (apiHash, false) := by
    have hcap : apiHashMax + 1 = 65 := rfl
    rw [CredentialSources.hashFromFile, hfile, hcap, hhashRead]
    exact if_pos hvalid
  have hid0 : apiId ≠ 0 := by
    rintro rfl
    exact absurd hid (by decide)
  have hfound : c.found = (apiId, apiHash, false) := by
    rw [CredentialSources.found, if_pos (Or.inl hidEnv), if_pos hidEnv, if_pos hhashEnv, hidFile,
      hhashFile]
  rw [credentialsLoad, hfound]
  dsimp only
  rw [if_neg fun h => hid0 h.1, if_neg hid0, if_neg hne]

/-- **The round trip of the credentials.**  Texts that the validators accept are written, and loaded
as the number that the first one stands for and the second one. -/
theorem credentialsLoad_writeConfig {io : ConfigIo} {base idText apiHash : Bytes} {apiId : Int32}
    {fs : InodeFs Bytes} (hid : parseApiId idText = some apiId)
    (hhash : validateApiHash apiHash = true)
    (hwrite : (writeConfig io (getConfigDir base) apiId apiHash fs).1 = true)
    {c : CredentialSources}
    (henvId : CredentialSources.isSet c.envId = false)
    (henvHash : CredentialSources.isSet c.envHash = false)
    (hfile : c.iniFile = (writeConfig io (getConfigDir base) apiId apiHash fs).2.read
      (credentialsPath base)) :
    numeral idText = some apiId.toInt ∧
      credentialsLoad c = .ok { apiConfigInit with apiId := apiId, apiHash := some apiHash } := by
  obtain ⟨hpos, hnum⟩ := parseApiId_eq_some hid
  have hread := read_writeConfig hwrite
  rw [configPath_getConfigDir, ← hfile] at hread
  exact ⟨hnum, credentialsLoad_of_written hpos hhash henvId henvHash hread⟩

theorem credentialsLoad_writeConfig_12345 :
    credentialsLoad ⟨none, none, (writeConfig ⟨true, true, true, 0, true, true⟩
        (getConfigDir (ascii "/home/u/.config")) 12345 (ascii "0123456789abcdef0123456789abcdef")
        InodeFs.empty).2.read (credentialsPath (ascii "/home/u/.config"))⟩ =
      .ok { apiConfigInit with
        apiId := 12345, apiHash := some (ascii "0123456789abcdef0123456789abcdef") } := by
  have hid : parseApiId (ascii " +12345") = some 12345 := by decide
  have hwrite : (writeConfig ⟨true, true, true, 0, true, true⟩
      (getConfigDir (ascii "/home/u/.config")) 12345 (ascii "0123456789abcdef0123456789abcdef")
      InodeFs.empty).1 = true := by decide +kernel
  exact (credentialsLoad_writeConfig hid (by decide) hwrite rfl rfl rfl).2

/-! ## Runs of the batch wizard -/

theorem credentialsLoad_of_batch {io : ConfigIo} {base idText : Bytes} {force : Bool}
    {fs : InodeFs Bytes}
    (hrun : (configWizardRunBatch io (some base) (some idText) (some apiHash) force fs).1 = true)
    {c : CredentialSources} (henvId : CredentialSources.isSet c.envId = false)
    (henvHash : CredentialSources.isSet c.envHash = false)
    (hfile : c.iniFile = (configWizardRunBatch io (some base) (some idText) (some apiHash) force
      fs).2.read (credentialsPath base)) :
    ∃ apiId, numeral idText = some apiId.toInt ∧
      credentialsLoad c = .ok { apiConfigInit with apiId := apiId, apiHash := some apiHash } := by
  rw [configWizardRunBatch] at hrun hfile
  rcases hid : parseApiId idText with _ | apiId <;> rw [hid] at hrun hfile
  · exact absurd hrun Bool.false_ne_true
  obtain ⟨hpos, hnum⟩ := parseApiId_eq_some hid
  dsimp only at hrun hfile
  split_ifs at hrun hfile with hhash
  have hread := read_writeConfig hrun
  rw [configPath_getConfigDir, ← hfile] at hread
  rw [Bool.not_eq_true, Bool.not_eq_false'] at hhash
  exact ⟨apiId, hnum, credentialsLoad_of_written hpos hhash henvId henvHash hread⟩

theorem configTmpPath_ne (dir : Bytes) (h : dir.length < 1024) :
    configPath dir ≠ configTmpPath dir := by
  intro he
  have hlen := congrArg length he
  have hname : (ascii "/config.ini").length = 11 := by decide
  have htmp : (ascii "/config.ini.tmp").length = 15 := by decide
  rw [configPath, configTmpPath, snprintf, snprintf, length_take, length_take, length_append,
    length_append, hname, htmp] at hlen
  omega

/-- A file that is not replaced is not touched. -/
theorem read_writeConfig_of_false {io : ConfigIo} {dir : Bytes} {apiId : Int32} {fs : InodeFs Bytes}
    (hdir : dir.length < 1024) (h : (writeConfig io dir apiId apiHash fs).1 = false) :
    (writeConfig io dir apiId apiHash fs).2.read (configPath dir) = fs.read (configPath dir) := by
  have hkept := fs.read_write_openTrunc_of_ne (configTmpPath_ne dir hdir)
  unfold writeConfig at h ⊢
  dsimp only at h ⊢
  split_ifs at h ⊢
  · rfl
  · exact fs.read_openTrunc_of_ne (configTmpPath_ne dir hdir)
  · exact hkept _
  · exact hkept _
  · exact hkept _
  · rcases hren : InodeFs.rename _ (configTmpPath dir) (configPath dir) with _ | fs' <;>
      rw [hren] at h
    · exact hkept _
    · exact absurd h.symm Bool.false_ne_true

structure BatchRun where
  io : ConfigIo
  idText : Bytes
  apiHash : Bytes
  force : Bool

def BatchRun.exec (base : Bytes) (r : BatchRun) (fs : InodeFs Bytes) : Bool × InodeFs Bytes :=
  configWizardRunBatch r.io (some base) (some r.idText) (some r.apiHash) r.force fs

/-- The last of the runs that returns 0. -/
def lastAccepted (base : Bytes) : List BatchRun → InodeFs Bytes → Option BatchRun
  | [], _ => none
  | r :: runs, fs =>
    let x := r.exec base fs
    (lastAccepted base runs x.2).or (if x.1 then some r else none)

theorem BatchRun.read_of_false {base : Bytes} {r : BatchRun} {fs : InodeFs Bytes}
    (h : (r.exec base fs).1 = false) :
    (r.exec base fs).2.read (credentialsPath base) = fs.read (credentialsPath base) := by
  unfold exec configWizardRunBatch at h ⊢
  dsimp only at h ⊢
  rcases hid : parseApiId r.idText with _ | apiId
  · rfl
  rw [hid] at h
  dsimp only at h ⊢
  split_ifs at h ⊢
  · rfl
  · rfl
  · rw [← configPath_getConfigDir]
    refine read_writeConfig_of_false ?_ h
    rw [getConfigDir, snprintf, length_take]
    omega

/-- **After any runs of the wizard, each failing wherever it may, `credentials_load` finds what the
last run that returned 0 was told**; if there was none, `config.ini` is what it was. -/
theorem credentialsLoad_of_runs (base : Bytes) (runs : List BatchRun) (fs : InodeFs Bytes)
    {c : CredentialSources} (henvId : CredentialSources.isSet c.envId = false)
    (henvHash : CredentialSources.isSet c.envHash = false)
    (hfile : c.iniFile = (runAll (BatchRun.exec base) runs fs).2.read (credentialsPath base)) :
    (lastAccepted base runs fs).elim (c.iniFile = fs.read (credentialsPath base)) fun r =>
      ∃ apiId, numeral r.idText = some apiId.toInt ∧
        credentialsLoad c =
          .ok { apiConfigInit with apiId := apiId, apiHash := some r.apiHash } := by
  induction runs generalizing fs with
  | nil => exact hfile
  | cons r runs ih =>
    have hrest := ih (r.exec base fs).2 hfile
    rw [lastAccepted]
    rcases hlast : lastAccepted base runs (r.exec base fs).2 with _ | r' <;> rw [hlast] at hrest
    · rcases hok : (r.exec base fs).1
      · exact Eq.trans hrest (BatchRun.read_of_false hok)
      · exact credentialsLoad_of_batch hok henvId henvHash hrest
    · exact hrest

/-- A first run, and one with another number that fails at the rename. -/
theorem credentialsLoad_of_runs_two :
    let runs : List BatchRun := [⟨⟨true, true, true, 0, true, true⟩, ascii "7",
        ascii "0123456789abcdef0123456789abcdef", false⟩,
      ⟨⟨true, true, true, 0, true, false⟩, ascii "8",
        ascii "0123456789abcdef0123456789abcdef", true⟩]
    ∃ apiId : Int32, numeral (ascii "7") = some apiId.toInt ∧
      credentialsLoad ⟨none, none, (runAll (BatchRun.exec (ascii "/c")) runs
          InodeFs.empty).2.read (credentialsPath (ascii "/c"))⟩ =
        .ok { apiConfigInit with
          apiId := apiId, apiHash := some (ascii "0123456789abcdef0123456789abcdef") } := by
  intro runs
  have hlast : (lastAccepted (ascii "/c") runs InodeFs.empty).map (fun r => (r.idText, r.apiHash)) =
      some (ascii "7", ascii "0123456789abcdef0123456789abcdef") := by decide +kernel
  obtain ⟨r, hr, htexts⟩ := Option.map_eq_some_iff.mp hlast
  obtain ⟨hid, hhash⟩ := Prod.mk.inj htexts
  have h := credentialsLoad_of_runs (ascii "/c") runs InodeFs.empty (c := ⟨none, none, _⟩) rfl rfl
    rfl
  rw [hr, Option.elim_some, hid, hhash] at h
  exact h

end TgCli.App
