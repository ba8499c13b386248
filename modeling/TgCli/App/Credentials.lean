import TgCli.Lib.Stdio
import TgCli.Infrastructure.ApiCall

/-!
# `app/credentials.c`: where `api_id` and `api_hash` come from

Each of the two values comes from an environment variable, and if that does not give one, from
`config.ini`.  The file is read line by line as `fgets` delivers it, so a long line is several, and
a value that is longer than its buffer is cut before it is trimmed.

`credentials_load` has one place where a hash from the file is checked and one where a hash from the
environment is checked, and the second is in the branch for the case that both values come from
the environment.  A hash from the environment that meets an id from the file passes without a check.
The id is whatever `atoi` makes of its text.  `usable_iff` says what that leaves to be checked
outside.

The diagnostics that do not stop the function are not modelled.
-/

namespace TgCli.App

open Lib TgCli.Core Infrastructure

/-! ## `config.ini` -/

def isBlank (c : UInt8) : Bool :=
  c == 0x20 || c == 0x09

def skipBlanks (s : Bytes) : Bytes :=
  s.dropWhile isBlank

/-- `rtrim_inplace`. -/
def rtrim (s : Bytes) : Bytes :=
  (s.reverse.dropWhile fun c => c == 0x0A || c == 0x0D || c == 0x20 || c == 0x09).reverse

/-- `unquote_inplace`. -/
def unquote (s : Bytes) : Bytes :=
  if 2 ≤ s.length ∧ s.head? = some 0x22 ∧ s.getLast? = some 0x22 then s.tail.dropLast else s

def isIgnored (p : Bytes) : Bool :=
  p.head?.all fun c => c == 0x0A || c == 0x0D || c == 0x23 || c == 0x3B

/-- What stands after `key =` on a line, if that is how it begins. -/
def lineValue (key p : Bytes) : Option Bytes :=
  let p := skipBlanks p
  if isIgnored p then none
  else if !key.isPrefixOf p then none
  else
    match skipBlanks (p.drop key.length) with
    | 0x3D :: p => some (skipBlanks p)
    | _ => none

def stripBom (p : Bytes) : Bytes :=
  if [0xEF, 0xBB, 0xBF].isPrefixOf p then p.drop 3 else p

/-- The lines of the file as they are in `line[512]`, without the mark. -/
def iniLines (text : Bytes) : List Bytes :=
  match (fgetsAll 512 text.length text).map cstr with
  | [] => []
  | first :: lines => stripBom first :: lines

/-- The results of `read_ini_key`. -/
inductive IniResult where
  | notOpened
  | notPresent
  | emptyValue
  | value (v : Bytes)
  deriving DecidableEq

/-- The scan for a key: what is in `out` when one line after the other has been looked at, `none` as
long as the key has not been found. -/
def scanLines (key : Bytes) (cap : ℕ) (lines : List Bytes) : Option Bytes :=
  lines.foldl
    (fun out line =>
      match lineValue key line with
      | none => out
      | some p => some (unquote (rtrim (p.take (cap - 1)))))
    none

/-- `read_ini_key`; `file` is `none` when the file cannot be opened. -/
def readIniKey (file : Option Bytes) (key : Bytes) (cap : ℕ) : IniResult :=
  match file with
  | none => .notOpened
  | some text =>
    match scanLines key cap (iniLines text) with
    | none => .notPresent
    | some [] => .emptyValue
    | some v => .value v

/-! ## `credentials_load` -/

def apiHashMax : ℕ := 64

def apiHashExpect : ℕ := 32

def isLowerHex (c : UInt8) : Bool :=
  (0x30 ≤ c && c ≤ 0x39) || (0x61 ≤ c && c ≤ 0x66)

def isValidApiHash (s : Bytes) : Bool :=
  s.length == apiHashExpect && s.all isLowerHex

/-- The two environment variables, and `config.ini` if there is a directory for it and it can be
opened. -/
structure CredentialSources where
  envId : Option Bytes
  envHash : Option Bytes
  iniFile : Option Bytes

/-- The errors of `credentials_load`. -/
inductive CredentialsError where
  | bothMissing
  | idMissing
  | hashRejected
  | hashMissing
  deriving DecidableEq

namespace CredentialSources

def isSet (v : Option Bytes) : Bool :=
  v.any fun s => !s.isEmpty

def idFromEnv (c : CredentialSources) : Int32 :=
  if isSet c.envId then atoi (c.envId.getD []) else 0

/-- The hash from the environment, as it is in `g_api_hash_buf`. -/
def hashFromEnv (c : CredentialSources) : Bytes :=
  if isSet c.envHash then (c.envHash.getD []).take apiHashMax else []

def idFromFile (c : CredentialSources) : Int32 :=
  match readIniKey c.iniFile (ascii "api_id") 32 with
  | .value buf => atoi buf
  | _ => 0

def hashFromFile (c : CredentialSources) : Bytes × Bool :=
  match readIniKey c.iniFile (ascii "api_hash") (apiHashMax + 1) with
  | .value h => if isValidApiHash h then (h, false) else ([], true)
  | _ => ([], false)

/-- The id and the hash that are looked at in the end, and whether a hash was rejected. -/
def found (c : CredentialSources) : Int32 × Bytes × Bool :=
  if c.idFromEnv = 0 ∨ c.hashFromEnv = [] then
    (if c.idFromEnv = 0 then c.idFromFile else c.idFromEnv,
      if c.hashFromEnv = [] then c.hashFromFile else (c.hashFromEnv, false))
  else if !isValidApiHash c.hashFromEnv then (c.idFromEnv, [], true)
  else (c.idFromEnv, c.hashFromEnv, false)

end CredentialSources

def credentialsLoad (c : CredentialSources) : Except CredentialsError ApiConfig :=
  let (apiId, hash, rejected) := c.found
  if apiId = 0 ∧ hash = [] then .error .bothMissing
  else if apiId = 0 then .error .idMissing
  else if hash = [] then .error (if rejected then .hashRejected else .hashMissing)
  else .ok { apiConfigInit with apiId := apiId, apiHash := some hash }

/-! ## What is loaded -/

namespace CredentialSources

/-- The text that the id is read from: the variable if it gives a number other than zero, and the
value in the file otherwise. -/
def idText (c : CredentialSources) : Option Bytes :=
  if c.idFromEnv ≠ 0 then c.envId
  else
    match readIniKey c.iniFile (ascii "api_id") 32 with
    | .value buf => some buf
    | _ => none

structure Usable (c : CredentialSources) (cfg : ApiConfig) : Prop where
  hash : ∃ h, cfg.apiHash = some h ∧ h.length = 32 ∧ ∀ x ∈ h, isLowerHex x = true
  positive : 0 < cfg.apiId
  numeric : ∃ t, c.idText = some t ∧ t ≠ [] ∧ ∀ d ∈ t, isDigit d = true

/-- What has to be checked outside: a hash in the environment is one, and the text of the id is a
number that `atoi` makes a positive one of. -/
structure Vetted (c : CredentialSources) : Prop where
  hash : isSet c.envHash = true → isValidApiHash (c.envHash.getD []) = true
  id : ∃ t, c.idText = some t ∧ t ≠ [] ∧ (∀ d ∈ t, isDigit d = true) ∧ 0 < atoi t

theorem isValidApiHash_iff (h : Bytes) :
    isValidApiHash h = true ↔ h.length = 32 ∧ ∀ x ∈ h, isLowerHex x = true := by
  rw [isValidApiHash, Bool.and_eq_true, beq_iff_eq, List.all_eq_true]
  rfl

theorem isValidApiHash_take (h : Bytes) :
    isValidApiHash (h.take apiHashMax) = isValidApiHash h := by
  rcases le_or_gt h.length apiHashMax with hle | hgt
  · rw [List.take_of_length_le hle]
  · have hcut : (h.take apiHashMax).length = 64 := by
      rw [List.length_take]
      exact min_eq_left hgt.le
    have hlong : 64 < h.length := hgt
    have h₁ : ¬ isValidApiHash (h.take apiHashMax) = true := fun hv => by
      have := ((isValidApiHash_iff _).mp hv).1
      omega
    have h₂ : ¬ isValidApiHash h = true := fun hv => by
      have := ((isValidApiHash_iff _).mp hv).1
      omega
    rw [Bool.eq_false_iff.mpr h₁, Bool.eq_false_iff.mpr h₂]

theorem isSet_iff (v : Option Bytes) : isSet v = true ↔ v.getD [] ≠ [] := by
  cases v with
  | none => simp [isSet]
  | some s => simp [isSet]

theorem hashFromEnv_eq_nil_iff (c : CredentialSources) :
    c.hashFromEnv = [] ↔ isSet c.envHash = false := by
  rw [hashFromEnv]
  split_ifs with hset
  · rw [List.take_eq_nil_iff]
    simp [hset, (isSet_iff _).mp hset, apiHashMax]
  · simp [hset]

variable {c : CredentialSources}

theorem hashFromFile_valid (h : c.hashFromFile.1 ≠ []) :
    isValidApiHash c.hashFromFile.1 = true := by
  rw [hashFromFile] at h ⊢
  split at h
  · split_ifs at h ⊢ with hv
    · exact hv
    · exact absurd rfl h
  · exact absurd rfl h

theorem found_id_eq (c : CredentialSources) :
    c.found.1 = if c.idFromEnv = 0 then c.idFromFile else c.idFromEnv := by
  rw [found]
  by_cases hfile : c.idFromEnv = 0 ∨ c.hashFromEnv = []
  · rw [if_pos hfile]
  · rw [if_neg hfile, if_neg fun hid => hfile (.inl hid)]
    split_ifs <;> rfl

theorem atoi_idText (h : c.found.1 ≠ 0) :
    ∃ t, c.idText = some t ∧ c.found.1 = atoi t := by
  rw [found_id_eq] at h ⊢
  rw [idText]
  by_cases hid : c.idFromEnv = 0
  · rw [if_pos hid] at h ⊢
    rw [if_neg (not_not.mpr hid)]
    rw [idFromFile] at h ⊢
    split at h
    · exact ⟨_, rfl, rfl⟩
    · exact absurd rfl h
  · rw [if_neg hid, if_pos hid]
    rw [idFromEnv] at hid ⊢
    split_ifs at hid ⊢ with hset
    · cases henv : c.envId with
      | none => exact absurd hset (by simp [isSet, henv])
      | some t => exact ⟨t, rfl, rfl⟩
    · exact absurd rfl hid

theorem found_hash_of_set (hset : isSet c.envHash = true)
    (h : c.found.2.1 ≠ []) : c.found.2.1 = c.hashFromEnv := by
  have henv : c.hashFromEnv ≠ [] := by
    rw [Ne, hashFromEnv_eq_nil_iff, hset]
    decide
  rw [found] at h ⊢
  by_cases hfile : c.idFromEnv = 0 ∨ c.hashFromEnv = []
  · rw [if_pos hfile, if_neg henv]
  · rw [if_neg hfile] at h ⊢
    split_ifs at h ⊢ with hbad
    · exact absurd rfl h
    · rfl

theorem found_hash_of_unset (hset : isSet c.envHash = false) :
    c.found.2.1 = c.hashFromFile.1 := by
  have henv := (hashFromEnv_eq_nil_iff c).mpr hset
  rw [found, if_pos (.inr henv), if_pos henv]

theorem found_hash_valid_iff (h : c.found.2.1 ≠ []) :
    isValidApiHash c.found.2.1 = true ↔
      (isSet c.envHash = true → isValidApiHash (c.envHash.getD []) = true) := by
  cases hset : isSet c.envHash with
  | true =>
    rw [found_hash_of_set hset h, hashFromEnv, if_pos hset, isValidApiHash_take]
    exact ⟨fun hv _ => hv, fun hv => hv rfl⟩
  | false =>
    rw [found_hash_of_unset hset] at h ⊢
    exact iff_of_true (hashFromFile_valid h) fun hf => absurd hf Bool.false_ne_true

theorem credentialsLoad_eq_ok {cfg : ApiConfig} (h : credentialsLoad c = .ok cfg) :
    c.found.1 ≠ 0 ∧ c.found.2.1 ≠ [] ∧ cfg.apiId = c.found.1 ∧ cfg.apiHash = some c.found.2.1 := by
  rw [credentialsLoad] at h
  dsimp only at h
  split_ifs at h with hboth hid hhash
  cases h
  exact ⟨hid, hhash, rfl, rfl⟩

/-- **What is loaded is usable exactly if it has been vetted outside.** -/
theorem usable_iff {c : CredentialSources} {cfg : ApiConfig} (h : credentialsLoad c = .ok cfg) :
    c.Usable cfg ↔ c.Vetted := by
  obtain ⟨hid, hhash, hcfgId, hcfgHash⟩ := credentialsLoad_eq_ok h
  obtain ⟨t, ht, hatoi⟩ := atoi_idText hid
  rw [hatoi] at hcfgId
  constructor
  · rintro ⟨⟨hash, hcfg, hvalid⟩, hpos, ⟨t', ht', hne, hdigits⟩⟩
    obtain rfl : hash = c.found.2.1 := Option.some.inj (hcfg.symm.trans hcfgHash)
    obtain rfl : t' = t := Option.some.inj (ht'.symm.trans ht)
    refine ⟨(found_hash_valid_iff hhash).mp ((isValidApiHash_iff _).mpr hvalid),
      t', ht, hne, hdigits, ?_⟩
    rwa [hcfgId] at hpos
  · rintro ⟨henv, ⟨t', ht', hne, hdigits, hpos⟩⟩
    obtain rfl : t' = t := Option.some.inj (ht'.symm.trans ht)
    refine ⟨⟨_, hcfgHash, (isValidApiHash_iff _).mp ((found_hash_valid_iff hhash).mpr henv)⟩, ?_,
      t', ht, hne, hdigits⟩
    rwa [hcfgId]

theorem usable_of_file :
    (⟨none, none, some (ascii "api_id = 12345\napi_hash=\"0123456789abcdef0123456789abcdef\"\n")⟩ :
      CredentialSources).Usable
      { apiConfigInit with
        apiId := 12345, apiHash := some (ascii "0123456789abcdef0123456789abcdef") } :=
  (usable_iff (by rfl)).mpr ⟨by decide +kernel, ascii "12345", by decide +kernel, by decide +kernel,
    by decide +kernel, by decide +kernel⟩

/-- A hash from the environment that is too short is accepted beside an id from the file. -/
theorem short_hash_loaded :
    ∃ cfg, credentialsLoad ⟨none, some (ascii "abc"), some (ascii "api_id=12345\n")⟩ = .ok cfg ∧
      ¬ (⟨none, some (ascii "abc"), some (ascii "api_id=12345\n")⟩ : CredentialSources).Usable
        cfg := by
  refine ⟨{ apiConfigInit with apiId := 12345, apiHash := some (ascii "abc") }, by rfl, fun h => ?_⟩
  obtain ⟨hash, hcfg, hlen, -⟩ := h.hash
  rw [← Option.some.inj hcfg] at hlen
  exact absurd hlen (by decide)

end CredentialSources

end TgCli.App
