import TgCli.Core.TlSkip.UserLayout
import TgCli.Domain.UserInfo
import TgCli.Infrastructure.AuthUser

/-!
# `domain/read/self.c`: one's own profile, and three decoders of one object

`users.getUsers` with `inputUserSelf` answers with a vector of one user, and `parse_user` reads it.
The same object is read by `tl_extract_user` wherever it stands in a list, and by
`parse_user_prefix` when a username is resolved.

`tl_extract_user` checks before every read that the bytes are there and gives up where they are not.
The two others read without a check: past the end of the buffer a number is read as zero and a
string as none.  They stay aligned with it because all three make the same reads in the same order,
up to the username, and a check only ever leads to failure.  `readUserFields` is this common
sequence.  Each decoder cuts the strings to arrays of its own, and `tl_extract_user` and
`parse_user_prefix` put the names together, so what they agree on is what each of them makes of the
same fields (`userDecoders_agree`).
-/

namespace TgCli.Domain

open Option Lib TgCli.Core Walk Infrastructure

def crcUsersGetUsers : UInt32 := 0x0d91a548
def crcInputUserSelf : UInt32 := 0xf7c1b13f

/-! ## The call -/

structure SelfInfo where
  id : Int64
  firstName : Bytes
  lastName : Bytes
  username : Bytes
  phone : Bytes
  isPremium : Bool
  isBot : Bool
  deriving DecidableEq

def SelfInfo.zero : SelfInfo :=
  ⟨0, [], [], [], [], false, false⟩

/-- `build_request`, into `cap` bytes. -/
def buildSelfRequest (cap : ℕ) : Option Bytes :=
  let w := tlWriteUint32 (tlWriteUint32 (tlWriteUint32 (tlWriteUint32 [] crcUsersGetUsers)
    tlVector) 1) crcInputUserSelf
  if w.length ≤ cap then some w else none

/-- `copy_str` into `cap` bytes; `NULL` is copied as the empty string. -/
def copyStr (cap : ℕ) (src : Option Bytes) : Bytes :=
  (cstr (src.getD [])).take (cap - 1)

/-- `parse_user`, with `none` for -1. -/
def parseUser (r : TlReader) (out : SelfInfo) : Option SelfInfo :=
  if !tlReaderOk r then none else
  let crc := tlReadUint32 r
  if crc.1 = tlUserEmpty then some { out with id := (tlReadInt64 crc.2).1 }
  else if crc.1 ≠ tlUser ∧ crc.1 ≠ tlUser2 ∧ crc.1 ≠ tlUserFull then none
  else
    let flags := tlReadUint32 crc.2
    let flags2 := tlReadUint32 flags.2
    let id := tlReadInt64 flags2.2
    let r := if hasFlag flags.1 0 then (tlReadInt64 id.2).2 else id.2
    let first := tlReadString r
    let r := if hasFlag flags.1 1 then first.2 else r
    let last := tlReadString r
    let r := if hasFlag flags.1 2 then last.2 else r
    let user := tlReadString r
    let r := if hasFlag flags.1 3 then user.2 else r
    let phone := tlReadString r
    some
      { id := id.1
        firstName := if hasFlag flags.1 1 then copyStr 128 first.1 else out.firstName
        lastName := if hasFlag flags.1 2 then copyStr 128 last.1 else out.lastName
        username := if hasFlag flags.1 3 then copyStr 64 user.1 else out.username
        phone := if hasFlag flags.1 4 then copyStr 32 phone.1 else out.phone
        isPremium := hasFlag flags2.1 3
        isBot := hasFlag flags.1 14 }

/-- `domain_get_self`, with `none` for -1 and the answer of `api_call`. -/
def domainGetSelf (api : Bytes → Option Bytes) : Option SelfInfo := do
  let query ← buildSelfRequest 64
  let resp ← api query
  if resp.length < 8 then none
  else if u32At resp 0 = crcRpcError then none
  else if u32At resp 0 ≠ tlVector then none
  else
    let count := tlReadUint32 (tlReadUint32 (tlReaderInit resp)).2
    if count.1 = 0 then none else parseUser count.2 .zero

/-! ## The common reads -/

/-- What a `user` has up to the username.  A name without its flag counts as empty. -/
structure UserFields where
  id : Int64
  accessHash : Option Int64
  firstName : Bytes
  lastName : Bytes
  username : Bytes

/-- A string that is there if its flag is set; `none` if the flag is set and the string is not. -/
def readFlagged (c : Bool) (r : TlReader) : Option (Bytes × TlReader) :=
  if c then (tlReadString r).1.map fun s => (s, (tlReadString r).2) else some ([], r)

/-- The reads of a `user` behind its constructor. -/
def readUserFields (r : TlReader) : Option UserFields :=
  let flags := tlReadUint32 r
  let id := tlReadInt64 (tlReadUint32 flags.2).2
  let hash := tlReadInt64 id.2
  (readFlagged (hasFlag flags.1 1) (if hasFlag flags.1 0 then hash.2 else id.2)).bind fun first =>
  (readFlagged (hasFlag flags.1 2) first.2).bind fun last =>
  (readFlagged (hasFlag flags.1 3) last.2).map fun user =>
    ⟨id.1, if hasFlag flags.1 0 then some hash.1 else none, first.1, last.1, user.1⟩

theorem cstr_cstr (s : Bytes) : cstr (cstr s) = cstr s :=
  cstr_eq_self (zero_not_mem_cstr s)

variable {r : TlReader}

theorem cstr_of_tlReadString {s : Bytes} (h : (tlReadString r).1 = some s) :
    cstr s = s := by
  obtain ⟨b, -, rfl⟩ := map_eq_some_iff.mp h
  exact cstr_cstr b

section Flagged

variable {c : Bool} {r r' : TlReader} {s : Bytes}

theorem snd_of_readFlagged (h : readFlagged c r = some (s, r')) :
    (if c then (tlReadString r).2 else r) = r' := by
  cases c with
  | false => exact (Prod.mk.inj (some.inj h)).2
  | true =>
    obtain ⟨_, -, h⟩ := map_eq_some_iff.mp h
    exact (Prod.mk.inj h).2

theorem copy_of_readFlagged (h : readFlagged c r = some (s, r')) (cap : ℕ) :
    (if c then copyStr cap (tlReadString r).1 else []) = s.take (cap - 1) := by
  cases c with
  | false =>
    obtain rfl := (Prod.mk.inj (some.inj h)).1
    exact List.take_nil.symm
  | true =>
    obtain ⟨s', hs, h⟩ := map_eq_some_iff.mp h
    obtain rfl := (Prod.mk.inj h).1
    rw [if_pos rfl, copyStr, hs, getD_some, cstr_of_tlReadString hs]

theorem readNameIf_of_readFlagged (h : readFlagged c r = some (s, r')) (cap : ℕ) :
    readNameIf c cap r = (s.take (cap - 1), r') := by
  rw [← copy_of_readFlagged h cap, ← snd_of_readFlagged h, readNameIf]
  cases c <;> rfl

end Flagged

theorem readUserFields_eq_some {f : UserFields} :
    readUserFields r = some f ↔ ∃ s₁ r₁ s₂ r₂ s₃ r₃,
      readFlagged (hasFlag (tlReadUint32 r).1 1)
        (if hasFlag (tlReadUint32 r).1 0 then
          (tlReadInt64 (tlReadInt64 (tlReadUint32 (tlReadUint32 r).2).2).2).2
        else (tlReadInt64 (tlReadUint32 (tlReadUint32 r).2).2).2) = some (s₁, r₁) ∧
      readFlagged (hasFlag (tlReadUint32 r).1 2) r₁ = some (s₂, r₂) ∧
      readFlagged (hasFlag (tlReadUint32 r).1 3) r₂ = some (s₃, r₃) ∧
      f = ⟨(tlReadInt64 (tlReadUint32 (tlReadUint32 r).2).2).1,
        if hasFlag (tlReadUint32 r).1 0 then
          some (tlReadInt64 (tlReadInt64 (tlReadUint32 (tlReadUint32 r).2).2).2).1 else none,
        s₁, s₂, s₃⟩ := by
  unfold readUserFields
  constructor
  · intro h
    obtain ⟨⟨s₁, r₁⟩, h₁, h⟩ := bind_eq_some_iff.mp h
    obtain ⟨⟨s₂, r₂⟩, h₂, h⟩ := bind_eq_some_iff.mp h
    obtain ⟨⟨s₃, r₃⟩, h₃, h⟩ := map_eq_some_iff.mp h
    exact ⟨s₁, r₁, s₂, r₂, s₃, r₃, h₁, h₂, h₃, h.symm⟩
  · rintro ⟨s₁, r₁, s₂, r₂, s₃, r₃, h₁, h₂, h₃, rfl⟩
    dsimp only
    rw [h₁, bind_some, h₂, bind_some, h₃, map_some]

/-! ## The two decoders without checks -/

/-- What `parse_user` makes of the fields. -/
structure SelfInfo.Holds (s : SelfInfo) (f : UserFields) : Prop where
  id : s.id = f.id
  firstName : s.firstName = f.firstName.take 127
  lastName : s.lastName = f.lastName.take 127
  username : s.username = f.username.take 63

theorem parseUser_of_fields {f : UserFields} (hok : tlReaderOk r = true)
    (hfull : IsFullUser (tlReadUint32 r).1) (h : readUserFields (tlReadUint32 r).2 = some f) :
    ∃ s, parseUser r .zero = some s ∧ s.Holds f := by
  obtain ⟨s₁, r₁, s₂, r₂, s₃, r₃, h₁, h₂, h₃, rfl⟩ := readUserFields_eq_some.mp h
  have hknown : ¬((tlReadUint32 r).1 ≠ tlUser ∧ (tlReadUint32 r).1 ≠ tlUser2 ∧
      (tlReadUint32 r).1 ≠ tlUserFull) := by
    rintro ⟨hu, hu2, -⟩
    exact hfull.elim hu hu2
  unfold parseUser
  rw [if_neg (by simp [hok]), if_neg hfull.ne_userEmpty, if_neg hknown]
  dsimp only
  rw [snd_of_readFlagged h₁, snd_of_readFlagged h₂]
  exact ⟨_, rfl, rfl, copy_of_readFlagged h₁ 128, copy_of_readFlagged h₂ 128,
    copy_of_readFlagged h₃ 64⟩

/-- The title of a resolved user: what fits of the first and of the last name. -/
def prefixTitle (first last : Bytes) : Bytes :=
  first.take 63 ++ (if first = [] ∨ last = [] then [] else ascii " ") ++ last.take 63

/-- What `parse_user_prefix` makes of the fields. -/
structure ResolvedPeer.Holds (p : ResolvedPeer) (f : UserFields) : Prop where
  id : p.id = f.id
  haveHash : p.haveHash = f.accessHash.isSome
  accessHash : p.accessHash = f.accessHash.getD 0
  title : p.title = prefixTitle f.firstName f.lastName
  username : p.username = f.username.take 63

theorem title_eq_prefixTitle (first last : Bytes) :
    (if first.take 63 ≠ [] ∨ last.take 63 ≠ [] then
      (first.take 63 ++ (if first.take 63 ≠ [] ∧ last.take 63 ≠ [] then ascii " " else []) ++
        last.take 63).take 127 else []) = prefixTitle first last := by
  have hempty : ∀ s : Bytes, s.take 63 = [] ↔ s = [] := by
    intro s
    simp
  have hblank : (if first.take 63 ≠ [] ∧ last.take 63 ≠ [] then ascii " " else []) =
      if first = [] ∨ last = [] then [] else ascii " " := by
    simp only [ne_eq, hempty]
    by_cases h : first = [] ∨ last = []
    · rw [if_pos h, if_neg (by tauto)]
    · rw [if_neg h, if_pos (by tauto)]
  have hlen : (prefixTitle first last).length ≤ 127 := by
    have h1 := List.length_take_le 63 first
    have h2 := List.length_take_le 63 last
    have h3 : (if first = [] ∨ last = [] then [] else ascii " ").length ≤ 1 := by
      split_ifs <;> decide
    unfold prefixTitle
    rw [List.length_append, List.length_append]
    omega
  rw [hblank]
  by_cases hany : first.take 63 ≠ [] ∨ last.take 63 ≠ []
  · rw [if_pos hany]
    exact List.take_of_length_le hlen
  · rw [if_neg hany]
    rw [not_or, not_not, not_not, hempty, hempty] at hany
    rw [hany.1, hany.2]
    rfl

theorem parseUserPrefix_of_fields {f : UserFields} (h : readUserFields r = some f) :
    (parseUserPrefix r .zero).1.Holds f := by
  obtain ⟨s₁, r₁, s₂, r₂, s₃, r₃, h₁, h₂, h₃, rfl⟩ := readUserFields_eq_some.mp h
  unfold parseUserPrefix
  dsimp only
  rw [readNameIf_of_readFlagged h₁ 64]
  rw [readNameIf_of_readFlagged h₂ 64]
  rw [readNameIf_of_readFlagged h₃ 64]
  have huser := copy_of_readFlagged h₃ 64
  have htitle := title_eq_prefixTitle s₁ s₂
  clear h h₁ h₂ h₃
  generalize (tlReadInt64 (tlReadInt64 (tlReadUint32 (tlReadUint32 r).2).2).2).1 = hash
  generalize (tlReadInt64 (tlReadUint32 (tlReadUint32 r).2).2).1 = id
  generalize hasFlag (tlReadUint32 r).1 0 = c₀
  generalize hasFlag (tlReadUint32 r).1 3 = c₃ at huser ⊢
  generalize s₁.take 63 = t₁ at htitle ⊢
  generalize s₂.take 63 = t₂ at htitle ⊢
  refine ⟨?_, ?_, ?_, ?_, ?_⟩
  · split_ifs <;> rfl
  · split_ifs <;> rfl
  · split_ifs <;> rfl
  · rw [← htitle]
    split_ifs <;> rfl
  · cases c₃ with
    | false =>
      have hnone : s₃.take 63 = [] := huser.symm
      rw [hnone]
      split_ifs <;> rfl
    | true =>
      simp only [↓reduceIte]
      split_ifs <;> rfl

/-! ## The decoder with checks -/

/-- What `tl_extract_user` makes of the fields. -/
def UserFields.summary (f : UserFields) : UserSummary :=
  { id := f.id
    accessHash := f.accessHash.getD 0
    haveAccessHash := f.accessHash.isSome
    name := joinedName f.firstName f.lastName
    username := f.username.take 63 }

theorem readFlagged_of_stringInto {Ω : Type} {c : Bool} {g : Bytes → Ω → Ω} {o : Ω}
    {st : Ext Ω} (h : Ext.opt c (Ext.stringInto g) ⟨r, some o⟩ = (some (), st)) :
    ∃ s r', readFlagged c r = some (s, r') ∧ st = ⟨r', some (if c then g s o else o)⟩ ∧
      (c = false → s = []) := by
  unfold Ext.opt at h
  unfold readFlagged
  cases c with
  | false => exact ⟨[], r, rfl, (Prod.mk.inj h).2.symm, fun _ => rfl⟩
  | true =>
    rw [if_pos rfl, Ext.stringInto] at h
    rcases hs : tlReadString r with ⟨_ | s, r'⟩ <;> rw [hs] at h
    · cases h
    · exact ⟨s, r', rfl, (Prod.mk.inj h).2.symm, fun h => absurd h (by simp)⟩

section Steps

variable {Ω : Type} {r : TlReader} {o : Option Ω} {st : Ext Ω}

theorem walk_need {n : ℕ} {a : Unit} (h : Ext.walk (need n) ⟨r, o⟩ = (some a, st)) :
    st = ⟨r, o⟩ := by
  obtain ⟨r₁, hneed, rfl⟩ := Ext.walk_eq_some.mp h
  rw [(Guarded.need_eq_some.mp hneed).2]

theorem walk_u32 {v : UInt32} (h : Ext.walk u32 ⟨r, o⟩ = (some v, st)) :
    v = (tlReadUint32 r).1 ∧ st = ⟨(tlReadUint32 r).2, o⟩ := by
  obtain ⟨r₁, hread, rfl⟩ := Ext.walk_eq_some.mp h
  have hread' : some (tlReadUint32 r) = some (v, r₁) := hread
  rw [some.inj hread']
  exact ⟨rfl, rfl⟩

theorem walk_constructor {v : UInt32} (h : Ext.walk (do enter 4; u32) ⟨r, o⟩ = (some v, st)) :
    tlReaderOk r = true ∧ v = (tlReadUint32 r).1 ∧ st = ⟨(tlReadUint32 r).2, o⟩ := by
  obtain ⟨r₁, hread, rfl⟩ := Ext.walk_eq_some.mp h
  obtain ⟨_, r₀, henter, hread⟩ := bind_eq_some.mp hread
  obtain ⟨hpos, -, hr₀⟩ := Guarded.enter_eq_some.mp henter
  rw [hr₀] at hread
  have hread' : some (tlReadUint32 r) = some (v, r₁) := hread
  rw [some.inj hread']
  exact ⟨decide_eq_true hpos, rfl, rfl⟩

theorem walk_i64 {v : Int64} (h : Ext.walk (do need 8; i64) ⟨r, o⟩ = (some v, st)) :
    v = (tlReadInt64 r).1 ∧ st = ⟨(tlReadInt64 r).2, o⟩ := by
  obtain ⟨r₁, hread, rfl⟩ := Ext.walk_eq_some.mp h
  obtain ⟨_, r₀, hneed, hread⟩ := bind_eq_some.mp hread
  rw [(Guarded.need_eq_some.mp hneed).2] at hread
  have hread' : some (tlReadInt64 r) = some (v, r₁) := hread
  rw [some.inj hread']
  exact ⟨rfl, rfl⟩

end Steps

theorem noted_eq_joined {c₁ c₂ c₃ : Bool} {s₁ s₂ s₃ : Bytes} {o : UserSummary} (ho : o.name = [])
    (ho' : o.username = []) (h₁ : c₁ = false → s₁ = []) (h₂ : c₂ = false → s₂ = [])
    (h₃ : c₃ = false → s₃ = []) :
    (let o₁ := if c₁ then o.setFirstName s₁ else o
     let o₂ := if c₂ then o₁.setLastName s₂ else o₁
     if c₃ then o₂.setUsername s₃ else o₂) =
      { o with name := joinedName s₁ s₂, username := s₃.take 63 } := by
  have hfirst : (if c₁ then o.setFirstName s₁ else o) = { o with name := s₁.take 95 } := by
    cases c₁ with
    | false =>
      rw [h₁ rfl, List.take_nil, ← ho]
      rfl
    | true => exact setFirstName_of_empty ho s₁
  have hlast : ∀ o₁ : UserSummary, o₁.name = s₁.take 95 →
      (if c₂ then o₁.setLastName s₂ else o₁) = { o₁ with name := joinedName s₁ s₂ } := by
    intro o₁ ho₁
    rw [← setLastName_of_first ho₁]
    cases c₂ with
    | false =>
      rw [h₂ rfl]
      rfl
    | true => rfl
  dsimp only
  rw [hfirst, hlast _ rfl]
  cases c₃ with
  | false =>
    rw [h₃ rfl, List.take_nil, ← ho']
    rfl
  | true => rfl

theorem hash_of_opt {c : Bool} {o : UserSummary} {st : Ext UserSummary} (h : Ext.opt c (do
      let accessHash ← Ext.walk do need 8; i64
      Ext.set fun o => { o with accessHash, haveAccessHash := true }) ⟨r, some o⟩ = (some (), st)) :
    st = ⟨if c then (tlReadInt64 r).2 else r,
      some (if c then { o with accessHash := (tlReadInt64 r).1, haveAccessHash := true }
        else o)⟩ := by
  unfold Ext.opt at h
  cases c with
  | false => exact (Prod.mk.inj h).2.symm
  | true =>
    rw [if_pos rfl] at h
    obtain ⟨v, st₁, hwalk, h⟩ := Prog.bind_eq_some.mp h
    obtain ⟨rfl, rfl⟩ := walk_i64 hwalk
    exact (Prod.mk.inj h).2.symm

theorem fields_of_extractUser {st : Ext UserSummary}
    (h : extractUser.run ⟨r, some ⟨0, 0, false, [], []⟩⟩ = (some (), st)) :
    ∃ f, readUserFields r = some f ∧ st.out = some f.summary := by
  obtain ⟨_, st₁, hneed, h⟩ := Prog.bind_eq_some.mp h
  obtain rfl := walk_need hneed
  obtain ⟨flags, st₂, hflags, h⟩ := Prog.bind_eq_some.mp h
  obtain ⟨rfl, rfl⟩ := walk_u32 hflags
  obtain ⟨flags2, st₃, hflags2, h⟩ := Prog.bind_eq_some.mp h
  obtain ⟨rfl, rfl⟩ := walk_u32 hflags2
  obtain ⟨id, st₄, hid, h⟩ := Prog.bind_eq_some.mp h
  obtain ⟨rfl, rfl⟩ := walk_i64 hid
  obtain ⟨_, st₅, hset, h⟩ := Prog.bind_eq_some.mp h
  obtain rfl : (⟨_, some ⟨_, 0, false, [], []⟩⟩ : Ext UserSummary) = st₅ := (Prod.mk.inj hset).2
  obtain ⟨_, st₆, hhash, h⟩ := Prog.bind_eq_some.mp h
  obtain rfl := hash_of_opt hhash
  obtain ⟨_, st₇, hfirst, h⟩ := Prog.bind_eq_some.mp h
  obtain ⟨s₁, r₁, h₁, rfl, hs₁⟩ := readFlagged_of_stringInto hfirst
  obtain ⟨_, st₈, hlast, h⟩ := Prog.bind_eq_some.mp h
  obtain ⟨s₂, r₂, h₂, rfl, hs₂⟩ := readFlagged_of_stringInto hlast
  obtain ⟨_, st₉, huser, h⟩ := Prog.bind_eq_some.mp h
  obtain ⟨s₃, r₃, h₃, rfl, hs₃⟩ := readFlagged_of_stringInto huser
  obtain ⟨r', -, rfl⟩ := Ext.walk_eq_some.mp h
  refine ⟨_, readUserFields_eq_some.mpr ⟨s₁, r₁, s₂, r₂, s₃, r₃, h₁, h₂, h₃, rfl⟩, ?_⟩
  have hname : ∀ (c : Bool) (x y : UserSummary), x.name = [] → y.name = [] →
      (if c then x else y).name = [] := by
    intro c x y hx hy
    cases c
    · exact hy
    · exact hx
  have husername : ∀ (c : Bool) (x y : UserSummary), x.username = [] → y.username = [] →
      (if c then x else y).username = [] := by
    intro c x y hx hy
    cases c
    · exact hy
    · exact hx
  refine congrArg some ((noted_eq_joined (hname _ _ _ rfl rfl) (husername _ _ _ rfl rfl)
    hs₁ hs₂ hs₃).trans ?_)
  unfold UserFields.summary
  generalize (tlReadInt64 (tlReadInt64 (tlReadUint32 (tlReadUint32 r).2).2).2).1 = hash
  generalize (tlReadInt64 (tlReadUint32 (tlReadUint32 r).2).2).1 = id
  generalize joinedName s₁ s₂ = name
  generalize s₃.take 63 = username
  cases hasFlag (tlReadUint32 r).1 0 <;> rfl

/-- **Three decoders of one user.**  Where `tl_extract_user` succeeds on a full user, the strings
are all there, and what it notes, what `parse_user` fills in and what `parse_user_prefix` fills in
are made of the same id, the same access hash, the same names and the same username. -/
theorem userDecoders_agree {r : TlReader} {u : UserSummary} (hu : Extracts r u)
    (hfull : IsFullUser (tlReadUint32 r).1) :
    ∃ f, readUserFields (tlReadUint32 r).2 = some f ∧ u = f.summary ∧
      (∃ s, parseUser r .zero = some s ∧ s.Holds f) ∧
      (parseUserPrefix (tlReadUint32 r).2 .zero).1.Holds f := by
  obtain ⟨o, r', h⟩ := hu
  obtain ⟨_, st₁, hset, h⟩ := Prog.bind_eq_some.mp h
  obtain rfl : _ = st₁ := (Prod.mk.inj hset).2
  obtain ⟨crc, st₂, hcrc, h⟩ := Prog.bind_eq_some.mp h
  obtain ⟨hok, rfl, rfl⟩ := walk_constructor hcrc
  have hknown : (tlReadUint32 r).1 = tlUser ∨ (tlReadUint32 r).1 = tlUser2 := hfull
  rw [if_neg hfull.ne_userEmpty, if_pos hknown] at h
  obtain ⟨f, hf, hsummary⟩ := fields_of_extractUser h
  exact ⟨f, hf, some.inj hsummary, parseUser_of_fields hok hfull hf,
    parseUserPrefix_of_fields hf⟩

/-- User 7 with the access hash 9, Ada L, `@al`. -/
def adaBytes : Bytes :=
  u32Bytes tlUser ++ (u32Bytes 15 ++ (u32Bytes 0 ++ (u64Bytes 7 ++ (u64Bytes 9 ++
    (tlBytes (ascii "Ada") ++ (tlBytes (ascii "L") ++ tlBytes (ascii "al")))))))

theorem userDecoders_agree_ada :
    ∃ f, readUserFields (tlReadUint32 ⟨adaBytes, 0⟩).2 = some f ∧
      (⟨7, 9, true, ascii "Ada L", ascii "al"⟩ : UserSummary) = f.summary ∧
      (∃ s, parseUser ⟨adaBytes, 0⟩ .zero = some s ∧ s.Holds f) ∧
      (parseUserPrefix (tlReadUint32 ⟨adaBytes, 0⟩).2 .zero).1.Holds f :=
  userDecoders_agree ⟨⟨0, 0, false, [], []⟩, ⟨_, 40⟩, by rfl⟩ (.inl (by decide +kernel))

end TgCli.Domain
