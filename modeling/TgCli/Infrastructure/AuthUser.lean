import TgCli.Core.TlSkip.Chat
import TgCli.Core.TlSkip.Reading
import TgCli.Infrastructure.Auth2fa

/-!
# Who has logged in

`auth.authorization` carries the user that has logged in, and three functions take the id out of it:
`auth_sign_in` and `auth_sign_up` by way of `parse_authorization`, and `auth_2fa_check_password` by
itself.  The fourth decoder of the same object is `tl_extract_user`, which everything else uses.

A `user` begins with two flag words, `flags` and `flags2`, and then comes the id.
`tl_extract_user` reads both.  The login functions read one, and so the word they take for the low
half of the id is `flags2`, and the low half of the id becomes the high half:

* `Login.reported_eq`: the id a login reports is the eight bytes behind `flags`;
* `Extracts.id_eq`: the id `tl_extract_user` extracts is the eight bytes behind `flags2`.
-/

namespace TgCli.Infrastructure

open Lib TgCli.Core Walk

/-! ## The id that `tl_extract_user` extracts -/

/-- `tl_extract_user` succeeds at the cursor, and `u` is what it leaves at its `out`. -/
def Extracts (r : TlReader) (u : UserSummary) : Prop :=
  ∃ o r', extractUserInner.run ⟨r, some o⟩ = (some (), ⟨r', some u⟩)

theorem id_setLastName (s : Bytes) (o : UserSummary) : (o.setLastName s).id = o.id := by
  rw [UserSummary.setLastName]
  split <;> rfl

/-- Whatever follows the id leaves it as it is. -/
instance extractUserTail_keeps (flags flags2 : UInt32) :
    Prog.Keeps (Ext.noted UserSummary.id) (extractUserTail flags flags2) := by
  have hhash (a : Int64) : Prog.Keeps (Ext.noted UserSummary.id)
      (Ext.set fun o : UserSummary => { o with accessHash := a, haveAccessHash := true }) :=
    Ext.keepsSet fun _ => rfl
  have hfirst : Prog.Keeps (Ext.noted UserSummary.id) (Ext.stringInto UserSummary.setFirstName) :=
    Ext.keepsStringInto fun _ _ => rfl
  have hlast : Prog.Keeps (Ext.noted UserSummary.id) (Ext.stringInto UserSummary.setLastName) :=
    Ext.keepsStringInto id_setLastName
  have husername : Prog.Keeps (Ext.noted UserSummary.id) (Ext.stringInto UserSummary.setUsername) :=
    Ext.keepsStringInto fun _ _ => rfl
  rw [extractUserTail]
  infer_instance

variable {b resp : Bytes}

theorem extractUser_id_eq {p : ℕ} {o : Option UserSummary} {st : Ext UserSummary}
    (hp : p ≤ b.length) (h : extractUser.run ⟨⟨b, p⟩, o⟩ = (some (), st)) :
    p + 16 ≤ b.length ∧ st.noted UserSummary.id = o.map fun _ => (u64At b (p + 8)).toInt64 := by
  obtain ⟨_, st₁, hneed, h⟩ := Prog.bind_eq_some.mp h
  obtain ⟨r₁, hneed', rfl⟩ := Ext.walk_eq_some.mp hneed
  obtain ⟨rfl, hfit⟩ := need_at hp hneed'
  obtain ⟨flags, st₂, hflags, h⟩ := Prog.bind_eq_some.mp h
  obtain ⟨r₂, hflags', rfl⟩ := Ext.walk_eq_some.mp hflags
  obtain ⟨-, rfl⟩ := u32_at (by omega) hflags'
  obtain ⟨flags2, st₃, hflags2, h⟩ := Prog.bind_eq_some.mp h
  obtain ⟨r₃, hflags2', rfl⟩ := Ext.walk_eq_some.mp hflags2
  obtain ⟨-, rfl⟩ := u32_at (by omega) hflags2'
  obtain ⟨id, st₄, hid, h⟩ := Prog.bind_eq_some.mp h
  obtain ⟨r₄, hid', rfl⟩ := Ext.walk_eq_some.mp hid
  obtain ⟨hfit', rfl, rfl⟩ := need_i64_at (by omega) hid'
  obtain ⟨_, st₅, hset, h⟩ := Prog.bind_eq_some.mp h
  have hkept := (extractUserTail_keeps flags flags2).eq st₅
  have htail : extractUserTail flags flags2 st₅ = (some (), st) := h
  rw [htail] at hkept
  refine ⟨by omega, hkept.trans ?_⟩
  rw [← (Prod.mk.inj hset).2, Ext.noted]
  cases o <;> rfl

/-- The constructor of a user with all its fields. -/
def IsFullUser (crc : UInt32) : Prop :=
  crc = tlUser ∨ crc = tlUser2

theorem IsFullUser.ne_userEmpty {crc : UInt32} (h : IsFullUser crc) : crc ≠ tlUserEmpty := by
  rcases h with rfl | rfl <;> decide

theorem Extracts.id_eq {p : ℕ} {u : UserSummary} (h : Extracts ⟨b, p⟩ u)
    (hfull : IsFullUser (u32At b p)) :
    p + 20 ≤ b.length ∧ u.id = (u64At b (p + 12)).toInt64 := by
  obtain ⟨o, r', h⟩ := h
  obtain ⟨_, st₁, hset, h⟩ := Prog.bind_eq_some.mp h
  obtain rfl : _ = st₁ := (Prod.mk.inj hset).2
  obtain ⟨crc, st₂, hcrc, h⟩ := Prog.bind_eq_some.mp h
  obtain ⟨r₂, hcrc', rfl⟩ := Ext.walk_eq_some.mp hcrc
  obtain ⟨_, r₁, henter, hword⟩ := bind_eq_some.mp hcrc'
  obtain ⟨hpos, hfit, rfl⟩ := Guarded.enter_eq_some.mp henter
  have hfit : p + 4 ≤ b.length := by
    have hfit : 4 ≤ b.length - p := hfit
    omega
  obtain ⟨rfl, rfl⟩ := u32_at hfit hword
  have hknown : u32At b p = tlUser ∨ u32At b p = tlUser2 := hfull
  rw [if_neg hfull.ne_userEmpty, if_pos hknown] at h
  obtain ⟨hlen, hid⟩ := extractUser_id_eq hfit h
  exact ⟨by omega, Option.some.inj hid⟩

/-! ## The id that a login reports -/

inductive Login where
  | signIn
  | signUp
  | checkPassword
  deriving DecidableEq

/-- The user id at `user_id_out`, when `auth_sign_in` returns 0. -/
def SignIn.userId : SignIn → Option Int64
  | authorized userId => some userId
  | signUpRequired => none

/-- The user id that the call reports for an answer it accepts. -/
def Login.reported : Login → Bytes → Option Int64
  | signIn, resp => (parseSignIn resp).toOption.bind SignIn.userId
  | signUp, resp => (parseSignUp resp).toOption
  | checkPassword, resp => parseCheckPassword resp

section Calls

variable {env : ApiEnv} {s : MtProtoSession} {net : Net}

theorem authCall_eq_ok {α : Type} {queryCap : ℕ} {query : Bytes} {parse : Bytes → Except RpcError α}
    {a : α} (h : (authCall env queryCap query parse s net).1 = .ok a) :
    ∃ resp, (authRequest env .reset query 65536 s net).1 = .ok resp ∧ parse resp = .ok a := by
  rw [authCall] at h
  split at h
  · exact absurd h (by simp)
  · dsimp only at h
    rcases hresp : (authRequest env .reset query 65536 s net).1 with err | resp
    · rw [hresp] at h
      exact absurd h (by simp [Except.bind])
    · rw [hresp] at h
      exact ⟨resp, rfl, h⟩

/-- What `auth_sign_in` puts at `user_id_out` is what it reports for the answer it got. -/
theorem authSignIn_reported {phone hash code : Bytes} {uid : Int64}
    (h : (authSignIn env phone hash code s net).1 = .ok (.authorized uid)) :
    ∃ resp, (authRequest env .reset (buildSignIn phone hash code) 65536 s net).1 = .ok resp ∧
      Login.signIn.reported resp = some uid := by
  obtain ⟨resp, hresp, h⟩ := authCall_eq_ok h
  exact ⟨resp, hresp, by rw [Login.reported, h]; rfl⟩

theorem authSignUp_reported {phone hash firstName lastName : Bytes} {uid : Int64}
    (h : (authSignUp env phone hash firstName lastName s net).1 = .ok uid) :
    ∃ resp, (authRequest env .reset (buildSignUp phone hash firstName lastName) 65536 s net).1 =
      .ok resp ∧ Login.signUp.reported resp = some uid := by
  obtain ⟨resp, hresp, h⟩ := authCall_eq_ok h
  exact ⟨resp, hresp, by rw [Login.reported, h]; rfl⟩

theorem auth2faCheckPassword_reported {c : Crypto} {params : Account2faPassword} {password : Bytes}
    {a : Option (Block 256)} {uid : Int64}
    (h : (auth2faCheckPassword c env params password a s net).1 = .ok uid) :
    ∃ query resp, (authRequest env .zero query 2048 s net).1 = .ok resp ∧
      Login.checkPassword.reported resp = some uid := by
  rw [auth2faCheckPassword] at h
  split at h
  · exact absurd h (by simp)
  rcases hsrp : srpCompute c params password a with _ | ⟨bigA, m1⟩ <;> rw [hsrp] at h <;>
    dsimp only at h
  · exact absurd h (by simp)
  split at h
  · exact absurd h (by simp)
  refine ⟨buildCheckPassword params.srpId bigA m1, ?_⟩
  generalize authRequest env .zero (buildCheckPassword params.srpId bigA m1) 2048 s net = r at h ⊢
  rcases hresp : r.1 with err | resp <;> rw [hresp] at h
  · exact absurd h (by simp [Except.bind])
  · refine ⟨resp, rfl, ?_⟩
    change orErr .zero (parseCheckPassword resp) = .ok uid at h
    rcases huid : parseCheckPassword resp with _ | uid' <;> rw [huid] at h
    · exact absurd h (by simp [orErr])
    · exact huid.trans (congrArg some (Except.ok.inj h))

end Calls

/-- Where the user is in an `auth.authorization`: behind `otherwise_relogin_days`, if flag 1 says
that there is one. -/
def authUserAt (resp : Bytes) : ℕ :=
  if hasFlag (u32At resp 4) 1 then 12 else 8

theorem authUser_reader (hlen : authUserAt resp ≤ resp.length) :
    (if hasFlag (u32At resp 4) 1 then (tlReadInt32 ⟨resp, 8⟩).2 else ⟨resp, 8⟩) =
      (⟨resp, authUserAt resp⟩ : TlReader) := by
  rw [authUserAt] at hlen ⊢
  split_ifs at hlen ⊢
  · rw [tlReadInt32, tlReadUint32_at hlen]
  · rfl

theorem authFlags_reader (hlen : 8 ≤ resp.length) :
    tlReadUint32 (tlReadUint32 (tlReaderInit resp)).2 = (u32At resp 4, ⟨resp, 8⟩) := by
  have hfirst : tlReadUint32 (tlReaderInit resp) = (u32At resp 0, ⟨resp, 4⟩) :=
    tlReadUint32_at (by omega)
  rw [hfirst, tlReadUint32_at (by omega)]

section Reported

variable {resp : Bytes} {p : ℕ} (hp : authUserAt resp = p) (hlen : p + 16 ≤ resp.length)
  (hfull : IsFullUser (u32At resp p))

include hp hlen hfull

theorem parseAuthorization_eq : parseAuthorization resp = (u64At resp (p + 8)).toInt64 := by
  subst hp
  have hknown : ¬(u32At resp (authUserAt resp) ≠ tlUser ∧ u32At resp (authUserAt resp) ≠ tlUser2 ∧
      u32At resp (authUserAt resp) ≠ tlUserFull) := by
    rintro ⟨h1, h2, -⟩
    exact hfull.elim h1 h2
  rw [parseAuthorization, authFlags_reader (by omega), authUser_reader (by omega),
    tlReadUint32_at (by omega), if_neg hknown, tlReadUint32_at (by omega),
    tlReadInt64_at (by omega)]

theorem parseCheckPassword_eq {uid : Int64} (h : parseCheckPassword resp = some uid) :
    uid = (u64At resp (p + 8)).toInt64 := by
  subst hp
  have hknown : u32At resp (authUserAt resp) = tlUser ∨ u32At resp (authUserAt resp) = tlUser2 ∨
      u32At resp (authUserAt resp) = tlUserFull := by
    rw [← or_assoc]
    exact .inl hfull
  have hleft : (⟨resp, authUserAt resp + 4 + 4⟩ : TlReader).left ≥ 8 := by
    rw [TlReader.left_of_le (by dsimp only; omega)]
    dsimp only
    omega
  have hreader := authUser_reader (by omega : authUserAt resp ≤ resp.length)
  rw [parseCheckPassword, authFlags_reader (by omega)] at h
  dsimp only at h
  by_cases htop : u32At resp 0 ≠ crcAuthAuthorization
  · rw [if_pos htop] at h
    exact absurd h.symm (Option.some_ne_none uid)
  rw [if_neg htop] at h
  split_ifs at h hreader with hflag hshort
  · exact absurd h.symm (Option.some_ne_none uid)
  -- the two ways to the user: over `otherwise_relogin_days`, and straight on
  all_goals
    rw [hreader, Option.bind_eq_bind, Option.bind_some, tlReadUint32_at (by omega), if_pos hknown,
      tlReadUint32_at (by omega), if_pos hleft, tlReadInt64_at (by omega)] at h
    exact (Option.some.inj h).symm

theorem Login.reported_eq (login : Login) {uid : Int64} (h : login.reported resp = some uid) :
    uid = (u64At resp (p + 8)).toInt64 := by
  cases login with
  | signIn =>
    rw [reported, parseSignIn] at h
    split_ifs at h
    · exact absurd h.symm (Option.some_ne_none uid)
    · exact absurd h.symm (Option.some_ne_none uid)
    · exact (Option.some.inj h).symm.trans (parseAuthorization_eq hp hlen hfull)
  | signUp =>
    rw [reported, parseSignUp] at h
    split_ifs at h
    · exact absurd h.symm (Option.some_ne_none uid)
    · exact (Option.some.inj h).symm.trans (parseAuthorization_eq hp hlen hfull)
  | checkPassword => exact parseCheckPassword_eq hp hlen hfull h

end Reported

/-! ## Where they agree -/

/-- `flags2` and both halves of the id of the user at `p` are one word. -/
def OneWord (b : Bytes) (p : ℕ) : Prop :=
  u32At b (p + 8) = u32At b (p + 12) ∧ u32At b (p + 12) = u32At b (p + 16)

theorem u64At_eq_next_iff {p : ℕ} (h : p + 20 ≤ b.length) :
    u64At b (p + 8) = u64At b (p + 12) ↔ OneWord b p := by
  have h1 := (u32At b (p + 8)).toNat_lt
  have h2 := (u32At b (p + 12)).toNat_lt
  rw [OneWord, ← UInt64.toNat_inj, toNat_u64At (by omega), toNat_u64At (by omega),
    ← UInt32.toNat_inj, ← UInt32.toNat_inj, show p + 8 + 4 = p + 12 from rfl,
    show p + 12 + 4 = p + 16 from rfl]
  constructor
  · intro h
    constructor <;> omega
  · rintro ⟨h, h'⟩
    omega

/-- **The reported id and the extracted id.**  For an answer that a login accepts, with a user that
`tl_extract_user` reads, the login reports the id of the user exactly if `flags2`, the low half and
the high half of the id are equal. -/
theorem reported_eq_extracted_iff (login : Login) (resp : Bytes) (uid : Int64) (u : UserSummary)
    (hlogin : login.reported resp = some uid) (hfull : IsFullUser (u32At resp (authUserAt resp)))
    (hu : Extracts ⟨resp, authUserAt resp⟩ u) : uid = u.id ↔ OneWord resp (authUserAt resp) := by
  obtain ⟨hlen, hid⟩ := hu.id_eq hfull
  rw [login.reported_eq rfl (by omega) hfull hlogin, hid, ← u64At_eq_next_iff hlen]
  exact ⟨fun h => congrArg Int64.toUInt64 h, congrArg UInt64.toInt64⟩

/-- An `auth.authorization` without `otherwise_relogin_days`, with a `user` that has only its two
flag words and its id. -/
def bareAuthorization (flags2 : UInt32) (id : UInt64) : Bytes :=
  u32Bytes crcAuthAuthorization ++ (u32Bytes 0 ++ (u32Bytes tlUser ++
    (u32Bytes 0 ++ (u32Bytes flags2 ++ u64Bytes id))))

/-- User 8589934594 = 2 · (2³² + 1), with 2 for `flags2`. -/
theorem reported_eq_extracted_of_word :
    (8589934594 : Int64) = (⟨8589934594, 0, false, [], []⟩ : UserSummary).id ↔
      OneWord (bareAuthorization 2 8589934594) (authUserAt (bareAuthorization 2 8589934594)) :=
  reported_eq_extracted_iff .signIn (bareAuthorization 2 8589934594) 8589934594
    ⟨8589934594, 0, false, [], []⟩ (by decide +kernel) (.inl (by decide +kernel))
    ⟨⟨0, 0, false, [], []⟩, ⟨_, 28⟩, by rfl⟩

/-- User 7 logs in, and `auth_sign_in` reports 7 · 2³². -/
theorem reported_ne_extracted :
    ¬ ∀ (login : Login) (resp : Bytes) (uid : Int64) (u : UserSummary),
      login.reported resp = some uid → IsFullUser (u32At resp (authUserAt resp)) →
      Extracts ⟨resp, authUserAt resp⟩ u → uid = u.id := by
  intro h
  have hid := h .signIn (bareAuthorization 0 7) 30064771072 ⟨7, 0, false, [], []⟩
    (by decide +kernel) (.inl (by decide +kernel)) ⟨⟨0, 0, false, [], []⟩, ⟨_, 28⟩, by rfl⟩
  exact absurd hid (by decide)

end TgCli.Infrastructure
