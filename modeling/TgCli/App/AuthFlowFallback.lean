import TgCli.App.AuthFlowLogin

/-!
# A login that falls back to a soft migration

When a data center redirects `auth.sendCode`, the login tries a full migration first: it closes the
connection, starts a new session and makes a key at the new data center.  If that fails, it falls
back to a soft migration, which connects to the new data center and is meant to go on under the key
it has.

By then there is no key.  The full migration starts its new session in place, so the old key and
salt are gone before the outcome is known, and an exchange that fails installs nothing
(`mtprotoAuthKeyGen_false`).  A session without a key sends nothing, so the `auth.sendCode` that the
fallback was for fails unsent and the login with it (`fallback_loses_login`).
-/

namespace TgCli.App

open List Lib TgCli.Core Infrastructure Prog

/-! ## Fallbacks -/

/-- A full migration that failed and a soft one that succeeded: the login before the first and after
the second. -/
structure Fallback where
  before : Login
  after : Login

structure Fallback.KeepsKey (f : Fallback) : Prop where
  authKey : f.after.conn.session.authKey = f.before.conn.session.authKey
  serverSalt : f.after.conn.session.serverSalt = f.before.conn.session.serverSalt
  hasAuthKey : f.after.conn.session.hasAuthKey = true

section Fallbacks

variable (env : LoginEnv)

def redirectFallback (target : Int32) (st : Login) : List Fallback :=
  let full := Login.migrateTo env target st
  let soft := Login.migrateSoftTo env target full.2
  if full.1 = false ∧ soft.1 = true then [⟨st, soft.2⟩] else []

def sendCodeFallbacks (phone : Bytes) : ℕ → Int32 → Login → List Fallback
  | 0, _, _ => []
  | left + 1, currentDc, st =>
    match Login.call .sendCode (fun _ => true) (authSendCode env.api phone) st with
    | (.ok _, _) => []
    | (.error err, st₁) =>
      if err.migrateDc > 0 then
        let target := redirectTarget currentDc err
        let next := followRedirect env target st₁
        redirectFallback env target st₁ ++
          (if next.1 = some true then sendCodeFallbacks phone left target next.2 else [])
      else []

def freshFallbacks (phone : Option Bytes) (st : Login) : List Fallback :=
  let startDc := if env.api.cfg.startDcSet then env.api.cfg.startDc else defaultDcId
  let x := Login.dial (fun d => connectDcEx env.crypto env.hosts d startDc startDc) st
  match x.1, phone with
  | true, some phone => sendCodeFallbacks env phone authMaxMigrations startDc x.2
  | _, _ => []

def loginFallbacks (cb : AuthFlowCallbacks) (st : Login) : List Fallback :=
  match cb.getPhone, cb.getCode with
  | some phone, some _ =>
    match restoreSession env st with
    | (some none, st₁) => freshFallbacks env phone st₁
    | _ => []
  | _, _ => []

end Fallbacks

/-! ## The key -/

theorem rpcSendUnencrypted_sameKey (t : Turn) (w : Wire) (data : Bytes) :
    SameKey w.session (rpcSendUnencrypted t w data).2.session :=
  ⟨rfl, rfl⟩

theorem authStepReqPq_sameKey (c : Crypto) (e : Exchange) (ctx : AuthKeyCtx) (w : Wire) :
    SameKey w.session (authStepReqPq c e ctx w).2.session := by
  rw [authStepReqPq]
  split_ifs
  · exact rpcSendUnencrypted_sameKey _ _ _
  · exact rpcSendUnencrypted_sameKey _ _ _

theorem authStepReqDh_sameKey (c : Crypto) (e : Exchange) (ctx : AuthKeyCtx) (w : Wire) :
    SameKey w.session (authStepReqDh c e ctx w).2.session := by
  rw [authStepReqDh]
  rcases prepareReqDh c e ctx with _ | ⟨ctx', encrypted⟩
  · exact SameKey.refl _
  · exact rpcSendUnencrypted_sameKey _ _ _

theorem authStepSetClientDh_false {c : Crypto} {e : Exchange} {ctx : AuthKeyCtx} {w : Wire}
    (h : (authStepSetClientDh c e ctx w).1 = false) :
    SameKey w.session (authStepSetClientDh c e ctx w).2.session := by
  revert h
  rw [authStepSetClientDh]
  rcases cryptoBnModExp 256 (uint32ToBe ctx.g.toUInt32) e.b.1 ctx.dhPrime with _ | gB
  · exact fun _ => SameKey.refl _
  · dsimp only
    split_ifs
    · exact fun _ => rpcSendUnencrypted_sameKey _ _ _
    · rcases (rpcRecvUnencrypted e.clientDh.reply 4096).bind
        (readDhGen c { ctx with b := e.b }) with _ | key
      · exact fun _ => rpcSendUnencrypted_sameKey _ _ _
      · exact fun h => absurd h.symm Bool.false_ne_true

/-- **An exchange that fails installs no key.** -/
theorem mtprotoAuthKeyGen_false {c : Crypto} {e : Exchange} {w : Wire}
    (h : (mtprotoAuthKeyGen c e w).1 = false) :
    SameKey w.session (mtprotoAuthKeyGen c e w).2.session := by
  revert h
  rw [mtprotoAuthKeyGen]
  have h₁ := authStepReqPq_sameKey c e authKeyCtxInit w
  rcases hpq : authStepReqPq c e authKeyCtxInit w with ⟨_ | ctx₁, w₁⟩
  · rw [hpq] at h₁
    exact fun _ => h₁
  rw [hpq] at h₁
  have h₂ := h₁.trans (authStepReqDh_sameKey c e ctx₁ w₁)
  dsimp only
  rcases hdh : authStepReqDh c e ctx₁ w₁ with ⟨_ | ctx₂, w₂⟩
  · rw [hdh] at h₂
    exact fun _ => h₂
  rw [hdh] at h₂
  dsimp only
  rcases authStepParseDh c e ctx₂ with _ | ctx₃
  · exact fun _ => h₂
  · exact fun h => h₂.trans (authStepSetClientDh_false h)

/-- **A full migration that fails leaves no key.** -/
theorem migrate_false {c : Crypto} {hosts : DcHosts} {dial : Option Peer} {rand : UInt64}
    {newDc dhDc : Int32} {conn : Conn}
    (h : (migrate c hosts dial rand newDc dhDc conn).1 = false) :
    (migrate c hosts dial rand newDc dhDc conn).2.session.hasAuthKey = false := by
  revert h
  rw [migrate, connectDcEx]
  rcases dcLookup hosts newDc with _ | ep
  · exact fun _ => rfl
  rcases dial with _ | peer
  · exact fun _ => rfl
  have hgen := mtprotoAuthKeyGen_false (c := c) (e := peer.exchange)
    (w := ⟨mtprotoSessionInit rand, []⟩)
  dsimp only
  generalize mtprotoAuthKeyGen c peer.exchange ⟨mtprotoSessionInit rand, []⟩ = gen at hgen ⊢
  obtain ⟨ok, w⟩ := gen
  cases ok with
  | false => exact fun _ => (hgen rfl).2
  | true => exact fun h => absurd h.symm Bool.false_ne_true

section Redirect

variable {env : LoginEnv} {target : Int32} {st : Login} {f : Fallback}

theorem eq_of_mem_redirectFallback (h : f ∈ redirectFallback env target st) :
    (Login.migrateTo env target st).1 = false ∧
      Login.migrateSoftTo env target (Login.migrateTo env target st).2 = (true, f.after) := by
  rw [redirectFallback] at h
  split_ifs at h with hfall
  · obtain rfl := mem_singleton.mp h
    exact ⟨hfall.1, Prod.ext hfall.2 rfl⟩
  · exact absurd h not_mem_nil

theorem hasAuthKey_of_fallback (h : f ∈ redirectFallback env target st) :
    f.after.conn.session.hasAuthKey = false := by
  obtain ⟨hfull, hsoft⟩ := eq_of_mem_redirectFallback h
  have hafter : f.after.conn.session = (Login.migrateTo env target st).2.conn.session :=
    (congrArg (fun x : Bool × Login => x.2.conn.session) hsoft).symm
  rw [hafter]
  exact migrate_false hfull

theorem followRedirect_of_fallback (h : f ∈ redirectFallback env target st) :
    followRedirect env target st = (some true, f.after) := by
  obtain ⟨hfull, hsoft⟩ := eq_of_mem_redirectFallback h
  have hact : act (Login.migrateTo env target) st =
      (some false, (Login.migrateTo env target st).2) := by
    rw [act, hfull]
  rw [followRedirect, bind_of_some hact, if_neg Bool.false_ne_true, act, hsoft]

end Redirect

/-! ## The login -/

theorem authCall_of_not_hasAuthKey {α : Type} (env : ApiEnv) (queryCap : ℕ) (query : Bytes)
    (parse : Bytes → Except RpcError α) {s : MtProtoSession} (h : s.hasAuthKey = false)
    (net : Net) :
    (authCall env queryCap query parse s net).1 = .error .reset := by
  rw [authCall]
  split_ifs
  · rfl
  · rw [authRequest, apiCall_of_not_hasAuthKey _ _ _ _ _ h]
    rfl

theorem sendCodeLoop_of_not_hasAuthKey (env : LoginEnv) (phone : Bytes) (left : ℕ) (dc : Int32)
    {st : Login} (h : st.conn.session.hasAuthKey = false) :
    (sendCodeLoop env phone left dc st).1 = none := by
  have herr : (Login.call .sendCode (fun _ => true) (authSendCode env.api phone) st).1 =
      .error .reset := authCall_of_not_hasAuthKey env.api 4096 _ _ h _
  rcases hcall : Login.call .sendCode (fun _ => true) (authSendCode env.api phone) st with ⟨r, st₁⟩
  rw [hcall] at herr
  obtain rfl : r = .error .reset := herr
  have hact : act (Login.call .sendCode (fun _ => true) (authSendCode env.api phone)) st =
      (some (.error .reset), st₁) := by
    rw [act, hcall]
  cases left with
  | zero =>
    rw [sendCodeLoop, bind_of_some hact]
    rfl
  | succ left =>
    rw [sendCodeLoop, bind_of_some hact]
    dsimp only
    rw [if_neg (by decide)]
    rfl

theorem sendCodeLoop_of_fallback {env : LoginEnv} {phone : Bytes} {left : ℕ} {dc : Int32}
    {st : Login} {f : Fallback} (h : f ∈ sendCodeFallbacks env phone left dc st) :
    f.after.conn.session.hasAuthKey = false ∧ (sendCodeLoop env phone left dc st).1 = none := by
  induction left generalizing dc st with
  | zero => exact absurd h not_mem_nil
  | succ left ih =>
    rw [sendCodeFallbacks] at h
    rcases hcall : Login.call .sendCode (fun _ => true) (authSendCode env.api phone) st with
      ⟨err | sent, st₁⟩
    · have hact : act (Login.call .sendCode (fun _ => true) (authSendCode env.api phone)) st =
          (some (.error err), st₁) := by
        rw [act, hcall]
      rw [hcall] at h
      dsimp only at h
      rw [sendCodeLoop, bind_of_some hact]
      dsimp only
      by_cases hm : err.migrateDc > 0
      · rw [if_pos hm] at h ⊢
        set target := redirectTarget dc err
        rcases mem_append.mp h with hf | hf
        · rw [bind_of_some (followRedirect_of_fallback hf)]
          exact ⟨hasAuthKey_of_fallback hf,
            sendCodeLoop_of_not_hasAuthKey env phone left target (hasAuthKey_of_fallback hf)⟩
        · split_ifs at hf with hok
          · rw [bind_of_some (Prod.ext hok rfl)]
            exact ih hf
          · exact absurd hf not_mem_nil
      · rw [if_neg hm] at h
        exact absurd h not_mem_nil
    · rw [hcall] at h
      exact absurd h not_mem_nil

theorem freshLogin_of_fallback {env : LoginEnv} (cb : AuthFlowCallbacks) {phone : Option Bytes}
    (code : Option Bytes) {st : Login} {f : Fallback} (h : f ∈ freshFallbacks env phone st) :
    f.after.conn.session.hasAuthKey = false ∧ (freshLogin env cb phone code st).1 = none := by
  unfold freshFallbacks at h
  set startDc := if env.api.cfg.startDcSet then env.api.cfg.startDc else defaultDcId with hstart
  dsimp only at h
  rcases hdial : Login.dial (fun d => connectDcEx env.crypto env.hosts d startDc startDc) st with
    ⟨_ | _, st₁⟩
  · rw [hdial] at h
    exact absurd h not_mem_nil
  rcases phone with _ | phone
  · rw [hdial] at h
    exact absurd h not_mem_nil
  rw [hdial] at h
  obtain ⟨hkey, hloop⟩ := sendCodeLoop_of_fallback h
  have hact : act (Login.dial fun d => connectDcEx env.crypto env.hosts d startDc startDc) st =
      (some true, st₁) := by
    rw [act, hdial]
  refine ⟨hkey, ?_⟩
  rw [freshLogin, ← hstart, bind_of_some hact, if_pos rfl]
  rw [bind_of_none (Prod.ext hloop rfl)]

/-- **A fallback loses the login.**  In no run of a login does the session keep its key over a
failed full migration, and every login that falls back fails. -/
theorem fallback_loses_login (env : LoginEnv) (cb : AuthFlowCallbacks) (st : Login) (f : Fallback)
    (h : f ∈ loginFallbacks env cb st) : ¬ f.KeepsKey ∧ (authFlowLogin env cb st).1 = none := by
  revert h
  unfold loginFallbacks authFlowLogin
  rcases cb.getPhone with _ | phone
  · exact fun h => absurd h not_mem_nil
  rcases cb.getCode with _ | code
  · exact fun h => absurd h not_mem_nil
  dsimp only
  intro h
  rcases hr : restoreSession env st with ⟨_ | _ | res, st₁⟩
  · rw [hr] at h
    exact absurd h not_mem_nil
  · rw [hr] at h
    obtain ⟨hkey, hlogin⟩ := freshLogin_of_fallback cb code h
    refine ⟨fun hkeeps => ?_, ?_⟩
    · rw [hkeeps.hasAuthKey] at hkey
      exact Bool.false_ne_true hkey.symm
    · rw [bind_of_some hr]
      exact hlogin
  · rw [hr] at h
    exact absurd h not_mem_nil

/-! ## A test data center -/

def silentPeer : Peer where
  exchange := { (demoPeer 0 []).exchange with reqPq := ⟨0, 0, true, none⟩ }
  net := ⟨[], [], [], []⟩

/-- DC 2 redirects to DC 4, where the key exchange fails and the second connection comes about. -/
def fallbackLogin : Login :=
  { demoLogin with
    dials := [some (demoPeer 11 [demoRedirect]), some silentPeer,
      some (demoPeer 12 [demoSentCode, demoAuthorization])] }

theorem fallbackLogin_falls_back :
    ∃ f ∈ loginFallbacks demoEnv demoCallbacks fallbackLogin,
      ¬ f.KeepsKey ∧ (authFlowLogin demoEnv demoCallbacks fallbackLogin).1 = none := by
  have hlen : (loginFallbacks demoEnv demoCallbacks fallbackLogin).length = 1 := by
    decide +kernel
  obtain ⟨f, hf⟩ := exists_mem_of_length_pos (by rw [hlen]; exact Nat.one_pos)
  exact ⟨f, hf, fallback_loses_login demoEnv demoCallbacks fallbackLogin f hf⟩

/-- Before it falls back, the session has a key. -/
theorem fallback_wipes_key : ¬ ∀ (env : LoginEnv) (cb : AuthFlowCallbacks) (st : Login),
    ∀ f ∈ loginFallbacks env cb st, f.KeepsKey := by
  intro hall
  have hkeys : (loginFallbacks demoEnv demoCallbacks fallbackLogin).map (fun f =>
      (f.before.conn.session.hasAuthKey, f.after.conn.session.hasAuthKey)) = [(true, false)] := by
    decide +kernel
  obtain ⟨f, hf, heq⟩ := mem_map.mp (hkeys ▸ mem_singleton_self (true, false))
  have hkeeps := (hall _ _ _ f hf).hasAuthKey
  exact Bool.false_ne_true ((Prod.mk.inj heq).2.symm.trans hkeeps)

end TgCli.App
