import TgCli.App.SessionStore.Refinement
import TgCli.App.AuthFlow
import TgCli.Infrastructure.MtprotoAuthVerified

/-!
# A login ends where it was accepted

A login moves between data centers: a full migration replaces connection and session, a soft one
only the connection.  What holds throughout is that connection and `t->dc_id` belong to the DC that
the loop takes itself to be on (`OnDc`).  From it follows that a login that succeeds reports,
holds open and saves the one DC at which `signIn`, `signUp` or `checkPassword` was accepted, and
saves the key of that call (`authFlowLogin_consistent`).  Once a session is saved, the next login
that reaches its DC takes it up without a call (`authFlowLogin_of_saved`).
-/

namespace TgCli.App

open Lib TgCli.Core Infrastructure Prog

/-! ## What the properties speak about -/

/-- The connection is open, goes to the endpoint of the DC, and is marked with it. -/
structure OnDc (env : LoginEnv) (dc : Int32) (st : Login) : Prop where
  dcId : st.conn.transport.dcId = dc
  endpoint : ∃ ep, dcLookup env.hosts dc = some ep ∧ st.conn.transport.endpoint = some ep

def Method.sendCodes : Method → ℕ
  | sendCode => 1
  | _ => 0

def Login.sendCodes (st : Login) : ℕ :=
  (st.calls.map (·.method.sendCodes)).sum

def Login.acceptedCalls (st : Login) : List CallRecord :=
  st.calls.filter CallRecord.accepted

/-- The user has been logged in by one call, on this DC and under the key of the session. -/
def AcceptedOn (dc : Int32) (st : Login) : Prop :=
  ∃ r, st.acceptedCalls = [r] ∧ r.dcId = dc ∧ r.endpoint = st.conn.transport.endpoint ∧
    r.key = st.conn.session.authKey

/-- A login on this DC, after at most `k` calls of `auth_send_code`; `b` says whether the user has
been logged in. -/
structure Stage (env : LoginEnv) (dc : Int32) (k : ℕ) (b : Bool) (st : Login) : Prop where
  onDc : OnDc env dc st
  codes : st.sendCodes ≤ k
  accepted : if b then AcceptedOn dc st else st.acceptedCalls = []

/-- No call has logged the user in yet, and at most `k` were of `auth_send_code`. -/
structure Quiet (k : ℕ) (st : Login) : Prop where
  codes : st.sendCodes ≤ k
  none_accepted : st.acceptedCalls = []

/-- **What a fresh login leaves.**  Result, transport and, when the save succeeded, store agree with
the call that was accepted. -/
structure LoggedIn (env : LoginEnv) (res : AuthFlowResult) (st : Login) : Prop where
  onDc : OnDc env res.dcId st
  accepted : ∃ r, st.acceptedCalls = [r] ∧ r.dcId = res.dcId ∧
    r.endpoint = st.conn.transport.endpoint ∧
    (st.saved = some true →
      (stored st.fs).homeDcId = res.dcId ∧
        ∃ e, (stored st.fs).lookup res.dcId = some e ∧ e.authKey = r.key)

/-! ## Connecting -/

section Connect

variable {c : Crypto} {hosts : DcHosts} {dial : Option Peer} {conn : Conn}

theorem connectDcEx_true {physDc dhDc : Int32}
    (h : (connectDcEx c hosts dial physDc dhDc conn).1 = true) :
    (connectDcEx c hosts dial physDc dhDc conn).2.transport.dcId = physDc ∧
      ∃ ep, dcLookup hosts physDc = some ep ∧
        (connectDcEx c hosts dial physDc dhDc conn).2.transport.endpoint = some ep := by
  revert h
  rw [connectDcEx]
  rcases dcLookup hosts physDc with _ | ep
  · exact fun h => absurd h Bool.false_ne_true
  · rcases dial with _ | peer
    · exact fun h => absurd h Bool.false_ne_true
    · dsimp only
      cases (mtprotoAuthKeyGen c peer.exchange ⟨conn.session, []⟩).1 with
      | false => exact fun h => absurd h Bool.false_ne_true
      | true => exact fun _ => ⟨rfl, ep, rfl, rfl⟩

theorem migrateSoft_true {newDc : Int32} {t : Transport}
    (h : (migrateSoft hosts dial newDc t).1 = true) :
    (migrateSoft hosts dial newDc t).2.dcId = newDc ∧
      ∃ ep, dcLookup hosts newDc = some ep ∧
        (migrateSoft hosts dial newDc t).2.endpoint = some ep := by
  revert h
  rw [migrateSoft]
  rcases dcLookup hosts newDc with _ | ep
  · exact fun h => absurd h Bool.false_ne_true
  · rcases dial with _ | peer
    · exact fun h => absurd h Bool.false_ne_true
    · exact fun _ => ⟨rfl, ep, rfl, rfl⟩

end Connect

section Steps

variable (env : LoginEnv)

theorem connect_spec (dc : Int32) (st : Login) :
    let x := Login.dial (fun d => connectDcEx env.crypto env.hosts d dc dc) st
    x.2.calls = st.calls ∧ (x.1 = true → OnDc env dc x.2) :=
  ⟨rfl, fun h => ⟨(connectDcEx_true h).1, (connectDcEx_true h).2⟩⟩

theorem migrateTo_spec (dc : Int32) (st : Login) :
    (Login.migrateTo env dc st).2.calls = st.calls ∧
      ((Login.migrateTo env dc st).1 = true → OnDc env dc (Login.migrateTo env dc st).2) :=
  ⟨rfl, fun h => ⟨(connectDcEx_true h).1, (connectDcEx_true h).2⟩⟩

theorem migrateSoftTo_spec (dc : Int32) (st : Login) :
    (Login.migrateSoftTo env dc st).2.calls = st.calls ∧
      ((Login.migrateSoftTo env dc st).1 = true → OnDc env dc (Login.migrateSoftTo env dc st).2) :=
  ⟨rfl, fun h => ⟨(migrateSoft_true h).1, (migrateSoft_true h).2⟩⟩

variable {env}

variable {dc : Int32} {st : Login} {E : Login → Prop}

theorem Stage.mono {k k' : ℕ} {b : Bool} (h : Stage env dc k b st)
    (hk : k ≤ k') : Stage env dc k' b st :=
  ⟨h.onDc, h.codes.trans hk, h.accepted⟩

theorem Transport.endpoint_setNet (t : Transport) (net : Net) :
    (t.setNet net).endpoint = t.endpoint := by
  rw [Transport.endpoint, Transport.endpoint, Transport.setNet, Option.map_map]
  rfl

/-- **One API call.**  It leaves the login on its DC, counts if it is `auth_send_code`, and logs the
user in if it is accepted and of the kind that does. -/
theorem call_spec {α : Type} (m : Method) (accepts : α → Bool)
    {f : MtProtoSession → Net → Called α} (hf : ∀ s net, SameKey s (f s net).2.1)
    {k : ℕ} (h : Stage env dc k false st) :
    Stage env dc (k + m.sendCodes)
      (m.logsIn && isAccepted accepts (Login.call m accepts f st).1)
      (Login.call m accepts f st).2 := by
  set x := f st.conn.session st.conn.transport.net with hx
  have hkey : x.2.1.authKey = st.conn.session.authKey := (hf _ _).1
  have hend := st.conn.transport.endpoint_setNet x.2.2
  have hnone : st.acceptedCalls = [] := h.accepted
  refine ⟨⟨h.onDc.dcId, ?_⟩, ?_, ?_⟩
  · obtain ⟨ep, hep, hst⟩ := h.onDc.endpoint
    exact ⟨ep, hep, hend.trans hst⟩
  · show ((st.calls ++ [_]).map _).sum ≤ _
    rw [List.map_append, List.sum_append, List.map_singleton, List.sum_singleton]
    exact Nat.add_le_add_right h.codes m.sendCodes
  · have hcalls (r : CallRecord) :
        (st.calls ++ [r]).filter CallRecord.accepted = if r.accepted then [r] else [] := by
      rw [List.filter_append, List.filter_singleton]
      show st.acceptedCalls ++ _ = _
      rw [hnone, List.nil_append, Bool.cond_eq_ite]
    split_ifs with hacc
    · exact ⟨_, (hcalls _).trans (if_pos hacc), h.onDc.dcId, hend.symm, hkey.symm⟩
    · exact (hcalls _).trans (if_neg hacc)

theorem triple_call {α : Type} (m : Method) (accepts : α → Bool)
    {f : MtProtoSession → Net → Called α} (hf : ∀ s net, SameKey s (f s net).2.1) (dc : Int32)
    (k : ℕ) :
    Triple (Stage env dc k false) (act (Login.call m accepts f))
      (fun r => Stage env dc (k + m.sendCodes) (m.logsIn && isAccepted accepts r))
      E :=
  triple_act fun _ h => call_spec m accepts hf h

/-! ## The parts of the login -/

theorem Stage.quiet {k : ℕ} (h : Stage env dc k false st) : Quiet k st :=
  ⟨h.codes, h.accepted⟩

theorem Quiet.of_calls {k : ℕ} {st' : Login} (h : Quiet k st) (hcalls : st'.calls = st.calls) :
    Quiet k st' := by
  refine ⟨?_, ?_⟩
  · rw [Login.sendCodes, hcalls]
    exact h.codes
  · rw [Login.acceptedCalls, hcalls]
    exact h.none_accepted

theorem Quiet.stage {k : ℕ} (h : Quiet k st) (hon : OnDc env dc st) :
    Stage env dc k false st :=
  ⟨hon, h.codes, h.none_accepted⟩

theorem triple_followRedirect (target : Int32) (k : ℕ) :
    Triple (Quiet k) (followRedirect env target)
      (fun ok st => Quiet k st ∧ (ok = true → OnDc env target st)) E := by
  refine Triple.bind (Q := fun ok st => Quiet k st ∧ (ok = true → OnDc env target st))
    (triple_act fun st h => ?_) fun ok => ?_
  · exact ⟨h.of_calls (migrateTo_spec env target st).1, (migrateTo_spec env target st).2⟩
  · cases ok with
    | true => exact triple_pure fun st h => h
    | false =>
      refine triple_act fun st h => ?_
      exact ⟨h.1.of_calls (migrateSoftTo_spec env target st).1,
        (migrateSoftTo_spec env target st).2⟩

/-- **The `auth.sendCode` loop.**  Each round calls it once and takes one migration; the loop ends
on the DC that it yields. -/
theorem triple_sendCodeLoop (phone : Bytes) (left : ℕ) (dc : Int32) (k : ℕ) :
    Triple (Stage env dc k false) (sendCodeLoop env phone left dc)
      (fun r => Stage env r.2.1 (k + left + 1) false) (fun st => st.sendCodes ≤ k + left + 1) := by
  have hcall (dc : Int32) (k : ℕ) {E : Login → Prop} :
      Triple (Stage env dc k false)
        (act (Login.call .sendCode (fun _ => true) (authSendCode env.api phone)))
        (fun _ => Stage env dc (k + 1) false) E :=
    triple_call .sendCode _ (fun s net => authCall_sameKey env.api _ _ net 4096 s) dc k
  induction left generalizing dc k with
  | zero =>
    refine (hcall dc k).bind fun r => ?_
    cases r with
    | ok sent => exact triple_pure fun st h => h
    | error err => exact triple_fail fun st h => h.codes
  | succ left ih =>
    refine (hcall dc k).bind fun r => ?_
    cases r with
    | ok sent => exact triple_pure fun st h => h.mono (by omega)
    | error err =>
      by_cases hm : err.migrateDc > 0
      · show Triple _ (if err.migrateDc > 0 then _ else _) _ _
        rw [if_pos hm]
        refine Triple.bind ((triple_followRedirect (redirectTarget dc err) (k + 1)).conseq
          (fun st h => h.quiet) (fun _ _ h => h) fun _ h => h) fun ok => ?_
        cases ok with
        | false => exact triple_fail fun st h => h.1.codes.trans (by omega)
        | true =>
          refine (ih (redirectTarget dc err) (k + 1)).conseq (fun st h => h.1.stage (h.2 rfl))
            (fun r st h => h.mono (by omega)) fun st h => h.trans (by omega)
      · show Triple _ (if err.migrateDc > 0 then _ else _) _ _
        rw [if_neg hm]
        exact triple_fail fun st h => h.codes.trans (by omega)

theorem triple_resendAsSms (phone : Bytes) (sent : AuthSentCode) (dc : Int32) (k : ℕ) :
    Triple (Stage env dc k false) (resendAsSms env phone sent)
      (fun _ => Stage env dc k false) E := by
  rw [resendAsSms]
  split_ifs
  · refine (triple_call .resendCode _ (fun s net => authCall_sameKey env.api _ _ net 1024 s)
      dc k).bind fun r => ?_
    cases r with
    | ok sent' => exact triple_pure fun st h => h
    | error err => exact triple_pure fun st h => h
  · exact triple_pure fun st h => h

theorem triple_passwordStep (getPassword : Option (Option Bytes)) (dc : Int32) (k : ℕ) :
    Triple (Stage env dc k false) (passwordStep env getPassword) (fun _ => Stage env dc k true)
      (fun st => st.sendCodes ≤ k) := by
  rcases getPassword with _ | password
  · exact triple_fail fun st h => h.codes
  · refine (triple_call .getPassword _ (auth2faGetPassword_sameKey env.api) dc k).bind fun r => ?_
    cases r with
    | error err => exact triple_fail fun st h => h.codes
    | ok params =>
      dsimp only
      split_ifs
      · exact triple_fail fun st h => h.codes
      · rcases password with _ | pwd
        · exact triple_fail fun st h => h.codes
        · refine (triple_call .checkPassword _
            (auth2faCheckPassword_sameKey env.crypto env.api params pwd env.srpExponent) dc k).bind
            fun r => ?_
          cases r with
          | ok uid => exact triple_pure fun st h => h
          | error err => exact triple_fail fun st h => h.codes

theorem triple_signInStep (cb : AuthFlowCallbacks) (phone hash code : Bytes) (left : ℕ) (dc : Int32)
    (k : ℕ) :
    Triple (Stage env dc k false) (signInStep env cb phone hash code left dc)
      (fun _ => Stage env dc k true) (fun st => st.sendCodes ≤ k) := by
  refine (triple_call .signIn _ (fun s net => authCall_sameKey env.api _ _ net 4096 s) dc k).bind
    fun r => ?_
  rcases r with err | ⟨uid⟩ | _
  · dsimp only
    split_ifs
    · refine Triple.bind (Q := fun _ st => st.sendCodes ≤ k) (triple_act fun st h => ?_) fun _ => ?_
      · exact (h.quiet.of_calls (migrateTo_spec env _ st).1).codes
      · exact triple_fail fun st h => h
    · exact (triple_passwordStep cb.getPassword dc k).bind fun uid => triple_pure fun st h => h
    · exact triple_fail fun st h => h.codes
  · exact triple_pure fun st h => h
  · refine (triple_call .signUp _ (fun s net => authCall_sameKey env.api _ _ net 4096 s) dc k).bind
      fun r => ?_
    cases r with
    | ok uid => exact triple_pure fun st h => h
    | error err => exact triple_fail fun st h => h.codes

/-- **The save.**  When it succeeds, the DC is home, under the key of the session. -/
theorem store_spec (st : Login) (h : (Login.store env dc st).saved = some true) :
    (stored (Login.store env dc st).fs).homeDcId = dc ∧
      ∃ e, (stored (Login.store env dc st).fs).lookup dc = some e ∧
        e.authKey = st.conn.session.authKey := by
  obtain ⟨old, hold⟩ := upsertWith_true (Option.some_inj.mp h)
  refine ⟨(modify_eq_some hold).2, _, (lookup_modify hold dc).trans (if_pos rfl), rfl⟩

variable (env)

theorem triple_freshLogin (cb : AuthFlowCallbacks) (phone code : Option Bytes) :
    Triple (Quiet 0) (freshLogin env cb phone code)
      (fun res st => LoggedIn env res st ∧ st.sendCodes ≤ 4)
      (fun st => st.sendCodes ≤ 4) := by
  set startDc := if env.api.cfg.startDcSet then env.api.cfg.startDc else defaultDcId
  refine Triple.bind (Q := fun ok st => Quiet 0 st ∧ (ok = true → OnDc env startDc st))
    (triple_act fun st h => ?_) fun ok => ?_
  · exact ⟨h.of_calls (connect_spec env startDc st).1, (connect_spec env startDc st).2⟩
  · cases ok with
    | false => exact triple_fail fun st h => h.1.codes.trans (by omega)
    | true =>
      rcases phone with _ | phone
      · exact triple_fail fun st h => h.1.codes.trans (by omega)
      · refine Triple.bind ((triple_sendCodeLoop phone authMaxMigrations startDc 0).conseq
          (fun st h => h.1.stage (h.2 rfl)) (fun _ _ h => h) fun _ h => h) fun r => ?_
        refine (triple_resendAsSms phone r.1 r.2.1 _).bind fun sent => ?_
        rcases code with _ | code
        · exact triple_fail fun st h => h.codes
        · refine (triple_signInStep cb phone sent.phoneCodeHash code r.2.2 r.2.1 _).bind fun u => ?_
          refine Triple.bind (Q := fun _ st => LoggedIn env ⟨r.2.1, u.1, u.2⟩ st ∧ st.sendCodes ≤ 4)
            (triple_update fun st h => ?_) fun _ => triple_pure fun st h => h
          obtain ⟨c, hcalls, hdc, hend, hkey⟩ := h.accepted
          refine ⟨⟨⟨h.onDc.dcId, h.onDc.endpoint⟩, c, hcalls, hdc, hend, fun hsaved => ?_⟩, h.codes⟩
          rw [hkey]
          exact store_spec st hsaved

theorem triple_restoreSession :
    Triple (Quiet 0) (restoreSession env) (fun _ => Quiet 0) (Quiet 0) := by
  have hinit : Triple (Quiet 0) (update Login.initSession) (fun _ => Quiet 0) (Quiet 0) :=
    triple_update fun st h => h.of_calls rfl
  refine hinit.bind fun _ => ?_
  refine Triple.bind (Q := fun _ => Quiet 0) (triple_act fun st h => h.of_calls rfl) fun r => ?_
  rcases r with _ | ⟨s, savedDc⟩
  · exact triple_pure fun st h => h
  · refine Triple.bind (Q := fun _ => Quiet 0) (triple_update fun st h => h.of_calls rfl)
      fun _ => ?_
    rcases dcLookup env.hosts savedDc with _ | ep
    · exact hinit.bind fun _ => triple_pure fun st h => h
    · refine Triple.bind (Q := fun _ => Quiet 0) (triple_act fun st h => h.of_calls rfl)
        fun ok => ?_
      cases ok with
      | true =>
        exact Triple.bind (Q := fun _ => Quiet 0) (triple_update fun st h => h.of_calls rfl)
          fun _ => triple_pure fun st h => h
      | false =>
        exact Triple.bind (Q := fun _ => Quiet 0) (triple_update fun st h => h.of_calls rfl)
          fun _ => hinit.bind fun _ => triple_pure fun st h => h

end Steps

/-- **A login ends where it was accepted.**  In every run `auth_send_code` is called at most four
times; and when a login that did not reuse a persisted session returns 0, then the result, the open
transport and (if the save succeeded) the home of the store name the one DC at which the user was
logged in, and the key saved for it is the one of that call. -/
theorem authFlowLogin_consistent (env : LoginEnv) (cb : AuthFlowCallbacks) (st : Login)
    (hcalls : st.calls = []) :
    (authFlowLogin env cb st).2.sendCodes ≤ 4 ∧
      ∀ res, (authFlowLogin env cb st).1 = some res → (restoreSession env st).1 = some none →
        LoggedIn env res (authFlowLogin env cb st).2 := by
  have hquiet : Quiet 0 st := by
    refine ⟨?_, ?_⟩
    · rw [Login.sendCodes, hcalls]
      rfl
    · rw [Login.acceptedCalls, hcalls]
      rfl
  have hnone (res : AuthFlowResult) : (none : Option AuthFlowResult) ≠ some res :=
    (Option.some_ne_none res).symm
  obtain ⟨hsome, hfail⟩ := triple_restoreSession env st hquiet
  rw [authFlowLogin]
  rcases cb.getPhone with _ | phone
  · exact ⟨hquiet.codes.trans (by omega), fun res h => absurd h (hnone res)⟩
  rcases cb.getCode with _ | code
  · exact ⟨hquiet.codes.trans (by omega), fun res h => absurd h (hnone res)⟩
  rcases hr : restoreSession env st with ⟨_ | o, st'⟩
  · rw [hr] at hfail
    dsimp only
    rw [bind_of_none hr]
    exact ⟨(hfail rfl).codes.trans (by omega), fun res h => absurd h (hnone res)⟩
  · rw [hr] at hsome
    dsimp only
    rw [bind_of_some hr]
    rcases o with _ | reused
    · obtain ⟨hlogged, hgaveup⟩ := triple_freshLogin env cb phone code st' (hsome none rfl)
      refine ⟨?_, fun res hres _ => (hlogged res hres).1⟩
      rcases hf : (freshLogin env cb phone code st').1 with _ | res
      · exact hgaveup hf
      · exact (hlogged res hf).2
    · exact ⟨(hsome _ rfl).codes.trans (by omega), fun _ _ h => absurd h (by simp)⟩

/-! ## A redirected login -/

/-- A connection on which the session with this id is answered by these bodies, in order. -/
def demoPeer (rand : UInt64) (bodies : List Bytes) : Peer where
  exchange := honestPlay.exchange demoCrypto demoClient
  net := {
    clock := []
    sends := bodies.map fun _ => true
    frames := bodies.map fun b => some (plainFrame (mtprotoSessionInit rand) (rpcResultFrame 0 b))
    sent := [] }

/-- `rpc_error` 303 that redirects to DC 4. -/
def demoRedirect : Bytes :=
  tlWriteString (tlWriteInt32 (tlWriteUint32 [] crcRpcError) 303) (ascii "PHONE_MIGRATE_4")

/-- An `auth.sentCode` by text message. -/
def demoSentCode : Bytes :=
  tlWriteString (tlWriteInt32 (tlWriteUint32 (tlWriteUint32 (tlWriteUint32 [] crcAuthSentCode) 0)
    crcAuthSentCodeTypeSms) 5) (ascii "hash")

/-- An `auth.authorization` of user 77. -/
def demoAuthorization : Bytes :=
  tlWriteInt64 (tlWriteUint32 (tlWriteUint32 (tlWriteUint32 (tlWriteUint32 []
    crcAuthAuthorization) 0) tlUser) 0) 77

def demoEnv : LoginEnv where
  api := ⟨fun _ _ => none, apiConfigInit⟩
  crypto := demoCrypto
  hosts := ⟨none, none, fun _ => none⟩
  srpExponent := none
  save _ := (false, true)

def demoCallbacks : AuthFlowCallbacks :=
  ⟨some (some (ascii "+15551234567")), some (some (ascii "12345")), none⟩

/-- No session is stored; DC 2 redirects to DC 4, which accepts. -/
def demoLogin : Login where
  conn := ⟨transportInit, mtprotoSessionInit 0⟩
  fs := InodeFs.empty
  dials := [some (demoPeer 11 [demoRedirect]), some (demoPeer 12 [demoSentCode, demoAuthorization])]
  ids := [11, 12]
  calls := []
  saved := none

theorem authFlowLogin_demoLogin :
    let x := authFlowLogin demoEnv demoCallbacks demoLogin
    x.1 = some ⟨4, 77, false⟩ ∧ x.2.saved = some true ∧ LoggedIn demoEnv ⟨4, 77, false⟩ x.2 := by
  have hres : (authFlowLogin demoEnv demoCallbacks demoLogin).1 = some ⟨4, 77, false⟩ := by
    decide +kernel
  have hfresh : (restoreSession demoEnv demoLogin).1 = some none := by
    decide +kernel
  refine ⟨hres, by decide +kernel, ?_⟩
  exact (authFlowLogin_consistent demoEnv demoCallbacks demoLogin rfl).2 _ hres hfresh

/-! ## The next login -/

theorem sessionStoreLoad_of_stored {fs : Fs} {dc : Int32} {e : StoreEntry} (hdc : dc ≠ 0)
    (hhome : (stored fs).homeDcId = dc) (he : (stored fs).lookup dc = some e) :
    (sessionStoreLoad fs).1 = some (applyEntry e, dc) := by
  rw [sessionStoreLoad, lockAndRead_eq]
  rw [stored] at hhome he
  rcases hread : readFileLocked ((fs.read .bin).getD []) with _ | st
  · rw [hread] at he
    exact absurd he.symm (Option.some_ne_none e)
  · rw [hread, Option.getD_some] at hhome he
    have hne : st.entries ≠ [] := fun h => by
      rw [StoreFile.lookup_eq, h] at he
      exact absurd he.symm (Option.some_ne_none e)
    simp [hne, hhome, hdc, he]

/-- **After a save, the next login asks nothing.**  Whichever system calls of the save failed, once
it has returned 0 the next `auth_flow_login` that reaches the saved DC ends there, with the saved
key and salt and without one API call. -/
theorem authFlowLogin_of_saved (ans : ℕ → Bool × Bool) (dc : Int32) (s : MtProtoSession) (fs : Fs)
    (env : LoginEnv) (cb : AuthFlowCallbacks) (st : Login) (hdc : dc ≠ 0)
    (hsave : upsertWith ans ⟨dc, s, true⟩ fs = (true, st.fs)) (hep : (dcLookup env.hosts dc).isSome)
    (hphone : cb.getPhone.isSome) (hcode : cb.getCode.isSome)
    (hdial : (st.dials.headD none).isSome) :
    (authFlowLogin env cb st).1 = some ⟨dc, 0, false⟩ ∧
      (authFlowLogin env cb st).2.calls = st.calls ∧
      (authFlowLogin env cb st).2.conn.session.authKey = s.authKey ∧
      (authFlowLogin env cb st).2.conn.session.serverSalt = s.serverSalt ∧
      OnDc env dc (authFlowLogin env cb st).2 := by
  obtain ⟨ep, hep⟩ := Option.isSome_iff_exists.mp hep
  obtain ⟨phone, hphone⟩ := Option.isSome_iff_exists.mp hphone
  obtain ⟨code, hcode⟩ := Option.isSome_iff_exists.mp hcode
  obtain ⟨peer, hdial⟩ := Option.isSome_iff_exists.mp hdial
  obtain ⟨old, hold⟩ := upsertWith_true (congrArg Prod.fst hsave)
  rw [hsave] at hold
  have hload := sessionStoreLoad_of_stored hdc (modify_eq_some hold).2
    ((lookup_modify hold dc).trans (if_pos rfl))
  have hrun : restoreSession env st = (some (some ⟨dc, 0, false⟩),
      ⟨⟨{ st.conn.transport with link := some ⟨ep, peer⟩, dcId := dc },
          mtprotoSessionRenewId (applyEntry (populateEntry dc s)) (st.ids.tail.headD 0)⟩,
        (sessionStoreLoad st.fs).2, st.dials.tail, st.ids.tail.tail, st.calls, st.saved⟩) := by
    simp only [restoreSession, bind, pure, update, act, Login.initSession, Login.load, hload,
      Login.resume, hep, Login.connect, Login.dial, Transport.connect, hdial, Option.isSome_some,
      Option.map_some]
    rfl
  simp only [authFlowLogin, hphone, hcode, bind_of_some hrun]
  exact ⟨rfl, rfl, rfl, rfl, rfl, ep, hep, rfl⟩

theorem authFlowLogin_of_saved_demoLogin :
    let st :=
      { demoLogin with fs := (upsertWith demoEnv.save ⟨4, demoSession 7, true⟩ demoLogin.fs).2 }
    (authFlowLogin demoEnv demoCallbacks st).1 = some ⟨4, 0, false⟩ ∧
      (authFlowLogin demoEnv demoCallbacks st).2.calls = [] := by
  have h := authFlowLogin_of_saved demoEnv.save 4 (demoSession 7) demoLogin.fs demoEnv demoCallbacks
    { demoLogin with fs := (upsertWith demoEnv.save ⟨4, demoSession 7, true⟩ demoLogin.fs).2 }
    (by decide) (Prod.ext (by decide +kernel) rfl) (by decide +kernel) rfl rfl rfl
  exact ⟨h.1, h.2.1⟩

end TgCli.App
