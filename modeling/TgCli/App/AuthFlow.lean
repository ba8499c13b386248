import TgCli.Lib.Prog
import TgCli.App.DcConfig
import TgCli.App.SessionStore.Calls
import TgCli.Infrastructure.Auth2fa
import TgCli.Infrastructure.MtprotoAuth

/-!
# `app/auth_flow.c`: the login

A login connects to a data center, makes a key there, asks for a code and signs in; on the way the
server may redirect it to other data centers.  The outside --- which connections come about, what
is at their other end, what the random source and the file system answer --- is given in advance,
in lists and functions that the program reads as it goes.

A login leaves a trace that the source does not have: every API call it made, with the data center
and the key it was made under, and whether `session_store_save` returned 0.
-/

namespace TgCli.App

open Lib TgCli.Core Infrastructure

/-! ## Connections -/

/-- What answers at the other end of a connection: the key exchange, if one is made, and the frames
of the encrypted session. -/
structure Peer where
  exchange : Exchange
  net : Net

structure Link where
  endpoint : DcEndpoint
  peer : Peer

/-- `Transport`: `link` is `none` when `fd` is -1. -/
structure Transport where
  link : Option Link
  dcId : Int32

def transportInit : Transport :=
  ⟨none, 0⟩

namespace Transport

/-- `transport_connect` to an endpoint, when `dial` is what comes of it. -/
def connect (t : Transport) (ep : DcEndpoint) (dial : Option Peer) : Bool × Transport :=
  (dial.isSome, { t with link := dial.map (⟨ep, ·⟩) })

/-- `transport_close`. -/
def close (t : Transport) : Transport :=
  { t with link := none }

/-- The network of the open connection; a closed one sends and receives nothing. -/
def net (t : Transport) : Net :=
  match t.link with
  | some l => l.peer.net
  | none => ⟨[], [], [], []⟩

def setNet (t : Transport) (net : Net) : Transport :=
  { t with link := t.link.map fun l => { l with peer := { l.peer with net } } }

def endpoint (t : Transport) : Option DcEndpoint :=
  t.link.map Link.endpoint

end Transport

structure Conn where
  transport : Transport
  session : MtProtoSession

/-- `connect_dc_ex` when `dial` is what comes of the connection attempt.  The exchange does not look
at `dc_id`: `p_q_inner_data` has no such field. -/
def connectDcEx (c : Crypto) (hosts : DcHosts) (dial : Option Peer) (physDc dhDc : Int32)
    (conn : Conn) : Bool × Conn :=
  match dcLookup hosts physDc with
  | none => (false, conn)
  | some ep =>
    let t := conn.transport.connect ep dial
    match dial with
    | none => (false, { conn with transport := t.2 })
    | some peer =>
      let gen := mtprotoAuthKeyGen c peer.exchange ⟨conn.session, []⟩
      let t := { t.2 with dcId := dhDc }
      if gen.1 then (true, ⟨{ t with dcId := physDc }, gen.2.session⟩)
      else (false, ⟨t.close, gen.2.session⟩)

def authFlowConnectDc (c : Crypto) (hosts : DcHosts) (dial : Option Peer) (dcId : Int32)
    (conn : Conn) : Bool × Conn :=
  connectDcEx c hosts dial dcId dcId conn

/-- `migrate`: close, start a new session with the random id given, connect. -/
def migrate (c : Crypto) (hosts : DcHosts) (dial : Option Peer) (rand : UInt64)
    (newDc dhDc : Int32) (conn : Conn) : Bool × Conn :=
  connectDcEx c hosts dial newDc dhDc ⟨conn.transport.close, mtprotoSessionInit rand⟩

/-- `migrate_soft`: close and connect, with the session as it is. -/
def migrateSoft (hosts : DcHosts) (dial : Option Peer) (newDc : Int32) (t : Transport) :
    Bool × Transport :=
  match dcLookup hosts newDc with
  | none => (false, t.close)
  | some ep =>
    let t := t.close.connect ep dial
    (t.1, if t.1 then { t.2 with dcId := newDc } else t.2)

/-! ## The state of a login -/

inductive Method where
  | sendCode
  | resendCode
  | signIn
  | signUp
  | getPassword
  | checkPassword
  deriving DecidableEq

def Method.logsIn : Method → Bool
  | signIn => true
  | signUp => true
  | checkPassword => true
  | _ => false

/-- One API call: where, under which key, and whether the server accepted it. -/
structure CallRecord where
  method : Method
  dcId : Int32
  endpoint : Option DcEndpoint
  key : AuthKey
  ok : Bool

def isAccepted {α : Type} (accepts : α → Bool) : Except RpcError α → Bool
  | .ok a => accepts a
  | .error _ => false

def CallRecord.accepted (r : CallRecord) : Bool :=
  r.method.logsIn && r.ok

/-- The state of a login: the connection, the file system, what the outside has yet to answer
(connection attempts and random session ids), and the trace. -/
structure Login where
  conn : Conn
  fs : Fs
  dials : List (Option Peer)
  ids : List UInt64
  calls : List CallRecord
  saved : Option Bool

structure LoginEnv where
  api : ApiEnv
  crypto : Crypto
  hosts : DcHosts
  /-- The private exponent of the password proof, if the random source gives one. -/
  srpExponent : Option (Block 256)
  /-- What the system calls of the save answer. -/
  save : ℕ → Bool × Bool

/-- `AuthFlowCallbacks`: a `NULL` callback is `none`, one that fails is `some none`. -/
structure AuthFlowCallbacks where
  getPhone : Option (Option Bytes)
  getCode : Option (Option Bytes)
  getPassword : Option (Option Bytes)

structure AuthFlowResult where
  dcId : Int32
  userId : Int64
  needsPassword : Bool
  deriving DecidableEq

namespace Login

def dial (f : Option Peer → Conn → Bool × Conn) (st : Login) : Bool × Login :=
  let x := f (st.dials.headD none) st.conn
  (x.1, { st with conn := x.2, dials := st.dials.tail })

/-- `transport_connect` on the transport of the login. -/
def connect (ep : DcEndpoint) : Login → Bool × Login :=
  dial fun d conn =>
    ((conn.transport.connect ep d).1, ⟨(conn.transport.connect ep d).2, conn.session⟩)

/-- `mtproto_session_init`. -/
def initSession (st : Login) : Login :=
  { st with conn.session := mtprotoSessionInit (st.ids.headD 0), ids := st.ids.tail }

/-- The session loaded from the store, under a new id (`mtproto_session_renew_id`). -/
def resume (s : MtProtoSession) (st : Login) : Login :=
  { st with conn.session := mtprotoSessionRenewId s (st.ids.headD 0), ids := st.ids.tail }

/-- `migrate` to a DC, for the key exchange as for the connection. -/
def migrateTo (env : LoginEnv) (dc : Int32) (st : Login) : Bool × Login :=
  dial (fun d => migrate env.crypto env.hosts d (st.ids.headD 0) dc dc)
    { st with ids := st.ids.tail }

/-- `migrate_soft`. -/
def migrateSoftTo (env : LoginEnv) (dc : Int32) : Login → Bool × Login :=
  dial fun d conn =>
    ((migrateSoft env.hosts d dc conn.transport).1,
      ⟨(migrateSoft env.hosts d dc conn.transport).2, conn.session⟩)

/-- `session_store_load`. -/
def load (st : Login) : Option (MtProtoSession × Int32) × Login :=
  ((sessionStoreLoad st.fs).1, { st with fs := (sessionStoreLoad st.fs).2 })

/-- An API call; `accepts` says which of its results count as accepted. -/
def call {α : Type} (m : Method) (accepts : α → Bool) (f : MtProtoSession → Net → Called α)
    (st : Login) : Except RpcError α × Login :=
  let t := st.conn.transport
  let x := f st.conn.session t.net
  let r : CallRecord := ⟨m, t.dcId, t.endpoint, st.conn.session.authKey, isAccepted accepts x.1⟩
  (x.1, { st with conn := ⟨t.setNet x.2.2, x.2.1⟩, calls := st.calls ++ [r] })

/-- `session_store_save`. -/
def store (env : LoginEnv) (dcId : Int32) (st : Login) : Login :=
  let x := upsertWith env.save ⟨dcId, st.conn.session, true⟩ st.fs
  { st with fs := x.2, saved := some x.1 }

end Login

/-! ## The login -/

def authMaxMigrations : ℕ := 3

section Flow

variable (env : LoginEnv)

/-- The fast path of `auth_flow_login`: the result when the persisted session is reused. -/
def restoreSession : Prog Login (Option AuthFlowResult) := do
  Prog.update Login.initSession
  match ← Prog.act Login.load with
  | none => pure none
  | some (s, savedDc) =>
    -- `apply_entry` has set `has_auth_key`, so the other half of the condition holds
    Prog.update (Login.resume s)
    match dcLookup env.hosts savedDc with
    | none =>
      Prog.update Login.initSession
      pure none
    | some ep =>
      if ← Prog.act (Login.connect ep) then
        Prog.update fun st => { st with conn.transport.dcId := savedDc }
        pure (some ⟨savedDc, 0, false⟩)
      else
        Prog.update fun st => { st with conn.transport := st.conn.transport.close }
        Prog.update Login.initSession
        pure none

/-- The DC that a redirect means: a test DC redirects to a test DC. -/
def redirectTarget (currentDc : Int32) (err : RpcError) : Int32 :=
  if currentDc < 0 then -err.migrateDc else err.migrateDc

def followRedirect (target : Int32) : Prog Login Bool := do
  if ← Prog.act (Login.migrateTo env target) then pure true
  else Prog.act (Login.migrateSoftTo env target)

/-- The loop around `auth.sendCode` with `left` migrations left; besides the code it yields the DC
it ended on and the migrations still left. -/
def sendCodeLoop (phone : Bytes) : ℕ → Int32 → Prog Login (AuthSentCode × Int32 × ℕ)
  | 0, currentDc => do
    match ← Prog.act (Login.call .sendCode (fun _ => true) (authSendCode env.api phone)) with
    | .ok sent => pure (sent, currentDc, 0)
    | .error _ => Prog.fail
  | left + 1, currentDc => do
    match ← Prog.act (Login.call .sendCode (fun _ => true) (authSendCode env.api phone)) with
    | .ok sent => pure (sent, currentDc, left + 1)
    | .error err =>
      if err.migrateDc > 0 then
        if ← followRedirect env (redirectTarget currentDc err) then
          sendCodeLoop phone left (redirectTarget currentDc err)
        else Prog.fail
      else Prog.fail

/-- The resend of a code that went to another client of the user, when the next way is a text
message.  A failure is only logged. -/
def resendAsSms (phone : Bytes) (sent : AuthSentCode) : Prog Login AuthSentCode := do
  if sent.codeType = crcAuthSentCodeTypeApp ∧ sent.nextType = crcCodeTypeSms then
    match ← Prog.act
        (Login.call .resendCode (fun _ => true) (authResendCode env.api phone sent)) with
    | .ok sent' => pure sent'
    | .error _ => pure sent
  else pure sent

/-- The two-step part: fetch the parameters, ask the user, submit the proof. -/
def passwordStep (getPassword : Option (Option Bytes)) : Prog Login Int64 := do
  match getPassword with
  | none => Prog.fail
  | some password =>
    match ← Prog.act (Login.call .getPassword (fun _ => true) (auth2faGetPassword env.api)) with
    | .error _ => Prog.fail
    | .ok params =>
      if !params.hasPassword then Prog.fail else
      match password with
      | none => Prog.fail
      | some pwd =>
        match ← Prog.act (Login.call .checkPassword (fun _ => true)
          (auth2faCheckPassword env.crypto env.api params pwd env.srpExponent)) with
        | .ok uid => pure uid
        | .error _ => Prog.fail

/-- The loop around `auth.signIn`, which never comes round: the user id, and whether a password was
needed.  A redirect is followed and then given up. -/
def signInStep (cb : AuthFlowCallbacks) (phone hash code : Bytes) (left : ℕ) (currentDc : Int32) :
    Prog Login (Int64 × Bool) := do
  match ← Prog.act
      (Login.call .signIn SignIn.isAuthorized (authSignIn env.api phone hash code)) with
  | .ok (.authorized uid) => pure (uid, false)
  | .ok .signUpRequired =>
    match ← Prog.act (Login.call .signUp (fun _ => true)
      (authSignUp env.api phone hash (ascii "Test") (ascii "Account"))) with
    | .ok uid => pure (uid, false)
    | .error _ => Prog.fail
  | .error err =>
    if err.migrateDc > 0 ∧ left > 0 then
      let _ ← Prog.act (Login.migrateTo env (redirectTarget currentDc err))
      Prog.fail
    else if err.errorMsg = ascii "SESSION_PASSWORD_NEEDED" then
      let uid ← passwordStep env cb.getPassword
      pure (uid, true)
    else Prog.fail

/-- The part of `auth_flow_login` behind the fast path. -/
def freshLogin (cb : AuthFlowCallbacks) (phone code : Option Bytes) :
    Prog Login AuthFlowResult := do
  let startDc := if env.api.cfg.startDcSet then env.api.cfg.startDc else defaultDcId
  if ← Prog.act (Login.dial fun d => connectDcEx env.crypto env.hosts d startDc startDc) then
    match phone with
    | none => Prog.fail
    | some phone =>
      let (sent, currentDc, left) ← sendCodeLoop env phone authMaxMigrations startDc
      let sent ← resendAsSms env phone sent
      match code with
      | none => Prog.fail
      | some code =>
        let (uid, needsPassword) ← signInStep env cb phone sent.phoneCodeHash code left currentDc
        Prog.update (Login.store env currentDc)
        pure ⟨currentDc, uid, needsPassword⟩
  else Prog.fail

def authFlowLogin (cb : AuthFlowCallbacks) : Prog Login AuthFlowResult := do
  match cb.getPhone, cb.getCode with
  | some phone, some code =>
    match ← restoreSession env with
    | some res => pure res
    | none => freshLogin env cb phone code
  | _, _ => Prog.fail

end Flow

end TgCli.App
