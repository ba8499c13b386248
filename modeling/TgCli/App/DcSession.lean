import TgCli.App.AuthFlow
import TgCli.Infrastructure.AuthTransfer

/-!
# `app/dc_session.c`: a session on another data center

`dc_session_open` reuses the key that the store has for a DC, or makes one by a key exchange and
stores it; `dc_session_ensure_authorized` moves the user's authorization over to it.  Both are
programs on the `DcSession` that they are given, the store, and what the outside has yet to answer.

A process may stop after any step --- a load, a connection attempt, a key exchange, a system call
of a save, an export, an import.  `budget` is the number of steps it still makes, and a program that
has none left gives up with `stopped` set.
-/

namespace TgCli.App

open Lib TgCli.Core Infrastructure

structure DcSession where
  dcId : Int32
  transport : Transport
  session : MtProtoSession
  authorized : Bool

structure DcEnv where
  api : ApiEnv
  crypto : Crypto
  hosts : DcHosts

/-- What the outside contributes to one call: what comes of each connection attempt, the random
session ids, what the system calls of the save answer, and after how many steps the process stops,
if it does. -/
structure Outside where
  dials : List (Option Peer)
  ids : List UInt64
  save : ℕ → Bool × Bool
  budget : Option ℕ

/-- The state of a call.  `imported` is a trace: the keys under which `auth_transfer_import` has
returned 0. -/
structure DcCall extends Outside where
  fs : Fs
  home : Conn
  sess : DcSession
  imported : List AuthKey
  stopped : Bool

namespace DcCall

/-- The point before a step, where the process may stop. -/
def tick : Prog DcCall Unit := fun st =>
  match st.budget with
  | some 0 => (none, { st with stopped := true })
  | some (n + 1) => (some (), { st with budget := some n })
  | none => (some (), st)

def step {α : Type} (f : DcCall → α × DcCall) : Prog DcCall α := do
  tick
  Prog.act f

def setSess (f : DcSession → DcSession) : Prog DcCall Unit :=
  Prog.update fun st => { st with sess := f st.sess }

def initSession : Prog DcCall Unit :=
  Prog.update fun st =>
    { st with sess.session := mtprotoSessionInit (st.ids.headD 0), ids := st.ids.tail }

def dial (f : Option Peer → Conn → Bool × Conn) (st : DcCall) : Bool × DcCall :=
  let x := f (st.dials.headD none) ⟨st.sess.transport, st.sess.session⟩
  (x.1, { st with
    sess.transport := x.2.transport
    sess.session := x.2.session
    dials := st.dials.tail })

/-- `session_store_load_dc`. -/
def loadDc (dcId : Int32) (st : DcCall) : Option MtProtoSession × DcCall :=
  ((sessionStoreLoadDc dcId st.fs).1, { st with fs := (sessionStoreLoadDc dcId st.fs).2 })

/-- The system calls of a save, one step each; those already made are not in the list. -/
def saveSteps (req : UpsertReq) : List ℕ → Phase → Prog DcCall Phase
  | [], p => pure p
  | k :: ks, p => do
    let p' ← step fun st =>
      let x := p.step (st.save k).1 (st.save k).2 req st.fs
      (x.1, { st with fs := x.2 })
    saveSteps req ks p'

def saveDc : Prog DcCall Bool := do
  let req ← Prog.ask fun st => (⟨st.sess.dcId, st.sess.session, false⟩ : UpsertReq)
  let p ← saveSteps req (List.range 10) req.begin
  pure p.rc

def exportAuth (env : DcEnv) (st : DcCall) : Except RpcError AuthExported × DcCall :=
  let x := authTransferExport env.api st.sess.dcId st.home.session st.home.transport.net
  (x.1, { st with home := ⟨st.home.transport.setNet x.2.2, x.2.1⟩ })

def importAuth (env : DcEnv) (tok : AuthExported) (st : DcCall) : Except RpcError Unit × DcCall :=
  let x := authTransferImport env.api tok st.sess.session st.sess.transport.net
  (x.1, { st with
    sess.transport := st.sess.transport.setNet x.2.2
    sess.session := x.2.1
    imported := if x.1.isOk then st.imported ++ [st.sess.session.authKey] else st.imported })

end DcCall

open DcCall

section Calls

variable (env : DcEnv)

/-- The fast path: whether the stored session is connected. -/
def reconnect (dcId : Int32) : Prog DcCall Bool :=
  match dcLookup env.hosts dcId with
  | none => pure false
  | some ep => step <| dial fun d conn =>
      ((conn.transport.connect ep d).1, ⟨(conn.transport.connect ep d).2, conn.session⟩)

/-- The slow path: a key exchange, and a save whose failure is only logged. -/
def handshake (dcId : Int32) : Prog DcCall Unit := do
  if ← step (dial fun d => authFlowConnectDc env.crypto env.hosts d dcId) then
    setSess fun s => { s with authorized := false }
    let _ ← saveDc
  else Prog.fail

def dcSessionOpen (dcId : Int32) : Prog DcCall Unit := do
  setSess fun s => ⟨dcId, transportInit, s.session, false⟩
  initSession
  match ← step (loadDc dcId) with
  | none => handshake env dcId
  | some s =>
    setSess fun sess => { sess with session := s }
    if ← reconnect env dcId then
      setSess fun sess => { sess with transport.dcId := dcId, authorized := true }
    else
      setSess fun sess => { sess with transport := sess.transport.close }
      initSession
      handshake env dcId

def dcSessionEnsureAuthorized : Prog DcCall Unit := do
  if ← Prog.ask fun st => st.sess.authorized then pure ()
  else
    match ← step (exportAuth env) with
    | .error _ => Prog.fail
    | .ok tok =>
      match ← step (importAuth env tok) with
      | .error _ => Prog.fail
      | .ok _ =>
        setSess fun s => { s with authorized := true }
        let _ ← saveDc

end Calls

end TgCli.App
