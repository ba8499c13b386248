import TgCli.Lib.Numbering
import TgCli.App.DcSessionHistory
import TgCli.Infrastructure.ApiCallResend

/-!
# The sequence numbers of a key and a session id

A server takes the messages under one key and one session id as one session, and the sequence
numbers of its content-related messages are to be distinct.  The client has a session in memory
with a counter, and in the store the key and the session id without it: whatever is loaded starts
at zero (`Opening.seqNo_eq_zero`).  `auth_flow_login` draws a new session id for what it loads;
`dc_session_open` and the `--logout` branch of `main` do not.

A history is a list of steps that processes make, one after another or side by side: a session is
opened in one of these ways, an attempt of `api_call` is made on one, one is saved or ends, the
store is cleared.  It acts on counters under pairs of a key and a session id (`abs_step`), and
`Lib.Numbering` says when numbers repeat: exactly when a session at zero sends under a pair that was
used, or a session sends its message 2^31 or later (`seqNosDistinct_iff`).
-/

namespace TgCli.App

open List Lib TgCli.Core Infrastructure Prog DcCall

/-! ## Opening a session -/

def Login.start (fs : Fs) (dials : List (Option Peer)) (ids : List UInt64) : Login :=
  ⟨.none, fs, dials, ids, [], none⟩

inductive Opening where
  /-- `dc_session_open`. -/
  | openDc (dcId : Int32) (out : Outside)
  /-- The fast path of `auth_flow_login`. -/
  | restore (dials : List (Option Peer)) (ids : List UInt64)
  /-- A new session and a key exchange, as in the other path and in `migrate`. -/
  | exchange (rand : UInt64) (dial : Option Peer) (physDc dhDc : Int32)
  /-- `session_store_load`, for `--logout`. -/
  | logout

def Opening.run (env : LoginEnv) (fs : Fs) : Opening → Option MtProtoSession × Fs
  | .openDc dcId out =>
    let x := dcSessionOpen ⟨env.api, env.crypto, env.hosts⟩ dcId
      (History.call ⟨fs, [], []⟩ out .none .blank)
    (x.1.map fun _ => x.2.sess.session, x.2.fs)
  | .restore dials ids =>
    let x := restoreSession env (Login.start fs dials ids)
    (x.1.bind fun res => res.map fun _ => x.2.conn.session, x.2.fs)
  | .exchange rand dial physDc dhDc =>
    (some (connectDcEx env.crypto env.hosts dial physDc dhDc
      ⟨transportInit, mtprotoSessionInit rand⟩).2.session, fs)
  | .logout => ((sessionStoreLoad fs).1.map Prod.fst, (sessionStoreLoad fs).2)

/-! ## Histories -/

/-- The store, the sessions of the running processes, and every content-related message that was
sent, with the key it was sent under. -/
structure SeqState where
  fs : Fs
  sessions : List MtProtoSession
  sent : List (AuthKey × SentMsg)

/-- One attempt of `api_call`: its arguments and what the outside answers. -/
structure Attempt where
  tinf : ℕ → Bytes → Option Bytes
  cfg : ApiConfig
  net : Net
  query : Bytes
  maxLen : ℕ

def Attempt.run (a : Attempt) (s : MtProtoSession) : Once × MtProtoSession × Net :=
  apiCallOnce a.tinf a.cfg s a.net a.query a.maxLen

def Attempt.sent (a : Attempt) (s : MtProtoSession) : List SentMsg :=
  (a.run s).2.2.sent.drop a.net.sent.length

/-- One step of a process.  An `api_call` is one attempt, or two. -/
inductive SeqEvent where
  | opening (o : Opening)
  | attempt (i : ℕ) (a : Attempt)
  | save (i : ℕ) (dcId : Int32) (setHome : Bool) (answers : ℕ → Bool × Bool)
  | clear
  | finish (i : ℕ)

namespace SeqState

variable (env : LoginEnv)

def step (h : SeqState) : SeqEvent → SeqState
  | .opening o =>
    let x := o.run env h.fs
    { h with fs := x.2, sessions := h.sessions ++ x.1.toList }
  | .attempt i a =>
    match h.sessions[i]? with
    | none => h
    | some s =>
      { h with
        sessions := h.sessions.set i (a.run s).2.1
        sent := h.sent ++ (a.sent s).map fun m => (s.authKey, m) }
  | .save i dcId setHome answers =>
    match h.sessions[i]? with
    | none => h
    | some s => { h with fs := (upsertWith answers ⟨dcId, s, setHome⟩ h.fs).2 }
  | .clear => { h with fs := sessionStoreClear h.fs }
  | .finish i => { h with sessions := h.sessions.eraseIdx i }

def start (fs : Fs) : SeqState :=
  ⟨fs, [], []⟩

/-- No two messages under one key and one session id have the same number. -/
def SeqNosDistinct (h : SeqState) : Prop :=
  h.sent.Pairwise fun x y =>
    x.1 = y.1 → x.2.sessionId = y.2.sessionId → x.2.seqNo ≠ y.2.seqNo

/-- The step sends only from a session that has sent less than 2^31 messages, and, if it has sent
none since it was opened, has a key and a session id under which nothing was sent before. -/
def SendsFresh (h : SeqState) : SeqEvent → Prop
  | .attempt i a => ∀ s, h.sessions[i]? = some s → Sends a.cfg s a.query →
      (s.seqNo = 0 → ∀ x ∈ h.sent, ¬ (x.1 = s.authKey ∧ x.2.sessionId = s.sessionId)) ∧
        s.seqNo.toNat < 2 ^ 31
  | _ => True

end SeqState

/-! ## A session starts at zero -/

theorem seqNo_mtprotoAuthKeyGen (c : Crypto) (e : Exchange) (w : Wire) :
    (mtprotoAuthKeyGen c e w).2.session.seqNo = w.session.seqNo := by
  have hpq : (authStepReqPq c e authKeyCtxInit w).2.session.seqNo = w.session.seqNo := by
    rw [authStepReqPq]
    split_ifs <;> rfl
  have hdh : ∀ ctx w, (authStepReqDh c e ctx w).2.session.seqNo = w.session.seqNo := by
    intro ctx w
    rw [authStepReqDh]
    split <;> rfl
  have hset : ∀ ctx w, (authStepSetClientDh c e ctx w).2.session.seqNo = w.session.seqNo := by
    intro ctx w
    rw [authStepSetClientDh]
    dsimp only
    split
    · rfl
    · split_ifs
      · rfl
      · split <;> rfl
  rw [mtprotoAuthKeyGen]
  dsimp only
  split
  · exact hpq
  · split
    · exact (hdh _ _).trans hpq
    · split
      · exact (hdh _ _).trans hpq
      · exact (hset _ _).trans ((hdh _ _).trans hpq)

theorem seqNo_connectDcEx (c : Crypto) (hosts : DcHosts) (dial : Option Peer) (physDc dhDc : Int32)
    (conn : Conn) :
    (connectDcEx c hosts dial physDc dhDc conn).2.session.seqNo = conn.session.seqNo := by
  rw [connectDcEx]
  split
  · rfl
  · split
    · rfl
    · rename_i peer
      have hgen := seqNo_mtprotoAuthKeyGen c peer.exchange ⟨conn.session, []⟩
      dsimp only
      split_ifs
      · exact hgen
      · exact hgen

theorem seqNo_sessionStoreLoadDc {dcId : Int32} {fs : Fs} {s : MtProtoSession}
    (h : (sessionStoreLoadDc dcId fs).1 = some s) : s.seqNo = 0 := by
  obtain ⟨st, -, h⟩ := Option.bind_eq_some_iff.mp h
  obtain ⟨e, -, h⟩ := Option.bind_eq_some_iff.mp h
  rw [← Option.some_inj.mp h]
  rfl

theorem seqNo_sessionStoreLoad {fs : Fs} {x : MtProtoSession × Int32}
    (h : (sessionStoreLoad fs).1 = some x) : x.1.seqNo = 0 := by
  obtain ⟨st, -, h⟩ := Option.bind_eq_some_iff.mp h
  by_cases hempty : st.entries.length = 0 ∨ st.homeDcId = 0
  · rw [if_pos hempty] at h
    exact absurd h.symm (Option.some_ne_none x)
  · rw [if_neg hempty] at h
    obtain ⟨e, -, h⟩ := Option.bind_eq_some_iff.mp h
    rw [← Option.some_inj.mp h]
    rfl

section Open

variable (env : DcEnv) (dcId : Int32)

def AtZero (st : DcCall) : Prop :=
  st.sess.session.seqNo = 0

theorem atZero_dial {f : Option Peer → Conn → Bool × Conn}
    (hf : ∀ d conn, (f d conn).2.session.seqNo = conn.session.seqNo) :
    Triple AtZero (DcCall.step (DcCall.dial f)) (fun _ => AtZero) fun _ => True :=
  triple_step (fun _ _ => trivial) fun _ h _ => (hf _ _).trans h

theorem atZero_handshake :
    Triple AtZero (handshake env dcId) (fun _ => AtZero) fun _ => True := by
  refine Triple.bind (atZero_dial fun d conn => seqNo_connectDcEx _ _ d dcId dcId conn)
    fun connected => ?_
  cases connected with
  | false => exact triple_fail fun _ _ => trivial
  | true =>
    refine Triple.bind (Q := fun _ => AtZero) (triple_update fun _ h => h) fun _ => ?_
    exact ((triple_saveDc (F := fun s _ => s.session.seqNo = 0)).conseq (fun _ h => h)
      (fun _ _ h => h) fun _ _ => trivial).bind fun _ => triple_pure fun _ h => h

theorem atZero_reconnect : Triple AtZero (reconnect env dcId) (fun _ => AtZero) fun _ => True := by
  rw [reconnect]
  rcases dcLookup env.hosts dcId with _ | ep
  · exact triple_pure fun _ h => h
  · exact atZero_dial fun _ _ => rfl

theorem atZero_dcSessionOpen :
    Triple (fun _ => True) (dcSessionOpen env dcId) (fun _ => AtZero) fun _ => True := by
  refine Triple.bind (Q := fun _ _ => True) (triple_update fun _ _ => trivial) fun _ => ?_
  refine Triple.bind (Q := fun _ => AtZero) (triple_update fun _ _ => rfl) fun _ => ?_
  refine Triple.bind (Q := fun loaded st => AtZero st ∧ ∀ s ∈ loaded, s.seqNo = 0)
    (triple_step (fun _ _ => trivial) fun _ h _ => ⟨h, fun _ hs => seqNo_sessionStoreLoadDc hs⟩)
    fun loaded => ?_
  cases loaded with
  | none => exact (atZero_handshake env dcId).conseq (fun _ h => h.1) (fun _ _ h => h) fun _ h => h
  | some s =>
    refine Triple.bind (Q := fun _ => AtZero) (triple_update fun _ h => h.2 s rfl) fun _ => ?_
    refine Triple.bind (atZero_reconnect env dcId) fun connected => ?_
    cases connected with
    | true => exact triple_update fun _ h => h
    | false =>
      refine Triple.bind (Q := fun _ => AtZero) (triple_update fun _ h => h) fun _ => ?_
      exact Triple.bind (Q := fun _ => AtZero) (triple_update fun _ _ => rfl) fun _ =>
        atZero_handshake env dcId

end Open

theorem atZero_restoreSession (env : LoginEnv) :
    Triple (fun _ => True) (restoreSession env)
      (fun res st => res.isSome = true → st.conn.session.seqNo = 0) fun _ => True := by
  refine Triple.bind (Q := fun _ _ => True) (triple_update fun _ _ => trivial) fun _ => ?_
  refine Triple.bind (Q := fun _ _ => True) (triple_act fun _ _ => trivial) fun loaded => ?_
  rcases loaded with _ | ⟨s, savedDc⟩
  · exact triple_pure fun _ _ h => absurd h Bool.false_ne_true
  · refine Triple.bind (Q := fun _ st => st.conn.session.seqNo = 0) (triple_update fun _ _ => rfl)
      fun _ => ?_
    rcases dcLookup env.hosts savedDc with _ | ep
    · exact Triple.bind (Q := fun _ _ => True) (triple_update fun _ _ => trivial) fun _ =>
        triple_pure fun _ _ h => absurd h Bool.false_ne_true
    · refine Triple.bind (Q := fun _ st => st.conn.session.seqNo = 0) (triple_act fun _ h => h)
        fun connected => ?_
      cases connected with
      | true =>
        exact Triple.bind (Q := fun _ st => st.conn.session.seqNo = 0) (triple_update fun _ h => h)
          fun _ => triple_pure fun _ h _ => h
      | false =>
        refine Triple.bind (Q := fun _ _ => True) (triple_update fun _ _ => trivial) fun _ => ?_
        exact Triple.bind (Q := fun _ _ => True) (triple_update fun _ _ => trivial) fun _ =>
          triple_pure fun _ _ h => absurd h Bool.false_ne_true

/-- **Every way of opening a session starts its numbers at zero.** -/
theorem Opening.seqNo_eq_zero (env : LoginEnv) (fs : Fs) (o : Opening) {s : MtProtoSession}
    (h : (o.run env fs).1 = some s) : s.seqNo = 0 := by
  cases o with
  | openDc dcId out =>
    obtain ⟨u, hu, rfl⟩ := Option.map_eq_some_iff.mp h
    exact (atZero_dcSessionOpen _ dcId _ trivial).1 u hu
  | restore dials ids =>
    obtain ⟨res, hres, hs⟩ := Option.bind_eq_some_iff.mp h
    obtain ⟨r, hr, rfl⟩ := Option.map_eq_some_iff.mp hs
    exact (atZero_restoreSession env _ trivial).1 res hres (by rw [hr]; rfl)
  | exchange rand dial physDc dhDc =>
    rw [← Option.some_inj.mp h]
    exact seqNo_connectDcEx _ _ _ _ _ _
  | logout =>
    obtain ⟨x, hx, rfl⟩ := Option.map_eq_some_iff.mp h
    exact seqNo_sessionStoreLoad hx

/-! ## The counters of a history -/

/-- A counter of 32 bits, of which `seq_no * 2 + 1` drops the highest. -/
def seqNoScheme : Scheme UInt32 where
  number k := UInt32.ofNat (2 * k + 1)
  period := 2 ^ 31
  wrap := 2 ^ 32
  period_pos := by decide
  period_lt := by decide
  number_add_period k := by
    refine UInt32.toNat_inj.mp ?_
    simp only [UInt32.toNat_ofNat']
    omega
  number_inj j k hj hk h := by
    have h := congrArg UInt32.toNat h
    simp only [UInt32.toNat_ofNat'] at h
    omega

def counterOf (s : MtProtoSession) : Counter (AuthKey × UInt64) :=
  ⟨(s.authKey, s.sessionId), s.seqNo.toNat⟩

def numbered (x : AuthKey × SentMsg) : (AuthKey × UInt64) × UInt32 :=
  ((x.1, x.2.sessionId), x.2.seqNo)

namespace SeqState

def abs (h : SeqState) : Numbering (AuthKey × UInt64) UInt32 :=
  ⟨h.sessions.map counterOf, h.sent.map numbered⟩

instance (cfg : ApiConfig) (s : MtProtoSession) (query : Bytes) : Decidable (Sends cfg s query) :=
  inferInstanceAs (Decidable (_ ∧ _))

variable (env : LoginEnv)

def act (h : SeqState) : SeqEvent → Numbering.Op (AuthKey × UInt64)
  | .opening o =>
    match (o.run env h.fs).1 with
    | none => .idle
    | some s => .start (s.authKey, s.sessionId)
  | .attempt i a =>
    match h.sessions[i]? with
    | none => .idle
    | some s => if Sends a.cfg s a.query then .send i else .idle
  | .finish i => .stop i
  | _ => .idle

variable {env} {h : SeqState}

theorem abs_attempt {i : ℕ} {s : MtProtoSession} (a : Attempt) (hi : h.sessions[i]? = some s)
    (hs : Sends a.cfg s a.query) :
    (h.step env (.attempt i a)).abs = h.abs.step seqNoScheme (.send i) := by
  have hlive : h.abs.live[i]? = some (counterOf s) := by
    rw [abs, getElem?_map, hi]
    rfl
  obtain ⟨m, hh⟩ : ∃ m, Handed s a.net m (a.run s).2.1
      { (a.run s).2.2 with frames := a.net.frames } := by
    rw [Attempt.run]
    exact apiCallOnce_sent a.tinf a.net a.maxLen hs
  rw [Numbering.step_send hlive, step, hi, abs]
  dsimp only [Attempt.sent]
  generalize a.run s = r at hh ⊢
  have hcounter : counterOf r.2.1 =
      ⟨(s.authKey, s.sessionId), (s.seqNo.toNat + 1) % 2 ^ 32⟩ := by
    rw [counterOf, hh.authKey, hh.receiver.1, hh.counted, UInt32.toNat_add]
    rfl
  have hnumber : m.seqNo = UInt32.ofNat (2 * s.seqNo.toNat + 1) := by
    rw [hh.seqNo]
    refine UInt32.toNat_inj.mp ?_
    simp only [UInt32.toNat_add, UInt32.toNat_mul, UInt32.toNat_ofNat', UInt32.reduceToNat]
    omega
  have hsent : r.2.2.sent = a.net.sent ++ [m] := hh.sent
  rw [hsent, drop_left, map_set, hcounter, map_append, map_singleton,
    map_singleton, numbered, hh.sessionId, hnumber]
  rfl

/-- **A history acts on counters.** -/
theorem abs_step (h : SeqState) (e : SeqEvent) :
    (h.step env e).abs = h.abs.step seqNoScheme (h.act env e) := by
  cases e with
  | opening o =>
    rw [step, act]
    have hzero : ∀ s, (o.run env h.fs).1 = some s → s.seqNo = 0 := fun s => o.seqNo_eq_zero env h.fs
    generalize o.run env h.fs = x at hzero ⊢
    obtain ⟨_ | s, fs⟩ := x
    · simp only [abs, Option.toList_none, append_nil]
      rfl
    · simp only [abs, Option.toList_some, map_append, map_singleton, counterOf,
        hzero s rfl]
      rfl
  | attempt i a =>
    rw [act]
    cases hi : h.sessions[i]? with
    | none =>
      rw [step, hi]
      rfl
    | some s =>
      dsimp only
      split_ifs with hs
      · exact abs_attempt a hi hs
      · have hrun : a.run s = (.fail, s, a.net) := apiCallOnce_of_not_sends a.tinf a.maxLen hs
        obtain ⟨hlt, hget⟩ := List.getElem?_eq_some_iff.mp hi
        rw [step, hi]
        simp only [Attempt.sent, hrun, drop_length, map_nil, append_nil]
        rw [← hget, set_getElem_self hlt]
        rfl
  | save i dcId setHome answers =>
    rw [step]
    cases h.sessions[i]? <;> rfl
  | clear => rfl
  | finish i =>
    rw [step, abs, act]
    exact Numbering.ext (eraseIdx_map ..).symm rfl

theorem nodup_abs_iff : h.abs.sent.Nodup ↔ h.SeqNosDistinct := by
  rw [abs, List.Nodup, pairwise_map, SeqNosDistinct]
  simp only [numbered, ne_eq, Prod.mk.injEq, not_and, and_imp]

theorem fresh_abs_iff (e : SeqEvent) :
    h.abs.Fresh seqNoScheme (h.act env e) ↔ h.SendsFresh e := by
  cases e with
  | opening o =>
    rw [act]
    cases (o.run env h.fs).1 <;> exact Iff.rfl
  | attempt i a =>
    rw [act, SendsFresh]
    cases hi : h.sessions[i]? with
    | none => exact ⟨fun _ s hs => absurd hs.symm (Option.some_ne_none s), fun _ => trivial⟩
    | some s =>
      have hlive : h.abs.live[i]? = some (counterOf s) := by
        rw [abs, getElem?_map, hi]
        rfl
      have hzero : (counterOf s).count = 0 ↔ s.seqNo = 0 :=
        ⟨fun hz => UInt32.toNat_inj.mp hz, fun hz => congrArg UInt32.toNat hz⟩
      have hused : (∀ x ∈ h.abs.sent, x.1 ≠ (counterOf s).name) ↔
          ∀ x ∈ h.sent, ¬ (x.1 = s.authKey ∧ x.2.sessionId = s.sessionId) := by
        rw [abs, forall_mem_map]
        simp only [numbered, counterOf, ne_eq, Prod.mk.injEq]
      simp only [Option.some_inj, forall_eq']
      split_ifs with hs
      · simp only [Numbering.Fresh, hlive, Option.some_inj, forall_eq', hzero, hused, hs,
          forall_const]
        exact Iff.rfl
      · exact ⟨fun _ hs' => absurd hs' hs, fun _ => trivial⟩
  | save i dcId setHome answers => exact Iff.rfl
  | clear => exact Iff.rfl
  | finish i => exact Iff.rfl

end SeqState

/-- **When sequence numbers are not used twice.**  In every history, from any store: no two
content-related messages under the same key and session id have the same number, if and only if
every attempt that sends does so from a session that has sent less than 2^31 messages and that, if
it has sent none, has a key and a session id that were not used before. -/
theorem seqNosDistinct_iff (env : LoginEnv) (fs : Fs) (es : List SeqEvent) :
    (es.foldl (SeqState.step env) (SeqState.start fs)).SeqNosDistinct ↔
      ∀ x ∈ trace (SeqState.step env) (SeqState.start fs) es, x.1.SendsFresh x.2 := by
  rw [← SeqState.nodup_abs_iff, Numbering.nodup_sent_iff SeqState.abs_step
    (Numbering.counted_empty _ seqNoScheme) (Numbering.distinct_empty _ seqNoScheme)]
  simp only [SeqState.fresh_abs_iff]

/-- A call on a connection that delivers nothing. -/
def demoAttempt : Attempt where
  tinf _ _ := none
  cfg := apiConfigInit
  net := ⟨[(1, 4)], [true], [], []⟩
  query := [0, 0, 0, 0]
  maxLen := 64

/-- One process opens DC 4, makes a key there, and sends; the next one takes the key and the session
id from the store, and sends. -/
def demoReuse : List SeqEvent :=
  [.opening (.openDc 4 (demoOutside 12 [])), .attempt 0 demoAttempt, .finish 0,
    .opening (.openDc 4 (demoOutside 13 [])), .attempt 0 demoAttempt]

instance (h : SeqState) : Decidable h.SeqNosDistinct :=
  inferInstanceAs (Decidable (List.Pairwise _ _))

/-- **The first message of the second process has the number of the first.** -/
theorem seqNo_sent_twice :
    let h := demoReuse.foldl (SeqState.step demoEnv) (SeqState.start InodeFs.empty)
    h.sent.map (fun x => (x.2.sessionId, x.2.seqNo)) = [(12, 1), (12, 1)] ∧
      ¬ h.SeqNosDistinct := by
  decide +kernel

end TgCli.App
