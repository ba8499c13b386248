import TgCli.App.AuthFlowLogin
import TgCli.App.DcSession

/-!
# Histories of sessions on other data centers

Processes come and go, and the store stays.  A history is a list of calls, by one process after
another, each with what the outside contributed to it; any call may be the last of its process.

A session is meant to be marked authorized only when an import has succeeded under its key.
`dc_session_ensure_authorized` keeps to that.  `dc_session_open` marks every session that it takes
from the store, and has itself stored each key before it was imported
(`authorized_only_imported_iff`).
-/

namespace TgCli.App

open Option List Lib TgCli.Core Infrastructure Prog DcCall

/-! ## Histories -/

/-- The store, the sessions that the running process holds, and the keys under which an import has
succeeded. -/
structure History where
  fs : Fs
  sessions : List DcSession
  imported : List AuthKey

inductive Event where
  | openDc (dcId : Int32) (out : Outside)
  | ensureAuthorized (i : ℕ) (home : Conn) (out : Outside)
  | closeDc (i : ℕ)
  | exit

def Conn.none : Conn :=
  ⟨transportInit, mtprotoSessionInit 0⟩

def History.call (h : History) (out : Outside) (home : Conn) (sess : DcSession) : DcCall :=
  { out with fs := h.fs, home, sess, imported := h.imported, stopped := false }

def DcSession.blank : DcSession :=
  ⟨0, transportInit, mtprotoSessionInit 0, false⟩

section Run

variable (env : DcEnv)

def History.step (h : History) : Event → History
  | .openDc dcId out =>
    let x := dcSessionOpen env dcId (h.call out .none .blank)
    { fs := x.2.fs
      sessions :=
        if x.1.isSome then h.sessions ++ [x.2.sess] else if x.2.stopped then [] else h.sessions
      imported := x.2.imported }
  | .ensureAuthorized i home out =>
    match h.sessions[i]? with
    | none => h
    | some sess =>
      let x := dcSessionEnsureAuthorized env (h.call out home sess)
      { fs := x.2.fs
        sessions := if x.2.stopped then [] else h.sessions.set i x.2.sess
        imported := x.2.imported }
  | .closeDc i =>
    match h.sessions[i]? with
    | none => h
    | some sess =>
      { h with sessions := h.sessions.set i { sess with transport := sess.transport.close } }
  | .exit => { h with sessions := [] }

def History.steps (h : History) : List Event → List (History × Event)
  | [] => []
  | e :: es => (h, e) :: History.steps (h.step env e) es

/-- Every session that is marked authorized has a key under which an import has succeeded. -/
def History.Sound (h : History) : Prop :=
  ∀ s ∈ h.sessions, s.authorized = true → s.session.authKey ∈ h.imported

/-- The session that an event takes from the store: the store has one for the DC, the connection
comes about, and the process does not stop before it. -/
def History.reused (h : History) : Event → Option MtProtoSession
  | .openDc dcId out =>
    if (dcLookup env.hosts dcId).isSome && (out.dials.headD none).isSome && out.budget.all (2 ≤ ·)
    then (sessionStoreLoadDc dcId h.fs).1 else none
  | _ => none

end Run

/-! ## One call -/

section Step

variable {α : Type} {f : DcCall → α × DcCall} {st : DcCall}

/-- The state after the point where the process might have stopped. -/
def DcCall.spend (st : DcCall) : DcCall :=
  { st with budget := st.budget.map (· - 1) }

theorem step_of_budget (h : ∀ n ∈ st.budget, 1 ≤ n) :
    DcCall.step f st = (some (f st.spend).1, (f st.spend).2) := by
  rcases st with ⟨⟨dials, ids, save, budget⟩, fs, home, sess, imported, stopped⟩
  rcases budget with _ | _ | n
  · rfl
  · exact absurd (h 0 rfl) (by decide)
  · rfl

theorem triple_step {P : DcCall → Prop} {Q : α → DcCall → Prop} {E : DcCall → Prop}
    (hE : ∀ st, P st → E { st with stopped := true })
    (hQ : ∀ st, P st → (∀ n ∈ st.budget, 1 ≤ n) → Q (f st.spend).1 (f st.spend).2) :
    Triple P (DcCall.step f) Q E := by
  intro st hst
  by_cases hb : st.budget = some 0
  · have hstop : DcCall.step f st = (none, { st with stopped := true }) :=
      bind_of_none (by rw [tick, hb])
    rw [hstop]
    exact ⟨fun a ha => absurd ha.symm (some_ne_none a), fun _ => hE st hst⟩
  · have hpos : ∀ n ∈ st.budget, 1 ≤ n := by
      rintro n hn
      refine Nat.one_le_iff_ne_zero.mpr ?_
      rintro rfl
      exact hb hn
    rw [step_of_budget hpos]
    refine ⟨fun a ha => ?_, fun hn => absurd hn (some_ne_none _)⟩
    obtain rfl := some_inj.mp ha
    exact hQ st hst hpos

end Step

section Save

variable {F : DcSession → List AuthKey → Prop}

def Holds (F : DcSession → List AuthKey → Prop) (st : DcCall) : Prop :=
  F st.sess st.imported

theorem triple_saveSteps (req : UpsertReq) (ks : List ℕ) (p : Phase) :
    Triple (Holds F) (saveSteps req ks p) (fun _ => Holds F) (Holds F) := by
  induction ks generalizing p with
  | nil => exact triple_pure fun _ h => h
  | cons k ks ih =>
    exact Triple.bind (Q := fun _ => Holds F) (triple_step (fun _ h => h) fun _ h _ => h)
      fun p' => ih p'

theorem triple_saveDc : Triple (Holds F) saveDc (fun _ => Holds F) (Holds F) :=
  Triple.bind (triple_ask (Q := fun _ => Holds F) fun _ h => h) fun req =>
    (triple_saveSteps req _ _).bind fun _ => triple_pure fun _ h => h

end Save

section Open

variable (env : DcEnv) (dcId : Int32) {I : List AuthKey}

theorem triple_handshake :
    Triple (fun st => st.imported = I) (handshake env dcId)
      (fun _ st => st.sess.authorized = false ∧ st.imported = I) fun st => st.imported = I := by
  have hsave : Triple (fun st => st.sess.authorized = false ∧ st.imported = I) saveDc
      (fun _ st => st.sess.authorized = false ∧ st.imported = I) fun st => st.imported = I :=
    (triple_saveDc (F := fun s imported => s.authorized = false ∧ imported = I)).conseq
      (fun _ h => h) (fun _ _ h => h) fun _ h => h.2
  refine Triple.bind (Q := fun _ st => st.imported = I)
    (triple_step (fun _ h => h) fun _ h _ => h) fun connected => ?_
  cases connected with
  | false => exact triple_fail fun _ h => h
  | true =>
    exact Triple.bind (Q := fun _ st => st.sess.authorized = false ∧ st.imported = I)
      (triple_update fun _ h => ⟨rfl, h⟩) fun _ => hsave.bind fun _ => triple_pure fun _ h => h

theorem triple_reconnect (s : MtProtoSession) (dials : List (Option Peer)) (budget : Option ℕ) :
    Triple
      (fun st => st.sess.session = s ∧ st.imported = I ∧ st.dials = dials ∧ st.budget = budget)
      (reconnect env dcId)
      (fun connected st => st.imported = I ∧ (connected = true → st.sess.session = s ∧
        (dcLookup env.hosts dcId).isSome ∧ (dials.headD none).isSome ∧ ∀ n ∈ budget, 1 ≤ n))
      fun st => st.imported = I := by
  rw [reconnect]
  rcases dcLookup env.hosts dcId with _ | ep
  · exact triple_pure fun _ h => ⟨h.2.1, fun hc => absurd hc Bool.false_ne_true⟩
  · refine triple_step (fun _ h => h.2.1) fun st h hb => ?_
    obtain ⟨hsess, himported, rfl, rfl⟩ := h
    exact ⟨himported, fun hc => ⟨hsess, rfl, hc, hb⟩⟩

/-- **Whatever happens in `dc_session_open`, it imports nothing; and it returns a marked session
only when that is the stored one**, reconnected. -/
theorem triple_dcSessionOpen (st₀ : DcCall) :
    Triple (· = st₀) (dcSessionOpen env dcId)
      (fun _ st => st.imported = st₀.imported ∧ (st.sess.authorized = true →
        (sessionStoreLoadDc dcId st₀.fs).1 = some st.sess.session ∧
        (dcLookup env.hosts dcId).isSome ∧ (st₀.dials.headD none).isSome ∧
        ∀ n ∈ st₀.budget, 2 ≤ n))
      fun st => st.imported = st₀.imported := by
  have hslow {P : DcCall → Prop} (hP : ∀ st, P st → st.imported = st₀.imported) :
      Triple P (handshake env dcId) (fun _ st => st.imported = st₀.imported ∧
        (st.sess.authorized = true → (sessionStoreLoadDc dcId st₀.fs).1 = some st.sess.session ∧
          (dcLookup env.hosts dcId).isSome ∧ (st₀.dials.headD none).isSome ∧
          ∀ n ∈ st₀.budget, 2 ≤ n)) fun st => st.imported = st₀.imported :=
    (triple_handshake env dcId).conseq hP
      (fun _ st h => ⟨h.2, fun ha => absurd (h.1.symm.trans ha) Bool.false_ne_true⟩) fun _ h => h
  refine Triple.bind
    (Q := fun _ st => st.toOutside = st₀.toOutside ∧ st.fs = st₀.fs ∧ st.imported = st₀.imported)
    (triple_update fun st h => by rw [h]; exact ⟨rfl, rfl, rfl⟩) fun _ => ?_
  refine Triple.bind (Q := fun _ st => st.dials = st₀.dials ∧ st.budget = st₀.budget ∧
      st.fs = st₀.fs ∧ st.imported = st₀.imported)
    (triple_update fun st h =>
      ⟨congrArg Outside.dials h.1, congrArg Outside.budget h.1, h.2.1, h.2.2⟩) fun _ => ?_
  refine Triple.bind (Q := fun a st => a = (sessionStoreLoadDc dcId st₀.fs).1 ∧
      st.imported = st₀.imported ∧ st.dials = st₀.dials ∧
      st.budget = st₀.budget.map (· - 1) ∧ ∀ n ∈ st₀.budget, 1 ≤ n)
    (triple_step (fun _ h => h.2.2.2) fun st h hb => ?_) fun loaded => ?_
  · obtain ⟨hdials, hbudget, hfs, himported⟩ := h
    rw [hbudget] at hb
    refine ⟨?_, himported, hdials, congrArg (Option.map (· - 1)) hbudget, hb⟩
    show (sessionStoreLoadDc dcId st.fs).1 = _
    rw [hfs]
  · cases loaded with
    | none => exact hslow fun _ h => h.2.1
    | some s =>
      by_cases hpre : (sessionStoreLoadDc dcId st₀.fs).1 = some s ∧ ∀ n ∈ st₀.budget, 1 ≤ n
      · refine Triple.bind (Q := fun _ st => st.sess.session = s ∧ st.imported = st₀.imported ∧
            st.dials = st₀.dials ∧ st.budget = st₀.budget.map (· - 1))
          (triple_update fun _ h => ⟨rfl, h.2.1, h.2.2.1, h.2.2.2.1⟩) fun _ => ?_
        refine Triple.bind (triple_reconnect env dcId s _ _) fun connected => ?_
        cases connected with
        | false =>
          refine Triple.bind (Q := fun _ st => st.imported = st₀.imported)
            (triple_update fun _ h => h.1) fun _ => ?_
          exact Triple.bind (Q := fun _ st => st.imported = st₀.imported)
            (triple_update fun _ h => h) fun _ => hslow fun _ h => h
        | true =>
          refine triple_update fun st h => ⟨h.1, fun _ => ?_⟩
          obtain ⟨hsess, hep, hdial, hb⟩ := h.2 rfl
          refine ⟨hpre.1.trans (congrArg some hsess.symm), hep, hdial, fun n hn => ?_⟩
          have htwo := hb (n - 1) (mem_map_of_mem _ hn)
          omega
      · exact fun st h => absurd ⟨h.1.symm, h.2.2.2.2⟩ hpre

/-- **A stored session that can be connected is returned, and marked.** -/
theorem dcSessionOpen_of_stored {st : DcCall} {s : MtProtoSession}
    (hload : (sessionStoreLoadDc dcId st.fs).1 = some s)
    (hep : (dcLookup env.hosts dcId).isSome) (hdial : (st.dials.headD none).isSome)
    (hb : ∀ n ∈ st.budget, 2 ≤ n) :
    ∃ st', dcSessionOpen env dcId st = (some (), st') ∧ st'.sess.authorized = true ∧
      st'.sess.session = s ∧ st'.imported = st.imported := by
  obtain ⟨ep, hep⟩ := isSome_iff_exists.mp hep
  have hone : ∀ n ∈ st.budget, 1 ≤ n := fun n hn => le_trans (by decide) (hb n hn)
  have hone' : ∀ n ∈ st.budget.map (· - 1), 1 ≤ n := by
    intro n hn
    obtain ⟨m, hm, rfl⟩ := mem_map.mp hn
    have := hb m hm
    omega
  -- the state before the load, after it, and with the stored session
  let st₁ : DcCall := { st with
    sess := ⟨dcId, transportInit, mtprotoSessionInit (st.ids.headD 0), false⟩
    ids := st.ids.tail }
  let st₂ : DcCall := (loadDc dcId st₁.spend).2
  let st₃ : DcCall := { st₂ with sess.session := s }
  have hloaded : DcCall.step (loadDc dcId) st₁ = (some (some s), st₂) :=
    Eq.trans (step_of_budget hone) (Prod.ext (congrArg some hload) rfl)
  have hreconnect : ∃ st₄, reconnect env dcId st₃ = (some true, st₄) ∧ st₄.sess.session = s ∧
      st₄.imported = st.imported := by
    rw [reconnect, hep]
    exact ⟨_, Eq.trans (step_of_budget hone') (Prod.ext (congrArg some hdial) rfl), rfl, rfl⟩
  obtain ⟨st₄, hreconnect, hsess, himported⟩ := hreconnect
  refine ⟨{ st₄ with sess.transport.dcId := dcId, sess.authorized := true }, ?_, rfl, hsess,
    himported⟩
  show (DcCall.step (loadDc dcId) >>= _) st₁ = _
  rw [bind_of_some hloaded]
  show (reconnect env dcId >>= _) st₃ = _
  rw [bind_of_some hreconnect]
  rfl

end Open

section Ensure

variable (env : DcEnv)

/-- What `dc_session_ensure_authorized` keeps of a session `s₀` and the imports `I`: the key stays,
no import is forgotten, and a mark is an old one or has an import behind it. -/
structure Kept (s₀ : DcSession) (I : List AuthKey) (s : DcSession) (imported : List AuthKey) :
    Prop where
  key : s.session.authKey = s₀.session.authKey
  grows : I ⊆ imported
  marked : s.authorized = true → s₀.authorized = true ∨ s₀.session.authKey ∈ imported

variable {s₀ : DcSession} {I : List AuthKey}

theorem Kept.importAuth {st : DcCall} (h : Holds (Kept s₀ I) st) (tok : AuthExported) :
    let x := DcCall.importAuth env tok st
    Holds (Kept s₀ I) x.2 ∧ (x.1.isOk = true → s₀.session.authKey ∈ x.2.imported) := by
  have hkey := (authTransferImport_sameKey env.api tok st.sess.session st.sess.transport.net).1
  rw [DcCall.importAuth]
  generalize authTransferImport env.api tok st.sess.session st.sess.transport.net = x at hkey ⊢
  have hgrows : st.imported ⊆ (if x.1.isOk then st.imported ++ [st.sess.session.authKey]
      else st.imported) := by
    split_ifs
    · exact subset_append_left _ _
    · exact List.Subset.refl _
  refine ⟨⟨hkey.trans h.key, List.Subset.trans h.grows hgrows,
    fun hm => (h.marked hm).imp_right fun hk => hgrows hk⟩, fun hok => ?_⟩
  rw [if_pos hok, ← h.key]
  exact mem_append_right _ (mem_singleton_self _)

/-- **`dc_session_ensure_authorized` marks a session only after an import under its key**, wherever
it ends. -/
theorem triple_dcSessionEnsureAuthorized :
    Triple (Holds (Kept s₀ I)) (dcSessionEnsureAuthorized env) (fun _ => Holds (Kept s₀ I))
      (Holds (Kept s₀ I)) := by
  refine Triple.bind (triple_ask (Q := fun _ => Holds (Kept s₀ I)) fun _ h => h) fun marked => ?_
  cases marked with
  | true => exact triple_pure fun _ h => h
  | false =>
    refine Triple.bind (Q := fun _ => Holds (Kept s₀ I))
      (triple_step (fun _ h => h) fun _ h _ => h) fun exported => ?_
    cases exported with
    | error err => exact triple_fail fun _ h => h
    | ok tok =>
      refine Triple.bind (Q := fun a st => Holds (Kept s₀ I) st ∧
          (a.isOk = true → s₀.session.authKey ∈ st.imported))
        (triple_step (fun _ h => h) fun st h _ =>
          Kept.importAuth env (show Holds (Kept s₀ I) st.spend from h) tok)
        fun result => ?_
      cases result with
      | error err => exact triple_fail fun _ h => h.1
      | ok u =>
        exact Triple.bind (Q := fun _ => Holds (Kept s₀ I))
          (triple_update fun _ h => ⟨h.1.key, h.1.grows, fun _ => .inr (h.2 rfl)⟩)
          fun _ => triple_saveDc.bind fun _ => triple_pure fun _ h => h

end Ensure

/-! ## One event, and a whole history -/

section History

variable (env : DcEnv) {h : History} {e : Event}

theorem mem_reused_openDc {dcId : Int32} {out : Outside} {s : MtProtoSession} :
    s ∈ h.reused env (.openDc dcId out) ↔
      (sessionStoreLoadDc dcId h.fs).1 = some s ∧ (dcLookup env.hosts dcId).isSome ∧
        (out.dials.headD none).isSome ∧ ∀ n ∈ out.budget, 2 ≤ n := by
  have hbudget : out.budget.all (2 ≤ ·) = true ↔ ∀ n ∈ out.budget, 2 ≤ n := by
    rcases out.budget with _ | n <;> simp
  rw [History.reused]
  split_ifs with hc
  · rw [Bool.and_eq_true, Bool.and_eq_true, hbudget] at hc
    exact ⟨fun hs => ⟨hs, hc.1.1, hc.1.2, hc.2⟩, fun hs => hs.1⟩
  · refine ⟨fun hs => absurd hs.symm (some_ne_none s), fun hs => absurd ?_ hc⟩
    rw [Bool.and_eq_true, Bool.and_eq_true, hbudget]
    exact ⟨⟨hs.2.1, hs.2.2.1⟩, hs.2.2.2⟩

theorem History.Sound.set (hs : h.Sound) {imported : List AuthKey} (hsub : h.imported ⊆ imported)
    {i : ℕ} {sess sess' : DcSession} (hi : h.sessions[i]? = some sess)
    (hkept : Kept sess h.imported sess' imported) (fs : Fs) :
    History.Sound ⟨fs, h.sessions.set i sess', imported⟩ := by
  intro s hmem hm
  rcases mem_or_eq_of_mem_set hmem with hold | rfl
  · exact hsub (hs s hold hm)
  · rw [hkept.key]
    rcases hkept.marked hm with hold | hnew
    · exact hsub (hs sess (mem_of_getElem? hi) hold)
    · exact hnew

/-- **One event.**  The marks stay right if the session that the event takes from the store, if any,
has a key that was imported. -/
theorem History.Sound.step (hs : h.Sound) (hreused : ∀ s ∈ h.reused env e, s.authKey ∈ h.imported) :
    (h.step env e).Sound := by
  cases e with
  | openDc dcId out =>
    obtain ⟨hret, hgave⟩ := triple_dcSessionOpen env dcId (h.call out .none .blank) _ rfl
    rw [History.step]
    generalize dcSessionOpen env dcId (h.call out .none .blank) = x at hret hgave ⊢
    obtain ⟨ret, st⟩ := x
    cases ret with
    | none =>
      have himported : st.imported = h.imported := hgave rfl
      intro s hmem hm
      rw [himported]
      cases hstop : st.stopped with
      | true => simp [hstop] at hmem
      | false =>
        simp only [hstop, isSome_none, Bool.false_eq_true, if_false] at hmem
        exact hs s hmem hm
    | some u =>
      obtain ⟨himported, hmarked⟩ := hret u rfl
      intro s hmem hm
      rw [himported]
      rcases mem_append.mp hmem with hold | hnew
      · exact hs s hold hm
      · rw [mem_singleton.mp hnew] at hm ⊢
        exact hreused _ ((mem_reused_openDc env).mpr (hmarked hm))
  | ensureAuthorized i home out =>
    rw [History.step]
    rcases hi : h.sessions[i]? with _ | sess
    · exact hs
    have hkept₀ : Holds (Kept sess h.imported) (h.call out home sess) :=
      ⟨rfl, List.Subset.refl _, fun hm => .inl hm⟩
    obtain ⟨hret, hgave⟩ := triple_dcSessionEnsureAuthorized env _ hkept₀
    dsimp only
    generalize dcSessionEnsureAuthorized env (h.call out home sess) = x at hret hgave ⊢
    have hkept : Kept sess h.imported x.2.sess x.2.imported := by
      rcases hx : x.1 with _ | u
      · exact hgave hx
      · exact hret u hx
    cases x.2.stopped with
    | true => exact fun s hmem => absurd hmem not_mem_nil
    | false => exact hs.set hkept.grows hi hkept x.2.fs
  | closeDc i =>
    rw [History.step]
    rcases hi : h.sessions[i]? with _ | sess
    · exact hs
    · have hkept : Kept sess h.imported { sess with transport := sess.transport.close }
          h.imported := ⟨rfl, List.Subset.refl _, fun hm => .inl hm⟩
      exact hs.set (List.Subset.refl _) hi hkept h.fs
  | exit => exact fun s hmem => absurd hmem not_mem_nil

theorem History.imported_of_reused {s : MtProtoSession} (hreused : s ∈ h.reused env e)
    (hs : (h.step env e).Sound) : s.authKey ∈ h.imported := by
  cases e with
  | openDc dcId out =>
    obtain ⟨hload, hep, hdial, hb⟩ := (mem_reused_openDc env).mp hreused
    obtain ⟨st, hopen, hmark, hsess, himported⟩ := dcSessionOpen_of_stored env dcId
      (show (sessionStoreLoadDc dcId (h.call out .none .blank).fs).1 = some s from hload)
      hep hdial hb
    rw [History.step, hopen] at hs
    have hlast : st.sess.session.authKey ∈ st.imported :=
      hs st.sess (mem_append_right _ (mem_singleton_self _)) hmark
    rw [himported, hsess] at hlast
    exact hlast
  | ensureAuthorized i home out => exact absurd hreused.symm (some_ne_none s)
  | closeDc i => exact absurd hreused.symm (some_ne_none s)
  | exit => exact absurd hreused.symm (some_ne_none s)

end History

/-- **When a session is marked authorized only after an import.**  In every history of opens and
authorizations, with every failure and every stop of a process, from any store: after every event,
each session that is marked authorized has a key under which an import has succeeded, if and only
if no event took a session from the store whose key had not been imported. -/
theorem authorized_only_imported_iff (env : DcEnv) (h : History) (hnew : h.sessions = [])
    (es : List Event) :
    (∀ x ∈ h.steps env es, (x.1.step env x.2).Sound) ↔
      ∀ x ∈ h.steps env es, ∀ s ∈ x.1.reused env x.2, s.authKey ∈ x.1.imported := by
  refine ⟨fun hall x hx s hs => History.imported_of_reused env hs (hall x hx), ?_⟩
  have hsound : h.Sound := by
    intro s hs
    rw [hnew] at hs
    exact absurd hs not_mem_nil
  clear hnew
  induction es generalizing h with
  | nil => exact fun _ x hx => absurd hx not_mem_nil
  | cons e es ih =>
    intro hall
    rw [History.steps, forall_mem_cons] at hall ⊢
    have hstep := hsound.step env hall.1
    exact ⟨hstep, ih _ hstep hall.2⟩

/-! ### Two histories on DC 4 -/

def demoDcEnv : DcEnv :=
  ⟨demoEnv.api, demoEnv.crypto, demoEnv.hosts⟩

/-- No store, and no process yet. -/
def demoHistory : History :=
  ⟨InodeFs.empty, [], []⟩

/-- One connection comes about, on which the session with this id is answered by these bodies; every
save succeeds and the process goes on. -/
def demoOutside (rand : UInt64) (bodies : List Bytes) : Outside :=
  ⟨[some (demoPeer rand bodies)], [rand], fun _ => (false, true), none⟩

def demoExported : Bytes :=
  tlWriteBytes (tlWriteInt64 (tlWriteUint32 [] crcAuthExportedAuthorization) 77) [1, 2, 3]

def demoHome : Conn where
  transport := ⟨some ⟨⟨2, ascii "149.154.167.50", 443⟩, demoPeer 11 [demoExported]⟩, 2⟩
  session := { mtprotoSessionInit 11 with hasAuthKey := true }

/-- A key is made on DC 4 and imported; the next process takes it from the store. -/
def demoTransfer : List Event :=
  [.openDc 4 (demoOutside 12 [demoAuthorization]), .ensureAuthorized 0 demoHome (demoOutside 0 []),
    .exit, .openDc 4 (demoOutside 13 [])]

theorem authorized_only_imported_demoTransfer :
    ((demoTransfer.foldl (History.step demoDcEnv) demoHistory).sessions.map
      DcSession.authorized = [true]) ∧
      ∀ x ∈ demoHistory.steps demoDcEnv demoTransfer, (x.1.step demoDcEnv x.2).Sound :=
  ⟨by decide +kernel,
    (authorized_only_imported_iff demoDcEnv demoHistory rfl demoTransfer).mpr (by decide +kernel)⟩

/-- A key is made on DC 4, and the process stops before the import. -/
def demoStopped : History :=
  (demoHistory.step demoDcEnv (.openDc 4 (demoOutside 12 [demoAuthorization]))).step demoDcEnv .exit

def demoInterrupted : List Event :=
  [.openDc 4 (demoOutside 12 [demoAuthorization]), .exit, .openDc 4 (demoOutside 13 [])]

/-- **A key that was never imported is marked authorized.** -/
theorem stored_key_marked_without_import :
    let h := demoStopped.step demoDcEnv (.openDc 4 (demoOutside 13 []))
    (sessionStoreLoadDc 4 demoHistory.fs).1 = none ∧ h.sessions.map DcSession.authorized = [true] ∧
      h.imported = [] ∧
      ¬ ∀ x ∈ demoHistory.steps demoDcEnv demoInterrupted, (x.1.step demoDcEnv x.2).Sound := by
  refine ⟨by decide +kernel, by decide +kernel, by decide +kernel, fun hall => ?_⟩
  have hlast := hall (demoStopped, .openDc 4 (demoOutside 13 []))
    (by simp [History.steps, demoInterrupted, demoStopped])
  have hmark : ¬ (demoStopped.step demoDcEnv (.openDc 4 (demoOutside 13 []))).Sound := by
    unfold History.Sound
    decide +kernel
  exact hmark hlast

end TgCli.App
