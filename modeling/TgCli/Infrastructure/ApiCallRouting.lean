import TgCli.Infrastructure.ApiCall

/-!
# Which frame answers a call

`api_call` hands back whatever the drain loop stops at.  This file says exactly which frame that
is, as a function of the frames that arrive (`stopFrame`), and from it when the answer belongs to
the request.

## The argument

Classification looks at a frame and changes at most the salt, so neither the kind of a frame
nor what `rpc_recv_encrypted` makes of it depends on the frames drained before
(`classifyServiceFrame_fst`, `SameButSalt`).  The drain loop is therefore a search through the list
of frames, and the two message ids a call can use are known before any frame has arrived: the
second one only depends on the first and on the clock.

## The result

The source reads `req_msg_id` out of the `rpc_result` and never looks at it again, and a frame that
is no `rpc_result` at all goes through unchanged (`apiCall_answers_last_send_iff`).  A late answer
to an earlier request is enough to break it (`apiCall_returns_stale_result`).
-/

namespace TgCli.Infrastructure

open Option Lib TgCli.Core

/-! ## Classification does not reach its depth bound -/

theorem classifyMsgs_congr {f g : MtProtoSession → Bytes → Svc × MtProtoSession}
    (msgs : List RpcContainerMsg) (h : ∀ m ∈ msgs, ∀ s, f s m.body = g s m.body)
    (hasResult : Bool) (s : MtProtoSession) :
    classifyMsgs f msgs hasResult s = classifyMsgs g msgs hasResult s := by
  induction msgs generalizing hasResult s with
  | nil => rfl
  | cons m ms ih =>
    have ih' := ih fun m' hm' => h m' (List.mem_cons_of_mem m hm')
    rw [classifyMsgs, classifyMsgs, h m (List.mem_cons_self ..) s]
    simp only [ih']

theorem classifyFrame_congr {f g : MtProtoSession → Bytes → Svc × MtProtoSession} {resp : Bytes}
    (h : ∀ b : Bytes, b.length < resp.length → ∀ s, f s b = g s b) (s : MtProtoSession) :
    classifyFrame f s resp = classifyFrame g s resp := by
  unfold classifyFrame
  simp only
  split_ifs with _ _ _ _ _ _ _ hcrc
  all_goals try rfl
  cases hmsgs : rpcParseContainer resp 16 with
  | none => rfl
  | some msgs =>
    exact classifyMsgs_congr msgs
      (fun m hm => h m.body (length_body_lt_of_rpcParseContainer hcrc hmsgs m hm)) false s

theorem classifyDepth_of_lt (d : ℕ) (resp : Bytes) (h : resp.length < d) (s : MtProtoSession) :
    classifyDepth d s resp = classifyServiceFrame s resp := by
  induction d using Nat.strong_induction_on generalizing resp s with
  | _ d ih =>
    obtain ⟨d, rfl⟩ : ∃ k, d = k + 1 := ⟨d - 1, by omega⟩
    rw [classifyServiceFrame, classifyDepth, classifyDepth]
    refine classifyFrame_congr (fun b hb s' => ?_) s
    exact (ih d (by omega) b (by omega) s').trans (ih resp.length (by omega) b (by omega) s').symm

/-- **The recursion of `classify_service_frame`**, with no bound on the nesting. -/
theorem classifyServiceFrame_eq (s : MtProtoSession) (resp : Bytes) :
    classifyServiceFrame s resp = classifyFrame classifyServiceFrame s resp := by
  rw [classifyServiceFrame, classifyDepth]
  exact classifyFrame_congr (fun b hb s' => classifyDepth_of_lt _ b hb s') s

/-! ## Classification looks at the frame and writes the salt -/

/-- Two sessions that differ at most in their salt. -/
def SameButSalt (s s' : MtProtoSession) : Prop :=
  s' = { s with serverSalt := s'.serverSalt }

theorem SameButSalt.refl (s : MtProtoSession) : SameButSalt s s := rfl

variable {n maxLen : ℕ} {net net' : Net} {b raw data : Bytes} {fs : List (Option Bytes)}
  {s s' s'' : MtProtoSession} {tinf : ℕ → Bytes → Option Bytes}

theorem SameButSalt.trans (h : SameButSalt s s') (h' : SameButSalt s' s'') : SameButSalt s s'' := by
  rw [h] at h'
  exact h'

theorem sameButSalt_setSalt (s : MtProtoSession) (salt : UInt64) :
    SameButSalt s (mtprotoSessionSetSalt s salt) := rfl

theorem classifyMsgs_spec {f : MtProtoSession → Bytes → Svc × MtProtoSession}
    (hfst : ∀ s s' b, (f s b).1 = (f s' b).1) (hsnd : ∀ s b, SameButSalt s (f s b).2)
    (msgs : List RpcContainerMsg) (hasResult : Bool) :
    (∀ s s', (classifyMsgs f msgs hasResult s).1 = (classifyMsgs f msgs hasResult s').1) ∧
      ∀ s, SameButSalt s (classifyMsgs f msgs hasResult s).2 := by
  induction msgs generalizing hasResult with
  | nil => exact ⟨fun _ _ => rfl, fun s => SameButSalt.refl s⟩
  | cons m ms ih =>
    constructor
    · intro s s'
      rw [classifyMsgs, classifyMsgs, hfst s s' m.body]
      cases (f s' m.body).1 with
      | error => rfl
      | badSalt => rfl
      | result => exact (ih true).1 _ _
      | skip => exact (ih hasResult).1 _ _
    · intro s
      rw [classifyMsgs]
      cases (f s m.body).1 with
      | error => exact hsnd s m.body
      | badSalt => exact hsnd s m.body
      | result => exact (hsnd s m.body).trans ((ih true).2 _)
      | skip => exact (hsnd s m.body).trans ((ih hasResult).2 _)

theorem classifyDepth_spec (d : ℕ) :
    (∀ s s' b, (classifyDepth d s b).1 = (classifyDepth d s' b).1) ∧
      ∀ s b, SameButSalt s (classifyDepth d s b).2 := by
  induction d with
  | zero => exact ⟨fun _ _ _ => rfl, fun s _ => SameButSalt.refl s⟩
  | succ d ih =>
    constructor
    · intro s s' b
      rw [classifyDepth, classifyDepth, classifyFrame, classifyFrame]
      simp only
      split_ifs
      all_goals try rfl
      cases rpcParseContainer b 16 with
      | none => rfl
      | some msgs => exact (classifyMsgs_spec ih.1 ih.2 msgs false).1 s s'
    · intro s b
      rw [classifyDepth, classifyFrame]
      simp only
      split_ifs
      all_goals try exact SameButSalt.refl s
      all_goals try exact sameButSalt_setSalt s _
      cases rpcParseContainer b 16 with
      | none => exact SameButSalt.refl s
      | some msgs => exact (classifyMsgs_spec ih.1 ih.2 msgs false).2 s

theorem classifyServiceFrame_fst (s s' : MtProtoSession) (b : Bytes) :
    (classifyServiceFrame s b).1 = (classifyServiceFrame s' b).1 :=
  (classifyDepth_spec (b.length + 1)).1 s s' b

theorem classifyServiceFrame_snd (s : MtProtoSession) (b : Bytes) :
    SameButSalt s (classifyServiceFrame s b).2 :=
  (classifyDepth_spec (b.length + 1)).2 s b

/-- Two sessions that accept the same frames from the wire. -/
def SameReceiver (s s' : MtProtoSession) : Prop :=
  s'.sessionId = s.sessionId ∧ s'.hasAuthKey = s.hasAuthKey

theorem SameButSalt.sameReceiver (h : SameButSalt s s') :
    SameReceiver s s' := by
  rw [h]
  exact ⟨rfl, rfl⟩

theorem SameReceiver.trans (h : SameReceiver s s')
    (h' : SameReceiver s' s'') : SameReceiver s s'' :=
  ⟨h'.1.trans h.1, h'.2.trans h.2⟩

theorem rpcRecvEncrypted_congr (h : SameReceiver s s') (plain : Option Bytes) (maxLen : ℕ) :
    rpcRecvEncrypted s' plain maxLen = rpcRecvEncrypted s plain maxLen := by
  unfold rpcRecvEncrypted
  rw [h.1, h.2]

theorem drain_sameButSalt (n : ℕ) (s : MtProtoSession) (net : Net) :
    SameButSalt s (drain n s net).2.1 := by
  induction n generalizing s net with
  | zero => exact SameButSalt.refl s
  | succ n ih =>
    rw [drain]
    rcases rpcRecvEncrypted s (net.frames.headD none) apiBufSize with _ | raw
    · exact SameButSalt.refl s
    · have hsvc := classifyServiceFrame_snd s raw
      dsimp only
      generalize classifyServiceFrame s raw = svc at hsvc ⊢
      obtain ⟨kind, s'⟩ := svc
      cases kind with
      | error => exact hsvc
      | badSalt => exact hsvc
      | skip => exact hsvc.trans (ih _ _)
      | result => exact hsvc

/-! ## The frame at which draining stops -/

/-- The first of at most `n` frames that is not a service frame to be skipped, with its kind and
the frames after it; `none` when there is none, or when a frame cannot be received before it. -/
def stopFrame (s : MtProtoSession) : ℕ → List (Option Bytes) →
    Option (Svc × Bytes × List (Option Bytes))
  | 0, _ => none
  | _ + 1, [] => none
  | n + 1, f :: fs =>
    match rpcRecvEncrypted s f apiBufSize with
    | none => none
    | some raw =>
      if (classifyServiceFrame s raw).1 = .skip then stopFrame s n fs
      else some ((classifyServiceFrame s raw).1, raw, fs)

theorem stopFrame_congr (h : SameReceiver s s') (n : ℕ)
    (fs : List (Option Bytes)) : stopFrame s' n fs = stopFrame s n fs := by
  induction n generalizing fs with
  | zero => rfl
  | succ n ih =>
    cases fs with
    | nil => rfl
    | cons f fs =>
      rw [stopFrame, stopFrame, rpcRecvEncrypted_congr h]
      simp only [classifyServiceFrame_fst s' s, ih]

theorem kind_of_stopFrame {kind : Svc} {rest : List (Option Bytes)}
    (h : stopFrame s n fs = some (kind, raw, rest)) : (classifyServiceFrame s raw).1 = kind := by
  induction n generalizing fs with
  | zero => simp [stopFrame] at h
  | succ n ih =>
    cases fs with
    | nil => simp [stopFrame] at h
    | cons f fs =>
      rw [stopFrame] at h
      rcases hrecv : rpcRecvEncrypted s f apiBufSize with _ | b <;> rw [hrecv] at h
      · simp at h
      · dsimp only at h
        split_ifs at h
        · exact ih h
        · obtain ⟨hkind, rfl⟩ : _ ∧ b = raw := by
            simp only [some.injEq, Prod.mk.injEq] at h
            exact ⟨h.1, h.2.1⟩
          exact hkind

/-- What the drain loop has done when it ends with a salt or a frame: it stopped at `stopFrame`, the
frames up to there are gone, and the session is the old one up to its salt. -/
structure DrainedAt (n : ℕ) (s : MtProtoSession) (net : Net) (kind : Svc) (raw : Bytes)
    (s' : MtProtoSession) (net' : Net) : Prop where
  session : SameButSalt s s'
  stop : ∃ rest, stopFrame s n net.frames = some (kind, raw, rest) ∧
    net' = { net with frames := rest }

theorem DrainedAt.skip {f : Option Bytes} {kind : Svc} (hf : net.frames = f :: fs)
    (hrecv : rpcRecvEncrypted s f apiBufSize = some b) (hb : (classifyServiceFrame s b).1 = .skip)
    (h : DrainedAt n (classifyServiceFrame s b).2 { net with frames := fs } kind raw s' net') :
    DrainedAt (n + 1) s net kind raw s' net' := by
  have hs := classifyServiceFrame_snd s b
  obtain ⟨rest, hrest, hnet⟩ := h.stop
  refine ⟨hs.trans h.session, rest, ?_, hnet⟩
  rw [stopFrame_congr hs.sameReceiver] at hrest
  rw [hf, stopFrame, hrecv]
  simp only [hb]
  exact hrest

theorem DrainedAt.here {f : Option Bytes} {kind : Svc} (hf : net.frames = f :: fs)
    (hrecv : rpcRecvEncrypted s f apiBufSize = some raw)
    (hkind : (classifyServiceFrame s raw).1 = kind) (hne : kind ≠ .skip) :
    DrainedAt (n + 1) s net kind raw (classifyServiceFrame s raw).2 { net with frames := fs } := by
  refine ⟨classifyServiceFrame_snd s raw, fs, ?_, rfl⟩
  rw [hf, stopFrame, hrecv]
  simp only [hkind, if_neg hne]

theorem drain_cons {f : Option Bytes} (hf : net.frames = f :: fs)
    (hrecv : rpcRecvEncrypted s f apiBufSize = some b) :
    drain (n + 1) s net =
      match (classifyServiceFrame s b).1 with
      | .error => (.fail, (classifyServiceFrame s b).2, { net with frames := fs })
      | .badSalt => (.badSalt, (classifyServiceFrame s b).2, { net with frames := fs })
      | .skip => drain n (classifyServiceFrame s b).2 { net with frames := fs }
      | .result => (.frame b, (classifyServiceFrame s b).2, { net with frames := fs }) := by
  conv_lhs => rw [drain, hf]
  rewrite [List.headD_cons, hrecv]
  rfl

theorem drain_of_recv_none (hrecv : rpcRecvEncrypted s (net.frames.headD none) apiBufSize = none) :
    (drain (n + 1) s net).1 = .fail := by
  rw [drain]
  simp only [hrecv]

/-- **The drain loop is a search for `stopFrame`.** -/
theorem drain_spec (n : ℕ) (s : MtProtoSession) (net : Net) :
    (∀ raw s' net', drain n s net = (.frame raw, s', net') →
      DrainedAt n s net .result raw s' net') ∧
    (∀ s' net', drain n s net = (.badSalt, s', net') →
      ∃ raw, DrainedAt n s net .badSalt raw s' net') := by
  induction n generalizing s net with
  | zero => exact ⟨fun _ _ _ h => by simp [drain] at h, fun _ _ h => by simp [drain] at h⟩
  | succ n ih =>
    cases hrecv : rpcRecvEncrypted s (net.frames.headD none) apiBufSize with
    | none =>
      have hfail := drain_of_recv_none (n := n) hrecv
      exact ⟨fun _ _ _ h => by simp [h] at hfail, fun _ _ h => by simp [h] at hfail⟩
    | some b =>
      -- something was received, so the wire was not empty
      obtain ⟨f, fs, hf⟩ : ∃ f fs, net.frames = f :: fs := by
        cases hf : net.frames with
        | nil => rw [hf, List.headD_nil, rpcRecvEncrypted_none] at hrecv; simp at hrecv
        | cons f fs => exact ⟨f, fs, rfl⟩
      rw [hf, List.headD_cons] at hrecv
      rw [drain_cons hf hrecv]
      cases hk : (classifyServiceFrame s b).1 with
      | error => exact ⟨fun _ _ _ h => by simp at h, fun _ _ h => by simp at h⟩
      | badSalt =>
        refine ⟨fun _ _ _ h => by simp at h, fun s' net' h => ?_⟩
        obtain ⟨rfl, rfl⟩ := h
        exact ⟨b, DrainedAt.here hf hrecv hk (by decide)⟩
      | result =>
        refine ⟨fun raw s' net' h => ?_, fun _ _ h => by simp at h⟩
        obtain ⟨rfl, rfl, rfl⟩ := h
        exact DrainedAt.here hf hrecv hk (by decide)
      | skip =>
        have ih' := ih (classifyServiceFrame s b).2 { net with frames := fs }
        refine ⟨fun raw s' net' h => (ih'.1 raw s' net' h).skip hf hrecv hk, fun s' net' h => ?_⟩
        obtain ⟨raw, hraw⟩ := ih'.2 s' net' h
        exact ⟨raw, hraw.skip hf hrecv hk⟩

/-! ## One attempt -/

def sendId (s : MtProtoSession) (net : Net) : UInt64 :=
  msgIdAfter s.lastMsgId net.clockHead.1 net.clockHead.2

/-- What an attempt that got past its send has done: one message is out, under `sendId`, and
draining stopped at a frame of the given kind. -/
structure Attempted (s : MtProtoSession) (net : Net) (kind : Svc) (raw : Bytes)
    (s' : MtProtoSession) (net' : Net) : Prop where
  receiver : SameReceiver s s'
  lastMsgId : s'.lastMsgId = sendId s net
  clock : net'.clock = net.clock.tail
  sent : ∃ m, net'.sent = net.sent ++ [m] ∧ m.msgId = sendId s net
  stop : stopFrame s serviceFrameLimit net.frames = some (kind, raw, net'.frames)

theorem rpcSendEncrypted_spec (h : (rpcSendEncrypted s net data true).1 = true) :
    let snd := rpcSendEncrypted s net data true
    SameReceiver s snd.2.1 ∧ snd.2.1.lastMsgId = sendId s net ∧ snd.2.2.clock = net.clock.tail ∧
      snd.2.2.frames = net.frames ∧
      ∃ m, snd.2.2.sent = net.sent ++ [m] ∧ m.msgId = sendId s net := by
  unfold rpcSendEncrypted at h ⊢
  cases hkey : s.hasAuthKey with
  | false => rw [hkey] at h; simp at h
  | true => exact ⟨⟨rfl, rfl⟩, rfl, rfl, rfl, _, rfl, rfl⟩

theorem DrainedAt.attempted {kind : Svc} (hsend : (rpcSendEncrypted s net data true).1 = true)
    (h : DrainedAt serviceFrameLimit (rpcSendEncrypted s net data true).2.1
      (rpcSendEncrypted s net data true).2.2 kind raw s' net') :
    Attempted s net kind raw s' net' := by
  obtain ⟨hrecv, hlast, hclock, hframes, m, hsent, hm⟩ := rpcSendEncrypted_spec hsend
  obtain ⟨rest, hstop, rfl⟩ := h.stop
  have hsession := h.session
  refine ⟨hrecv.trans h.session.sameReceiver, ?_, hclock, ⟨m, hsent, hm⟩, ?_⟩
  · rw [hsession]
    exact hlast
  · rw [hframes, stopFrame_congr hrecv] at hstop
    exact hstop

theorem unwrapReply_ne_badSalt (tinf : ℕ → Bytes → Option Bytes) (raw : Bytes) (maxLen : ℕ) :
    unwrapReply tinf raw maxLen ≠ .badSalt := by
  unfold unwrapReply
  split <;> simp

theorem unwrapReply_ok {reply : ApiReply} (h : unwrapReply tinf raw maxLen = .ok reply) :
    reply.payload = answerPayload raw ∧
      rpcUnwrapGzip tinf (resultBody (answerPayload raw)) maxLen = some reply.resp := by
  unfold unwrapReply at h
  split at h
  · simp at h
  · rename_i resp hresp
    rw [← Once.ok.inj h]
    exact ⟨rfl, hresp⟩

/-- **One attempt**, from its two outcomes that matter to the caller. -/
theorem apiCallOnce_spec {cfg : ApiConfig} {query : Bytes} :
    (∀ reply, apiCallOnce tinf cfg s net query maxLen = (.ok reply, s', net') →
      ∃ raw, Attempted s net .result raw s' net' ∧ unwrapReply tinf raw maxLen = .ok reply) ∧
    (apiCallOnce tinf cfg s net query maxLen = (.badSalt, s', net') →
      ∃ raw, Attempted s net .badSalt raw s' net') := by
  unfold apiCallOnce
  cases apiWrapQuery cfg query apiBufSize with
  | none => exact ⟨fun _ h => by simp at h, fun h => by simp at h⟩
  | some wrapped =>
    cases hsend : (rpcSendEncrypted s net wrapped true).1 with
    | false => exact ⟨fun _ h => by simp [hsend] at h, fun h => by simp [hsend] at h⟩
    | true =>
      set s₁ := (rpcSendEncrypted s net wrapped true).2.1
      set net₁ := (rpcSendEncrypted s net wrapped true).2.2
      have hd := drain_spec serviceFrameLimit s₁ net₁
      simp only [hsend, Bool.not_true, Bool.false_eq_true, if_false]
      cases hdr : drain serviceFrameLimit s₁ net₁ with
      | mk out rest =>
        cases out with
        | fail => exact ⟨fun _ h => by simp at h, fun h => by simp at h⟩
        | limit => exact ⟨fun _ h => by simp at h, fun h => by simp at h⟩
        | badSalt =>
          refine ⟨fun _ h => by simp at h, fun h => ?_⟩
          obtain ⟨rfl, rfl⟩ := h
          obtain ⟨raw, hraw⟩ := hd.2 _ _ hdr
          exact ⟨raw, hraw.attempted hsend⟩
        | frame raw =>
          have hraw := (hd.1 _ _ _ hdr).attempted hsend
          refine ⟨fun reply h => ?_, fun h => ?_⟩
          · simp only [Prod.mk.injEq] at h
            obtain ⟨hreply, rfl, rfl⟩ := h
            exact ⟨raw, hraw, hreply⟩
          · simp only [Prod.mk.injEq] at h
            exact absurd h.1 (unwrapReply_ne_badSalt tinf raw maxLen)

/-! ## Whose answer it is -/

/-- The object is an `rpc_result` for the request with this message id. -/
def IsResultFor (msgId : UInt64) (payload : Bytes) : Prop :=
  ∃ body, rpcUnwrapResult payload = some (msgId, body)

/-- The bytes handed back are the unwrapped body of an `rpc_result` for the message that
this call put on the wire last. -/
def AnswersLastSend (tinf : ℕ → Bytes → Option Bytes) (maxLen : ℕ) (net : Net) (reply : ApiReply) :
    Prop :=
  ∃ m body, net.sent.getLast? = some m ∧ rpcUnwrapResult reply.payload = some (m.msgId, body) ∧
    rpcUnwrapGzip tinf body maxLen = some reply.resp

/-- The message id of the last attempt and the object it takes for its answer, from the frames that
arrive.  A second attempt is the one that follows a `bad_server_salt`. -/
def lastAttempt (s : MtProtoSession) (net : Net) : Option (UInt64 × Bytes) :=
  match stopFrame s serviceFrameLimit net.frames with
  | some (.result, raw, _) => some (sendId s net, answerPayload raw)
  | some (.badSalt, _, rest) =>
    match stopFrame s serviceFrameLimit rest with
    | some (.result, raw, _) =>
      let c := net.clock.tail.headD (0, 0)
      some (msgIdAfter (sendId s net) c.1 c.2, answerPayload raw)
    | _ => none
  | _ => none

/-- The frame at which the last attempt stops is an `rpc_result` for the message id of that
attempt, or a container whose first `rpc_result` is one. -/
def OwnResultFirst (s : MtProtoSession) (net : Net) : Prop :=
  ∃ msgId payload, lastAttempt s net = some (msgId, payload) ∧ IsResultFor msgId payload

theorem ownResultFirst_of_lastAttempt {msgId : UInt64}
    {payload : Bytes} (h : lastAttempt s net = some (msgId, payload)) :
    OwnResultFirst s net ↔ IsResultFor msgId payload := by
  constructor
  · rintro ⟨msgId', payload', h', hres⟩
    rw [h, some_inj, Prod.mk.injEq] at h'
    rw [h'.1, h'.2]
    exact hres
  · exact fun hres => ⟨msgId, payload, h, hres⟩

/-- For an attempt that ends with an answer, the answer belongs to the attempt's message exactly
when the frame it was taken from does. -/
theorem Attempted.answersLastSend_iff {reply : ApiReply}
    (h : Attempted s net .result raw s' net') (hreply : unwrapReply tinf raw maxLen = .ok reply) :
    AnswersLastSend tinf maxLen net' reply ↔ IsResultFor (sendId s net) (answerPayload raw) := by
  obtain ⟨m, hsent, hm⟩ := h.sent
  obtain ⟨hpayload, hgz⟩ := unwrapReply_ok hreply
  constructor
  · rintro ⟨m', body, hlast, hbody, -⟩
    rw [hsent, List.getLast?_concat, some_inj] at hlast
    rw [← hlast, hm, hpayload] at hbody
    exact ⟨body, hbody⟩
  · rintro ⟨body, hbody⟩
    refine ⟨m, body, by rw [hsent, List.getLast?_concat], by rw [hpayload, hm]; exact hbody, ?_⟩
    rw [resultBody, hbody] at hgz
    exact hgz

/-- **A call that returns** hands back what `unwrapReply` makes of the frame of its last attempt. -/
theorem lastAttempt_of_apiCall {cfg : ApiConfig} {query : Bytes} {reply : ApiReply}
    (h : apiCall tinf cfg s net query maxLen = (some reply, s', net')) :
    ∃ msgId raw, lastAttempt s net = some (msgId, answerPayload raw) ∧
      (classifyServiceFrame s raw).1 = .result ∧ unwrapReply tinf raw maxLen = .ok reply ∧
      (AnswersLastSend tinf maxLen net' reply ↔ IsResultFor msgId (answerPayload raw)) := by
  unfold apiCall at h
  rcases hfirst : apiCallOnce tinf cfg s net query maxLen with ⟨out, s₁, net₁⟩
  rw [hfirst] at h
  cases out with
  | fail => simp at h
  | ok reply₁ =>
    obtain ⟨rfl, rfl, rfl⟩ := h
    obtain ⟨raw, hatt, hreply⟩ := apiCallOnce_spec.1 _ hfirst
    refine ⟨sendId s net, raw, ?_, kind_of_stopFrame hatt.stop, hreply,
      hatt.answersLastSend_iff hreply⟩
    rw [lastAttempt, hatt.stop]
  | badSalt =>
    obtain ⟨raw₁, hatt₁⟩ := apiCallOnce_spec.2 hfirst
    rcases hsecond : apiCallOnce tinf cfg s₁ net₁ query maxLen with ⟨out₂, s₂, net₂⟩
    simp only [hsecond] at h
    cases out₂ with
    | fail => simp at h
    | badSalt => simp at h
    | ok reply₂ =>
      obtain ⟨rfl, rfl, rfl⟩ := h
      obtain ⟨raw₂, hatt₂, hreply⟩ := apiCallOnce_spec.1 _ hsecond
      -- the second attempt is an attempt of the session that the first one left
      have hstop₂ := hatt₂.stop
      rw [stopFrame_congr hatt₁.receiver] at hstop₂
      have hid : sendId s₁ net₁ = msgIdAfter (sendId s net) (net.clock.tail.headD (0, 0)).1
          (net.clock.tail.headD (0, 0)).2 := by
        rw [sendId, hatt₁.lastMsgId, Net.clockHead, hatt₁.clock]
      refine ⟨_, raw₂, ?_, kind_of_stopFrame hstop₂, hreply, hid ▸ hatt₂.answersLastSend_iff hreply⟩
      rw [lastAttempt, hatt₁.stop]
      simp only [hstop₂]

/-- **When the answer of a call is its own.**  Whenever `api_call` returns 0, what it hands back is
the unwrapped body of an `rpc_result` for the message it sent last if and only if the
frame at which its last attempt stopped is such an `rpc_result`, or has it as its first one. -/
theorem apiCall_answers_last_send_iff (tinf : ℕ → Bytes → Option Bytes) (cfg : ApiConfig)
    (s : MtProtoSession) (net : Net) (query : Bytes) (maxLen : ℕ) (reply : ApiReply)
    (s' : MtProtoSession) (net' : Net)
    (h : apiCall tinf cfg s net query maxLen = (some reply, s', net')) :
    AnswersLastSend tinf maxLen net' reply ↔ OwnResultFirst s net := by
  obtain ⟨msgId, raw, hlast, -, -, hiff⟩ := lastAttempt_of_apiCall h
  rw [hiff, ownResultFirst_of_lastAttempt hlast]

/-- A session with a key that has sent one request, under message id 4. -/
def staleSession : MtProtoSession :=
  { mtprotoSessionInit 7 with hasAuthKey := true, lastMsgId := 4 }

def plainFrame (s : MtProtoSession) (data : Bytes) : Bytes :=
  u64Bytes s.serverSalt ++ u64Bytes s.sessionId ++ u64Bytes 1 ++ u32Bytes 1 ++
    u32Bytes (UInt32.ofNat data.length) ++ data

def rpcResultFrame (msgId : UInt64) (body : Bytes) : Bytes :=
  u32Bytes crcRpcResult ++ u64Bytes msgId ++ body

/-- A network on which the one frame that arrives is an `rpc_result` for `msgId`; the next request
of `staleSession` goes out under message id `5 * 2 ^ 32 + 8`. -/
def resultNet (msgId : UInt64) : Net :=
  ⟨[(5, 8)], [true], [some (plainFrame staleSession (rpcResultFrame msgId [1, 2, 3, 4]))], []⟩

def demoCall (msgId : UInt64) : Option ApiReply × MtProtoSession × Net :=
  apiCall (fun _ _ => none) apiConfigInit staleSession (resultNet msgId) [0, 0, 0, 0] 64

/-- On its own result the call is answered by it. -/
theorem apiCall_returns_own_result :
    ∃ reply s' net', demoCall 21474836488 = (some reply, s', net') ∧
      AnswersLastSend (fun _ _ => none) 64 net' reply := by
  have h : (demoCall 21474836488).1 =
      some ⟨rpcResultFrame 21474836488 [1, 2, 3, 4], [1, 2, 3, 4]⟩ := by decide
  have hcall : demoCall 21474836488 = (some ⟨rpcResultFrame 21474836488 [1, 2, 3, 4], [1, 2, 3, 4]⟩,
      (demoCall 21474836488).2.1, (demoCall 21474836488).2.2) := Prod.ext h rfl
  refine ⟨_, _, _, hcall, (apiCall_answers_last_send_iff _ _ _ _ _ _ _ _ _ hcall).mpr ?_⟩
  exact ⟨21474836488, rpcResultFrame 21474836488 [1, 2, 3, 4], by decide, [1, 2, 3, 4], by decide⟩

/-- **A late answer to the previous request is returned as the answer to this one.** -/
theorem apiCall_returns_stale_result :
    ∃ reply s' net', demoCall 4 = (some reply, s', net') ∧
      ¬ AnswersLastSend (fun _ _ => none) 64 net' reply := by
  have h : (demoCall 4).1 = some ⟨rpcResultFrame 4 [1, 2, 3, 4], [1, 2, 3, 4]⟩ := by decide
  refine ⟨_, (demoCall 4).2.1, (demoCall 4).2.2, Prod.ext h rfl, ?_⟩
  rintro ⟨m, body, hlast, hbody, -⟩
  have hsent : (demoCall 4).2.2.sent.getLast?.map SentMsg.msgId = some 21474836488 := by decide
  have hres : (rpcUnwrapResult (rpcResultFrame 4 [1, 2, 3, 4])).map Prod.fst = some 4 := by decide
  rw [hlast, map_some, some_inj] at hsent
  rw [hbody, map_some, some_inj, hsent] at hres
  exact absurd (show (21474836488 : UInt64) = 4 from hres) (by decide)

end TgCli.Infrastructure
