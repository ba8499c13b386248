import TgCli.Infrastructure.ApiCallResend
import TgCli.Infrastructure.MtprotoContainer

/-!
# A call comes back

`api_call` reads frames from the network until one of them is an answer, and the server decides
which frames come.  Two things keep it from running forever, and a third nearly keeps it from
handing a service frame to its caller.

* **Classification ends** (`exists_runs`).  `classify_service_frame` calls itself for the messages
  of a container, and a message has at least 24 bytes less than its container.
* **An attempt ends** (`apiCallOnce_reads`).  The loop reads at most 64 frames, and there are at
  most two attempts (`apiCall_reads`).
* **A service frame is skipped, but not in a wrapping.**  The classifier calls none a result
  (`kind_ne_result`), so none is taken for an answer.  It looks at the frame as it came in, though,
  and the answer is unwrapped afterwards: a `gzip_packed` or an `rpc_result` with a service message
  in it is a result, and the caller gets the service message (`apiCall_returns_packed_ack`).
  `apiCall_comesBack` says that this is the only way.
-/

namespace TgCli.Infrastructure

open List Lib TgCli.Core

/-! ## Classification ends -/

/-- What an activation of `classify_service_frame` has before it: a frame, or the rest of the
messages of a container, with `has_result`. -/
inductive Job where
  | frame (b : Bytes)
  | rest (msgs : List RpcContainerMsg) (hasResult : Bool)

/-- A run of `classify_service_frame` and its outcome, with at most `d` activations on the stack at
once.  The depth is not bounded. -/
inductive Runs : ℕ → MtProtoSession → Job → Svc × MtProtoSession → Prop
  /-- No container, or one that cannot be parsed: there is no recursive call. -/
  | leaf {s : MtProtoSession} {b : Bytes} : containerMsgs b = none →
    Runs 1 s (.frame b) (classifyFrame (fun s _ => (.error, s)) s b)
  | container {d : ℕ} {s : MtProtoSession} {b : Bytes} {msgs : List RpcContainerMsg}
    {out : Svc × MtProtoSession} : containerMsgs b = some msgs → Runs d s (.rest msgs false) out →
    Runs (d + 1) s (.frame b) out
  | done {s : MtProtoSession} {hasResult : Bool} :
    Runs 0 s (.rest [] hasResult) (if hasResult then .result else .skip, s)
  | stop {d : ℕ} {s s' : MtProtoSession} {m : RpcContainerMsg} {msgs : List RpcContainerMsg}
    {hasResult : Bool} {kind : Svc} : Runs d s (.frame m.body) (kind, s') →
    kind = .error ∨ kind = .badSalt → Runs d s (.rest (m :: msgs) hasResult) (kind, s')
  | result {d e : ℕ} {s s' : MtProtoSession} {m : RpcContainerMsg} {msgs : List RpcContainerMsg}
    {hasResult : Bool} {out : Svc × MtProtoSession} : Runs d s (.frame m.body) (.result, s') →
    Runs e s' (.rest msgs true) out → Runs (max d e) s (.rest (m :: msgs) hasResult) out
  | skip {d e : ℕ} {s s' : MtProtoSession} {m : RpcContainerMsg} {msgs : List RpcContainerMsg}
    {hasResult : Bool} {out : Svc × MtProtoSession} : Runs d s (.frame m.body) (.skip, s') →
    Runs e s' (.rest msgs hasResult) out → Runs (max d e) s (.rest (m :: msgs) hasResult) out

def Job.outcome (s : MtProtoSession) : Job → Svc × MtProtoSession
  | frame b => classifyServiceFrame s b
  | rest msgs hasResult => classifyMsgs classifyServiceFrame msgs hasResult s

variable {b raw : Bytes}

theorem classifyFrame_leaf_congr {f g : MtProtoSession → Bytes → Svc × MtProtoSession}
    (h : containerMsgs b = none) (s : MtProtoSession) :
    classifyFrame f s b = classifyFrame g s b := by
  by_cases hlen : b.length < 4
  · rw [classifyFrame, classifyFrame, if_pos hlen, if_pos hlen]
  have hparse : u32At b 0 = crcMsgContainer → rpcParseContainer b 16 = none := by
    intro hcrc
    rwa [containerMsgs, if_pos ⟨not_lt.mp hlen, hcrc⟩] at h
  simp only [classifyFrame, if_neg hlen]
  split_ifs with _ _ _ _ _ _ hcrc
  all_goals try rfl
  rw [hparse hcrc]

theorem Runs.eq_outcome {d : ℕ} {s : MtProtoSession} {j : Job} {out : Svc × MtProtoSession}
    (h : Runs d s j out) : out = j.outcome s := by
  induction h with
  | leaf hleaf =>
    rw [Job.outcome, classifyServiceFrame_eq]
    exact classifyFrame_leaf_congr hleaf _
  | container hmsgs _ ih =>
    rw [ih, Job.outcome, Job.outcome, classifyServiceFrame_eq, classifyFrame_of_container hmsgs]
  | done => rfl
  | stop _ hkind ih =>
    rw [Job.outcome] at ih
    rw [Job.outcome, classifyMsgs, ← ih]
    rcases hkind with rfl | rfl <;> rfl
  | result _ _ ih ih' =>
    rw [Job.outcome] at ih
    rw [ih', Job.outcome, Job.outcome, classifyMsgs, ← ih]
  | skip _ _ ih ih' =>
    rw [Job.outcome] at ih
    rw [ih', Job.outcome, Job.outcome, classifyMsgs, ← ih]

variable (msgs : List RpcContainerMsg)

theorem exists_runs_rest {B : ℕ}
    (h : ∀ m ∈ msgs, ∀ s, ∃ d, d ≤ B ∧ Runs d s (.frame m.body) (classifyServiceFrame s m.body))
    (hasResult : Bool) (s : MtProtoSession) :
    ∃ d, d ≤ B ∧ Runs d s (.rest msgs hasResult) ((Job.rest msgs hasResult).outcome s) := by
  induction msgs generalizing hasResult s with
  | nil => exact ⟨0, Nat.zero_le _, .done⟩
  | cons m msgs ih =>
    rw [forall_mem_cons] at h
    obtain ⟨d, hd, hrun⟩ := h.1 s
    rw [Job.outcome, classifyMsgs]
    rcases hsub : classifyServiceFrame s m.body with ⟨kind, s'⟩
    rw [hsub] at hrun
    cases kind with
    | error => exact ⟨d, hd, .stop hrun (Or.inl rfl)⟩
    | badSalt => exact ⟨d, hd, .stop hrun (Or.inr rfl)⟩
    | result =>
      obtain ⟨e, he, hrest⟩ := ih h.2 true s'
      exact ⟨max d e, max_le hd he, .result hrun hrest⟩
    | skip =>
      obtain ⟨e, he, hrest⟩ := ih h.2 hasResult s'
      exact ⟨max d e, max_le hd he, .skip hrun hrest⟩

theorem length_body_le_rest (n : ℕ) {r : TlReader} {msgs : List RpcContainerMsg}
    (h : parseContainerMsgs n r = some msgs) : ∀ m ∈ msgs, m.body.length ≤ r.rest.length - 16 := by
  induction n generalizing r msgs with
  | zero =>
    rw [parseContainerMsgs, Option.some_inj] at h
    subst h
    intro m hm
    exact absurd hm not_mem_nil
  | succ n ih =>
    obtain ⟨m, ms, rfl, ⟨-, -, hbody, hms⟩ | ⟨-, ⟨t, hrest⟩, hms⟩⟩ := parse_succ_cases n h
    · have hend : r.toEnd.rest.length = 0 := by
        rw [TlReader.length_rest]
        exact Nat.sub_self _
      refine forall_mem_cons.mpr ⟨by simp [hbody], fun m' hm' => ?_⟩
      have hle := ih hms m' hm'
      omega
    · have hlen := congrArg length hrest
      rw [length_append, length_recordBytes] at hlen
      refine forall_mem_cons.mpr ⟨by omega, fun m' hm' => ?_⟩
      have hle := ih hms m' hm'
      rw [TlReader.rest_advance, length_drop] at hle
      omega

theorem length_body_le_of_containerMsgs {msgs : List RpcContainerMsg}
    (h : containerMsgs b = some msgs) : ∀ m ∈ msgs, m.body.length ≤ b.length - 24 := by
  rw [containerMsgs] at h
  split_ifs at h with hc
  by_cases hlt : b.length < 8
  · rw [rpcParseContainer_of_lt hc.2 hlt] at h
    obtain rfl := Option.some.inj h
    intro m hm
    exact absurd hm not_mem_nil
  · rw [rpcParseContainer_frame (eq_frame hc.2 (Nat.not_lt.mp hlt))] at h
    split_ifs at h with hmax
    intro m hm
    have hle := length_body_le_rest _ h m hm
    rw [TlReader.length_rest] at hle
    have hdata : ((tlReaderInit b).advance 8).data = b := rfl
    have hpos : ((tlReaderInit b).advance 8).pos = 8 := rfl
    rw [hdata, hpos] at hle
    omega

/-- **Classification ends**, however deep the containers are nested. -/
theorem exists_runs (s : MtProtoSession) (b : Bytes) :
    ∃ d, d ≤ b.length / 24 + 2 ∧ Runs d s (.frame b) (classifyServiceFrame s b) := by
  induction hn : b.length using Nat.strong_induction_on generalizing s b with
  | _ n ih =>
    rcases hmsgs : containerMsgs b with _ | msgs
    · refine ⟨1, by omega, ?_⟩
      rw [classifyServiceFrame_eq, classifyFrame_leaf_congr hmsgs s]
      exact .leaf hmsgs
    · have hall : ∀ m ∈ msgs, ∀ s', ∃ d, d ≤ n / 24 + 1 ∧
          Runs d s' (.frame m.body) (classifyServiceFrame s' m.body) := by
        intro m hm s'
        by_cases hempty : m.body = []
        · -- a body without bytes is an error at once
          have hnone : containerMsgs m.body = none := by
            rw [hempty]
            rfl
          refine ⟨1, by omega, ?_⟩
          rw [classifyServiceFrame_eq, classifyFrame_leaf_congr hnone s']
          exact .leaf hnone
        · have hpos := length_pos_iff.mpr hempty
          have hle := length_body_le_of_containerMsgs hmsgs m hm
          obtain ⟨d, hd, hrun⟩ := ih m.body.length (by omega) s' m.body rfl
          exact ⟨d, by omega, hrun⟩
      obtain ⟨d, hd, hrun⟩ := exists_runs_rest msgs hall false s
      refine ⟨d + 1, by omega, ?_⟩
      rw [classifyServiceFrame_eq, classifyFrame_of_container hmsgs]
      exact .container hmsgs hrun

/-! ## Service frames -/

def serviceKinds : List UInt32 :=
  [tlMsgsAck, tlPong, tlNewSessionCreated, tlBadMsgNotification, tlBadServerSalt]

def containerBytes (msgs : List RpcContainerMsg) : Bytes :=
  u32Bytes crcMsgContainer ++ (u32Bytes (UInt32.ofNat msgs.length) ++ msgs.flatMap recordBytes)

/-- The bytes are a service message, or a container of nothing else, at any nesting.  More may
follow behind a container. -/
inductive ServiceOnly : Bytes → Prop
  | single {b : Bytes} : 4 ≤ b.length → u32At b 0 ∈ serviceKinds → ServiceOnly b
  | container {msgs : List RpcContainerMsg} (tail : Bytes) : msgs.length < 2 ^ 32 →
    (∀ m ∈ msgs, m.body.length < 2 ^ 32) → (∀ m ∈ msgs, ServiceOnly m.body) →
    ServiceOnly (containerBytes msgs ++ tail)

theorem parse_of_records {ms msgs : List RpcContainerMsg} (hms : ∀ m ∈ ms, m.body.length < 2 ^ 32)
    {r : TlReader} {t : Bytes} (hr : r.rest = ms.flatMap recordBytes ++ t)
    (h : parseContainerMsgs ms.length r = some msgs) : msgs = ms := by
  induction ms generalizing r msgs with
  | nil =>
    rw [length_nil, parseContainerMsgs, Option.some_inj] at h
    exact h.symm
  | cons m ms ih =>
    rw [forall_mem_cons] at hms
    rw [flatMap_cons, append_assoc] at hr
    have hhead : r.rest = u64Bytes m.msgId ++ (u32Bytes m.seqno ++
        (u32Bytes (UInt32.ofNat m.body.length) ++ (m.body ++ (ms.flatMap recordBytes ++ t)))) := by
      rw [hr, recordBytes, append_assoc, append_assoc, append_assoc]
    have hc : (UInt32.ofNat m.body.length).toNat = m.body.length :=
      UInt32.toNat_ofNat_of_lt' hms.1
    rw [length_cons, parse_recordHeader _ hhead, hc] at h
    split_ifs at h
    obtain ⟨ms', hms', rfl⟩ := Option.map_eq_some_iff.mp h
    have hnext : (r.advance (16 + m.body.length)).rest = ms.flatMap recordBytes ++ t := by
      rw [TlReader.rest_advance, hr, ← length_recordBytes, drop_left]
    rw [ih hms.2 hnext hms', take_left]

theorem classifyMsgs_ne_result {f : MtProtoSession → Bytes → Svc × MtProtoSession}
    (h : ∀ m ∈ msgs, ∀ s, (f s m.body).1 ≠ .result)
    (s : MtProtoSession) : (classifyMsgs f msgs false s).1 ≠ .result := by
  induction msgs generalizing s with
  | nil => exact Svc.noConfusion
  | cons m msgs ih =>
    rw [forall_mem_cons] at h
    have hm := h.1 s
    rw [classifyMsgs]
    cases hk : (f s m.body).1 with
    | error => exact Svc.noConfusion
    | badSalt => exact Svc.noConfusion
    | result => exact absurd hk hm
    | skip => exact ih h.2 _

theorem leafKind_ne_result (h : u32At b 0 ∈ crcMsgContainer :: serviceKinds) :
    leafKind b ≠ .result := by
  simp only [serviceKinds, mem_cons, not_mem_nil, or_false] at h
  unfold leafKind
  generalize u32At b 0 = crc at h
  by_cases hlen : b.length < 4
  · rw [if_pos hlen]
    exact Svc.noConfusion
  rw [if_neg hlen]
  rcases h with rfl | rfl | rfl | rfl | rfl | rfl
  · exact Svc.noConfusion
  · exact Svc.noConfusion
  · exact Svc.noConfusion
  · exact Svc.noConfusion
  · exact Svc.noConfusion
  · rw [if_pos rfl]
    split_ifs <;> exact Svc.noConfusion

theorem kind_ne_result_of_leaf (hleaf : containerMsgs b = none)
    (h : u32At b 0 ∈ crcMsgContainer :: serviceKinds) (s : MtProtoSession) :
    (classifyServiceFrame s b).1 ≠ .result := by
  rw [classifyServiceFrame_eq, classifyFrame_of_leaf hleaf]
  exact leafKind_ne_result h

theorem containerBytes_append (tail : Bytes) :
    containerBytes msgs ++ tail = u32Bytes crcMsgContainer ++
      (u32Bytes (UInt32.ofNat msgs.length) ++ (msgs.flatMap recordBytes ++ tail)) := by
  rw [containerBytes, append_assoc, append_assoc]

theorem u32At_containerBytes (tail : Bytes) :
    u32At (containerBytes msgs ++ tail) 0 = crcMsgContainer :=
  u32At_of_slice (slice_field ((containerBytes_append msgs tail).trans (nil_append _).symm) rfl
    (length_u32Bytes _))

/-- **The classifier calls no service frame a result.** -/
theorem kind_ne_result (h : ServiceOnly b) (s : MtProtoSession) :
    (classifyServiceFrame s b).1 ≠ .result := by
  induction h generalizing s with
  | @single b hlen hkind =>
    have hne : u32At b 0 ≠ crcMsgContainer := by
      simp only [serviceKinds, mem_cons, not_mem_nil, or_false] at hkind
      rcases hkind with h | h | h | h | h <;> rw [h] <;> decide
    have hleaf : containerMsgs b = none := by
      rw [containerMsgs, if_neg fun h => hne h.2]
    exact kind_ne_result_of_leaf hleaf (mem_cons_of_mem _ hkind) s
  | @container msgs tail hcount hshort _ ih =>
    have hframe := containerBytes_append msgs tail
    have hn : (UInt32.ofNat msgs.length).toNat = msgs.length := UInt32.toNat_ofNat_of_lt' hcount
    obtain ⟨-, hrest⟩ := read_count hframe
    rcases hmsgs : containerMsgs (containerBytes msgs ++ tail) with _ | msgs'
    · refine kind_ne_result_of_leaf hmsgs ?_ s
      rw [u32At_containerBytes]
      exact mem_cons_self
    · rw [classifyServiceFrame_eq, classifyFrame_of_container hmsgs]
      rw [containerMsgs] at hmsgs
      split_ifs at hmsgs with hc
      rw [rpcParseContainer_frame hframe, hn] at hmsgs
      split_ifs at hmsgs
      rw [parse_of_records hshort hrest hmsgs]
      exact classifyMsgs_ne_result msgs ih s

theorem ServiceOnly.crc_mem (h : ServiceOnly b) :
    u32At b 0 ∈ crcMsgContainer :: serviceKinds := by
  induction h with
  | single _ hkind => exact mem_cons_of_mem _ hkind
  | container tail _ _ _ _ =>
    rw [u32At_containerBytes]
    exact mem_cons_self

theorem answerPayload_not_serviceOnly (h : ¬ ServiceOnly raw) :
    ¬ ServiceOnly (answerPayload raw) := by
  unfold answerPayload
  split_ifs with hc
  · rcases hp : (rpcParseContainer raw 16).bind firstRpcResult with _ | body
    · exact h
    · obtain ⟨msgs, -, hfirst⟩ := Option.bind_eq_some_iff.mp hp
      obtain ⟨m, hm, rfl⟩ := Option.map_eq_some_iff.mp hfirst
      have hcrc : u32At m.body 0 = crcRpcResult := by
        have hprop := find?_some hm
        simp only [Bool.and_eq_true, decide_eq_true_eq] at hprop
        exact hprop.2
      intro hs
      have hmem := hs.crc_mem
      rw [Option.getD_some, hcrc] at hmem
      exact absurd hmem (by decide)
  · exact h

/-! ## Attempts end -/

def Net.withFrames (net : Net) (fs : List (Option Bytes)) : Net :=
  { net with frames := fs }

theorem drain_reads (n : ℕ) (s : MtProtoSession) (net : Net) {fs : List (Option Bytes)}
    (hfs : n ≤ fs.length) :
    ∃ k d s', k ≤ n ∧ ∀ tail, drain n s (net.withFrames (fs ++ tail)) =
      (d, s', net.withFrames ((fs ++ tail).drop k)) := by
  induction n generalizing s fs with
  | zero => exact ⟨0, .limit, s, le_rfl, fun _ => rfl⟩
  | succ n ih =>
    obtain ⟨f, fs, rfl⟩ : ∃ f fs', fs = f :: fs' := by
      cases fs with
      | nil => simp at hfs
      | cons f fs => exact ⟨f, fs, rfl⟩
    have hfs' : n ≤ fs.length := Nat.le_of_succ_le_succ hfs
    rcases hrecv : rpcRecvEncrypted s f apiBufSize with _ | raw
    · refine ⟨1, .fail, s, by omega, fun tail => ?_⟩
      rw [drain]
      simp only [Net.withFrames, cons_append, headD_cons, hrecv, tail_cons,
        drop_succ_cons, drop_zero]
    · have hcons : ∀ tail, (net.withFrames (f :: fs ++ tail)).frames = f :: (fs ++ tail) :=
        fun _ => rfl
      rcases hsvc : classifyServiceFrame s raw with ⟨kind, s'⟩
      cases kind with
      | error =>
        refine ⟨1, .fail, s', by omega, fun tail => ?_⟩
        rw [drain_cons (hcons tail) hrecv, hsvc]
        rfl
      | badSalt =>
        refine ⟨1, .badSalt, s', by omega, fun tail => ?_⟩
        rw [drain_cons (hcons tail) hrecv, hsvc]
        rfl
      | result =>
        refine ⟨1, .frame raw, s', by omega, fun tail => ?_⟩
        rw [drain_cons (hcons tail) hrecv, hsvc]
        rfl
      | skip =>
        obtain ⟨k, d, s₂, hk, hdrain⟩ := ih s' hfs'
        refine ⟨k + 1, d, s₂, by omega, fun tail => ?_⟩
        rw [drain_cons (hcons tail) hrecv, hsvc]
        exact hdrain tail

theorem rpcSendEncrypted_withFrames (s : MtProtoSession) (net : Net) (fs : List (Option Bytes))
    (data : Bytes) :
    rpcSendEncrypted s (net.withFrames fs) data true =
      ((rpcSendEncrypted s net data true).1, (rpcSendEncrypted s net data true).2.1,
        (rpcSendEncrypted s net data true).2.2.withFrames fs) := by
  unfold rpcSendEncrypted
  cases s.hasAuthKey <;> rfl

theorem length_sent_rpcSendEncrypted (s : MtProtoSession) (net : Net) (data : Bytes) :
    (rpcSendEncrypted s net data true).2.2.sent.length ≤ net.sent.length + 1 := by
  unfold rpcSendEncrypted
  cases s.hasAuthKey <;> simp

section Reads

variable (tinf : ℕ → Bytes → Option Bytes) (cfg : ApiConfig) (s : MtProtoSession) (net : Net)
  (query : Bytes) (maxLen : ℕ)

/-- **An attempt reads at most 64 frames** and sends at most one message. -/
theorem apiCallOnce_reads {fs : List (Option Bytes)} (hfs : serviceFrameLimit ≤ fs.length) :
    ∃ (k : ℕ) (out : Once) (s' : MtProtoSession) (net' : Net), k ≤ serviceFrameLimit ∧
      net'.sent.length ≤ net.sent.length + 1 ∧
      ∀ tail, apiCallOnce tinf cfg s (net.withFrames (fs ++ tail)) query maxLen =
        (out, s', net'.withFrames ((fs ++ tail).drop k)) := by
  unfold apiCallOnce
  rcases apiWrapQuery cfg query apiBufSize with _ | wrapped
  · exact ⟨0, .fail, s, net, Nat.zero_le _, Nat.le_succ _, fun _ => rfl⟩
  · simp only [rpcSendEncrypted_withFrames]
    have hsent := length_sent_rpcSendEncrypted s net wrapped
    generalize rpcSendEncrypted s net wrapped true = snd at hsent
    obtain ⟨sent, s₁, net₁⟩ := snd
    cases sent with
    | false => exact ⟨0, .fail, s₁, net₁, Nat.zero_le _, hsent, fun _ => rfl⟩
    | true =>
      obtain ⟨k, d, s₂, hk, hdrain⟩ := drain_reads serviceFrameLimit s₁ net₁ hfs
      simp only [Bool.not_true, Bool.false_eq_true, if_false, hdrain]
      cases d with
      | fail => exact ⟨k, .fail, s₂, net₁, hk, hsent, fun _ => rfl⟩
      | limit => exact ⟨k, .fail, s₂, net₁, hk, hsent, fun _ => rfl⟩
      | badSalt => exact ⟨k, .badSalt, s₂, net₁, hk, hsent, fun _ => rfl⟩
      | frame raw => exact ⟨k, unwrapReply tinf raw maxLen, s₂, net₁, hk, hsent, fun _ => rfl⟩

/-- **A call makes at most two attempts**, so it reads at most 128 frames. -/
theorem apiCall_reads {fs : List (Option Bytes)} (hfs : 2 * serviceFrameLimit ≤ fs.length) :
    ∃ (k : ℕ) (out : Option ApiReply) (s' : MtProtoSession) (net' : Net),
      k ≤ 2 * serviceFrameLimit ∧ net'.sent.length ≤ net.sent.length + 2 ∧
      ∀ tail, apiCall tinf cfg s (net.withFrames (fs ++ tail)) query maxLen =
        (out, s', net'.withFrames ((fs ++ tail).drop k)) := by
  obtain ⟨k₁, out₁, s₁, net₁, hk₁, hsent₁, hfirst⟩ :=
    apiCallOnce_reads tinf cfg s net query maxLen (show serviceFrameLimit ≤ fs.length by omega)
  unfold apiCall
  simp only [hfirst]
  cases out₁ with
  | fail => exact ⟨k₁, none, s₁, net₁, by omega, by omega, fun _ => rfl⟩
  | ok reply => exact ⟨k₁, some reply, s₁, net₁, by omega, by omega, fun _ => rfl⟩
  | badSalt =>
    have hleft : serviceFrameLimit ≤ (fs.drop k₁).length := by
      rw [length_drop]
      omega
    obtain ⟨k₂, out₂, s₂, net₂, hk₂, hsent₂, hsecond⟩ :=
      apiCallOnce_reads tinf cfg s₁ net₁ query maxLen hleft
    have hdrop : ∀ tail, (fs ++ tail).drop k₁ = fs.drop k₁ ++ tail := fun tail =>
      drop_append_of_le_length (by omega)
    have hboth : ∀ tail, (fs.drop k₁ ++ tail).drop k₂ = (fs ++ tail).drop (k₁ + k₂) := by
      intro tail
      rw [← hdrop, drop_drop]
    simp only [hdrop, hsecond, hboth]
    cases out₂ with
    | fail => exact ⟨k₁ + k₂, none, s₂, net₂, by omega, by omega, fun _ => rfl⟩
    | badSalt => exact ⟨k₁ + k₂, none, s₂, net₂, by omega, by omega, fun _ => rfl⟩
    | ok reply => exact ⟨k₁ + k₂, some reply, s₂, net₂, by omega, by omega, fun _ => rfl⟩

end Reads

/-! ## Wrappings -/

/-- What is in a wrapping: a `gzip_packed` object, or an `rpc_result` of an object that may itself
be packed. -/
inductive Wraps (tinf : ℕ → Bytes → Option Bytes) (maxLen : ℕ) : Bytes → Bytes → Prop
  | packed {b x : Bytes} : 4 ≤ b.length → u32At b 0 = crcGzipPacked →
    rpcUnwrapGzip tinf b maxLen = some x → Wraps tinf maxLen b x
  | result {msgId : UInt64} {b x : Bytes} : rpcUnwrapGzip tinf b maxLen = some x →
    Wraps tinf maxLen (rpcResultFrame msgId b) x

theorem rpcUnwrapResult_rpcResultFrame (msgId : UInt64) (b : Bytes) :
    rpcUnwrapResult (rpcResultFrame msgId b) = some (msgId, b) := by
  have hframe : rpcResultFrame msgId b = u32Bytes crcRpcResult ++ (u64Bytes msgId ++ b) := by
    rw [rpcResultFrame, append_assoc]
  have hcrc : u32At (rpcResultFrame msgId b) 0 = crcRpcResult :=
    u32At_of_slice (slice_field (hframe.trans (nil_append _).symm) rfl (length_u32Bytes _))
  have hid : u64At (rpcResultFrame msgId b) 4 = msgId :=
    u64At_of_slice (slice_field hframe (length_u32Bytes _) (length_u64Bytes _))
  have hlen : (u32Bytes crcRpcResult ++ u64Bytes msgId).length = 12 := by
    rw [length_append, length_u32Bytes, length_u64Bytes]
  have hlt : ¬ (rpcResultFrame msgId b).length < 12 := by
    rw [rpcResultFrame, length_append, hlen]
    omega
  rw [rpcUnwrapResult, if_neg hlt, if_neg (not_not.mpr hcrc), hid, rpcResultFrame, drop_left' hlen]

theorem eq_rpcResultFrame {msgId : UInt64} {p : Bytes} (h : rpcUnwrapResult p = some (msgId, b)) :
    p = rpcResultFrame msgId b := by
  unfold rpcUnwrapResult at h
  split_ifs at h with hlen hcrc
  obtain ⟨rfl, rfl⟩ : _ ∧ _ := by simpa only [Option.some.injEq, Prod.mk.injEq] using h
  have hsplit : slice p 4 8 ++ p.drop 12 = p.drop 4 := by
    rw [slice, ← drop_drop (i := 8) (j := 4)]
    exact take_append_drop 8 _
  rw [rpcResultFrame, ← not_not.mp hcrc, u64Bytes_u64At (by omega), append_assoc, hsplit,
    u32Bytes_append_drop (by omega)]

theorem resultBody_rpcResultFrame (msgId : UInt64) (b : Bytes) :
    resultBody (rpcResultFrame msgId b) = b := by
  rw [resultBody, rpcUnwrapResult_rpcResultFrame]

/-- **What is handed out is a service frame only if it came in a wrapping.** -/
theorem serviceOnly_resp_iff {tinf : ℕ → Bytes → Option Bytes} {maxLen : ℕ} {p resp : Bytes}
    (hp : ¬ ServiceOnly p) (h : rpcUnwrapGzip tinf (resultBody p) maxLen = some resp) :
    ServiceOnly resp ↔ ∃ x, Wraps tinf maxLen p x ∧ ServiceOnly x := by
  constructor
  · intro hresp
    rcases hres : rpcUnwrapResult p with _ | ⟨msgId, b⟩
    · have hbody : resultBody p = p := by rw [resultBody, hres]
      rw [hbody] at h
      refine ⟨resp, ?_, hresp⟩
      by_cases hpacked : p.length < 4 ∨ u32At p 0 ≠ crcGzipPacked
      · -- an object without a wrapping is handed out as it is
        have hplain := h
        rw [rpcUnwrapGzip, if_pos hpacked] at hplain
        split_ifs at hplain
        exact absurd (Option.some.inj hplain ▸ hresp) hp
      · rw [not_or, not_lt, not_not] at hpacked
        exact .packed hpacked.1 hpacked.2 h
    · obtain rfl := eq_rpcResultFrame hres
      rw [resultBody_rpcResultFrame] at h
      exact ⟨resp, .result h, hresp⟩
  · rintro ⟨x, hx, hservice⟩
    suffices rpcUnwrapGzip tinf (resultBody p) maxLen = some x by
      rw [this] at h
      exact Option.some.inj h ▸ hservice
    cases hx with
    | packed _ hcrc hopen =>
      have hnone : rpcUnwrapResult p = none := by
        unfold rpcUnwrapResult
        split_ifs with _ hne
        · rfl
        · rfl
        · rw [hcrc] at hne
          exact absurd hne (by decide)
      rw [resultBody, hnone]
      exact hopen
    | result hopen =>
      rw [resultBody_rpcResultFrame]
      exact hopen

/-! ## The call -/

def firstFrames (σ : ℕ → Option Bytes) (n : ℕ) : List (Option Bytes) :=
  (List.range n).map σ

/-- What a call does when the frames of `σ` come in one after the other: it reads at most two
times 64 of them, whatever comes behind them, sends the query at most twice, takes for its answer an
object that is no service frame, and hands out a service frame exactly if that object wraps one. -/
structure ComesBack (tinf : ℕ → Bytes → Option Bytes) (cfg : ApiConfig) (s : MtProtoSession)
    (net : Net) (query : Bytes) (maxLen : ℕ) (σ : ℕ → Option Bytes) : Prop where
  attempt : ∃ (k : ℕ) (out : Once) (s' : MtProtoSession) (net' : Net), k ≤ 64 ∧
    ∀ n, 64 ≤ n → apiCallOnce tinf cfg s (net.withFrames (firstFrames σ n)) query maxLen =
      (out, s', net'.withFrames ((firstFrames σ n).drop k))
  call : ∃ (k : ℕ) (out : Option ApiReply) (s' : MtProtoSession) (net' : Net),
    k ≤ 2 * 64 ∧ net'.sent.length ≤ net.sent.length + 2 ∧
    (∀ n, 2 * 64 ≤ n → apiCall tinf cfg s (net.withFrames (firstFrames σ n)) query maxLen =
      (out, s', net'.withFrames ((firstFrames σ n).drop k))) ∧
    ∀ reply, out = some reply → ∃ msgId payload,
      lastAttempt s (net.withFrames (firstFrames σ (2 * 64))) = some (msgId, payload) ∧
      ¬ ServiceOnly payload ∧
      (¬ ServiceOnly reply.resp ↔ ∀ x, Wraps tinf maxLen payload x → ¬ ServiceOnly x)

theorem firstFrames_add (σ : ℕ → Option Bytes) {m n : ℕ} (h : m ≤ n) :
    ∃ tail, firstFrames σ n = firstFrames σ m ++ tail := by
  refine ⟨(range (n - m)).map (fun i => σ (m + i)), ?_⟩
  unfold firstFrames
  rw [← Nat.add_sub_cancel' h, range_add, map_append, map_map, Nat.add_sub_cancel_left]
  rfl

theorem length_firstFrames (σ : ℕ → Option Bytes) (n : ℕ) : (firstFrames σ n).length = n := by
  rw [firstFrames, length_map, length_range]

/-- **A call comes back.**  Whatever frames come in, without an end and with containers nested to
any depth: the classification of every frame has a run and one outcome, and the call reads a bounded
number of frames.  It hands no service frame to its caller if and only if the object it takes for
its answer does not wrap one. -/
theorem apiCall_comesBack (tinf : ℕ → Bytes → Option Bytes) (cfg : ApiConfig) (query : Bytes)
    (maxLen : ℕ) (σ : ℕ → Option Bytes) :
    (∀ (s : MtProtoSession) (b : Bytes),
      (∃ d, d ≤ b.length / 24 + 2 ∧ Runs d s (.frame b) (classifyServiceFrame s b)) ∧
      ∀ d out, Runs d s (.frame b) out → out = classifyServiceFrame s b) ∧
    ∀ (s : MtProtoSession) (net : Net), ComesBack tinf cfg s net query maxLen σ := by
  refine ⟨fun s b => ⟨exists_runs s b, fun d out h => h.eq_outcome⟩, fun s net => ⟨?_, ?_⟩⟩
  · obtain ⟨k, out, s', net', hk, -, hcall⟩ :=
      apiCallOnce_reads tinf cfg s net query maxLen (length_firstFrames σ serviceFrameLimit).ge
    refine ⟨k, out, s', net', hk, fun n hn => ?_⟩
    obtain ⟨tail, htail⟩ := firstFrames_add σ hn
    rw [htail]
    exact hcall tail
  · obtain ⟨k, out, s', net', hk, hsent, hcall⟩ :=
      apiCall_reads tinf cfg s net query maxLen (length_firstFrames σ (2 * serviceFrameLimit)).ge
    refine ⟨k, out, s', net', hk, hsent, fun n hn => ?_, fun reply hreply => ?_⟩
    · obtain ⟨tail, htail⟩ := firstFrames_add σ hn
      rw [htail]
      exact hcall tail
    · have hnil := hcall []
      rw [hreply, append_nil] at hnil
      obtain ⟨msgId, raw, hlast, hkind, hraw, -⟩ := lastAttempt_of_apiCall hnil
      have hpayload := answerPayload_not_serviceOnly fun hs => kind_ne_result hs s hkind
      refine ⟨msgId, _, hlast, hpayload, ?_⟩
      rw [serviceOnly_resp_iff hpayload (unwrapReply_ok hraw).2, not_exists]
      exact forall_congr' fun x => not_and

/-! ## A packed acknowledgement -/

/-- `msgs_ack` for no message. -/
def emptyAck : Bytes :=
  u32Bytes tlMsgsAck ++ u32Bytes tlVector ++ u32Bytes 0

/-- The acknowledgement as a gzip file with one stored block. -/
def gzippedAck : Bytes :=
  [0x1f, 0x8b, 0x08, 0, 0, 0, 0, 0, 0, 0x03, 0x01, 0x0c, 0, 0xf3, 0xff] ++ emptyAck ++
    [0x4d, 0x81, 0xd1, 0xf6, 0x0c, 0, 0, 0]

/-- A decompressor that opens this file. -/
def opensAck (_ : ℕ) (gz : Bytes) : Option Bytes :=
  if gz = gzippedAck then some emptyAck else none

def packedAckCall : Option ApiReply × MtProtoSession × Net :=
  apiCall opensAck apiConfigInit staleSession
    ⟨[(5, 8)], [true],
      [some (plainFrame staleSession (u32Bytes crcGzipPacked ++ tlBytes gzippedAck))], []⟩
    [0, 0, 0, 0] 64

/-- **A packed acknowledgement is handed to the caller** as the answer to its query. -/
theorem apiCall_returns_packed_ack :
    ∃ reply s' net', packedAckCall = (some reply, s', net') ∧ ServiceOnly reply.resp := by
  have h : packedAckCall.1 = some ⟨u32Bytes crcGzipPacked ++ tlBytes gzippedAck, emptyAck⟩ := by
    decide
  exact ⟨_, _, _, Prod.ext h rfl, .single (by decide) (by decide)⟩

end TgCli.Infrastructure
