import TgCli.Infrastructure.ApiCallRouting

/-!
# When a query goes out twice

`api_call` makes a second attempt when a frame of the first one brings a `bad_server_salt`.  The
notice names the message that the server refused, in its `bad_msg_id`, and `classify_service_frame`
does not read that field.  Nor does it finish a container: at a `bad_server_salt` it stops, and an
`rpc_result` in front of it is forgotten.

The nesting of containers is taken out first.  `leaves` lists the objects of a frame in the order in
which the classifier meets them, and the kind of the frame is the verdict on that list
(`classifyServiceFrame_eq_verdict`): the first notice or error decides, and otherwise one result is
enough.  With the frames of the first attempt at hand (`received`), the law about second copies is
compared with what arrives (`resendLaw_iff`).  A container with the result and a late notice about
an earlier message breaks it (`resend_of_answered_query`).
-/

namespace TgCli.Infrastructure

open List Lib TgCli.Core

/-! ## The objects of a frame -/

/-- The kind of an object that is not taken apart; a container is not when it cannot be parsed. -/
def leafKind (o : Bytes) : Svc :=
  if o.length < 4 then .error
  else if u32At o 0 = tlBadServerSalt then if o.length < 28 then .error else .badSalt
  else if u32At o 0 = tlBadMsgNotification then .error
  else if u32At o 0 = tlNewSessionCreated then .skip
  else if u32At o 0 = tlMsgsAck ∨ u32At o 0 = tlPong then .skip
  else if u32At o 0 = crcMsgContainer then .error
  else .result

def containerMsgs (b : Bytes) : Option (List RpcContainerMsg) :=
  if b.length ≥ 4 ∧ u32At b 0 = crcMsgContainer then rpcParseContainer b 16 else none

/-- The objects of a frame to a nesting of `d` containers. -/
def leavesDepth : ℕ → Bytes → List Bytes
  | 0, b => [b]
  | d + 1, b =>
    match containerMsgs b with
    | none => [b]
    | some msgs => msgs.flatMap fun m => leavesDepth d m.body

def leaves (b : Bytes) : List Bytes :=
  leavesDepth (b.length + 1) b

/-- What a sequence of kinds amounts to, when a result may have been seen before. -/
def verdict : Bool → List Svc → Svc
  | seen, [] => if seen then .result else .skip
  | _, .error :: _ => .error
  | _, .badSalt :: _ => .badSalt
  | _, .result :: ks => verdict true ks
  | seen, .skip :: ks => verdict seen ks

/-- Kinds that end the search, and what to go on with after the others. -/
def Svc.orElse (kind afterResult afterSkip : Svc) : Svc :=
  match kind with
  | .error => .error
  | .badSalt => .badSalt
  | .result => afterResult
  | .skip => afterSkip

theorem verdict_true (ks : List Svc) :
    verdict true ks = (verdict false ks).orElse .result .result := by
  induction ks with
  | nil => rfl
  | cons k ks ih =>
    cases k with
    | error => rfl
    | badSalt => rfl
    | skip => exact ih
    | result =>
      rw [verdict, verdict, ih]
      cases verdict false ks <;> rfl

theorem verdict_append (seen : Bool) (ks ks' : List Svc) :
    verdict seen (ks ++ ks') =
      (verdict false ks).orElse (verdict true ks') (verdict seen ks') := by
  induction ks generalizing seen with
  | nil => rfl
  | cons k ks ih =>
    cases k with
    | error => rfl
    | badSalt => rfl
    | skip => exact ih seen
    | result =>
      rw [cons_append, verdict, verdict, ih true, verdict_true ks]
      cases verdict false ks <;> rfl

variable {b raw : Bytes} {s s' : MtProtoSession}
  {f : MtProtoSession → Bytes → Svc × MtProtoSession}

theorem classifyMsgs_eq_verdict {objs : Bytes → List Bytes} (msgs : List RpcContainerMsg)
    (h : ∀ m ∈ msgs, ∀ s, (f s m.body).1 = verdict false ((objs m.body).map leafKind))
    (seen : Bool) (s : MtProtoSession) :
    (classifyMsgs f msgs seen s).1 =
      verdict seen ((msgs.flatMap fun m => objs m.body).map leafKind) := by
  induction msgs generalizing seen s with
  | nil => rfl
  | cons m ms ih =>
    have ih' := ih fun m' hm' => h m' (mem_cons_of_mem m hm')
    rw [flatMap_cons, map_append, verdict_append, ← h m (mem_cons_self ..) s,
      classifyMsgs]
    cases (f s m.body).1 with
    | error => rfl
    | badSalt => rfl
    | result => exact ih' true _
    | skip => exact ih' seen _

theorem classifyFrame_of_leaf
    (h : containerMsgs b = none) (s : MtProtoSession) : (classifyFrame f s b).1 = leafKind b := by
  by_cases hlen : b.length < 4
  · rw [classifyFrame, leafKind, if_pos hlen, if_pos hlen]
  have hparse : u32At b 0 = crcMsgContainer → rpcParseContainer b 16 = none := by
    intro hcrc
    rwa [containerMsgs, if_pos ⟨not_lt.mp hlen, hcrc⟩] at h
  simp only [classifyFrame, leafKind, if_neg hlen]
  split_ifs with _ _ _ _ _ _ hcrc
  all_goals try rfl
  rw [hparse hcrc]

theorem classifyFrame_of_container
    {msgs : List RpcContainerMsg} (h : containerMsgs b = some msgs) (s : MtProtoSession) :
    classifyFrame f s b = classifyMsgs f msgs false s := by
  rw [containerMsgs] at h
  split_ifs at h with hc
  rw [classifyFrame, if_neg (not_lt.mpr hc.1)]
  simp only [hc.2, h]
  rfl

theorem classifyDepth_eq_verdict (d : ℕ) (b : Bytes) (hd : b.length < d) (s : MtProtoSession) :
    (classifyDepth d s b).1 = verdict false ((leavesDepth d b).map leafKind) := by
  induction d generalizing b s with
  | zero => exact absurd hd (Nat.not_lt_zero _)
  | succ d ih =>
    rw [classifyDepth, leavesDepth]
    cases hmsgs : containerMsgs b with
    | none =>
      rw [classifyFrame_of_leaf hmsgs]
      show leafKind b = verdict false [leafKind b]
      cases leafKind b <;> rfl
    | some msgs =>
      rw [classifyFrame_of_container hmsgs]
      refine classifyMsgs_eq_verdict msgs (fun m hm s' => ih m.body ?_ s') false s
      rw [containerMsgs] at hmsgs
      split_ifs at hmsgs with hc
      have hlt := length_body_lt_of_rpcParseContainer hc.2 hmsgs m hm
      omega

/-- **The kind of a frame is the verdict on its objects.** -/
theorem classifyServiceFrame_eq_verdict (s : MtProtoSession) (b : Bytes) :
    (classifyServiceFrame s b).1 = verdict false ((leaves b).map leafKind) :=
  classifyDepth_eq_verdict (b.length + 1) b (Nat.lt_succ_self _) s

/-! ## What the verdicts say -/

theorem verdict_ne_skip (ks : List Svc) : verdict true ks ≠ .skip := by
  induction ks with
  | nil => exact Svc.noConfusion
  | cons k ks ih =>
    cases k with
    | error => exact Svc.noConfusion
    | badSalt => exact Svc.noConfusion
    | result => exact ih
    | skip => exact ih

theorem verdict_eq_skip_iff (ks : List Svc) : verdict false ks = .skip ↔ ∀ k ∈ ks, k = .skip := by
  induction ks with
  | nil => simp [verdict]
  | cons k ks ih => cases k <;> simp [verdict, ih, verdict_ne_skip]

theorem verdict_eq_badSalt_iff (seen : Bool) (ks : List Svc) :
    verdict seen ks = .badSalt ↔
      ∃ pre post, ks = pre ++ .badSalt :: post ∧ ∀ k ∈ pre, k ≠ .error := by
  induction ks generalizing seen with
  | nil => cases seen <;> simp [verdict]
  | cons k ks ih =>
    have hcons : k ≠ .error → k ≠ .badSalt →
        ((∃ pre post, ks = pre ++ .badSalt :: post ∧ ∀ k ∈ pre, k ≠ Svc.error) ↔
          ∃ pre post, k :: ks = pre ++ .badSalt :: post ∧ ∀ k ∈ pre, k ≠ Svc.error) := by
      intro hne hns
      constructor
      · rintro ⟨pre, post, rfl, hpre⟩
        exact ⟨k :: pre, post, rfl, forall_mem_cons.mpr ⟨hne, hpre⟩⟩
      · rintro ⟨pre, post, hks, hpre⟩
        cases pre with
        | nil => exact absurd (cons.inj hks).1 hns
        | cons x pre =>
          obtain ⟨rfl, rfl⟩ := cons.inj hks
          exact ⟨pre, post, rfl, (forall_mem_cons.mp hpre).2⟩
    cases k with
    | result => exact (ih true).trans (hcons (by decide) (by decide))
    | skip => exact (ih seen).trans (hcons (by decide) (by decide))
    | badSalt => exact ⟨fun _ => ⟨[], ks, rfl, by simp⟩, fun _ => rfl⟩
    | error =>
      refine ⟨fun h => absurd h Svc.noConfusion, ?_⟩
      rintro ⟨pre, post, hks, hpre⟩
      cases pre with
      | nil => exact absurd (cons.inj hks).1 Svc.noConfusion
      | cons x pre => exact absurd (cons.inj hks).1.symm (hpre x (mem_cons_self ..))

theorem verdict_of_mem_badSalt {seen : Bool} {ks : List Svc} (h : Svc.badSalt ∈ ks) :
    verdict seen ks = .error ∨ verdict seen ks = .badSalt := by
  induction ks generalizing seen with
  | nil => exact absurd h not_mem_nil
  | cons k ks ih =>
    cases k with
    | error => exact Or.inl rfl
    | badSalt => exact Or.inr rfl
    | result => exact ih ((mem_cons.mp h).resolve_left Svc.noConfusion)
    | skip => exact ih ((mem_cons.mp h).resolve_left Svc.noConfusion)

/-- A notice about a new salt comes in the frame, and no error before it. -/
def SaltFirst (b : Bytes) : Prop :=
  ∃ pre o post, leaves b = pre ++ o :: post ∧ leafKind o = .badSalt ∧
    ∀ x ∈ pre, leafKind x ≠ .error

/-- The frame has a notice that the message `msgId` was refused for its salt. -/
def Rejects (msgId : UInt64) (b : Bytes) : Prop :=
  ∃ o ∈ leaves b, leafKind o = .badSalt ∧ u64At o 4 = msgId

def BringsSalt (b : Bytes) : Prop :=
  ∃ o ∈ leaves b, leafKind o = .badSalt

theorem Rejects.bringsSalt {msgId : UInt64} (h : Rejects msgId b) : BringsSalt b := by
  obtain ⟨o, ho, hkind, -⟩ := h
  exact ⟨o, ho, hkind⟩

theorem classify_eq_badSalt_iff (s : MtProtoSession) (b : Bytes) :
    (classifyServiceFrame s b).1 = .badSalt ↔ SaltFirst b := by
  rw [classifyServiceFrame_eq_verdict, verdict_eq_badSalt_iff]
  constructor
  · rintro ⟨pre, post, hks, hpre⟩
    obtain ⟨xs, ys, hxy, rfl, hys⟩ := map_eq_append_iff.mp hks
    obtain ⟨o, zs, rfl, ho, rfl⟩ := map_eq_cons_iff.mp hys
    exact ⟨xs, o, zs, hxy, ho, fun x hx => hpre _ (mem_map_of_mem hx)⟩
  · rintro ⟨pre, o, post, hxy, ho, hpre⟩
    refine ⟨pre.map leafKind, post.map leafKind, ?_, ?_⟩
    · rw [hxy, map_append, map_cons, ho]
    · intro k hk
      obtain ⟨x, hx, rfl⟩ := mem_map.mp hk
      exact hpre x hx

theorem BringsSalt.classify (h : BringsSalt b) (s : MtProtoSession) :
    (classifyServiceFrame s b).1 = .error ∨ (classifyServiceFrame s b).1 = .badSalt := by
  obtain ⟨o, ho, hkind⟩ := h
  rw [classifyServiceFrame_eq_verdict]
  exact verdict_of_mem_badSalt (hkind ▸ mem_map_of_mem ho)

/-! ## The frames of the first attempt -/

/-- The frames that a drain loop of `n` turns receives: up to the first that is not skipped. -/
def received (s : MtProtoSession) : ℕ → List (Option Bytes) → List Bytes
  | 0, _ => []
  | _ + 1, [] => []
  | n + 1, f :: fs =>
    match rpcRecvEncrypted s f apiBufSize with
    | none => []
    | some raw =>
      raw :: if ∀ o ∈ leaves raw, leafKind o = .skip then received s n fs else []

/-- The frame `raw` is one of those taken off the wire when `rest` is left of `frames`. -/
def TakenFrom (s : MtProtoSession) (frames rest : List (Option Bytes)) (raw : Bytes) : Prop :=
  ∃ pre f post, frames = pre ++ f :: post ∧ rest.length ≤ post.length ∧
    rpcRecvEncrypted s f apiBufSize = some raw

theorem takenFrom_cons {f : Option Bytes} {fs rest : List (Option Bytes)}
    (hrest : rest.length ≤ fs.length) (raw : Bytes) :
    TakenFrom s (f :: fs) rest raw ↔
      rpcRecvEncrypted s f apiBufSize = some raw ∨ TakenFrom s fs rest raw := by
  constructor
  · rintro ⟨pre, g, post, hsplit, hlen, hrecv⟩
    cases pre with
    | nil =>
      obtain ⟨rfl, rfl⟩ := cons.inj hsplit
      exact Or.inl hrecv
    | cons x pre =>
      obtain ⟨rfl, rfl⟩ := cons.inj hsplit
      exact Or.inr ⟨pre, g, post, rfl, hlen, hrecv⟩
  · rintro (hrecv | ⟨pre, g, post, rfl, hlen, hrecv⟩)
    · exact ⟨[], f, fs, rfl, hrest, hrecv⟩
    · exact ⟨f :: pre, g, post, rfl, hlen, hrecv⟩

theorem not_takenFrom_self (s : MtProtoSession) (frames : List (Option Bytes)) (raw : Bytes) :
    ¬ TakenFrom s frames frames raw := by
  rintro ⟨pre, f, post, hsplit, hlen, -⟩
  have h := congrArg length hsplit
  rw [length_append, length_cons] at h
  omega

theorem received_congr (h : SameReceiver s s') (n : ℕ)
    (fs : List (Option Bytes)) : received s' n fs = received s n fs := by
  induction n generalizing fs with
  | zero => rfl
  | succ n ih =>
    cases fs with
    | nil => rfl
    | cons f fs => rw [received, received, rpcRecvEncrypted_congr h, ih]

theorem takenFrom_congr (h : SameReceiver s s') (frames rest : List (Option Bytes)) (raw : Bytes) :
    TakenFrom s' frames rest raw ↔ TakenFrom s frames rest raw := by
  simp only [TakenFrom, rpcRecvEncrypted_congr h]

theorem length_frames_drain_le (n : ℕ) (s : MtProtoSession) (net : Net) :
    (drain n s net).2.2.frames.length ≤ net.frames.length := by
  induction n generalizing s net with
  | zero => exact le_rfl
  | succ n ih =>
    have htail : net.frames.tail.length ≤ net.frames.length := by
      rw [length_tail]
      omega
    rw [drain]
    dsimp only
    split
    · exact htail
    · split
      · exact htail
      · exact htail
      · exact (ih _ _).trans htail
      · exact htail

/-- **What the drain loop takes off the wire** is what `received` lists. -/
theorem takenFrom_drain_iff (n : ℕ) (s : MtProtoSession) (net : Net) (raw : Bytes) :
    TakenFrom s net.frames (drain n s net).2.2.frames raw ↔ raw ∈ received s n net.frames := by
  induction n generalizing s net with
  | zero => exact ⟨fun h => absurd h (not_takenFrom_self _ _ _), fun h => absurd h not_mem_nil⟩
  | succ n ih =>
    cases hf : net.frames with
    | nil =>
      refine ⟨?_, fun h => absurd h not_mem_nil⟩
      rintro ⟨pre, f, post, hsplit, -⟩
      exact absurd hsplit (by simp)
    | cons f fs =>
      cases hrecv : rpcRecvEncrypted s f apiBufSize with
      | none =>
        have hrest : (drain (n + 1) s net).2.2.frames = fs := by
          rw [drain, hf]
          simp only [headD_cons, hrecv, tail_cons]
        rw [hrest, takenFrom_cons le_rfl, received, hrecv]
        simp [not_takenFrom_self]
      | some raw₀ =>
        rw [drain_cons hf hrecv, received, hrecv]
        dsimp only
        have hskip := (verdict_eq_skip_iff ((leaves raw₀).map leafKind))
        rw [← classifyServiceFrame_eq_verdict s, forall_mem_map] at hskip
        have hstop : (classifyServiceFrame s raw₀).1 ≠ .skip →
            (TakenFrom s (f :: fs) fs raw ↔
              raw ∈ raw₀ ::
                if ∀ o ∈ leaves raw₀, leafKind o = .skip then received s n fs else []) := by
          intro hne
          rw [takenFrom_cons le_rfl, hrecv, if_neg (mt hskip.mpr hne), mem_singleton,
            Option.some_inj, eq_comm]
          exact or_iff_left (not_takenFrom_self _ _ _)
        cases hk : (classifyServiceFrame s raw₀).1 with
        | error => exact hstop (by rw [hk]; decide)
        | badSalt => exact hstop (by rw [hk]; decide)
        | result => exact hstop (by rw [hk]; decide)
        | skip =>
          have hsame := (classifyServiceFrame_snd s raw₀).sameReceiver
          have ih' := ih (classifyServiceFrame s raw₀).2 { net with frames := fs }
          rw [takenFrom_congr hsame, received_congr hsame] at ih'
          have hle := length_frames_drain_le n (classifyServiceFrame s raw₀).2
            { net with frames := fs }
          rw [takenFrom_cons hle, ih', if_pos (hskip.mp hk), hrecv, mem_cons, Option.some_inj,
            eq_comm]

theorem drain_of_received {n : ℕ} {net : Net} (h : raw ∈ received s n net.frames) :
    ((classifyServiceFrame s raw).1 = .badSalt → (drain n s net).1 = .badSalt) ∧
      ((classifyServiceFrame s raw).1 = .error → (drain n s net).1 = .fail) := by
  induction n generalizing s net with
  | zero => exact absurd h not_mem_nil
  | succ n ih =>
    cases hf : net.frames with
    | nil => rw [hf] at h; exact absurd h not_mem_nil
    | cons f fs =>
      rw [hf, received] at h
      cases hrecv : rpcRecvEncrypted s f apiBufSize with
      | none => rw [hrecv] at h; exact absurd h not_mem_nil
      | some raw₀ =>
        rw [hrecv] at h
        rw [drain_cons hf hrecv]
        rcases mem_cons.mp h with rfl | h
        · exact ⟨fun hk => by rw [hk], fun hk => by rw [hk]⟩
        · split_ifs at h with hskip
          · have hk : (classifyServiceFrame s raw₀).1 = .skip := by
              rw [classifyServiceFrame_eq_verdict, verdict_eq_skip_iff]
              exact forall_mem_map.mpr hskip
            rw [hk, classifyServiceFrame_fst s (classifyServiceFrame s raw₀).2]
            refine ih ?_
            rwa [received_congr (classifyServiceFrame_snd s raw₀).sameReceiver]
          · exact absurd h not_mem_nil

theorem received_of_stopFrame {n : ℕ} {fs rest : List (Option Bytes)}
    {kind : Svc} (h : stopFrame s n fs = some (kind, raw, rest)) :
    raw ∈ received s n fs ∧ (classifyServiceFrame s raw).1 = kind := by
  induction n generalizing fs with
  | zero => exact absurd h (by simp [stopFrame])
  | succ n ih =>
    cases fs with
    | nil => exact absurd h (by simp [stopFrame])
    | cons f fs =>
      rw [stopFrame] at h
      rw [received]
      cases hrecv : rpcRecvEncrypted s f apiBufSize with
      | none => rw [hrecv] at h; exact absurd h (by simp)
      | some raw₀ =>
        rw [hrecv] at h
        dsimp only at h ⊢
        split_ifs at h with hk
        · have hskip := hk
          rw [classifyServiceFrame_eq_verdict, verdict_eq_skip_iff, forall_mem_map] at hskip
          obtain ⟨hmem, hkind⟩ := ih h
          rw [if_pos hskip]
          exact ⟨mem_cons_of_mem _ hmem, hkind⟩
        · simp only [Option.some_inj, Prod.mk.injEq] at h
          obtain ⟨hkind, rfl, -⟩ := h
          exact ⟨mem_cons_self .., hkind⟩

theorem sent_drain (n : ℕ) (s : MtProtoSession) (net : Net) :
    (drain n s net).2.2.sent = net.sent := by
  induction n generalizing s net with
  | zero => rfl
  | succ n ih =>
    rw [drain]
    dsimp only
    split
    · rfl
    · split
      · rfl
      · rfl
      · exact ih _ _
      · rfl

/-! ## The copies of a call -/

section Call

variable (tinf : ℕ → Bytes → Option Bytes) (cfg : ApiConfig) (s : MtProtoSession) (net : Net)
  (query : Bytes) (maxLen : ℕ)

/-- The query can be wrapped and there is a key, so a copy is handed to the transport. -/
def Sends : Prop :=
  (apiWrapQuery cfg query apiBufSize).isSome = true ∧ s.hasAuthKey = true

def GoesOut : Prop :=
  Sends cfg s query ∧ net.sends.headD false = true

def copies : List SentMsg :=
  (apiCall tinf cfg s net query maxLen).2.2.sent.drop net.sent.length

/-- The frame `raw` is received by the first attempt of a call. -/
def ReadByFirst (raw : Bytes) : Prop :=
  TakenFrom s net.frames (apiCallOnce tinf cfg s net query maxLen).2.2.frames raw

variable {cfg s net query}

theorem apiCallOnce_of_not_sends (h : ¬ Sends cfg s query) :
    apiCallOnce tinf cfg s net query maxLen = (.fail, s, net) := by
  rw [apiCallOnce]
  cases hw : apiWrapQuery cfg query apiBufSize with
  | none => rfl
  | some wrapped =>
    have hkey : s.hasAuthKey = false := by
      rw [Sends, hw] at h
      simpa using h
    simp only [rpcSendEncrypted, hkey, Bool.not_false, if_true]

/-- `rpc_send_encrypted` has handed the message `m` to the transport, and counted it. -/
structure Handed (s : MtProtoSession) (net : Net) (m : SentMsg) (s₁ : MtProtoSession) (net₁ : Net) :
    Prop where
  receiver : SameReceiver s s₁
  authKey : s₁.authKey = s.authKey
  counted : s₁.seqNo = s.seqNo + 1
  frames : net₁.frames = net.frames
  sent : net₁.sent = net.sent ++ [m]
  msgId : m.msgId = sendId s net
  sessionId : m.sessionId = s.sessionId
  seqNo : m.seqNo = s.seqNo * 2 + 1

variable (net) in
theorem rpcSendEncrypted_of_key (hkey : s.hasAuthKey = true) (data : Bytes) :
    ∃ m s₁ net₁, rpcSendEncrypted s net data true = (net.sends.headD false, s₁, net₁) ∧
      Handed s net m s₁ net₁ := by
  rw [rpcSendEncrypted, hkey]
  exact ⟨_, _, _, rfl, ⟨rfl, rfl⟩, rfl, rfl, rfl, rfl, rfl, rfl, rfl⟩

def Drain.once (tinf : ℕ → Bytes → Option Bytes) (maxLen : ℕ) : Drain → Once
  | .fail => .fail
  | .limit => .fail
  | .badSalt => .badSalt
  | .frame raw => unwrapReply tinf raw maxLen

variable (net) in
theorem apiCallOnce_of_sends (h : Sends cfg s query) :
    ∃ m s₁ net₁, Handed s net m s₁ net₁ ∧
      apiCallOnce tinf cfg s net query maxLen =
        if net.sends.headD false = true then
          ((drain serviceFrameLimit s₁ net₁).1.once tinf maxLen,
            (drain serviceFrameLimit s₁ net₁).2)
        else (.fail, s₁, net₁) := by
  obtain ⟨hwrap, hkey⟩ := h
  obtain ⟨wrapped, hw⟩ := Option.isSome_iff_exists.mp hwrap
  obtain ⟨m, s₁, net₁, hsnd, hhanded⟩ := rpcSendEncrypted_of_key net hkey wrapped
  refine ⟨m, s₁, net₁, hhanded, ?_⟩
  simp only [apiCallOnce, hw, hsnd]
  cases net.sends.headD false with
  | false => rfl
  | true =>
    cases (drain serviceFrameLimit s₁ net₁).1 <;> rfl

theorem readByFirst_iff (raw : Bytes) :
    ReadByFirst tinf cfg s net query maxLen raw ↔
      GoesOut cfg s net query ∧ raw ∈ received s serviceFrameLimit net.frames := by
  rw [ReadByFirst]
  by_cases hs : Sends cfg s query
  · obtain ⟨m, s₁, net₁, hhanded, honce⟩ := apiCallOnce_of_sends tinf net maxLen hs
    rw [honce]
    split_ifs with hout
    · rw [← hhanded.frames, ← takenFrom_congr hhanded.receiver, takenFrom_drain_iff,
        received_congr hhanded.receiver]
      exact (and_iff_right ⟨hs, hout⟩).symm
    · rw [hhanded.frames]
      exact ⟨fun h => absurd h (not_takenFrom_self _ _ _), fun h => absurd h.1.2 hout⟩
  · rw [apiCallOnce_of_not_sends tinf maxLen hs]
    exact ⟨fun h => absurd h (not_takenFrom_self _ _ _), fun h => absurd h.1.1 hs⟩

theorem apiCallOnce_of_received (hout : GoesOut cfg s net query) {raw : Bytes}
    (hraw : raw ∈ received s serviceFrameLimit net.frames) :
    ((classifyServiceFrame s raw).1 = .badSalt →
      (apiCallOnce tinf cfg s net query maxLen).1 = .badSalt) ∧
    ((classifyServiceFrame s raw).1 = .error →
      (apiCallOnce tinf cfg s net query maxLen).1 = .fail) := by
  obtain ⟨m, s₁, net₁, hhanded, honce⟩ := apiCallOnce_of_sends tinf net maxLen hout.1
  rw [honce, if_pos hout.2]
  rw [← hhanded.frames, ← received_congr hhanded.receiver] at hraw
  have hdrain := drain_of_received hraw
  rw [classifyServiceFrame_fst s₁ s] at hdrain
  exact ⟨fun hk => by rw [hdrain.1 hk]; rfl, fun hk => by rw [hdrain.2 hk]; rfl⟩

theorem saltFirst_of_apiCallOnce (h : (apiCallOnce tinf cfg s net query maxLen).1 = .badSalt) :
    GoesOut cfg s net query ∧ ∃ raw ∈ received s serviceFrameLimit net.frames, SaltFirst raw := by
  have hout : GoesOut cfg s net query := by
    by_cases hs : Sends cfg s query
    · obtain ⟨m, s₁, net₁, -, honce⟩ := apiCallOnce_of_sends tinf net maxLen hs
      refine ⟨hs, ?_⟩
      by_contra hne
      rw [honce, if_neg hne] at h
      exact absurd h Once.noConfusion
    · rw [apiCallOnce_of_not_sends tinf maxLen hs] at h
      exact absurd h Once.noConfusion
  rcases honce : apiCallOnce tinf cfg s net query maxLen with ⟨out, s', net'⟩
  rw [honce] at h
  obtain rfl : out = .badSalt := h
  obtain ⟨raw, hatt⟩ := apiCallOnce_spec.2 honce
  obtain ⟨hmem, hkind⟩ := received_of_stopFrame hatt.stop
  exact ⟨hout, raw, hmem, (classify_eq_badSalt_iff s raw).mp hkind⟩

variable (net) in
theorem apiCallOnce_sent (h : Sends cfg s query) :
    ∃ m, Handed s net m (apiCallOnce tinf cfg s net query maxLen).2.1
      { (apiCallOnce tinf cfg s net query maxLen).2.2 with frames := net.frames } := by
  obtain ⟨m, s₁, net₁, hh, honce⟩ := apiCallOnce_of_sends tinf net maxLen h
  refine ⟨m, ?_⟩
  rw [honce]
  split_ifs
  · have hsalt := drain_sameButSalt serviceFrameLimit s₁ net₁
    have hsent := (sent_drain serviceFrameLimit s₁ net₁).trans hh.sent
    generalize drain serviceFrameLimit s₁ net₁ = d at hsalt hsent ⊢
    refine ⟨hh.receiver.trans hsalt.sameReceiver, ?_, ?_, rfl, hsent, hh.msgId, hh.sessionId,
      hh.seqNo⟩ <;> unfold SameButSalt at hsalt <;> rw [hsalt]
    · exact hh.authKey
    · exact hh.counted
  · exact ⟨hh.receiver, hh.authKey, hh.counted, rfl, hh.sent, hh.msgId, hh.sessionId, hh.seqNo⟩

theorem apiCall_snd (first : Once × MtProtoSession × Net)
    (hfirst : apiCallOnce tinf cfg s net query maxLen = first) :
    (first.1 ≠ .badSalt → (apiCall tinf cfg s net query maxLen).2 = first.2) ∧
      (first.1 = .badSalt → (apiCall tinf cfg s net query maxLen).2 =
        (apiCallOnce tinf cfg first.2.1 first.2.2 query maxLen).2) := by
  rw [apiCall, hfirst]
  generalize apiCallOnce tinf cfg first.2.1 first.2.2 query maxLen = second
  obtain ⟨out, rest⟩ := first
  obtain ⟨out₂, rest₂⟩ := second
  cases out with
  | fail => exact ⟨fun _ => rfl, fun h => absurd h Once.noConfusion⟩
  | ok reply => exact ⟨fun _ => rfl, fun h => absurd h Once.noConfusion⟩
  | badSalt => exact ⟨fun h => absurd rfl h, fun _ => by cases out₂ <;> rfl⟩

variable (cfg s net query) in
/-- **The copies of a call**: none without a key or when the query does not fit, one when the first
attempt is the last, and two after a notice that came before any error. -/
theorem copies_eq :
    (¬ Sends cfg s query → copies tinf cfg s net query maxLen = []) ∧
    (Sends cfg s query → ∃ m, m.msgId = sendId s net ∧
      ((apiCallOnce tinf cfg s net query maxLen).1 ≠ .badSalt →
        copies tinf cfg s net query maxLen = [m]) ∧
      ((apiCallOnce tinf cfg s net query maxLen).1 = .badSalt →
        ∃ m₂, copies tinf cfg s net query maxLen = [m, m₂])) := by
  constructor
  · intro h
    rw [copies, apiCall, apiCallOnce_of_not_sends tinf maxLen h, drop_length]
  · intro h
    obtain ⟨m, hh⟩ := apiCallOnce_sent tinf net maxLen h
    have hsent : (apiCallOnce tinf cfg s net query maxLen).2.2.sent = net.sent ++ [m] := hh.sent
    refine ⟨m, hh.msgId, fun hne => ?_, fun hsalt => ?_⟩
    · rw [copies, (apiCall_snd tinf maxLen _ rfl).1 hne, hsent, drop_left]
    · have hrest := (apiCall_snd tinf maxLen _ rfl).2 hsalt
      have hsame := hh.receiver
      generalize apiCallOnce tinf cfg s net query maxLen = first at hsame hsent hrest
      have hsends : Sends cfg first.2.1 query := ⟨h.1, hsame.2.trans h.2⟩
      obtain ⟨m₂, hh₂⟩ := apiCallOnce_sent tinf first.2.2 maxLen hsends
      have hsent₂ := hh₂.sent
      refine ⟨m₂, ?_⟩
      rw [copies, hrest, hsent₂, hsent, append_assoc, drop_left]
      rfl

theorem copies_le_two : (copies tinf cfg s net query maxLen).length ≤ 2 := by
  obtain ⟨hnone, hsome⟩ := copies_eq tinf cfg s net query maxLen
  by_cases hs : Sends cfg s query
  · obtain ⟨m, -, hone, htwo⟩ := hsome hs
    by_cases hk : (apiCallOnce tinf cfg s net query maxLen).1 = .badSalt
    · obtain ⟨m₂, h⟩ := htwo hk
      rw [h]
      exact le_rfl
    · rw [hone hk]
      exact Nat.le_succ 1
  · rw [hnone hs]
    exact Nat.zero_le 2

/-! ## The law -/

variable (cfg s net query)

/-- A second copy only goes out when the server refused the first one; a frame that brings a
salt notice and the result of the first copy ends the call with that result; and there are never
more than two copies. -/
structure ResendLaw : Prop where
  atMostTwo : (copies tinf cfg s net query maxLen).length ≤ 2
  rejected : ∀ m₁ m₂, copies tinf cfg s net query maxLen = [m₁, m₂] →
    ∃ raw, ReadByFirst tinf cfg s net query maxLen raw ∧ Rejects m₁.msgId raw
  delivered : ∀ m₁ ms raw o, copies tinf cfg s net query maxLen = m₁ :: ms →
    ReadByFirst tinf cfg s net query maxLen raw → BringsSalt raw → o ∈ leaves raw →
    IsResultFor m₁.msgId o →
    ms = [] ∧ ∃ reply, (apiCall tinf cfg s net query maxLen).1 = some reply ∧ reply.payload = o

/-- No frame of the first attempt brings a salt notice together with the result of the first copy,
and a notice that comes before any error has one for the first copy beside it, if it is not one. -/
def SaltNoticesApply : Prop :=
  GoesOut cfg s net query → ∀ raw ∈ received s serviceFrameLimit net.frames,
    (SaltFirst raw → Rejects (sendId s net) raw) ∧
      (BringsSalt raw → ∀ o ∈ leaves raw, ¬ IsResultFor (sendId s net) o)

variable {cfg s net query}

theorem eq_of_bringsSalt {n : ℕ} {frames : List (Option Bytes)} {raw raw' : Bytes}
    (h : raw ∈ received s n frames) (h' : raw' ∈ received s n frames) (hs : BringsSalt raw)
    (hs' : BringsSalt raw') : raw = raw' := by
  have hnot : ∀ {b : Bytes}, BringsSalt b → ¬ ∀ o ∈ leaves b, leafKind o = .skip := by
    rintro b ⟨o, ho, hk⟩ hall
    exact absurd ((hall o ho).symm.trans hk) Svc.noConfusion
  induction n generalizing frames with
  | zero => exact absurd h not_mem_nil
  | succ n ih =>
    cases frames with
    | nil => exact absurd h not_mem_nil
    | cons f fs =>
      rw [received] at h h'
      cases hrecv : rpcRecvEncrypted s f apiBufSize with
      | none => rw [hrecv] at h; exact absurd h not_mem_nil
      | some raw₀ =>
        rw [hrecv] at h h'
        by_cases hskip : ∀ o ∈ leaves raw₀, leafKind o = .skip
        · simp only [if_pos hskip, mem_cons] at h h'
          rcases h with rfl | h
          · exact absurd hskip (hnot hs)
          rcases h' with rfl | h'
          · exact absurd hskip (hnot hs')
          exact ih h h'
        · simp only [if_neg hskip, mem_singleton] at h h'
          exact h.trans h'.symm

theorem SaltFirst.bringsSalt {b : Bytes} (h : SaltFirst b) : BringsSalt b := by
  obtain ⟨pre, o, post, hleaves, hkind, -⟩ := h
  exact ⟨o, by rw [hleaves]; exact mem_append_right _ (mem_cons_self ..), hkind⟩

variable (cfg s net query)

/-- **When the law holds.** -/
theorem resendLaw_iff :
    ResendLaw tinf cfg s net query maxLen ↔ SaltNoticesApply cfg s net query := by
  obtain ⟨hnone, hsome⟩ := copies_eq tinf cfg s net query maxLen
  have hmsg : ∀ {m₁ ms}, Sends cfg s query →
      copies tinf cfg s net query maxLen = m₁ :: ms → m₁.msgId = sendId s net := by
    intro m₁ ms hs hcopies
    obtain ⟨m, hid, hone, htwo⟩ := hsome hs
    by_cases hk : (apiCallOnce tinf cfg s net query maxLen).1 = .badSalt
    · obtain ⟨m₂, h⟩ := htwo hk
      rw [← (cons.inj (h.symm.trans hcopies)).1, hid]
    · rw [← (cons.inj ((hone hk).symm.trans hcopies)).1, hid]
  constructor
  · intro law hout raw hraw
    have hread : ReadByFirst tinf cfg s net query maxLen raw :=
      (readByFirst_iff tinf maxLen raw).mpr ⟨hout, hraw⟩
    obtain ⟨m, hid, hone, htwo⟩ := hsome hout.1
    have hends := apiCallOnce_of_received tinf maxLen hout hraw
    constructor
    · intro hfirst
      obtain ⟨m₂, hcopies⟩ := htwo (hends.1 ((classify_eq_badSalt_iff s raw).mpr hfirst))
      obtain ⟨raw', hread', hrej⟩ := law.rejected m m₂ hcopies
      obtain ⟨-, hraw'⟩ := (readByFirst_iff tinf maxLen raw').mp hread'
      rw [eq_of_bringsSalt hraw hraw' hfirst.bringsSalt hrej.bringsSalt, ← hid]
      exact hrej
    · intro hsalt o ho hres
      rw [← hid] at hres
      rcases hsalt.classify s with hk | hk
      · have hfail := hends.2 hk
        have hcopies := hone (by rw [hfail]; exact Once.noConfusion)
        obtain ⟨-, reply, hreply, -⟩ := law.delivered m [] raw o hcopies hread hsalt ho hres
        rw [apiCall, hfail] at hreply
        exact absurd hreply.symm (Option.some_ne_none _)
      · obtain ⟨m₂, hcopies⟩ := htwo (hends.1 hk)
        obtain ⟨hnil, -⟩ := law.delivered m [m₂] raw o hcopies hread hsalt ho hres
        exact absurd hnil (cons_ne_nil _ _)
  · intro happly
    refine ⟨copies_le_two tinf maxLen, ?_, ?_⟩
    · intro m₁ m₂ hcopies
      by_cases hs : Sends cfg s query
      · obtain ⟨m, hid, hone, -⟩ := hsome hs
        have hsalt : (apiCallOnce tinf cfg s net query maxLen).1 = .badSalt := by
          by_contra hne
          rw [hone hne] at hcopies
          exact absurd (cons.inj hcopies).2.symm (cons_ne_nil _ _)
        obtain ⟨hout, raw, hraw, hfirst⟩ := saltFirst_of_apiCallOnce tinf maxLen hsalt
        refine ⟨raw, (readByFirst_iff tinf maxLen raw).mpr ⟨hout, hraw⟩, ?_⟩
        rw [hmsg hs hcopies]
        exact (happly hout raw hraw).1 hfirst
      · rw [hnone hs] at hcopies
        exact absurd hcopies.symm (cons_ne_nil _ _)
    · intro m₁ ms raw o hcopies hread hsalt ho hres
      obtain ⟨hout, hraw⟩ := (readByFirst_iff tinf maxLen raw).mp hread
      rw [hmsg hout.1 hcopies] at hres
      exact absurd hres ((happly hout raw hraw).2 hsalt o ho)

end Call

def containerFrame (bodies : List Bytes) : Bytes :=
  u32Bytes crcMsgContainer ++ (u32Bytes (UInt32.ofNat bodies.length) ++ bodies.flatMap fun b =>
    u64Bytes 1 ++ (u32Bytes 1 ++ (u32Bytes (UInt32.ofNat b.length) ++ b)))

/-- A `bad_server_salt` for the message `badMsgId`. -/
def saltNotice (badMsgId salt : UInt64) : Bytes :=
  u32Bytes tlBadServerSalt ++ u64Bytes badMsgId ++ u32Bytes 1 ++ u32Bytes 48 ++ u64Bytes salt

/-- The result of the query that `staleSession` sends next, and a notice about the one it sent
before, in one container. -/
def lateNotice : Bytes :=
  containerFrame [rpcResultFrame 21474836488 [1, 2, 3, 4], saltNotice 4 9]

/-- A network that delivers the late notice, and then the result of a second copy. -/
def lateNoticeNet : Net :=
  ⟨[(5, 8), (6, 8)], [true, true],
    [some (plainFrame staleSession lateNotice),
      some (plainFrame staleSession (rpcResultFrame 25769803784 [5, 6, 7, 8]))], []⟩

/-- **A query that was answered is sent again.**  The container brings its result; the notice behind
it, about another message, is followed and the result is not looked at. -/
theorem resend_of_answered_query :
    ¬ ResendLaw (fun _ _ => none) apiConfigInit staleSession lateNoticeNet [0, 0, 0, 0] 64 := by
  intro law
  have hids : (copies (fun _ _ => none) apiConfigInit staleSession lateNoticeNet
      [0, 0, 0, 0] 64).map SentMsg.msgId = [21474836488, 25769803784] := by decide +kernel
  obtain ⟨m₁, ms, hcopies, hm₁, hms⟩ := map_eq_cons_iff.mp hids
  have hread : ReadByFirst (fun _ _ => none) apiConfigInit staleSession lateNoticeNet [0, 0, 0, 0]
      64 lateNotice :=
    ⟨[], _, _, rfl, by decide +kernel, by decide +kernel⟩
  have hsalt : BringsSalt lateNotice := ⟨saltNotice 4 9, by decide +kernel, by decide +kernel⟩
  obtain ⟨hnil, -⟩ := law.delivered m₁ ms lateNotice (rpcResultFrame 21474836488 [1, 2, 3, 4])
    hcopies hread hsalt (by decide +kernel) ⟨[1, 2, 3, 4], by rw [hm₁]; decide +kernel⟩
  rw [hnil] at hms
  exact absurd hms (by decide)

end TgCli.Infrastructure
