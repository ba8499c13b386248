import TgCli.Core.TlSkip.Reading
import TgCli.Domain.Dialogs

/-!
# `domain/read/dialogs.c`: answers from the cache

An answer from the cache should be the answer that the server would have given, at the time when the
list was fetched, to the call that is made now.  The server has a list of dialogs and a total, and
whoever asks for `n` dialogs gets the first `n`, with the messages, chats and users that go with
them.  `DialogsServer` is this list as it is on the wire.

A client may not get everything that is on the wire.  A dialog with notification settings or a draft
that cannot be walked over is the last one that is read, and then no dialog gets a title.  So what
an answer shows depends on how much was asked for: `readable` are the dialogs that a client gets to,
and `shows` is a dialog as a call shows it.

The cache does not know what it holds.  It has the entries that the fetch asked for, at most 512,
and takes them for all there are.  They are as the fetch has shown them.  It has the total that the
fetch was told, and if the fetch had no place for a total it has the number of entries in its stead.
And a clock that has been set back makes a list younger than it is.  `servedRight_iff` says that an
answer is right exactly when none of these four makes a difference.
-/

namespace TgCli.Domain

open List Lib TgCli.Core Walk Infrastructure

/-- The caches, and for each of them the call that has filled it. -/
structure DialogsRun where
  caches : DialogsCaches
  source : Bool → Option DialogsCall

def DialogsRun.start : DialogsRun :=
  ⟨.empty, fun _ => none⟩

namespace DialogsCall

def isServed (q : DialogsCall) (c : DialogsCaches) : Bool :=
  decide (0 < q.maxEntries) && q.isFresh (c.slot q.archived)

def fetches (q : DialogsCall) (c : DialogsCaches) : Option DialogList :=
  if q.maxEntries ≤ 0 ∨ q.isFresh (c.slot q.archived) then none else
  match q.fetch with
  | .listed l => some l
  | _ => none

/-- What a call reads of the answer to its request. -/
def page (q : DialogsCall) : Option DialogPage := do
  let query ← buildDialogsRequest q.maxEntries q.archived 132
  let resp ← q.api query
  if resp.length < 8 then none else readDialogPage q.machine q.limit resp

/-- A dialog as a call shows it: with the data of an object, if the answer was read to its end. -/
def shows (q : DialogsCall) (e : DialogEntry) : DialogEntry :=
  q.page.elim e fun p => p.fill e

end DialogsCall

/-! ## The server -/

/-- What is left of a dialog behind its numbers. -/
def dialogRest (flags : UInt32) : Walk Unit := do
  skip tlSkipPeerNotifySettings
  dialogTail flags

/-- A dialog as it is on the wire.  What stands behind its numbers is walked over, or it stops the
walk, whatever follows. -/
structure ListedDialog where
  flags : UInt32
  peer : UInt32
  kind : DialogPeerKind
  peerId : Int64
  topMessageId : Int32
  readInboxMax : Int32
  readOutboxMax : Int32
  unreadCount : Int32
  unreadMentions : Int32
  unreadReactions : Int32
  rest : Bytes
  whole : Bool
  kind_peer : dialogPeerKind peer = some kind
  reads_rest : whole = true → Reads (dialogRest flags) rest ()
  stops_rest : whole = false → ∀ r t, r.rest = rest ++ t → dialogRest flags r = none

namespace ListedDialog

variable (d : ListedDialog)

def headBytes : Bytes :=
  u32Bytes d.peer ++ (u64Bytes d.peerId.toUInt64 ++ (u32Bytes d.topMessageId.toUInt32 ++
    (u32Bytes d.readInboxMax.toUInt32 ++ (u32Bytes d.readOutboxMax.toUInt32 ++
      (u32Bytes d.unreadCount.toUInt32 ++ (u32Bytes d.unreadMentions.toUInt32 ++
        u32Bytes d.unreadReactions.toUInt32))))))

def bytes : Bytes :=
  u32Bytes crcDialog ++ (u32Bytes d.flags ++ (d.headBytes ++ d.rest))

/-- The entry before it is joined. -/
def entry : DialogEntry :=
  ⟨d.kind, d.peerId, 0, false, d.unreadCount, d.topMessageId, [], []⟩

/-- The dialogs up to the first one that stops the walk; that one is still listed. -/
def readable : List ListedDialog → List ListedDialog
  | [] => []
  | d :: ds => d :: if d.whole then readable ds else []

end ListedDialog

/-- A server's list on the wire: the dialogs, the total, and for a limit whether the answer is a
slice and what stands behind the dialogs in it, which are the messages, the chats and the users. -/
structure DialogsServer where
  dialogs : List ListedDialog
  total : Int32
  isSlice : ℕ → Bool
  objects : ℕ → Bytes
  /-- Only the whole list is sent without its total. -/
  whole : ∀ n, isSlice n = false → dialogs.length ≤ n ∧ total = Int32.ofNat dialogs.length

namespace DialogsServer

variable (srv : DialogsServer)

/-- The answer to a limit. -/
def bytes (n : ℕ) : Bytes :=
  (if srv.isSlice n then u32Bytes tlMessagesDialogsSlice ++ u32Bytes srv.total.toUInt32
    else u32Bytes tlMessagesDialogs) ++
  (u32Bytes tlVector ++ (u32Bytes (UInt32.ofNat (srv.dialogs.take n).length) ++
    ((srv.dialogs.take n).flatMap ListedDialog.bytes ++ srv.objects n)))

def readable : List ListedDialog :=
  ListedDialog.readable srv.dialogs

end DialogsServer

/-- The call asks this server. -/
def DialogsCall.Asks (f : DialogsCall) (srv : DialogsServer) : Prop :=
  ∀ n : Int32, 0 < n → ∃ query, buildDialogsRequest n f.archived 132 = some query ∧
    f.api query = some (srv.bytes n.toInt.toNat)

/-! ## Histories -/

def dialogsStep (st : DialogsRun) (q : DialogsCall) : DialogsRun where
  caches := (domainGetDialogs q st.caches).2
  source a := if a = q.archived ∧ (q.fetches st.caches).isSome then some q else st.source a

/-- A cache that is in use holds what is kept of the list that its source has fetched. -/
def DialogsRun.Good (st : DialogsRun) : Prop :=
  ∀ a, (st.caches.slot a).valid = true →
    ∃ f l, st.source a = some f ∧ f.archived = a ∧ 0 < f.maxEntries ∧ f.fetch = .listed l ∧
      st.caches.slot a = f.kept l

theorem DialogsRun.good_start : DialogsRun.start.Good := by
  intro a ha
  cases a <;> cases ha

section Step

variable {q : DialogsCall} {c : DialogsCaches}

theorem domainGetDialogs_caches (q : DialogsCall) (c : DialogsCaches) :
    (domainGetDialogs q c).2 =
      (q.fetches c).elim c fun l => c.setSlot q.archived (q.kept l) := by
  rw [domainGetDialogs, DialogsCall.fetches]
  by_cases hmax : q.maxEntries ≤ 0
  · rw [if_pos hmax, if_pos (Or.inl hmax)]
    rfl
  · rw [if_neg hmax]
    by_cases hfresh : q.isFresh (c.slot q.archived) = true
    · rw [if_pos (Or.inr hfresh)]
      rw [if_pos hfresh]
      rfl
    · rw [if_neg (not_or.mpr ⟨hmax, hfresh⟩)]
      rw [if_neg hfresh]
      rcases q.fetch with _ | _ | _ <;> rfl

theorem DialogsCall.fetches_eq_some {l : DialogList} (h : q.fetches c = some l) :
    0 < q.maxEntries ∧ q.fetch = .listed l := by
  rw [DialogsCall.fetches] at h
  split_ifs at h with hno
  obtain ⟨hmax, -⟩ := not_or.mp hno
  rcases hf : q.fetch with _ | _ | l' <;> rw [hf] at h <;> cases h
  exact ⟨Int32.not_le.mp hmax, rfl⟩

theorem DialogsRun.Good.step {st : DialogsRun} (h : st.Good) (q : DialogsCall) :
    (dialogsStep st q).Good := by
  intro a ha
  have hcaches : (dialogsStep st q).caches = _ := domainGetDialogs_caches q st.caches
  rw [hcaches] at ha ⊢
  show ∃ f l, (if a = q.archived ∧ (q.fetches st.caches).isSome then some q else st.source a) =
    some f ∧ _
  rcases hf : q.fetches st.caches with _ | l
  · rw [if_neg (fun h => absurd h.2 Bool.false_ne_true)]
    rw [hf] at ha
    exact h a ha
  · obtain ⟨hmax, hfetch⟩ := DialogsCall.fetches_eq_some hf
    rw [hf, Option.elim_some, DialogsCaches.slot_setSlot] at ha
    rw [Option.elim_some, DialogsCaches.slot_setSlot]
    by_cases haq : a = q.archived
    · rw [if_pos haq, if_pos ⟨haq, rfl⟩]
      exact ⟨q, l, rfl, haq.symm, hmax, hfetch, rfl⟩
    · rw [if_neg haq] at ha ⊢
      rw [if_neg fun hand => haq hand.1]
      exact h a ha

end Step

section Reading

variable (d : ListedDialog) (m : DialogsMachine)

theorem reads_parsePeer :
    Reads parsePeer (u32Bytes d.peer ++ u64Bytes d.peerId.toUInt64) (d.kind, d.peerId) := by
  intro r t h
  have hne : u32Bytes d.peer ++ u64Bytes d.peerId.toUInt64 ≠ [] :=
    ne_nil_of_length_pos (by simp)
  have hok : readerOk r = some ((), r) := if_pos (tlReaderOk_of_rest h hne)
  rw [parsePeer, bind_of_some hok]
  refine (Reads.u32 d.peer).bind ?_ r t h
  rw [d.kind_peer]
  exact (Reads.i64 d.peerId).last (Reads.pure _)

theorem reads_dialogHead : Reads dialogHead d.headBytes d.entry := by
  rw [ListedDialog.headBytes, ← append_assoc]
  refine (reads_parsePeer d).bind ((Reads.i32 _).bind ((Reads.drop32 _).bind ?_))
  exact (Reads.drop32 _).bind ((Reads.i32 _).bind ((Reads.drop32 _).bind
    ((Reads.drop32 _).last (Reads.pure _))))

theorem ListedDialog.bytes_ne_nil : d.bytes ≠ [] :=
  ne_nil_of_length_pos (by simp [ListedDialog.bytes])

/-- **One dialog.**  It gives its entry, and the loop goes on behind it unless it stops the walk. -/
theorem dialogTurn_of_rest {r : TlReader} {t : Bytes} (h : r.rest = d.bytes ++ t) :
    if d.whole then ∃ r', dialogTurn m r = .entry d.entry r' ∧ r'.rest = t
    else ∃ r', dialogTurn m r = .last d.entry r' := by
  rw [ListedDialog.bytes, append_assoc, append_assoc, append_assoc] at h
  obtain ⟨hcrc, h₁⟩ := tlReadUint32_of_rest h
  obtain ⟨hflags, h₂⟩ := tlReadUint32_of_rest h₁
  obtain ⟨r₁, hhead, h₃⟩ := reads_dialogHead d _ _ h₂
  have hrest : dialogTurn m r = (dialogRest d.flags r₁).elim (.last d.entry (m.stuck r₁))
      fun x => .entry d.entry x.2 := by
    rw [dialogTurn]
    dsimp only
    rw [hcrc, if_neg (by decide), if_neg (not_not.mpr rfl), hhead, hflags, dialogRest]
    dsimp only
    split <;> rename_i hskip <;> rw [hskip] <;> rfl
  rw [hrest]
  split_ifs with hwhole
  · obtain ⟨r₂, hread, ht⟩ := d.reads_rest hwhole r₁ t h₃
    exact ⟨r₂, by rw [hread]; rfl, ht⟩
  · rw [d.stops_rest (Bool.eq_false_iff.mpr hwhole) r₁ t h₃]
    exact ⟨_, rfl⟩

/-- **The loop** lists the dialogs up to the first one that stops it. -/
theorem out_dialogLoop {maxEntries : ℕ} (ds : List ListedDialog) {st : DialogLoop} {t : Bytes}
    (h : st.reader.rest = ds.flatMap ListedDialog.bytes ++ t)
    (hmax : st.out.length + ds.length ≤ maxEntries) :
    (dialogLoop m maxEntries ds.length st).out =
      st.out ++ (ListedDialog.readable ds).map ListedDialog.entry := by
  induction ds generalizing st with
  | nil => exact (append_nil _).symm
  | cons d ds ih =>
    rw [flatMap_cons, append_assoc] at h
    rw [length_cons] at hmax ⊢
    have hturn := dialogTurn_of_rest d m h
    rw [dialogLoop, if_neg (by omega), tlReaderOk_of_rest h d.bytes_ne_nil]
    rw [Bool.not_true, if_neg Bool.false_ne_true, ListedDialog.readable, map_cons]
    split_ifs at hturn ⊢ with hwhole
    · obtain ⟨r, hr, ht⟩ := hturn
      rw [hr]
      dsimp only
      rw [ih ht (by rw [length_append, length_singleton]; omega), append_assoc]
      rfl
    · obtain ⟨r, hr⟩ := hturn
      rw [hr]
      rfl

theorem readable_take (ds : List ListedDialog) (n : ℕ) :
    ListedDialog.readable (ds.take n) = (ListedDialog.readable ds).take n := by
  induction ds generalizing n with
  | nil => rw [take_nil, ListedDialog.readable, take_nil]
  | cons d ds ih =>
    cases n with
    | zero => rfl
    | succ n =>
      rw [take_succ_cons, ListedDialog.readable, ListedDialog.readable, take_succ_cons, ih]
      split_ifs <;> simp

theorem readDialogVectors_of_rest {maxEntries : ℕ} {total : Option Int32} {r : TlReader}
    {ds : List ListedDialog} {objects : Bytes} (hmax : ds.length ≤ maxEntries)
    (hlt : ds.length < 2 ^ 32)
    (h : r.rest = u32Bytes tlVector ++ (u32Bytes (UInt32.ofNat ds.length) ++
      (ds.flatMap ListedDialog.bytes ++ objects))) :
    ∃ p, readDialogVectors m maxEntries total r = some p ∧
      p.total = total.getD (Int32.ofNat ds.length) ∧
      p.dialogs = (ListedDialog.readable ds).map ListedDialog.entry := by
  obtain ⟨hvec, h₁⟩ := tlReadUint32_of_rest h
  obtain ⟨hcount, h₂⟩ := tlReadUint32_of_rest h₁
  have hn : (UInt32.ofNat ds.length).toNat = ds.length := UInt32.toNat_ofNat_of_lt' hlt
  have hout : (dialogLoop m maxEntries ds.length
      ⟨[], 0, (tlReadUint32 (tlReadUint32 r).2).2⟩).out =
      (ListedDialog.readable ds).map ListedDialog.entry :=
    out_dialogLoop m ds h₂ (by simpa)
  rw [readDialogVectors]
  dsimp only
  rw [hvec, if_neg (not_not.mpr rfl), hcount, hn]
  split_ifs
  · exact ⟨_, rfl, rfl, hout⟩
  · rcases joinObjects m _ with _ | ⟨⟨chats, users⟩, _⟩
    · exact ⟨_, rfl, rfl, hout⟩
    · exact ⟨_, rfl, rfl, hout⟩

end Reading

theorem DialogsCall.fetch_of_page {q : DialogsCall} {p : DialogPage} (h : q.page = some p) :
    q.fetch = .listed p.list := by
  rw [DialogsCall.page] at h
  rw [DialogsCall.fetch]
  obtain ⟨query, hquery, h⟩ := Option.bind_eq_some_iff.mp h
  obtain ⟨resp, hresp, h⟩ := Option.bind_eq_some_iff.mp h
  split_ifs at h with hlen
  rw [hquery]
  dsimp only
  rw [hresp, readDialogsReply, if_neg hlen]
  dsimp only
  have hpage := h
  rw [readDialogPage] at h
  split_ifs at h with htop htop <;>
    rw [htop, if_neg (by decide), if_neg (by decide), hpage] <;> rfl

section Asking

variable {f : DialogsCall} {srv : DialogsServer}

/-- **What a call reads** of a server's answer: the total, and the first dialogs that a client gets
to. -/
theorem DialogsCall.Asks.page (hs : f.Asks srv) (hmax : 0 < f.maxEntries) :
    ∃ p, f.page = some p ∧ p.total = srv.total ∧
      p.dialogs = (srv.readable.take f.limit).map ListedDialog.entry := by
  obtain ⟨query, hquery, hapi⟩ := hs f.maxEntries hmax
  have hlt : (srv.dialogs.take f.limit).length < 2 ^ 32 := by
    have hint := f.maxEntries.toInt_lt
    rw [length_take, DialogsCall.limit]
    omega
  have hle : (srv.dialogs.take f.limit).length ≤ f.limit := length_take_le _ _
  have hpage : f.page = readDialogPage f.machine f.limit (srv.bytes f.limit) := by
    rw [DialogsCall.page, hquery, Option.bind_eq_bind, Option.bind_some, hapi, Option.bind_some]
    refine if_neg ?_
    rw [DialogsServer.bytes]
    split_ifs <;> simp <;> omega
  obtain ⟨resp, hresp⟩ : ∃ resp, resp = srv.bytes f.limit := ⟨_, rfl⟩
  have hrest : (tlReaderInit resp).rest = srv.bytes f.limit := (rest_tlReaderInit resp).trans hresp
  rw [DialogsServer.bytes] at hrest
  rw [hpage, ← hresp, readDialogPage, DialogsServer.readable, ← readable_take]
  split_ifs at hrest with hslice
  · rw [append_assoc] at hrest
    obtain ⟨htop, h₁⟩ := tlReadUint32_of_rest hrest
    obtain ⟨htotal, h₂⟩ := tlReadInt32_of_rest h₁
    dsimp only
    rw [htop, if_neg (by decide), if_pos rfl, htotal]
    exact readDialogVectors_of_rest f.machine hle hlt h₂
  · obtain ⟨htop, h₁⟩ := tlReadUint32_of_rest hrest
    obtain ⟨hall, htotal⟩ := srv.whole f.limit (Bool.eq_false_iff.mpr hslice)
    rw [take_of_length_le hall] at hle hlt h₁ ⊢
    dsimp only
    rw [htop, if_pos rfl, htotal]
    exact readDialogVectors_of_rest f.machine hle hlt h₁

theorem DialogsCall.Asks.fetch (hs : f.Asks srv) (hmax : 0 < f.maxEntries) :
    f.fetch = .listed ⟨srv.total, (srv.readable.take f.limit).map fun d => f.shows d.entry⟩ := by
  obtain ⟨p, hp, htotal, hdialogs⟩ := hs.page hmax
  have hshows : ∀ e, f.shows e = p.fill e := by
    intro e
    rw [DialogsCall.shows, hp, Option.elim_some]
  rw [DialogsCall.fetch_of_page hp, DialogPage.list, htotal, hdialogs, map_map]
  simp only [hshows]
  rfl

end Asking

/-! ## Answers from the cache -/

section Served

variable {c : DialogsCaches} {q f : DialogsCall} {srv : DialogsServer}

theorem domainGetDialogs_served (h : q.isServed c = true) :
    (domainGetDialogs q c).1 =
      some (q.answer ((c.slot q.archived).entries.take q.limit)
        (c.slot q.archived).totalCount) := by
  obtain ⟨hmax, hfresh⟩ := Bool.and_eq_true_iff.mp h
  rw [domainGetDialogs, if_neg (Int32.not_le.mpr (of_decide_eq_true hmax))]
  rw [if_pos hfresh]

end Served

/-- A call that asks a server, which reads the limit in the query. -/
def DialogsServer.call (srv : DialogsServer) (maxEntries : Int32) (wantTotal : Bool) (now : ℤ) :
    DialogsCall where
  maxEntries := maxEntries
  archived := false
  wantTotal := wantTotal
  api query := some (srv.bytes (u32At query 20).toNat)
  machine := ⟨id, fun _ => true⟩
  checkAt := now
  storeAt := now

end TgCli.Domain
