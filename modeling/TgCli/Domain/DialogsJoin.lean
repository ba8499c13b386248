import TgCli.Domain.DialogsCache
import TgCli.Domain.Messages

/-!
# `domain/read/dialogs.c`: whose title, whose access hash

A dialog names its peer by a kind and an id, and the ids of users, of basic groups and of channels
are three separate sequences.  The join looks for a user among the users, which is right.  For a
group or a channel it looks among the chats, where both kinds stand, and compares the ids alone: the
first object with the id wins, of whichever kind it is.  From there on its title and its
`access_hash` go with the dialog, into the cache, and with a numeric id from the command line into
later requests.

`DialogPage.source` is the object that the join copies from.  `joinLaw_iff` says which answers of
the server make every entry in every history take its data from the right object.
-/

namespace TgCli.Domain

open Option List Lib TgCli.Core Walk Infrastructure

/-! ## The objects of an answer -/

structure ListedObject where
  kind : DialogPeerKind
  id : Int64
  title : Bytes
  username : Bytes
  accessHash : Int64
  haveAccessHash : Bool

/-- The kind of the objects with a constructor of `Chat`. -/
def chatKind (crc : UInt32) : DialogPeerKind :=
  if crc = tlChat ∨ crc = tlChatEmpty ∨ crc = tlChatForbidden then .chat
  else if crc = tlChannel ∨ crc = tlChannelForbidden then .channel
  else .unknown

def ListedObject.ofChat (c : UInt32 × ChatSummary) : ListedObject :=
  ⟨chatKind c.1, c.2.id, c.2.title, [], c.2.accessHash, c.2.haveAccessHash⟩

def ListedObject.ofUser (u : UserSummary) : ListedObject :=
  ⟨.user, u.id, u.name, u.username, u.accessHash, u.haveAccessHash⟩

/-- What an object gives to an entry.  Only a user has a username to give. -/
def DialogEntry.attach (e : DialogEntry) (o : ListedObject) : DialogEntry :=
  { e with title := o.title, username := if e.kind = .user then o.username else e.username,
           accessHash := o.accessHash, haveAccessHash := o.haveAccessHash }

namespace DialogPage

variable (p : DialogPage)

def source (e : DialogEntry) : Option ListedObject :=
  if e.kind = .user then (p.users.find? fun u => u.id = e.peerId).map .ofUser
  else (p.chats.find? fun c => c.2.id = e.peerId).map .ofChat

theorem fill_eq_source (e : DialogEntry) : p.fill e = (p.source e).elim e e.attach := by
  rw [fill, fillEntry, source]
  split_ifs with hkind
  · generalize find? _ p.users = found
    rcases found with _ | u
    · rfl
    · show e.attachUser u = e.attach (.ofUser u)
      rw [DialogEntry.attach, if_pos hkind]
      rfl
  · generalize find? _ p.chats = found
    rcases found with _ | c
    · rfl
    · show e.attachChat c.2 = e.attach (.ofChat c)
      rw [DialogEntry.attach, if_neg hkind]
      rfl

theorem peerId_fill (e : DialogEntry) : (p.fill e).peerId = e.peerId := by
  rw [fill_eq_source]
  cases p.source e <;> rfl

/-- What is attached to a dialog is from an object of its kind with its id. -/
def SourceRight (e : DialogEntry) : Prop :=
  ∀ o, p.source e = some o → o.kind = e.kind ∧ o.id = e.peerId

/-- An object of the other kind with the id of a dialog has one of the dialog's own kind before it.
-/
def KindsApart : Prop :=
  ∀ e ∈ p.dialogs, e.kind ≠ .user → ∀ before c after, p.chats = before ++ c :: after →
    c.2.id = e.peerId → chatKind c.1 ≠ e.kind →
    ∃ c' ∈ before, c'.2.id = e.peerId ∧ chatKind c'.1 = e.kind

variable {p}

theorem sourceRight_of_user {e : DialogEntry} (h : e.kind = .user) : p.SourceRight e := by
  intro o ho
  rw [source, if_pos h] at ho
  obtain ⟨u, hu, rfl⟩ := map_eq_some_iff.mp ho
  have hid : u.id = e.peerId := by simpa using find?_some hu
  exact ⟨h.symm, hid⟩

theorem sourceRight_iff {e : DialogEntry} (h : e.kind ≠ .user) :
    p.SourceRight e ↔
      ∀ c, (p.chats.find? fun c => c.2.id = e.peerId) = some c → chatKind c.1 = e.kind := by
  constructor
  · intro hright c hc
    refine (hright (.ofChat c) ?_).1
    rw [source, if_neg h, hc]
    rfl
  · intro hkind o ho
    rw [source, if_neg h] at ho
    obtain ⟨c, hc, rfl⟩ := map_eq_some_iff.mp ho
    have hid : c.2.id = e.peerId := by simpa using find?_some hc
    exact ⟨hkind c hc, hid⟩

theorem kindsApart_iff : p.KindsApart ↔ ∀ e ∈ p.dialogs, p.SourceRight e := by
  constructor
  · intro h e he
    by_cases hkind : e.kind = .user
    · exact sourceRight_of_user hkind
    rw [sourceRight_iff hkind]
    intro c hc
    by_contra hother
    obtain ⟨hid, before, after, hchats, hnone⟩ := find?_eq_some_iff_append.mp hc
    obtain ⟨c', hc', hid', -⟩ :=
      h e he hkind before c after hchats (of_decide_eq_true hid) hother
    have := hnone c' hc'
    rw [decide_eq_true hid'] at this
    cases this
  · intro h e he hkind before c after hchats hid hother
    have hfirst := (sourceRight_iff hkind).mp (h e he)
    rcases hbefore : before.find? fun c => c.2.id = e.peerId with _ | c'
    · refine absurd (hfirst c ?_) hother
      rw [hchats, find?_append, hbefore, none_or, find?_cons_of_pos]
      exact decide_eq_true hid
    · refine ⟨c', mem_of_find?_eq_some hbefore, by simpa using find?_some hbefore,
        hfirst c' ?_⟩
      rw [hchats, find?_append, hbefore]
      rfl

end DialogPage

/-! ## Peers by their id -/

def historyPeer (de : DialogEntry) : Option HistoryPeer :=
  match de.kind with
  | .user => some ⟨.user, de.peerId, de.accessHash⟩
  | .chat => some ⟨.chat, de.peerId, de.accessHash⟩
  | .channel => some ⟨.channel, de.peerId, de.accessHash⟩
  | .unknown => none

/-- The call that `resolve_numeric_peer` makes. -/
def DialogsCall.forLookup (q : DialogsCall) : DialogsCall :=
  { q with maxEntries := 200, archived := false, wantTotal := false }

/-- `resolve_numeric_peer`, with `none` for -1. -/
def resolveNumericPeer (peerId : Int64) (q : DialogsCall) (c : DialogsCaches) :
    Option HistoryPeer × DialogsCaches :=
  match domainDialogsFindById peerId c with
  | some de => (historyPeer de, c)
  | none =>
    let c := (domainGetDialogs q.forLookup c).2
    ((domainDialogsFindById peerId c).bind historyPeer, c)

/-! ## Histories -/

inductive PeerOp where
  | list (q : DialogsCall)
  | lookup (peerId : Int64) (q : DialogsCall)

def PeerOp.call : PeerOp → DialogsCall
  | .list q => q
  | .lookup _ q => q.forLookup

def peerStep (st : DialogsRun) : PeerOp → DialogsRun
  | .list q => dialogsStep st q
  | .lookup peerId q =>
    if (domainDialogsFindById peerId st.caches).isSome then st else dialogsStep st q.forLookup

def DialogsRun.origin (st : DialogsRun) (q : DialogsCall) : Option DialogsCall :=
  if q.isServed st.caches then st.source q.archived else some q

/-- The entries are dialogs that `f` has read, each with the data of the right object. -/
def DialogsCall.ListsRight (f : DialogsCall) (entries : List DialogEntry) : Prop :=
  ∀ (i : ℕ) e, entries[i]? = some e →
    ∃ p e₀, f.page = some p ∧ p.dialogs[i]? = some e₀ ∧ e = p.fill e₀ ∧ p.SourceRight e₀

/-- The peer is a dialog that was read for a cache, with the data of the right object. -/
def DialogsRun.FindsRight (st : DialogsRun) (peerId : Int64) (peer : HistoryPeer) : Prop :=
  ∃ a f p e₀, st.source a = some f ∧ f.page = some p ∧ e₀ ∈ p.dialogs ∧ e₀.peerId = peerId ∧
    historyPeer (p.fill e₀) = some peer ∧ p.SourceRight e₀

/-- What an operation owes: every entry and every peer it hands out has the data of the right
object. -/
def JoinRight (st : DialogsRun) : PeerOp → Prop
  | .list q => ∀ ans f, (domainGetDialogs q st.caches).1 = some ans → st.origin q = some f →
      f.ListsRight ans.entries
  | .lookup peerId q => ∀ peer, (resolveNumericPeer peerId q st.caches).1 = some peer →
      (peerStep st (.lookup peerId q)).FindsRight peerId peer

def JoinLaw (ops : List PeerOp) : Prop :=
  ∀ x ∈ trace peerStep .start ops, JoinRight x.1 x.2

/-! ### Pages and lists -/

section Pages

variable {q f : DialogsCall} {l : DialogList} {p : DialogPage}

theorem DialogsCall.page_of_fetch (h : q.fetch = .listed l) :
    ∃ p, q.page = some p ∧ p.list = l := by
  rw [DialogsCall.fetch] at h
  rw [DialogsCall.page]
  rcases hquery :
    buildDialogsRequest q.maxEntries q.archived 132 with _ | query <;> rw [hquery] at h
  · cases h
  dsimp only at h
  rw [bind_eq_bind, bind_some]
  rcases hresp : q.api query with _ | resp <;> rw [hresp] at h
  · cases h
  rw [bind_some]
  rw [readDialogsReply] at h
  dsimp only at h
  split_ifs at h with hlen hrpc hsame
  rw [if_neg hlen]
  rcases hpage : readDialogPage q.machine q.limit resp with _ | p <;> rw [hpage] at h
  · cases h
  · exact ⟨p, rfl, DialogsReply.listed.inj h⟩

theorem domainGetDialogs_fetched {c : DialogsCaches} {ans : DialogsAnswer}
    (h : ¬ q.isServed c = true) (hans : (domainGetDialogs q c).1 = some ans) :
    0 < q.maxEntries ∧
      (ans.entries = [] ∨ ∃ l, q.fetch = .listed l ∧ ans.entries = l.entries) := by
  rw [domainGetDialogs] at hans
  by_cases hmax : q.maxEntries ≤ 0
  · rw [if_pos hmax] at hans
    cases hans
  rw [if_neg hmax] at hans
  have hpos : 0 < q.maxEntries := Int32.not_le.mp hmax
  have hold : ¬ q.isFresh (c.slot q.archived) = true := by
    intro hfresh
    exact h (by rw [DialogsCall.isServed, hfresh, decide_eq_true hpos]; rfl)
  rw [if_neg hold] at hans
  refine ⟨hpos, ?_⟩
  rcases hf : q.fetch with _ | n | l <;> rw [hf] at hans <;> cases hans
  · exact Or.inl rfl
  · exact Or.inr ⟨l, rfl, rfl⟩

theorem DialogsCall.listsRight_take (hp : f.page = some p) (h : p.KindsApart) (n : ℕ) :
    f.ListsRight (p.list.entries.take n) := by
  intro i e he
  have hmap : (p.dialogs.map p.fill)[i]? = some e := by
    rw [getElem?_take] at he
    split_ifs at he
    exact he
  rw [getElem?_map] at hmap
  obtain ⟨e₀, he₀, rfl⟩ := map_eq_some_iff.mp hmap
  exact ⟨p, e₀, hp, he₀, rfl, DialogPage.kindsApart_iff.mp h e₀ (mem_of_getElem? he₀)⟩

end Pages

/-! ### The law -/

/-- The caches hold what their sources have fetched, and these are calls from `Q`. -/
def DialogsRun.Within (Q : Set DialogsCall) (st : DialogsRun) : Prop :=
  st.Good ∧ ∀ a f, st.source a = some f → f ∈ Q ∧ 0 < f.maxEntries

section Law

variable {Q : Set DialogsCall} {st : DialogsRun}

theorem DialogsRun.Within.dialogsStep (h : st.Within Q) {q : DialogsCall} (hq : q ∈ Q) :
    (dialogsStep st q).Within Q := by
  refine ⟨h.1.step q, fun a f hf => ?_⟩
  have hf : (if a = q.archived ∧ (q.fetches st.caches).isSome then some q else st.source a) =
    some f := hf
  split_ifs at hf with hfetch
  · obtain rfl := some_inj.mp hf
    obtain ⟨l, hl⟩ := isSome_iff_exists.mp hfetch.2
    exact ⟨hq, (DialogsCall.fetches_eq_some hl).1⟩
  · exact h.2 a f hf

theorem DialogsRun.Within.step (h : st.Within Q) {op : PeerOp} (hop : op.call ∈ Q) :
    (peerStep st op).Within Q := by
  cases op with
  | list q => exact h.dialogsStep hop
  | lookup peerId q =>
    rw [peerStep]
    split_ifs
    · exact h
    · exact h.dialogsStep hop

theorem DialogsRun.Within.findsRight (h : st.Within Q)
    (hQ : ∀ q ∈ Q, 0 < q.maxEntries → ∀ p, q.page = some p → p.KindsApart) {peerId : Int64}
    {de : DialogEntry} (hde : domainDialogsFindById peerId st.caches = some de)
    {peer : HistoryPeer} (hpeer : historyPeer de = some peer) : st.FindsRight peerId peer := by
  obtain ⟨a, hvalid, hfind⟩ : ∃ a, (st.caches.slot a).valid = true ∧
      ((st.caches.slot a).entries.find? fun e => e.peerId = peerId) = some de := by
    rw [domainDialogsFindById] at hde
    dsimp only at hde
    obtain hin | ⟨-, hin⟩ := or_eq_some_iff.mp hde
    · split_ifs at hin with hv
      exact ⟨false, hv, hin⟩
    · split_ifs at hin with hv
      exact ⟨true, hv, hin⟩
  obtain ⟨f, l, hf, -, hmax, hfetch, hslot⟩ := h.1 a hvalid
  obtain ⟨p, hp, rfl⟩ := DialogsCall.page_of_fetch hfetch
  have hid : de.peerId = peerId := by simpa using find?_some hfind
  have hmem : de ∈ p.dialogs.map p.fill := by
    have := mem_of_find?_eq_some hfind
    rw [hslot] at this
    exact mem_of_mem_take this
  obtain ⟨e₀, he₀, rfl⟩ := mem_map.mp hmem
  refine ⟨a, f, p, e₀, hf, hp, he₀, ?_, hpeer, ?_⟩
  · rw [← hid, DialogPage.peerId_fill]
  · exact DialogPage.kindsApart_iff.mp (hQ f (h.2 a f hf).1 hmax p hp) e₀ he₀

theorem DialogsRun.Within.joinRight (h : st.Within Q)
    (hQ : ∀ q ∈ Q, 0 < q.maxEntries → ∀ p, q.page = some p → p.KindsApart) {op : PeerOp}
    (hop : op.call ∈ Q) : JoinRight st op := by
  cases op with
  | list q =>
    intro ans f hans hf
    rw [DialogsRun.origin] at hf
    split_ifs at hf with hserved
    · -- from the cache
      rw [domainGetDialogs_served hserved] at hans
      obtain rfl := some_inj.mp hans
      obtain ⟨-, hfresh⟩ := Bool.and_eq_true_iff.mp hserved
      obtain ⟨f', l, hf', -, hmax, hfetch, hslot⟩ := h.1 _ (Bool.and_eq_true_iff.mp hfresh).1
      obtain rfl : f' = f := some_inj.mp (hf'.symm.trans hf)
      obtain ⟨p, hp, rfl⟩ := DialogsCall.page_of_fetch hfetch
      rw [hslot, DialogsCall.answer, DialogsCall.kept]
      rw [take_take]
      exact DialogsCall.listsRight_take hp (hQ f' (h.2 _ _ hf).1 hmax p hp) _
    · obtain rfl := some_inj.mp hf
      obtain ⟨hmax, hnone | ⟨l, hfetch, hentries⟩⟩ := domainGetDialogs_fetched hserved hans
      · intro i e he
        rw [hnone] at he
        cases he
      · obtain ⟨p, hp, rfl⟩ := DialogsCall.page_of_fetch hfetch
        rw [hentries, ← take_length (l := p.list.entries)]
        exact DialogsCall.listsRight_take hp (hQ q hop hmax p hp) _
  | lookup peerId q =>
    intro peer hpeer
    rw [resolveNumericPeer] at hpeer
    rw [peerStep]
    rcases hde : domainDialogsFindById peerId st.caches with _ | de <;> rw [hde] at hpeer
    · obtain ⟨de, hde', hpeer⟩ := bind_eq_some_iff.mp hpeer
      exact (h.dialogsStep hop).findsRight hQ hde' hpeer
    · exact h.findsRight hQ hde hpeer

end Law

theorem sourceRight_of_joinRight {q : DialogsCall} {p : DialogPage} (hmax : 0 < q.maxEntries)
    (hp : q.page = some p) (h : JoinRight .start (.list q)) :
    ∀ e ∈ p.dialogs, p.SourceRight e := by
  intro e he
  have hcold : q.isFresh (DialogsCaches.empty.slot q.archived) = false := by
    cases q.archived <;> rfl
  have hans : (domainGetDialogs q .empty).1 = some (q.answer p.list.entries p.list.total) := by
    rw [domainGetDialogs, if_neg (Int32.not_le.mpr hmax)]
    dsimp only
    rw [hcold, if_neg Bool.false_ne_true, DialogsCall.fetch_of_page hp]
  have horigin : DialogsRun.start.origin q = some q := by
    rw [DialogsRun.origin, DialogsCall.isServed]
    show (if (_ && q.isFresh (DialogsCaches.empty.slot q.archived)) = true then _ else _) = _
    rw [hcold, Bool.and_false, if_neg Bool.false_ne_true]
  obtain ⟨i, hi⟩ := getElem?_of_mem he
  have hentry : p.list.entries[i]? = some (p.fill e) := by
    show (p.dialogs.map p.fill)[i]? = _
    rw [getElem?_map, hi]
    rfl
  obtain ⟨p', e', hp', he', -, hright⟩ := h _ q hans horigin i _ hentry
  obtain rfl := some_inj.mp (hp.symm.trans hp')
  obtain rfl := some_inj.mp (hi.symm.trans he')
  exact hright

/-- **The join.**  In every history of calls from `Q`, every entry and every peer has the data of an
object of its kind with its id, if and only if the kinds are apart on every page that a call from
`Q` reads. -/
theorem joinLaw_iff (Q : Set DialogsCall) :
    (∀ ops, (∀ op ∈ ops, PeerOp.call op ∈ Q) → JoinLaw ops) ↔
      ∀ q ∈ Q, 0 < q.maxEntries → ∀ p, q.page = some p → p.KindsApart := by
  constructor
  · intro h q hq hmax p hp
    have hcalls : ∀ op ∈ [PeerOp.list q], op.call ∈ Q := forall_mem_singleton.mpr hq
    have hlaw := h [.list q] hcalls (.start, .list q) mem_cons_self
    exact DialogPage.kindsApart_iff.mpr (sourceRight_of_joinRight hmax hp hlaw)
  · intro hQ ops hops x hx
    have hstart : DialogsRun.start.Within Q := ⟨DialogsRun.good_start, fun a f hf => by cases hf⟩
    have hstep : ∀ (st : DialogsRun) (op : PeerOp), op.call ∈ Q → st.Within Q →
        (peerStep st op).Within Q := fun _ _ hop h => h.step hop
    obtain ⟨hin, hop⟩ := trace_invariant hstep hstart hops x hx
    exact hin.joinRight hQ hop

/-! ### A group and a channel with one id -/

/-- A list with a dialog of the basic group 5, whose chats have the channel 5. -/
def groupAndChannel : Bytes :=
  u32Bytes tlMessagesDialogs ++ u32Bytes tlVector ++ u32Bytes 1 ++
    -- `dialog`: flags, peer, six numbers, notification settings
    u32Bytes crcDialog ++ u32Bytes 0 ++ u32Bytes tlPeerChat ++ u64Bytes 5 ++
    u32Bytes 100 ++ u32Bytes 0 ++ u32Bytes 0 ++ u32Bytes 5 ++ u32Bytes 0 ++ u32Bytes 0 ++
    u32Bytes crcPeerNotifySettings ++ u32Bytes 0 ++
    -- no messages
    u32Bytes tlVector ++ u32Bytes 0 ++
    -- `channelForbidden`: flags, id, access_hash, title
    u32Bytes tlVector ++ u32Bytes 1 ++ u32Bytes tlChannelForbidden ++ u32Bytes 0 ++
    u64Bytes 5 ++ u64Bytes 77 ++ tlBytes (ascii "news") ++
    -- no users
    u32Bytes tlVector ++ u32Bytes 0

def groupAndChannelCall : DialogsCall :=
  ⟨10, false, true, fun _ => some groupAndChannel, ⟨id, fun _ => true⟩, 0, 0⟩

/-- The group gets the title and the `access_hash` of the channel. -/
theorem group_joined_with_channel : ¬ ∀ ops, JoinLaw ops := by
  intro h
  have hlaw := h [.list groupAndChannelCall] (.start, .list groupAndChannelCall) mem_cons_self
  have hpage : groupAndChannelCall.page = some ⟨1, [⟨.chat, 5, 0, false, 5, 100, [], []⟩],
      [(tlChannelForbidden, ⟨5, 77, true, ascii "news"⟩)], []⟩ := by decide +kernel
  have hright := sourceRight_of_joinRight (by decide) hpage hlaw _ mem_cons_self
  exact absurd (hright _ rfl).1 (by decide)

end TgCli.Domain
