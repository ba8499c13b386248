import TgCli.Core.TlSkip.Draft
import TgCli.Core.TlSkip.Message
import TgCli.Core.TlValues
import TgCli.Infrastructure.MtprotoRpc

/-!
# `domain/read/dialogs.c`: the list of dialogs

`messages.getDialogs` answers with four vectors.  The first has the dialogs, each with the kind and
the id of its peer.  What a reader wants to see of a peer, its title, and what a later request
needs, its `access_hash`, stand in the last two: the chats and the users.  So the entries that the
first vector gives are completed by a join on the id, provided that the cursor gets that far.

The list is kept for a minute, one list for the inbox and one for the archive, and a later call is
answered from it.

Two things are left open, and what is proved holds however they are settled.  Where the cursor
stands after a piece that could not be read is `stuck`, for the loop over the dialogs may be left
there and the reading go on.  And whether there is memory for the objects of a vector is `alloc`.
-/

namespace TgCli.Domain

open Lib TgCli.Core Walk Infrastructure

def crcMessagesGetDialogs : UInt32 := 0xa0f4cb4f
def crcDialog : UInt32 := 0xd58a08c6
def crcDialogFolder : UInt32 := 0x71bd134c
def tlMessagesDialogs : UInt32 := 0x15ba6c40
def tlMessagesDialogsSlice : UInt32 := 0x71e094f3
def tlMessagesDialogsNotModified : UInt32 := 0xf0e3e596

def dialogsCacheTtl : ℤ := 60

def dialogsCacheMax : ℕ := 512

inductive DialogPeerKind where
  | unknown
  | user
  | chat
  | channel
  deriving DecidableEq

structure DialogEntry where
  kind : DialogPeerKind
  peerId : Int64
  accessHash : Int64
  haveAccessHash : Bool
  unreadCount : Int32
  topMessageId : Int32
  title : Bytes
  username : Bytes
  deriving DecidableEq

/-- `build_request`, into `cap` bytes. -/
def buildDialogsRequest (limit : Int32) (archived : Bool) (cap : ℕ) : Option Bytes :=
  let w := tlWriteUint32 [] crcMessagesGetDialogs
  let w := tlWriteUint32 w (if archived then 2 else 0)
  let w := if archived then tlWriteInt32 w 1 else w
  let w := tlWriteInt32 w 0
  let w := tlWriteInt32 w 0
  let w := tlWriteUint32 w crcInputPeerEmpty
  let w := tlWriteInt32 w limit
  let w := tlWriteInt64 w 0
  if w.length ≤ cap then some w else none

/-! ## The dialogs -/

/-- What the source leaves to the machine and this model leaves open. -/
structure DialogsMachine where
  /-- Where a piece that fails from a reader leaves the cursor. -/
  stuck : TlReader → TlReader
  /-- Whether there is memory for so many objects. -/
  alloc : UInt32 → Bool

/-- `if (!tl_reader_ok(r)) return -1;`. -/
def readerOk : Walk Unit :=
  fun r => if tlReaderOk r then some ((), r) else none

def skipDialogFolder : Walk Unit := do
  drop32
  skip tlSkipPeer
  rep (do need 4; drop32) 5

def dialogPeerKind (crc : UInt32) : Option DialogPeerKind :=
  if crc = tlPeerUser then some .user
  else if crc = tlPeerChat then some .chat
  else if crc = tlPeerChannel then some .channel
  else none

def parsePeer : Walk (DialogPeerKind × Int64) := do
  readerOk
  let crc ← u32
  match dialogPeerKind crc with
  | none => fail
  | some kind =>
    let id ← i64
    pure (kind, id)

def dialogHead : Walk DialogEntry := do
  let peer ← parsePeer
  let topMessageId ← i32
  drop32
  drop32
  let unreadCount ← i32
  drop32
  drop32
  pure ⟨peer.1, peer.2, 0, false, unreadCount, topMessageId, [], []⟩

def dialogTail (flags : UInt32) : Walk Unit := do
  opt (hasFlag flags 0) drop32
  opt (hasFlag flags 1) (skip tlSkipDraftMessage)
  opt (hasFlag flags 4) drop32
  opt (hasFlag flags 5) drop32

/-- What one turn of the loop does: it skips a folder, writes an entry and goes on, writes an entry
and stops, or stops. -/
inductive DialogTurn where
  | folder (r : TlReader)
  | entry (e : DialogEntry) (r : TlReader)
  | last (e : DialogEntry) (r : TlReader)
  | broken (r : TlReader)

def dialogTurn (m : DialogsMachine) (r : TlReader) : DialogTurn :=
  let dcrc := tlReadUint32 r
  if dcrc.1 = crcDialogFolder then
    match skipDialogFolder dcrc.2 with
    | none => .broken (m.stuck dcrc.2)
    | some (_, r) => .folder r
  else if dcrc.1 ≠ crcDialog then .broken dcrc.2
  else
    let flags := tlReadUint32 dcrc.2
    match dialogHead flags.2 with
    | none => .broken (m.stuck flags.2)
    | some (e, r) =>
      match (do skip tlSkipPeerNotifySettings; dialogTail flags.1 : Walk Unit) r with
      | none => .last e (m.stuck r)
      | some (_, r) => .entry e r

/-- The loop over the dialogs: the entries written, the number of dialogs read, and the cursor. -/
structure DialogLoop where
  out : List DialogEntry
  parsed : ℕ
  reader : TlReader

def dialogLoop (m : DialogsMachine) (maxEntries : ℕ) : ℕ → DialogLoop → DialogLoop
  | 0, st => st
  | n + 1, st =>
    if maxEntries ≤ st.out.length then st
    else if !tlReaderOk st.reader then st
    else
      match dialogTurn m st.reader with
      | .folder r => dialogLoop m maxEntries n ⟨st.out, st.parsed + 1, r⟩
      | .entry e r => dialogLoop m maxEntries n ⟨st.out ++ [e], st.parsed + 1, r⟩
      | .last e r => ⟨st.out ++ [e], st.parsed + 1, r⟩
      | .broken r => { st with reader := r }

/-! ## The join -/

/-- `ChatSummary cs = {0}; if (tl_extract_chat(r, &cs) != 0) …`, with the constructor of the chat
for the record. -/
def extractChatObject : Walk (UInt32 × ChatSummary) := fun r =>
  match extractChatInner.run ⟨r, some ⟨0, 0, false, []⟩⟩ with
  | (some _, ⟨r', some cs⟩) => some (((tlReadUint32 r).1, cs), r')
  | _ => none

/-- `UserSummary us = {0}; if (tl_extract_user(r, &us) != 0) …`. -/
def extractUserObject : Walk UserSummary := fun r =>
  match extractUserInner.run ⟨r, some ⟨0, 0, false, [], []⟩⟩ with
  | (some _, ⟨r', some us⟩) => some (us, r')
  | _ => none

def collect {α : Type} (item : Walk α) : ℕ → Walk (List α)
  | 0 => pure []
  | n + 1 => do
    let a ← item
    let rest ← collect item n
    pure (a :: rest)

/-- A vector of objects, which are noted down if there is memory for them. -/
def objectVector {α : Type} (alloc : UInt32 → Bool) (item : Walk α) : Walk (List α) := do
  let vec ← u32
  ensure (vec = tlVector)
  let n ← u32
  let objects ← collect item n.toNat
  pure (if alloc n then objects else [])

/-- The messages, the chats and the users that follow the dialogs.  Whatever fails, the join is left
out. -/
def joinObjects (m : DialogsMachine) : Walk (List (UInt32 × ChatSummary) × List UserSummary) := do
  readerOk
  let mvec ← u32
  ensure (mvec = tlVector)
  let mcount ← u32
  rep (skip tlSkipMessage) mcount.toNat
  let chats ← objectVector m.alloc extractChatObject
  let users ← objectVector m.alloc extractUserObject
  pure (chats, users)

def DialogEntry.attachUser (e : DialogEntry) (u : UserSummary) : DialogEntry :=
  { e with title := u.name, username := u.username, accessHash := u.accessHash,
           haveAccessHash := u.haveAccessHash }

def DialogEntry.attachChat (e : DialogEntry) (c : ChatSummary) : DialogEntry :=
  { e with title := c.title, accessHash := c.accessHash, haveAccessHash := c.haveAccessHash }

def fillEntry (chats : List (UInt32 × ChatSummary)) (users : List UserSummary) (e : DialogEntry) :
    DialogEntry :=
  if e.kind = .user then
    (users.find? fun u => u.id = e.peerId).elim e e.attachUser
  else
    (chats.find? fun c => c.2.id = e.peerId).elim e fun c => e.attachChat c.2

/-! ## The answer -/

/-- A list of dialogs that was read: the total that the server reports, and the entries. -/
structure DialogList where
  total : Int32
  entries : List DialogEntry
  deriving DecidableEq

/-- What was read of an answer: the total, the dialogs, and the objects that they are joined with.
There are none of these if the join is left out. -/
structure DialogPage where
  total : Int32
  dialogs : List DialogEntry
  chats : List (UInt32 × ChatSummary)
  users : List UserSummary
  deriving DecidableEq

def DialogPage.fill (p : DialogPage) : DialogEntry → DialogEntry :=
  fillEntry p.chats p.users

def DialogPage.list (p : DialogPage) : DialogList :=
  ⟨p.total, p.dialogs.map p.fill⟩

/-- The part of `domain_get_dialogs` that reads the vectors, from the dialogs on. -/
def readDialogVectors (m : DialogsMachine) (maxEntries : ℕ) (sliceTotal : Option Int32)
    (r : TlReader) : Option DialogPage :=
  let vec := tlReadUint32 r
  if vec.1 ≠ tlVector then none else
  let count := tlReadUint32 vec.2
  let total := sliceTotal.getD count.1.toInt32
  let st := dialogLoop m maxEntries count.1.toNat ⟨[], 0, count.2⟩
  -- a count from 2^31 on is a negative number here
  if (st.parsed : ℤ) < count.1.toInt32.toInt then some ⟨total, st.out, [], []⟩ else
  match joinObjects m st.reader with
  | none => some ⟨total, st.out, [], []⟩
  | some ((chats, users), _) => some ⟨total, st.out, chats, users⟩

/-- The part of `domain_get_dialogs` that reads a list, whole or in part. -/
def readDialogPage (m : DialogsMachine) (maxEntries : ℕ) (resp : Bytes) : Option DialogPage :=
  let top := tlReadUint32 (tlReaderInit resp)
  if top.1 = tlMessagesDialogs then readDialogVectors m maxEntries none top.2
  else if top.1 = tlMessagesDialogsSlice then
    let total := tlReadInt32 top.2
    readDialogVectors m maxEntries (some total.1) total.2
  else none

inductive DialogsReply where
  | failed
  | notModified (count : Int32)
  | listed (l : DialogList)
  deriving DecidableEq

/-- The part of `domain_get_dialogs` behind `api_call`, for the outcome of that call. -/
def readDialogsReply (m : DialogsMachine) (maxEntries : ℕ) : Option Bytes → DialogsReply
  | none => .failed
  | some resp =>
    if resp.length < 8 then .failed
    else
      let top := tlReadUint32 (tlReaderInit resp)
      if top.1 = crcRpcError then .failed
      else if top.1 = tlMessagesDialogsNotModified then .notModified (tlReadInt32 top.2).1
      else (readDialogPage m maxEntries resp).elim .failed fun p => .listed p.list

/-! ## The cache -/

/-- `DialogsCache`; `count` is the length of `entries`. -/
structure DialogsCache where
  valid : Bool
  fetchedAt : ℤ
  totalCount : Int32
  entries : List DialogEntry

/-- `s_cache`. -/
structure DialogsCaches where
  inbox : DialogsCache
  archive : DialogsCache

namespace DialogsCaches

/-- The caches before the first call, and after `dialogs_cache_flush`. -/
def empty : DialogsCaches :=
  ⟨⟨false, 0, 0, []⟩, ⟨false, 0, 0, []⟩⟩

def slot (c : DialogsCaches) (archived : Bool) : DialogsCache :=
  if archived then c.archive else c.inbox

def setSlot (c : DialogsCaches) (archived : Bool) (d : DialogsCache) : DialogsCaches :=
  if archived then { c with archive := d } else { c with inbox := d }

theorem slot_setSlot (c : DialogsCaches) (a a' : Bool) (d : DialogsCache) :
    (c.setSlot a d).slot a' = if a' = a then d else c.slot a' := by
  cases a <;> cases a' <;> rfl

end DialogsCaches

/-- A call: its arguments, with whether `total_count` is `NULL`, what `api_call` returns for a
query, and the clock when the cache is looked at and when it is written. -/
structure DialogsCall where
  maxEntries : Int32
  archived : Bool
  wantTotal : Bool
  api : Bytes → Option Bytes
  machine : DialogsMachine
  checkAt : ℤ
  storeAt : ℤ

/-- What a call that returns 0 has written: the entries, and the total if it was asked for. -/
structure DialogsAnswer where
  entries : List DialogEntry
  total : Option Int32
  deriving DecidableEq

namespace DialogsCall

def answer (q : DialogsCall) (entries : List DialogEntry) (total : Int32) : DialogsAnswer :=
  ⟨entries, if q.wantTotal then some total else none⟩

def limit (q : DialogsCall) : ℕ :=
  q.maxEntries.toInt.toNat

def fetch (q : DialogsCall) : DialogsReply :=
  match buildDialogsRequest q.maxEntries q.archived 132 with
  | none => .failed
  | some query => readDialogsReply q.machine q.limit (q.api query)

/-- What the cache keeps of a list.  Without a place for the total it is the number of entries. -/
def kept (q : DialogsCall) (l : DialogList) : DialogsCache :=
  ⟨true, q.storeAt, if q.wantTotal then l.total else Int32.ofNat l.entries.length,
    l.entries.take dialogsCacheMax⟩

def isFresh (q : DialogsCall) (d : DialogsCache) : Bool :=
  d.valid && decide (q.checkAt - d.fetchedAt < dialogsCacheTtl)

end DialogsCall

/-- `domain_get_dialogs`, with `none` for -1. -/
def domainGetDialogs (q : DialogsCall) (c : DialogsCaches) : Option DialogsAnswer × DialogsCaches :=
  if q.maxEntries ≤ 0 then (none, c) else
  let cache := c.slot q.archived
  if q.isFresh cache then (some (q.answer (cache.entries.take q.limit) cache.totalCount), c) else
  match q.fetch with
  | .failed => (none, c)
  | .notModified count => (some (q.answer [] count), c)
  | .listed l => (some (q.answer l.entries l.total), c.setSlot q.archived (q.kept l))

def domainDialogsFindById (peerId : Int64) (c : DialogsCaches) : Option DialogEntry :=
  let find (d : DialogsCache) : Option DialogEntry :=
    if d.valid then d.entries.find? fun e => e.peerId = peerId else none
  (find c.inbox).or (find c.archive)

end TgCli.Domain
