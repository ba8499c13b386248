import TgCli.Core.TlSkip.Reading
import TgCli.Domain.History
import TgCli.Lib.Reading

/-!
# Messages as they are sent

The three constructors of `Message` that `parse_message` knows, with every field in its place and an
optional field behind its flag.  What the parsers only walk over is a `TlObject` of the function
that walks over it.

`TlMessage.reads` says what `parse_message` makes of a message, in `history.c` and in `search.c`: it
takes exactly the message off the buffer, and finds its id, its date and its text.  Two kinds of
message are the exception (`TlMessage.misread`).  A text with a `NUL` in it ends there, and an
action with more than 4096 users is refused.
-/

namespace TgCli.Domain

open List Lib TgCli.Core

/-! ## What a parser sees -/

structure MessageView where
  id : Int32
  date : Int64
  text : Bytes
  deriving DecidableEq

def HistoryEntry.view (e : HistoryEntry) : MessageView :=
  ⟨e.id, e.date, e.text⟩

namespace Scan

variable {α : Type} {v v' : MessageView} {b : Bytes}

abbrev Takes (m : Prog Scan α) (b : Bytes) (o : Option α) (v v' : MessageView) : Prop :=
  Prog.Takes (fun st : Scan => st.reader.rest) (fun st => st.entry.view) m b o v v'

abbrev Reads (m : Prog Scan α) (b : Bytes) (a : α) (v v' : MessageView) : Prop :=
  Takes m b (some a) v v'

abbrev Breaks (m : Prog Scan α) (b : Bytes) (v v' : MessageView) : Prop :=
  Takes m b none v v'

theorem Takes.run {m : Prog Scan α} {o : Option α} (h : Takes m b o v v') {r : TlReader}
    {e : HistoryEntry} {t : Bytes} (hr : r.rest = b ++ t) (he : e.view = v) :
    ∃ st : Scan, m ⟨r, e⟩ = (o, st) ∧ (o.isSome → st.reader.rest = t) ∧ st.entry.view = v' :=
  h ⟨r, e⟩ t hr he

theorem reads_read {f : TlReader → α × TlReader} {a : α}
    (h : ∀ {r t}, r.rest = b ++ t → (f r).1 = a ∧ (f r).2.rest = t) : Reads (read f) b a v v := by
  intro st t hr hv
  obtain ⟨ha, ht⟩ := h hr
  exact ⟨⟨(f st.reader).2, st.entry⟩, by rw [← ha]; rfl, fun _ => ht, hv⟩

theorem reads_set {f : HistoryEntry → HistoryEntry} (h : ∀ e : HistoryEntry, e.view = v →
    (f e).view = v') : Reads (set f) [] () v v' :=
  fun st _ hr hv => ⟨⟨st.reader, f st.entry⟩, rfl, fun _ => hr, h st.entry hv⟩

theorem reads_skip {f : TlReader → Option TlReader}
    (h : ∀ {r t}, r.rest = b ++ t → ∃ r', f r = some r' ∧ r'.rest = t) :
    Reads (skip f) b () v v := by
  intro st t hr hv
  obtain ⟨r', hf, ht⟩ := h hr
  refine ⟨⟨r', st.entry⟩, ?_, fun _ => ht, hv⟩
  rw [skip, Prog.bind_of_some (show Prog.ask _ st = (some (f st.reader), st) from rfl), hf]
  rfl

theorem need_eq {n : ℕ} {st : Scan} (h : n ≤ st.reader.left) : need n st = (some (), st) := by
  rw [need, Prog.bind_of_some (show Prog.ask _ st = (some st.reader.left, st) from rfl),
    if_neg (by omega)]
  rfl

theorem takes_need {n : ℕ} {m : Unit → Prog Scan α} {o : Option α} (hm : Takes (m ()) b o v v')
    (hn : n ≤ b.length) (hpos : 0 < n) : Takes (need n >>= m) b o v v' := by
  intro st t hr hv
  have hb : b ≠ [] := ne_nil_of_length_pos (by omega)
  rw [Prog.bind_of_some (need_eq (hn.trans (Walk.Reads.le_left hr hb)))]
  exact hm st t hr hv

theorem reads_walk {w : Walk α} {a : α} (hw : Walk.Reads w b a) : Reads (walk w) b a v v := by
  intro st t hr hv
  obtain ⟨r', hw, ht⟩ := hw st.reader t hr
  exact ⟨⟨r', st.entry⟩, by rw [walk, hw], fun _ => ht, hv⟩

theorem breaks_walk {w : Walk α} (hw : ∀ {r t}, r.rest = b ++ t → w r = none) :
    Breaks (walk w) b v v := by
  intro st t hr hv
  exact ⟨st, by rw [walk, hw hr], fun h => absurd h Bool.false_ne_true, hv⟩

theorem reads_opt {c : Bool} {m : Prog Scan Unit} {field : c = true → Bytes}
    (h : ∀ hc, Reads m (field hc) () v v) : Reads (opt c m) (whenSet c field) () v v := by
  rw [opt, whenSet]
  split_ifs with hc
  · exact h hc
  · exact Prog.Takes.pure

end Scan

/-! ## `message` -/

structure PlainMessage where
  flags : UInt32
  flags2 : UInt32
  id : Int32
  fromId : hasFlag flags 8 = true → TlPeer
  peerId : TlPeer
  savedPeerId : hasFlag flags 28 = true → TlPeer
  fwdFrom : hasFlag flags 2 = true → TlObject tlSkipMessageFwdHeader
  viaBotId : hasFlag flags 11 = true → Int64
  viaBusinessBotId : hasFlag flags2 0 = true → Int64
  replyTo : hasFlag flags 3 = true → TlObject tlSkipMessageReplyHeader
  date : Int32
  text : TlString
  media : hasFlag flags 9 = true → TlObject (tlSkipMessageMediaEx.call none)
  replyMarkup : hasFlag flags 6 = true → TlObject tlSkipReplyMarkup
  entities : hasFlag flags 7 = true → TlObject tlSkipMessageEntitiesVector
  views : hasFlag flags 10 = true → Int32
  forwards : hasFlag flags 10 = true → Int32
  replies : hasFlag flags 23 = true → TlObject tlSkipMessageReplies
  editDate : hasFlag flags 15 = true → Int32
  postAuthor : hasFlag flags 16 = true → TlString
  groupedId : hasFlag flags 17 = true → Int64
  reactions : hasFlag flags 20 = true → TlObject tlSkipMessageReactions
  restrictionReason : hasFlag flags 22 = true → TlObject tlSkipRestrictionReasonVector
  ttlPeriod : hasFlag flags 25 = true → Int32
  quickReplyShortcutId : hasFlag flags2 30 = true → Int32
  effect : hasFlag flags2 2 = true → Int64
  factcheck : hasFlag flags2 3 = true → TlObject tlSkipFactcheck

namespace PlainMessage

variable (m : PlainMessage)

def headBytes : Bytes :=
  whenSet (hasFlag m.flags 8) (fun h => (m.fromId h).bytes) ++ (m.peerId.bytes ++
    (whenSet (hasFlag m.flags 28) (fun h => (m.savedPeerId h).bytes) ++
    (whenSet (hasFlag m.flags 2) (fun h => (m.fwdFrom h).bytes) ++
    (whenSet (hasFlag m.flags 11) (fun h => u64Bytes (m.viaBotId h).toUInt64) ++
    (whenSet (hasFlag m.flags2 0) (fun h => u64Bytes (m.viaBusinessBotId h).toUInt64) ++
    (whenSet (hasFlag m.flags 3) (fun h => (m.replyTo h).bytes) ++
    u32Bytes m.date.toUInt32))))))

def trailerBytes : Bytes :=
  whenSet (hasFlag m.flags 9) (fun h => (m.media h).bytes) ++
    (whenSet (hasFlag m.flags 6) (fun h => (m.replyMarkup h).bytes) ++
    (whenSet (hasFlag m.flags 7) (fun h => (m.entities h).bytes) ++
    (whenSet (hasFlag m.flags 10)
      (fun h => u32Bytes (m.views h).toUInt32 ++ u32Bytes (m.forwards h).toUInt32) ++
    (whenSet (hasFlag m.flags 23) (fun h => (m.replies h).bytes) ++
    (whenSet (hasFlag m.flags 15) (fun h => u32Bytes (m.editDate h).toUInt32) ++
    (whenSet (hasFlag m.flags 16) (fun h => (m.postAuthor h).bytes) ++
    (whenSet (hasFlag m.flags 17) (fun h => u64Bytes (m.groupedId h).toUInt64) ++
    (whenSet (hasFlag m.flags 20) (fun h => (m.reactions h).bytes) ++
    (whenSet (hasFlag m.flags 22) (fun h => (m.restrictionReason h).bytes) ++
    (whenSet (hasFlag m.flags 25) (fun h => u32Bytes (m.ttlPeriod h).toUInt32) ++
    (whenSet (hasFlag m.flags2 30) (fun h => u32Bytes (m.quickReplyShortcutId h).toUInt32) ++
    (whenSet (hasFlag m.flags2 2) (fun h => u64Bytes (m.effect h).toUInt64) ++
    whenSet (hasFlag m.flags2 3) (fun h => (m.factcheck h).bytes)))))))))))))

def bodyBytes : Bytes :=
  u32Bytes m.flags ++ (u32Bytes m.flags2 ++ (u32Bytes m.id.toUInt32 ++
    (m.headBytes ++ (m.text.bytes ++ m.trailerBytes))))

end PlainMessage

section Parse

open Scan

/-- What is particular to the parsers of `history.c` and `search.c`. -/
abbrev peerSkipped (keepsInfo : Bool) : MessageForm :=
  ⟨Scan.skip tlSkipPeer, keepsInfo⟩

variable (keepsInfo : Bool) {v : MessageView}

theorem reads_drop64 (x : Int64) : Reads (drop 8 tlReadInt64) (u64Bytes x.toUInt64) () v v :=
  takes_need ((reads_read tlReadInt64_of_rest).last Prog.Takes.pure)
    (by rw [length_u64Bytes]) (by decide)

theorem reads_drop32 (x : Int32) : Reads (drop 4 tlReadInt32) (u32Bytes x.toUInt32) () v v :=
  takes_need ((reads_read tlReadInt32_of_rest).last Prog.Takes.pure)
    (by rw [length_u32Bytes]) (by decide)

theorem reads_dropViews (x y : Int32) :
    Reads dropViews (u32Bytes x.toUInt32 ++ u32Bytes y.toUInt32) () v v :=
  takes_need ((reads_read tlReadInt32_of_rest).bind
      ((reads_read tlReadInt32_of_rest).last Prog.Takes.pure))
    (by rw [length_append, length_u32Bytes, length_u32Bytes]) (by decide)

theorem reads_setDate (x : Int32) : Reads (set fun e => { e with date := x.toInt64 }) [] () v
    { v with date := x.toInt64 } :=
  reads_set fun _ he => by rw [← he]; rfl

theorem reads_date (x : Int32) :
    Reads (do
      need 4
      let date ← read tlReadInt32
      set fun e => { e with date := date.toInt64 }) (u32Bytes x.toUInt32) () v
      { v with date := x.toInt64 } :=
  takes_need ((reads_read tlReadInt32_of_rest).last (reads_setDate x))
    (by rw [length_u32Bytes]) (by decide)

theorem PlainMessage.reads_head (m : PlainMessage) :
    Reads (parseHead (peerSkipped keepsInfo) messageWalkers m.flags m.flags2) m.headBytes () v
      { v with date := m.date.toInt64 } := by
  refine (reads_opt fun h => reads_skip (m.fromId h).skip_eq).bind ?_
  refine (reads_skip m.peerId.skip_eq).bind ?_
  refine (reads_opt fun h => reads_skip (m.savedPeerId h).skip_eq).bind ?_
  refine (reads_opt fun h => reads_skip (m.fwdFrom h).skip_eq).bind ?_
  refine (reads_opt fun h => reads_drop64 (m.viaBotId h)).bind ?_
  refine (reads_opt fun h => reads_drop64 (m.viaBusinessBotId h)).bind ?_
  refine (reads_opt fun h => reads_skip (m.replyTo h).skip_eq).bind ?_
  exact reads_date m.date

theorem reads_parseMedia (o : TlObject (tlSkipMessageMediaEx.call none)) :
    Reads (parseMedia (peerSkipped keepsInfo) messageWalkers) o.bytes () v v := by
  intro st t hr hv
  obtain ⟨r', hcall, ht⟩ := o.skip_eq hr
  rw [tlSkipMessageMediaEx.call_eq none (some .zero)] at hcall
  have hask : Prog.ask (fun st : Scan => messageWalkers.messageMediaEx st.reader) st =
      (some ((tlSkipMessageMediaEx.run ⟨st.reader, some .zero⟩).2.out.getD .zero, some r'),
        st) := by
    rw [← hcall]
    rfl
  rw [parseMedia, Prog.bind_of_some hask]
  exact ⟨_, rfl, fun _ => ht, hv⟩

theorem PlainMessage.reads_trailer (m : PlainMessage) :
    Reads (parseTrailer (peerSkipped keepsInfo) messageWalkers m.flags m.flags2) m.trailerBytes ()
      v v := by
  refine (reads_opt fun h => reads_parseMedia keepsInfo (m.media h)).bind ?_
  refine (reads_opt fun h => reads_skip (m.replyMarkup h).skip_eq).bind ?_
  refine (reads_opt fun h => reads_skip (m.entities h).skip_eq).bind ?_
  refine (reads_opt fun h => reads_dropViews (m.views h) (m.forwards h)).bind ?_
  refine (reads_opt fun h => reads_skip (m.replies h).skip_eq).bind ?_
  refine (reads_opt fun h => reads_drop32 (m.editDate h)).bind ?_
  refine (reads_opt fun h => reads_skip (m.postAuthor h).skip_eq).bind ?_
  refine (reads_opt fun h => reads_drop64 (m.groupedId h)).bind ?_
  refine (reads_opt fun h => reads_skip (m.reactions h).skip_eq).bind ?_
  refine (reads_opt fun h => reads_skip (m.restrictionReason h).skip_eq).bind ?_
  refine (reads_opt fun h => reads_drop32 (m.ttlPeriod h)).bind ?_
  refine (reads_opt fun h => reads_drop32 (m.quickReplyShortcutId h)).bind ?_
  refine (reads_opt fun h => reads_drop64 (m.effect h)).bind ?_
  exact reads_opt fun h => reads_skip (m.factcheck h).skip_eq

end Parse

/-! ## Actions -/

/-- An `InputGroupCall`; the parser does not look at its constructor. -/
structure TlGroupCall where
  crc : Int32
  id : Int64
  accessHash : Int64

def TlGroupCall.bytes (c : TlGroupCall) : Bytes :=
  u32Bytes c.crc.toUInt32 ++ (u64Bytes c.id.toUInt64 ++ u64Bytes c.accessHash.toUInt64)

/-- The actions that `parse_service_action` knows. -/
inductive ServiceAction where
  | empty
  | chatCreate (title : TlString) (users : TlLongs)
  | chatEditTitle (title : TlString)
  | chatEditPhoto (photo : TlObject tlSkipPhoto)
  | chatDeletePhoto
  | chatAddUser (users : TlLongs)
  | chatDeleteUser (userId : Int64)
  | chatJoinedByLink (inviterId : Int64)
  | channelCreate (title : TlString)
  | chatMigrateTo (channelId : Int64)
  | channelMigrateFrom (title : TlString) (chatId : Int64)
  | pinMessage
  | historyClear
  | phoneCall (flags : UInt32) (callId : Int64) (reason : hasFlag flags 0 = true → UInt32)
      (duration : hasFlag flags 1 = true → Int32)
  | screenshotTaken
  | customAction (message : TlString)
  | groupCall (flags : UInt32) (call : TlGroupCall) (duration : hasFlag flags 0 = true → Int32)
  | groupCallScheduled (call : TlGroupCall) (scheduleDate : Int32)
  | inviteToGroupCall (call : TlGroupCall) (users : TlLongs)

namespace ServiceAction

def crc : ServiceAction → UInt32
  | empty => crcMessageActionEmpty
  | chatCreate _ _ => crcMessageActionChatCreate
  | chatEditTitle _ => crcMessageActionChatEditTitle
  | chatEditPhoto _ => crcMessageActionChatEditPhoto
  | chatDeletePhoto => crcMessageActionChatDeletePhoto
  | chatAddUser _ => crcMessageActionChatAddUser
  | chatDeleteUser _ => crcMessageActionChatDeleteUser
  | chatJoinedByLink _ => crcMessageActionChatJoinedByLink
  | channelCreate _ => crcMessageActionChannelCreate
  | chatMigrateTo _ => crcMessageActionChatMigrateTo
  | channelMigrateFrom _ _ => crcMessageActionChannelMigrateFrom
  | pinMessage => crcMessageActionPinMessage
  | historyClear => crcMessageActionHistoryClear
  | phoneCall _ _ _ _ => crcMessageActionPhoneCall
  | screenshotTaken => crcMessageActionScreenshotTaken
  | customAction _ => crcMessageActionCustomAction
  | groupCall _ _ _ => crcMessageActionGroupCall
  | groupCallScheduled _ _ => crcMessageActionGroupCallScheduled
  | inviteToGroupCall _ _ => crcMessageActionInviteToGroupCall

def body : ServiceAction → Bytes
  | chatCreate title users => title.bytes ++ users.bytes
  | chatEditTitle title => title.bytes
  | chatEditPhoto photo => photo.bytes
  | chatAddUser users => users.bytes
  | chatDeleteUser userId => u64Bytes userId.toUInt64
  | chatJoinedByLink inviterId => u64Bytes inviterId.toUInt64
  | channelCreate title => title.bytes
  | chatMigrateTo channelId => u64Bytes channelId.toUInt64
  | channelMigrateFrom title chatId => title.bytes ++ u64Bytes chatId.toUInt64
  | phoneCall flags callId reason duration =>
    u32Bytes flags ++ (u64Bytes callId.toUInt64 ++
      (whenSet (hasFlag flags 0) (fun h => u32Bytes (reason h)) ++
        whenSet (hasFlag flags 1) fun h => u32Bytes (duration h).toUInt32))
  | customAction message => message.bytes
  | groupCall flags call duration =>
    u32Bytes flags ++ (call.bytes ++
      whenSet (hasFlag flags 0) fun h => u32Bytes (duration h).toUInt32)
  | groupCallScheduled call scheduleDate => call.bytes ++ u32Bytes scheduleDate.toUInt32
  | inviteToGroupCall call users => call.bytes ++ users.bytes
  | empty | chatDeletePhoto | pinMessage | historyClear | screenshotTaken => []

/-- The words for an action.  What was pinned is known from elsewhere. -/
def label (pinned : Bytes) : ServiceAction → Bytes
  | empty => []
  | chatCreate title _ => ascii "created group '" ++ cstr title.val ++ ascii "'"
  | chatEditTitle title => ascii "changed title to '" ++ cstr title.val ++ ascii "'"
  | chatEditPhoto _ => ascii "changed group photo"
  | chatDeletePhoto => ascii "removed group photo"
  | chatAddUser users => ascii "added @" ++ decimal (users.val.headD 0).toInt
  | chatDeleteUser userId => ascii "removed @" ++ decimal userId.toInt
  | chatJoinedByLink _ => ascii "joined via invite link"
  | channelCreate title => ascii "created channel '" ++ cstr title.val ++ ascii "'"
  | chatMigrateTo channelId => ascii "migrated to channel " ++ decimal channelId.toInt
  | channelMigrateFrom title chatId =>
    ascii "migrated from group " ++ decimal chatId.toInt ++ ascii " '" ++ cstr title.val ++
      ascii "'"
  | pinMessage => if pinned = [] then ascii "pinned message" else pinned
  | historyClear => ascii "history cleared"
  | phoneCall flags _ reason duration =>
    ascii "called (duration " ++
      decimal (if h : hasFlag flags 1 = true then duration h else 0).toInt ++ ascii "s, " ++
      (if h : hasFlag flags 0 = true then discardReason (reason h) else ascii "completed") ++
      ascii ")"
  | screenshotTaken => ascii "took screenshot"
  | customAction message => cstr message.val
  | groupCall _ _ _ => ascii "started video chat"
  | groupCallScheduled _ scheduleDate =>
    ascii "scheduled video chat for " ++ decimal scheduleDate.toInt
  | inviteToGroupCall _ _ => ascii "invited to video chat"

def users : ServiceAction → ℕ
  | chatCreate _ users => users.val.length
  | chatAddUser users => users.val.length
  | inviteToGroupCall _ users => users.val.length
  | _ => 0

end ServiceAction

section Vectors

variable (l : TlLongs)

theorem reads_longs {α : Type} {tail : UInt32 → Walk α} {a : α}
    (h : Walk.Reads (tail (UInt32.ofNat l.val.length)) l.items a) :
    Walk.Reads (do
      Walk.need 8
      let vec ← Walk.u32
      Walk.ensure (vec = tlVector)
      let n ← Walk.u32
      tail n) l.bytes a := by
  refine Walk.Reads.need ((Walk.Reads.u32 _).bind (Walk.Reads.ensure rfl
    ((Walk.Reads.u32 _).bind h))) ?_
  rw [TlLongs.bytes, length_append, length_append, length_u32Bytes, length_u32Bytes]
  omega

theorem reads_actionUsers (hl : l.val.length ≤ 4096) : Walk.Reads actionUsers l.bytes () := by
  refine reads_longs l ?_
  refine Walk.Reads.ensure (by rw [l.toNat_length]; exact hl) ?_
  rw [l.toNat_length]
  exact Walk.Reads.need (Walk.Reads.rep Walk.Reads.drop64 l.val) (le_of_eq l.length_items.symm)

theorem reads_readLongVectorFirst (hl : l.val.length ≤ 4096) :
    Walk.Reads readLongVectorFirst l.bytes (l.val.headD 0) := by
  refine reads_longs l ?_
  refine Walk.Reads.ensure (by rw [l.toNat_length]; exact hl) ?_
  rw [l.toNat_length]
  refine Walk.Reads.need ?_ (le_of_eq l.length_items.symm)
  intro r t h
  obtain ⟨r', hrep, ht⟩ := Walk.Reads.rep Walk.Reads.drop64 l.val r t h
  refine ⟨r', ?_, ht⟩
  dsimp only
  rw [hrep]
  rcases hval : l.val with _ | ⟨x, xs⟩
  · rfl
  · rw [TlLongs.items, hval, flatMap_cons, append_assoc] at h
    rw [if_neg (by simp), (tlReadInt64_of_rest h).1]
    rfl

theorem longs_refused {α : Type} {tail : UInt32 → Walk α} (hl : 4096 < l.val.length)
    {r : TlReader} {t : Bytes} (hr : r.rest = l.bytes ++ t) :
    (do
      Walk.need 8
      let vec ← Walk.u32
      Walk.ensure (vec = tlVector)
      let n ← Walk.u32
      Walk.ensure (n.toNat ≤ 4096)
      tail n : Walk α) r = none := by
  have hread : Walk.Reads (do
      Walk.need 8
      let vec ← Walk.u32
      Walk.ensure (vec = tlVector)
      Walk.u32) (u32Bytes tlVector ++ u32Bytes (UInt32.ofNat l.val.length))
      (UInt32.ofNat l.val.length) := by
    refine Walk.Reads.need ((Walk.Reads.u32 _).bind (Walk.Reads.ensure rfl (Walk.Reads.u32 _))) ?_
    rw [length_append, length_u32Bytes, length_u32Bytes]
  rw [TlLongs.bytes, ← append_assoc, append_assoc] at hr
  obtain ⟨r', hread, -⟩ := hread r _ hr
  have hno : ¬ (UInt32.ofNat l.val.length).toNat ≤ 4096 := by rw [l.toNat_length]; omega
  have hbind := Walk.bind_of_some (f := fun n => do
    Walk.ensure (n.toNat ≤ 4096)
    tail n) hread
  rw [Walk.ensure, if_neg hno] at hbind
  simp only [bind_assoc] at hbind
  exact hbind

end Vectors

/-! ### What is made of them -/

section Actions

open Scan

variable {v : MessageView}

theorem view_setText (msg : Bytes) (e : HistoryEntry) :
    (setText msg e).view = { e.view with text := msg.take 511 } := by
  rw [setText]
  split_ifs with h
  · rfl
  · have hle : msg.length ≤ 511 := by
      have : msg.length < 512 := not_le.mp h
      omega
    rw [take_of_length_le hle]
    rfl

theorem reads_setText (msg : Bytes) :
    Reads (set (setText msg)) [] () v { v with text := msg.take 511 } :=
  reads_set fun e he => by rw [view_setText, he]

theorem reads_say (s : Bytes) : Reads (say s) [] () v { v with text := s.take 511 } := by
  have h := reads_setText (v := v) (snprintf historyTextMax s)
  rw [snprintf, take_take] at h
  exact h

theorem reads_walk_need {α β : Type} {n : ℕ} {w : Walk α} {k : α → Prog Scan β} {b : Bytes} {c : β}
    {v' : MessageView} (h : Reads (walk w >>= k) b c v v') (hn : n ≤ b.length) (hpos : 0 < n) :
    Reads (walk (do Walk.need n; w) >>= k) b c v v' := by
  intro st t hr hv
  have hleft := Walk.Reads.le_left hr (ne_nil_of_length_pos (by omega))
  have hneed : Walk.need n st.reader = some ((), st.reader) := if_neg (by omega)
  have hwalk : walk (do Walk.need n; w) st = walk w st := by
    rw [walk, walk, Walk.bind_of_some hneed]
  rw [Prog.bind_congr_at hwalk]
  exact h st t hr hv

theorem reads_groupCall (c : TlGroupCall) : Walk.Reads dropGroupCall c.bytes () :=
  (Walk.Reads.drop32 _).bind ((Walk.Reads.drop64 _).bind (Walk.Reads.drop64 _))

theorem TlGroupCall.length_bytes (c : TlGroupCall) : c.bytes.length = 20 := by
  rw [bytes, length_append, length_append, length_u32Bytes, length_u64Bytes,
    length_u64Bytes]

theorem reads_need_groupCall (c : TlGroupCall) :
    Walk.Reads (do Walk.need (4 + 16); dropGroupCall) c.bytes () :=
  Walk.Reads.need (reads_groupCall c) (le_of_eq c.length_bytes.symm)

theorem reads_need_i64 (x : Int64) :
    Walk.Reads (do Walk.need 8; Walk.i64) (u64Bytes x.toUInt64) x :=
  Walk.Reads.need (Walk.Reads.i64 x) (le_of_eq (length_u64Bytes _).symm)

theorem reads_callReason (flags : UInt32) (reason : hasFlag flags 0 = true → UInt32) :
    Walk.Reads (callReason flags) (whenSet (hasFlag flags 0) fun h => u32Bytes (reason h))
      (if h : hasFlag flags 0 = true then discardReason (reason h) else ascii "completed") := by
  rw [callReason, whenSet]
  split_ifs with h
  · exact Walk.Reads.need ((Walk.Reads.u32 _).last (Walk.Reads.pure _))
      (le_of_eq (length_u32Bytes _).symm)
  · exact Walk.Reads.pure _

theorem reads_callDuration (flags : UInt32) (duration : hasFlag flags 1 = true → Int32) :
    Walk.Reads (callDuration flags)
      (whenSet (hasFlag flags 1) fun h => u32Bytes (duration h).toUInt32)
      (if h : hasFlag flags 1 = true then duration h else 0) := by
  rw [callDuration, whenSet]
  split_ifs with h
  · exact Walk.Reads.need (Walk.Reads.i32 _) (le_of_eq (length_u32Bytes _).symm)
  · exact Walk.Reads.pure _

/-- **Every known action is read to its end**, and gets its words. -/
theorem ServiceAction.reads (a : ServiceAction) (hu : a.users ≤ 4096) (hv : v.text.length ≤ 511) :
    Reads (serviceActionRun a.crc) a.body () v { v with text := (a.label v.text).take 511 } := by
  cases a with
  | empty => exact reads_say _
  | chatCreate title users =>
    exact (reads_walk title.reads_str).bind
      ((reads_walk (reads_actionUsers users hu)).last (reads_say _))
  | chatEditTitle title => exact (reads_walk title.reads_str).last (reads_say _)
  | chatEditPhoto photo => exact (reads_say _).step (reads_walk photo.known)
  | chatDeletePhoto => exact reads_say _
  | chatAddUser users =>
    exact (reads_walk (reads_readLongVectorFirst users hu)).last (reads_say _)
  | chatDeleteUser userId => exact (reads_walk (reads_need_i64 userId)).last (reads_say _)
  | chatJoinedByLink inviterId =>
    exact (reads_walk (Walk.Reads.need (Walk.Reads.drop64 inviterId)
      (le_of_eq (length_u64Bytes _).symm))).last (reads_say _)
  | channelCreate title => exact (reads_walk title.reads_str).last (reads_say _)
  | chatMigrateTo channelId => exact (reads_walk (reads_need_i64 channelId)).last (reads_say _)
  | channelMigrateFrom title chatId =>
    exact (reads_walk title.reads_str).bind
      ((reads_walk (reads_need_i64 chatId)).last (reads_say _))
  | pinMessage =>
    have hpin : Reads
        (set fun e => if e.text = [] then setText (ascii "pinned message") e else e) []
        () v { v with text := (label v.text pinMessage).take 511 } := by
      refine reads_set fun e he => ?_
      rw [label]
      have htext : e.text = v.text := congrArg MessageView.text he
      rw [htext]
      split_ifs with h
      · rw [view_setText, he]
      · rw [he, take_of_length_le hv]
    exact hpin
  | historyClear => exact reads_say _
  | phoneCall flags callId reason duration =>
    refine reads_walk_need ((reads_walk (Walk.Reads.u32 flags)).bind
      ((reads_walk (Walk.Reads.drop64 callId)).bind
      ((reads_walk (reads_callReason flags reason)).bind
        ((reads_walk (reads_callDuration flags duration)).last (reads_say _))))) ?_ (by decide)
    rw [body, length_append, length_append, length_u32Bytes, length_u64Bytes]
    omega
  | screenshotTaken => exact reads_say _
  | customAction message => exact (reads_walk message.reads_str).last (reads_setText _)
  | groupCall flags call duration =>
    refine (reads_walk (Walk.Reads.need (Walk.Reads.u32 flags)
      (le_of_eq (length_u32Bytes _).symm))).bind ((reads_walk (reads_need_groupCall call)).bind
        ((reads_walk (Walk.Reads.opt fun h => Walk.Reads.need (Walk.Reads.drop32 (duration h))
          (le_of_eq (length_u32Bytes _).symm))).last (reads_say _)))
  | groupCallScheduled call scheduleDate =>
    refine reads_walk_need ((reads_walk (reads_groupCall call)).bind
      ((reads_walk (Walk.Reads.i32 scheduleDate)).last (reads_say _))) ?_ (by decide)
    rw [body, length_append, call.length_bytes, length_u32Bytes]
  | inviteToGroupCall call users =>
    exact (reads_walk (reads_need_groupCall call)).bind
      ((reads_walk (reads_actionUsers users hu)).last (reads_say _))

theorem ServiceAction.breaks (a : ServiceAction) (hu : 4096 < a.users) :
    Breaks (serviceActionRun a.crc) a.body v v := by
  cases a with
  | chatCreate title users =>
    exact (reads_walk title.reads_str).bind (breaks_walk (longs_refused users hu)).first
  | chatAddUser users => exact (breaks_walk (longs_refused users hu)).first
  | inviteToGroupCall call users =>
    exact (reads_walk (reads_need_groupCall call)).bind (breaks_walk (longs_refused users hu)).first
  | _ => exact absurd hu (by simp [users])

end Actions

/-! ## `messageService` -/

/-- A `messageService`, as `domain_history_parse_service` has it: without `flags2`, and with nothing
but `ttl_period` behind the action. -/
structure ServiceMessage where
  flags : UInt32
  id : Int32
  fromId : hasFlag flags 8 = true → TlPeer
  peerId : TlPeer
  replyTo : hasFlag flags 3 = true → TlObject tlSkipMessageReplyHeader
  date : Int32
  action : ServiceAction
  ttlPeriod : hasFlag flags 25 = true → Int32

def pinnedLabel (header : Bytes) : Bytes :=
  if u32At header 0 = crcMessageReplyHeader ∧ hasFlag (u32At header 4) 4 = true then
    ascii "pinned message " ++ decimal (u32At header 8).toInt32.toInt
  else []

theorem length_pinnedLabel (header : Bytes) : (pinnedLabel header).length ≤ 511 := by
  rw [pinnedLabel]
  split_ifs
  · have h := length_decimal_le (u32At header 8).toInt32.toInt64
    rw [Int32.toInt_toInt64] at h
    rw [length_append, show (ascii "pinned message ").length = 15 from rfl]
    omega
  · exact Nat.zero_le _

namespace ServiceMessage

variable (m : ServiceMessage)

def tailBytes : Bytes :=
  whenSet (hasFlag m.flags 8) (fun h => (m.fromId h).bytes) ++ (m.peerId.bytes ++
    (whenSet (hasFlag m.flags 3) (fun h => (m.replyTo h).bytes) ++
    (u32Bytes m.date.toUInt32 ++ ((u32Bytes m.action.crc ++ m.action.body) ++
    whenSet (hasFlag m.flags 25) fun h => u32Bytes (m.ttlPeriod h).toUInt32))))

def pinned : Bytes :=
  if h : hasFlag m.flags 3 = true then pinnedLabel (m.replyTo h).bytes else []

def text : Bytes :=
  m.action.label m.pinned

/-- What the entry shows: where there are no words for the action, a label is left from the reply
header. -/
def shown : Bytes :=
  if m.text = [] then m.pinned else m.text

theorem length_pinned : m.pinned.length ≤ 511 := by
  rw [pinned]
  split_ifs
  · exact length_pinnedLabel _
  · exact Nat.zero_le _

end ServiceMessage

section Service

open Scan

variable {v : MessageView}

theorem tlReadUint32_ahead {r : TlReader} {b t : Bytes} {o : ℕ} (h : r.rest = b ++ t)
    (ho : o + 4 ≤ b.length) : (tlReadUint32 (r.advance o)).1 = u32At b o := by
  have hfit := TlReader.fits_of_rest h (ne_nil_of_length_pos (by omega))
  have hread : readFixed (r.advance o) 4 = (slice r.data (r.pos + o) 4, (r.advance o).advance 4) :=
    readFixed_of_le (by rw [TlReader.pos_advance, TlReader.data_advance]; omega)
  rw [tlReadUint32, hread]
  dsimp only
  rw [r.slice_rest, h, slice_append_left ho, u32At]

theorem le_left_of_word {r : TlReader} {x : UInt32} {b t : Bytes}
    (h : r.rest = (u32Bytes x ++ b) ++ t) : 4 ≤ r.left := by
  have hne : u32Bytes x ++ b ≠ [] := by
    refine ne_nil_of_length_pos ?_
    rw [length_append, length_u32Bytes]
    omega
  have hleft := Walk.Reads.le_left h hne
  rw [length_append, length_u32Bytes] at hleft
  omega

variable (o : TlObject tlSkipMessageReplyHeader)

theorem replyHeader_length :
    8 ≤ o.bytes.length ∧ (u32At o.bytes 0 = crcMessageReplyHeader →
      hasFlag (u32At o.bytes 4) 4 = true → 12 ≤ o.bytes.length) := by
  obtain ⟨r', hr, -⟩ := o.known ⟨o.bytes, 0⟩ [] (append_nil _).symm
  unfold tlSkipMessageReplyHeader at hr
  rw [Skipper.skip_of] at hr
  obtain ⟨_, r₁, henter, hr⟩ := Walk.bind_eq_some.mp hr
  obtain ⟨hpos, hfit, rfl⟩ := Guarded.enter_eq_some.mp henter
  obtain ⟨crc, r₂, hcrc, hr⟩ := Walk.bind_eq_some.mp hr
  obtain ⟨rfl, rfl⟩ := Walk.u32_at hfit hcrc
  split at hr
  case isTrue hstory =>
    obtain ⟨_, r₃, hpeer, -⟩ := Walk.bind_eq_some.mp hr
    obtain ⟨_, hpeer, -⟩ := Option.map_eq_some_iff.mp hpeer
    have hleft := le_left_of_tlSkipPeer hpeer
    rw [TlReader.left_of_le hfit] at hleft
    dsimp only at hleft
    refine ⟨by omega, fun h => ?_⟩
    rw [hstory] at h
    exact absurd h (by decide)
  case isFalse =>
    obtain ⟨_, r₃, hens, hr⟩ := Walk.bind_eq_some.mp hr
    obtain ⟨-, rfl⟩ := Walk.ensure_eq_some.mp hens
    obtain ⟨_, r₄, hneed, hr⟩ := Walk.bind_eq_some.mp hr
    obtain ⟨rfl, h8⟩ := Walk.need_at hfit hneed
    obtain ⟨flags, r₅, hflags, hr⟩ := Walk.bind_eq_some.mp hr
    obtain ⟨rfl, rfl⟩ := Walk.u32_at h8 hflags
    refine ⟨by omega, fun _ hflag => ?_⟩
    obtain ⟨_, r₆, hid, -⟩ := Walk.bind_eq_some.mp hr
    rw [Walk.opt, if_pos hflag] at hid
    obtain ⟨_, r₇, hneed', -⟩ := Walk.bind_eq_some.mp hid
    obtain ⟨-, h12⟩ := Walk.need_at h8 hneed'
    omega

theorem peekPinned_eq {r : TlReader} {t : Bytes} (h : r.rest = o.bytes ++ t) :
    peekPinned r = if u32At o.bytes 0 = crcMessageReplyHeader ∧
      hasFlag (u32At o.bytes 4) 4 = true then some (u32At o.bytes 8).toInt32 else none := by
  obtain ⟨h8, h12⟩ := replyHeader_length o
  have hcrc : (tlReadUint32 r).1 = u32At o.bytes 0 := tlReadUint32_ahead (o := 0) h (by omega)
  have hflags : (tlReadUint32 (r.advance 4)).1 = u32At o.bytes 4 := tlReadUint32_ahead h (by omega)
  rw [peekPinned, hcrc, hflags]
  by_cases hpin : u32At o.bytes 0 = crcMessageReplyHeader ∧ hasFlag (u32At o.bytes 4) 4 = true
  · have hlen := h12 hpin.1 hpin.2
    have hleft := Walk.Reads.le_left h (ne_nil_of_length_pos (by omega))
    have hid : (tlReadInt32 (r.advance 8)).1 = (u32At o.bytes 8).toInt32 :=
      congrArg UInt32.toInt32 (tlReadUint32_ahead h (by omega))
    rw [if_pos ⟨by omega, hpin⟩, if_pos hpin, hid]
  · rw [if_neg fun h => hpin h.2, if_neg hpin]

theorem reads_reply (hv : v.text = []) :
    Reads (do
      let pinned ← Prog.ask fun st => peekPinned st.reader
      notePinned pinned
      skip tlSkipMessageReplyHeader) o.bytes () v { v with text := pinnedLabel o.bytes } := by
  refine Prog.Takes.look fun st t hr _ => ?_
  have hnote : Reads (notePinned (peekPinned st.reader)) [] () v
      { v with text := pinnedLabel o.bytes } := by
    have hshort := length_pinnedLabel o.bytes
    rw [peekPinned_eq o hr]
    rw [pinnedLabel] at hshort ⊢
    split_ifs at hshort ⊢
    · have h := reads_say (v := v)
        (ascii "pinned message " ++ decimal (u32At o.bytes 8).toInt32.toInt)
      rw [take_of_length_le hshort] at h
      exact h
    · have hsame : ({ v with text := [] } : MessageView) = v := by rw [← hv]
      rw [hsame]
      exact Prog.Takes.pure
  exact hnote.step (reads_skip o.skip_eq)

theorem reads_skipTtl (flags : UInt32) (ttlPeriod : hasFlag flags 25 = true → Int32) :
    Reads (skipTtl flags) (whenSet (hasFlag flags 25) fun h => u32Bytes (ttlPeriod h).toUInt32) ()
      v v := by
  rw [skipTtl, whenSet]
  split_ifs with h
  · refine Prog.Takes.look fun st t hr _ => ?_
    have hleft := Walk.Reads.le_left hr (ne_nil_of_length_pos (by rw [length_u32Bytes]; decide))
    rw [length_u32Bytes] at hleft
    rw [if_pos hleft]
    exact (reads_read tlReadInt32_of_rest).last Prog.Takes.pure
  · exact Prog.Takes.pure

theorem reads_markService : Reads (set fun e => { e with isService := true }) [] () v v :=
  reads_set fun _ he => he

theorem takes_parseServiceAction {crc : UInt32} {b : Bytes} {o : Option Unit} {v' : MessageView}
    (h : Takes (serviceActionRun crc) b o v v') :
    Takes parseServiceAction (u32Bytes crc ++ b) o v v' := by
  refine reads_markService.step (Prog.Takes.look fun st t hr _ => ?_)
  rw [if_neg (not_lt.mpr (le_left_of_word hr))]
  exact (reads_read tlReadUint32_of_rest).bind h

theorem view_restoreText (saved : Bytes) (e : HistoryEntry) :
    (restoreText saved e).view =
      { e.view with text := if e.view.text = [] then saved else e.view.text } := by
  rw [restoreText]
  by_cases htext : e.text = []
  · have hview : e.view.text = [] := htext
    rw [if_pos hview]
    by_cases hsaved : saved = []
    · rw [if_neg fun h => h.2 hsaved, hsaved, ← hview]
    · rw [if_pos ⟨htext, hsaved⟩]
      rfl
  · have hview : ¬ e.view.text = [] := htext
    rw [if_neg hview, if_neg fun h => htext h.1]

namespace ServiceMessage

variable (m : ServiceMessage)

theorem take_shown : (if (m.text.take 511) = [] then m.pinned else m.text.take 511) =
    m.shown.take 511 := by
  rw [shown]
  by_cases h : m.text = []
  · rw [if_pos h, h, take_nil, if_pos rfl, take_of_length_le m.length_pinned]
  · have htake : m.text.take 511 ≠ [] := by
      rw [Ne, take_eq_nil_iff]
      exact fun h' => h'.elim (by decide) h
    rw [if_neg h, if_neg htake]

theorem reads_replyTo (hv : v.text = []) : Reads (opt (hasFlag m.flags 3) do
      let pinned ← Prog.ask fun st => peekPinned st.reader
      notePinned pinned
      skip tlSkipMessageReplyHeader)
      (whenSet (hasFlag m.flags 3) fun h => (m.replyTo h).bytes) () v
      { v with text := m.pinned } := by
  rw [opt, whenSet, pinned]
  split_ifs with h
  · exact reads_reply (m.replyTo h) hv
  · have hsame : ({ v with text := [] } : MessageView) = v := by rw [← hv]
    rw [hsame]
    exact Prog.Takes.pure

def runAction (saved : Bytes) : Prog Scan Unit :=
  parseServiceAction.after fun st => { st with entry := restoreText saved st.entry }

/-- The fields between the id and the action, with `b` behind them. -/
def upToAction (b : Bytes) : Bytes :=
  whenSet (hasFlag m.flags 8) (fun h => (m.fromId h).bytes) ++ (m.peerId.bytes ++
    (whenSet (hasFlag m.flags 3) (fun h => (m.replyTo h).bytes) ++
    (u32Bytes m.date.toUInt32 ++ b)))

theorem upToAction_append (b t : Bytes) : m.upToAction b ++ t = m.upToAction (b ++ t) := by
  simp only [upToAction, append_assoc]

theorem takes_upToAction (hv : v.text = []) {b : Bytes} {o : Option Unit} {v' : MessageView}
    (hb : Takes (do runAction m.pinned; skipTtl m.flags) b o
      { v with date := m.date.toInt64, text := m.pinned } v') :
    Takes (domainHistoryParseService m.flags) (m.upToAction b) o v v' := by
  refine reads_markService.step ?_
  refine (reads_opt fun h => reads_skip (m.fromId h).skip_eq).bind ?_
  refine (reads_skip m.peerId.skip_eq).bind ?_
  refine (m.reads_replyTo hv).bind ?_
  refine takes_need ((reads_read tlReadInt32_of_rest).bind ((reads_setDate m.date).step ?_))
    (by rw [length_append, length_u32Bytes]; omega) (by decide)
  refine Prog.Takes.look fun st _ _ hview => ?_
  have hsaved : st.entry.text = m.pinned := congrArg MessageView.text hview
  rw [hsaved]
  exact hb

/-- **A service message is read to its end.** -/
theorem reads_tail (hu : m.action.users ≤ 4096) (hv : v.text = []) :
    Reads (domainHistoryParseService m.flags) m.tailBytes () v
      { v with date := m.date.toInt64, text := m.shown.take 511 } := by
  have haction : Reads (runAction m.pinned) (u32Bytes m.action.crc ++ m.action.body) ()
      { v with date := m.date.toInt64, text := m.pinned }
      { v with date := m.date.toInt64, text := m.shown.take 511 } := by
    refine (takes_parseServiceAction (m.action.reads hu m.length_pinned)).after (fun _ => rfl)
      fun st hst => ?_
    rw [view_restoreText, hst]
    exact congrArg (fun text => (⟨v.id, m.date.toInt64, text⟩ : MessageView)) m.take_shown
  exact m.takes_upToAction hv (haction.bind (reads_skipTtl m.flags m.ttlPeriod))

theorem breaks_tail (hu : 4096 < m.action.users) (hv : v.text = []) :
    Breaks (domainHistoryParseService m.flags) m.tailBytes v
      { v with date := m.date.toInt64, text := m.pinned } := by
  have haction : Breaks (runAction m.pinned) (u32Bytes m.action.crc ++ m.action.body)
      { v with date := m.date.toInt64, text := m.pinned }
      { v with date := m.date.toInt64, text := m.pinned } := by
    refine (takes_parseServiceAction (m.action.breaks hu)).after (fun _ => rfl) fun st hst => ?_
    rw [view_restoreText, hst]
    exact congrArg (fun text => (⟨v.id, m.date.toInt64, text⟩ : MessageView)) (ite_self m.pinned)
  exact m.takes_upToAction hv (haction.first.append _)

end ServiceMessage

end Service

/-! ## `Message` -/

inductive TlMessage where
  | empty (flags : UInt32) (id : Int32) (peerId : hasFlag flags 0 = true → TlPeer)
  | message (m : PlainMessage)
  | service (m : ServiceMessage)

namespace TlMessage

def bytes : TlMessage → Bytes
  | empty flags id peerId =>
    u32Bytes tlMessageEmpty ++ (u32Bytes flags ++ (u32Bytes id.toUInt32 ++
      whenSet (hasFlag flags 0) fun h => (peerId h).bytes))
  | message m => u32Bytes tlMessage ++ m.bodyBytes
  | service m =>
    u32Bytes tlMessageService ++ (u32Bytes m.flags ++ (u32Bytes m.id.toUInt32 ++ m.tailBytes))

def id : TlMessage → Int32
  | empty _ id _ => id
  | message m => m.id
  | service m => m.id

def date : TlMessage → Int64
  | empty _ _ _ => 0
  | message m => m.date.toInt64
  | service m => m.date.toInt64

def text : TlMessage → Bytes
  | empty _ _ _ => []
  | message m => m.text.val
  | service m => m.text

/-- What an entry for the message has to show: the text is cut to its array. -/
def view (m : TlMessage) : MessageView :=
  ⟨m.id, m.date, m.text.take 511⟩

/-- The text has no `NUL` in the part that fits the array; the vector of users is not refused; an
action without words does not take over a label from the reply header. -/
def Readable : TlMessage → Prop
  | empty _ _ _ => True
  | message m => 0 ∉ m.text.val.take 511
  | service m => m.action.users ≤ 4096 ∧ (m.text = [] → m.pinned = [])

theorem bytes_cons (m : TlMessage) : ∃ crc b, m.bytes = u32Bytes crc ++ b := by
  cases m with
  | empty flags id peerId => exact ⟨_, _, rfl⟩
  | message m => exact ⟨_, _, rfl⟩
  | service m => exact ⟨_, _, rfl⟩

end TlMessage

theorem take_cstr_eq_iff (s : Bytes) (n : ℕ) : (cstr s).take n = s.take n ↔ 0 ∉ s.take n := by
  induction s generalizing n with
  | nil => simp [cstr]
  | cons c s ih =>
    cases n with
    | zero => simp
    | succ n =>
      rw [cstr, takeWhile_cons]
      by_cases hc : c = 0
      · simp [hc]
      · rw [if_pos (by simpa using hc), take_succ_cons, take_succ_cons,
          cons_inj_right, mem_cons, not_or]
        have hc' : ¬ (0 : UInt8) = c := fun h => hc h.symm
        exact (ih n).trans ⟨fun h => ⟨hc', h⟩, fun h => h.2⟩

section Messages

open Scan

variable (keepsInfo : Bool)

def MessageView.zero : MessageView :=
  ⟨0, 0, []⟩

theorem view_zero : HistoryEntry.zero.view = .zero :=
  rfl

theorem reads_setId {v : MessageView} (x : Int32) :
    Reads (set fun e => { e with id := x }) [] () v { v with id := x } :=
  reads_set fun _ he => by rw [← he]; rfl

theorem reads_setOut {v : MessageView} (c : Bool) :
    Reads (set fun e => { e with out := c }) [] () v v :=
  reads_set fun _ he => he

section Constructor

variable {form : MessageForm} {w : MessageWalkers} {crc : UInt32} {b : Bytes} {v v' : MessageView}

theorem word_ne_nil (crc : UInt32) (b : Bytes) : u32Bytes crc ++ b ≠ [] := by
  refine ne_nil_of_length_pos ?_
  rw [length_append, length_u32Bytes]
  omega

theorem takes_parse {o : Option Unit} (h : Takes (parseConstructed form w crc) b o v v') :
    Takes (parseMessageAs form w) (u32Bytes crc ++ b) o v v' := by
  rw [parseMessageAs]
  refine Prog.Takes.look fun st t hr _ => ?_
  rw [tlReaderOk_of_rest hr (word_ne_nil crc b), Bool.not_true, if_neg Bool.false_ne_true]
  exact (reads_read tlReadUint32_of_rest).bind h

end Constructor

theorem reads_peer (p : TlPeer) {v : MessageView} : Reads (do
    let _ ← read tlReadUint32
    let _ ← read tlReadInt64) p.bytes () v v :=
  (reads_read tlReadUint32_of_rest).bind ((reads_read tlReadInt64_of_rest).last Prog.Takes.pure)

theorem PlainMessage.reads_body (m : PlainMessage) :
    Reads (parseConstructed (peerSkipped keepsInfo) messageWalkers tlMessage) m.bodyBytes () .zero
      ⟨m.id, m.date.toInt64, (cstr m.text.val).take 511⟩ := by
  refine (reads_read tlReadUint32_of_rest).bind ?_
  refine (reads_read tlReadUint32_of_rest).bind ?_
  refine (reads_setOut _).step ?_
  refine (reads_read tlReadInt32_of_rest).bind ?_
  refine (reads_setId m.id).step ?_
  refine (m.reads_head keepsInfo).bind ?_
  refine (reads_read m.text.readString).bind ?_
  exact (reads_setText (cstr m.text.val)).step (m.reads_trailer keepsInfo)

def pageParser : Prog Scan Unit :=
  parseMessageAs (peerSkipped keepsInfo) messageWalkers

section ServiceBody

variable (m : ServiceMessage)

theorem takes_serviceBody {flags : UInt32} (id : Int32) {b : Bytes} {o : Option Unit}
    {v' : MessageView} (hb : Takes (domainHistoryParseService flags) b o ⟨id, 0, []⟩ v') :
    Takes (parseConstructed (peerSkipped keepsInfo) messageWalkers tlMessageService)
      (u32Bytes flags ++ (u32Bytes id.toUInt32 ++ b)) o .zero v' := by
  refine (reads_read tlReadUint32_of_rest).bind ?_
  refine Prog.Takes.step (Prog.Takes.pure (a := (0 : UInt32))) ?_
  refine (reads_setOut _).step ?_
  refine (reads_read tlReadInt32_of_rest).bind ?_
  exact (reads_setId id).step hb

theorem ServiceMessage.reads_body (hu : m.action.users ≤ 4096) :
    Reads (parseConstructed (peerSkipped keepsInfo) messageWalkers tlMessageService)
      (u32Bytes m.flags ++ (u32Bytes m.id.toUInt32 ++ m.tailBytes)) () .zero
      ⟨m.id, m.date.toInt64, m.shown.take 511⟩ :=
  takes_serviceBody keepsInfo m.id (m.reads_tail hu rfl)

theorem ServiceMessage.breaks_body (hu : 4096 < m.action.users) :
    Breaks (parseConstructed (peerSkipped keepsInfo) messageWalkers tlMessageService)
      (u32Bytes m.flags ++ (u32Bytes m.id.toUInt32 ++ m.tailBytes)) .zero
      ⟨m.id, m.date.toInt64, m.pinned⟩ :=
  takes_serviceBody keepsInfo m.id (m.breaks_tail hu rfl)

end ServiceBody

namespace TlMessage

/-- **A readable message is read to its end**, and its id, its date and its text are found. -/
theorem reads (m : TlMessage) (h : m.Readable) :
    Reads (pageParser keepsInfo) m.bytes () .zero m.view := by
  cases m with
  | empty flags id peerId =>
    refine takes_parse ?_
    refine (reads_read tlReadUint32_of_rest).bind ?_
    refine (reads_read tlReadInt32_of_rest).bind ?_
    exact (reads_setId id).step (reads_opt fun h => reads_peer (peerId h))
  | message m =>
    have hbody := m.reads_body keepsInfo
    rw [(take_cstr_eq_iff m.text.val 511).mpr h] at hbody
    exact takes_parse hbody
  | service m =>
    have hshown : m.shown = m.text := by
      rw [ServiceMessage.shown]
      split_ifs with htext
      · rw [htext, h.2 htext]
      · rfl
    have hbody := m.reads_body keepsInfo h.1
    rw [hshown] at hbody
    exact takes_parse hbody

/-- The words for an action that names users are never those for a pin. -/
theorem pinned_ne_text (m : ServiceMessage) (hu : 4096 < m.action.users) :
    m.pinned ≠ m.text.take 511 := by
  have hpinned : m.pinned.head? = none ∨ m.pinned.head? = some 0x70 := by
    rw [ServiceMessage.pinned]
    split_ifs with h
    · rw [pinnedLabel]
      split_ifs
      · exact .inr rfl
      · exact .inl rfl
    · exact .inl rfl
  have htext : (m.text.take 511).head? ≠ none ∧ (m.text.take 511).head? ≠ some 0x70 := by
    rw [ServiceMessage.text]
    cases ha : m.action with
    | chatCreate title users =>
      have hhead : ((ServiceAction.label m.pinned (.chatCreate title users)).take 511).head? =
        some 0x63 := rfl
      rw [hhead]
      decide
    | chatAddUser users =>
      have hhead : ((ServiceAction.label m.pinned (.chatAddUser users)).take 511).head? =
        some 0x61 := rfl
      rw [hhead]
      decide
    | inviteToGroupCall call users =>
      have hhead : ((ServiceAction.label m.pinned (.inviteToGroupCall call users)).take 511).head? =
        some 0x69 := rfl
      rw [hhead]
      decide
    | _ =>
      rw [ha] at hu
      exact absurd hu (by simp [ServiceAction.users])
  intro he
  rw [he] at hpinned
  exact hpinned.elim htext.1 htext.2

/-- **Any other message is shown with another text.** -/
theorem misread (m : TlMessage) (h : ¬ m.Readable) :
    ∃ (v : MessageView) (o : Option Unit), v.id = m.id ∧ v.text ≠ m.view.text ∧
      Takes (pageParser keepsInfo) m.bytes o .zero v := by
  cases m with
  | empty flags id peerId => exact absurd trivial h
  | message m =>
    refine ⟨_, _, rfl, fun he => ?_, takes_parse (m.reads_body keepsInfo)⟩
    exact h ((take_cstr_eq_iff m.text.val 511).mp he)
  | service m =>
    by_cases hu : m.action.users ≤ 4096
    · refine ⟨_, _, rfl, fun he => ?_, takes_parse (m.reads_body keepsInfo hu)⟩
      refine h ⟨hu, fun htext => ?_⟩
      have he : m.shown.take 511 = m.text.take 511 := he
      rw [ServiceMessage.shown, if_pos htext, htext, take_nil,
        take_of_length_le m.length_pinned] at he
      exact he
    · exact ⟨_, _, rfl, pinned_ne_text m (by omega),
        takes_parse (m.breaks_body keepsInfo (by omega))⟩

end TlMessage

end Messages

end TgCli.Domain
