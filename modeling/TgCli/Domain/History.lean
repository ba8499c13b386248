import TgCli.Lib.Decimal
import TgCli.Core.TlSkip.Message
import TgCli.Domain.Messages

/-!
# `domain/read/history.c`: service messages, and the parsers of history and search

A service message has an action where another message has its text.  `domain_history_parse_service`
renders the action into the text of the entry, and all three parsers call it.  An action it does not
know gets a label and counts as read, although what follows its constructor has not been passed.

`messageWalkers` puts the functions of `core/tl_skip.c` in the place of the abstract skippers.
-/

namespace TgCli.Domain

open Lib TgCli.Core

/-! ## Constructors -/

def crcPhoneCallDiscardReasonMissed : UInt32 := 0x85e42301
def crcPhoneCallDiscardReasonDisconnect : UInt32 := 0xe095c1a0
def crcPhoneCallDiscardReasonHangup : UInt32 := 0x57adc690
def crcPhoneCallDiscardReasonBusy : UInt32 := 0xfaf7e8c9

/-! ## Actions -/

namespace Scan

/-- A piece of a walker that returns -1 without a mark on the entry. -/
def walk {α : Type} (w : Walk α) : Prog Scan α :=
  fun st =>
    match w st.reader with
    | some (a, r) => (some a, { st with reader := r })
    | none => (none, st)

/-- `set_text` of a formatted text. -/
def say (s : Bytes) : Prog Scan Unit :=
  set (setText (snprintf historyTextMax s))

end Scan

/-- `read_long_vector_first`: the first element, or 0. -/
def readLongVectorFirst : Walk Int64 := do
  Walk.need 8
  let vec ← Walk.u32
  Walk.ensure (vec = tlVector)
  let n ← Walk.u32
  Walk.ensure (n.toNat ≤ 4096)
  Walk.need (n.toNat * 8)
  fun r =>
    (Walk.rep Walk.drop64 n.toNat r).map fun x =>
      (if n.toNat = 0 then 0 else (tlReadInt64 r).1, x.2)

def discardReason (rcrc : UInt32) : Bytes :=
  if rcrc = crcPhoneCallDiscardReasonMissed then ascii "missed"
  else if rcrc = crcPhoneCallDiscardReasonDisconnect then ascii "disconnected"
  else if rcrc = crcPhoneCallDiscardReasonHangup then ascii "hangup"
  else if rcrc = crcPhoneCallDiscardReasonBusy then ascii "busy"
  else ascii "completed"

def callReason (pflags : UInt32) : Walk Bytes :=
  if hasFlag pflags 0 then do
    Walk.need 4
    let rcrc ← Walk.u32
    pure (discardReason rcrc)
  else pure (ascii "completed")

def callDuration (pflags : UInt32) : Walk Int32 :=
  if hasFlag pflags 1 then do
    Walk.need 4
    Walk.i32
  else pure 0

def dropGroupCall : Walk Unit := do
  Walk.drop32; Walk.drop64; Walk.drop64

def unknownLabel (acrc : UInt32) : Bytes :=
  ascii "[service action 0x" ++ hex8 acrc ++ ascii "]"

open Scan in
/-- What `parse_service_action` does behind the constructor. -/
def serviceActionRun (acrc : UInt32) : Prog Scan Unit :=
  if acrc = crcMessageActionEmpty then say []
  else if acrc = crcMessageActionChatCreate then do
    let title ← walk Walk.str
    walk actionUsers
    say (ascii "created group '" ++ title ++ ascii "'")
  else if acrc = crcMessageActionChatEditTitle then do
    let title ← walk Walk.str
    say (ascii "changed title to '" ++ title ++ ascii "'")
  else if acrc = crcMessageActionChatEditPhoto then do
    -- the text is the same whether the photo can be passed or not
    say (ascii "changed group photo")
    walk (Walk.skip tlSkipPhoto)
  else if acrc = crcMessageActionChatDeletePhoto then say (ascii "removed group photo")
  else if acrc = crcMessageActionChatAddUser then do
    let first ← walk readLongVectorFirst
    say (ascii "added @" ++ decimal first.toInt)
  else if acrc = crcMessageActionChatDeleteUser then do
    let uid ← walk do Walk.need 8; Walk.i64
    say (ascii "removed @" ++ decimal uid.toInt)
  else if acrc = crcMessageActionChatJoinedByLink then do
    walk do Walk.need 8; Walk.drop64
    say (ascii "joined via invite link")
  else if acrc = crcMessageActionChannelCreate then do
    let title ← walk Walk.str
    say (ascii "created channel '" ++ title ++ ascii "'")
  else if acrc = crcMessageActionChatMigrateTo then do
    let cid ← walk do Walk.need 8; Walk.i64
    say (ascii "migrated to channel " ++ decimal cid.toInt)
  else if acrc = crcMessageActionChannelMigrateFrom then do
    let title ← walk Walk.str
    let cid ← walk do Walk.need 8; Walk.i64
    say (ascii "migrated from group " ++ decimal cid.toInt ++ ascii " '" ++ title ++ ascii "'")
  else if acrc = crcMessageActionPinMessage then
    set fun e => if e.text = [] then setText (ascii "pinned message") e else e
  else if acrc = crcMessageActionHistoryClear then say (ascii "history cleared")
  else if acrc = crcMessageActionPhoneCall then do
    let pflags ← walk do Walk.need (4 + 8); Walk.u32
    walk Walk.drop64
    let reason ← walk (callReason pflags)
    let duration ← walk (callDuration pflags)
    say (ascii "called (duration " ++ decimal duration.toInt ++ ascii "s, " ++ reason ++ ascii ")")
  else if acrc = crcMessageActionScreenshotTaken then say (ascii "took screenshot")
  else if acrc = crcMessageActionCustomAction then do
    -- not by way of the buffer, so a long label is marked as truncated
    let msg ← walk Walk.str
    set (setText msg)
  else if acrc = crcMessageActionGroupCall then do
    let gflags ← walk do Walk.need 4; Walk.u32
    walk do Walk.need (4 + 16); dropGroupCall
    walk (Walk.opt (hasFlag gflags 0) do Walk.need 4; Walk.drop32)
    say (ascii "started video chat")
  else if acrc = crcMessageActionGroupCallScheduled then do
    walk do Walk.need (4 + 16 + 4); dropGroupCall
    let sched ← walk Walk.i32
    say (ascii "scheduled video chat for " ++ decimal sched.toInt)
  else if acrc = crcMessageActionInviteToGroupCall then do
    walk do Walk.need (4 + 16); dropGroupCall
    walk actionUsers
    say (ascii "invited to video chat")
  else say (unknownLabel acrc)

/-- The constructors that `parse_service_action` has a case for: `skip_message_action` knows two
more, both without fields. -/
def labelledActions : List UInt32 :=
  knownActions.filter fun acrc =>
    acrc ≠ crcMessageActionContactSignUp ∧ acrc ≠ crcMessageActionChatJoinedByRequest

theorem serviceActionRun_of_unlabelled {acrc : UInt32} (h : acrc ∉ labelledActions) :
    serviceActionRun acrc = Scan.say (unknownLabel acrc) := by
  by_cases hsign : acrc = crcMessageActionContactSignUp
  · rw [hsign]
    rfl
  by_cases hjoined : acrc = crcMessageActionChatJoinedByRequest
  · rw [hjoined]
    rfl
  rw [labelledActions, List.mem_filter, decide_eq_true_eq, and_iff_left ⟨hsign, hjoined⟩] at h
  simp only [knownActions, List.mem_cons, List.not_mem_nil, not_or, or_false] at h
  simp only [serviceActionRun, h, if_false]

open Scan in
def parseServiceAction : Prog Scan Unit := do
  set fun e => { e with isService := true }
  if (← Prog.ask fun st => st.reader.left) < 4 then
    set (setText (ascii "[service action truncated]"))
    Prog.fail
  else
    let acrc ← read tlReadUint32
    serviceActionRun acrc

/-! ## Service messages -/

/-- The id of the pinned message, from a look at the reply header. -/
def peekPinned (r : TlReader) : Option Int32 :=
  if r.left ≥ 12 ∧ (tlReadUint32 r).1 = crcMessageReplyHeader ∧
      hasFlag (tlReadUint32 (r.advance 4)).1 4 then
    some (tlReadInt32 (r.advance 8)).1
  else none

/-- `snprintf(buf, …, "pinned message %d", pinned); set_text(out, buf);`. -/
def notePinned : Option Int32 → Prog Scan Unit
  | some pinned => Scan.say (ascii "pinned message " ++ decimal pinned.toInt)
  | none => pure ()

/-- The text from before the action, where the action leaves none. -/
def restoreText (saved : Bytes) (e : HistoryEntry) : HistoryEntry :=
  if e.text = [] ∧ saved ≠ [] then { e with text := saved } else e

/-- `ttl_period`, if it is there. -/
def skipTtl (flags : UInt32) : Prog Scan Unit := do
  if hasFlag flags 25 then
    if (← Prog.ask fun st => st.reader.left) ≥ 4 then
      let _ ← Scan.read tlReadInt32

open Scan in
def domainHistoryParseService (flags : UInt32) : Prog Scan Unit := do
  set fun e => { e with isService := true }
  opt (hasFlag flags 8) (skip tlSkipPeer)
  skip tlSkipPeer
  opt (hasFlag flags 3) do
    let pinned ← Prog.ask fun st => peekPinned st.reader
    notePinned pinned
    skip tlSkipMessageReplyHeader
  need 4
  let date ← read tlReadInt32
  set fun e => { e with date := date.toInt64 }
  let saved ← Prog.ask fun st => st.entry.text
  parseServiceAction.after fun st => { st with entry := restoreText saved st.entry }
  skipTtl flags

/-! ## The parsers -/

def messageWalkers : MessageWalkers where
  messageFwdHeader := tlSkipMessageFwdHeader
  messageReplyHeader := tlSkipMessageReplyHeader
  messageMediaEx r :=
    let x := tlSkipMessageMediaEx.run ⟨r, some .zero⟩
    (x.2.out.getD .zero, x.1.map fun _ => x.2.reader)
  replyMarkup := tlSkipReplyMarkup
  messageEntitiesVector := tlSkipMessageEntitiesVector
  messageReplies := tlSkipMessageReplies
  messageReactions := tlSkipMessageReactions
  restrictionReasonVector := tlSkipRestrictionReasonVector
  factcheck := tlSkipFactcheck
  parseService := domainHistoryParseService

def historyParseMessage : Prog Scan Unit :=
  parseMessageAs ⟨Scan.skip tlSkipPeer, true⟩ messageWalkers

def searchParseMessage : Prog Scan Unit :=
  parseMessageAs ⟨Scan.skip tlSkipPeer, false⟩ messageWalkers

end TgCli.Domain
