import TgCli.Lib.Prog
import TgCli.Core.TlSkip

/-!
# `domain/read`: parsing one message

`history.c`, `search.c` and `updates.c` each have a `parse_message` of their own.  The three are one
text up to two places: what is done with `peer_id`, and whether the whole `MediaInfo` is kept.
`parseMessageAs` has these two places as a parameter, and each file's parser is an instance of it.

A message is parsed into a `HistoryEntry` that is kept when the parsing gives up half way, so the
parser is a program (`Lib.Prog`) on the cursor and the entry.
-/

namespace TgCli.Domain

open Lib TgCli.Core

def historyTextMax : ℕ := 512

/-- `HistoryEntry`; `text` is the string in its 512-byte array. -/
structure HistoryEntry where
  id : Int32
  date : Int64
  out : Bool
  text : Bytes
  truncated : Bool
  complex : Bool
  isService : Bool
  media : MediaKind
  mediaId : Int64
  mediaDc : Int32
  mediaInfo : MediaInfo
  peerId : Int64
  deriving DecidableEq

/-- `HistoryEntry e = {0}`. -/
def HistoryEntry.zero : HistoryEntry :=
  ⟨0, 0, false, [], false, false, false, .none, 0, 0, .zero, 0⟩

inductive HistoryPeerKind where
  | self
  | user
  | chat
  | channel
  deriving DecidableEq

structure HistoryPeer where
  kind : HistoryPeerKind
  peerId : Int64
  accessHash : Int64
  deriving DecidableEq

structure Scan where
  reader : TlReader
  entry : HistoryEntry
  deriving DecidableEq

namespace Scan

def read {α : Type} (f : TlReader → α × TlReader) : Prog Scan α :=
  Prog.act fun st => ((f st.reader).1, { st with reader := (f st.reader).2 })

def set (f : HistoryEntry → HistoryEntry) : Prog Scan Unit :=
  Prog.update fun st => { st with entry := f st.entry }

/-- `out->complex = 1; return -1;`. -/
def bail {α : Type} : Prog Scan α := do
  set fun e => { e with complex := true }
  Prog.fail

def skip (f : TlReader → Option TlReader) : Prog Scan Unit := do
  match ← Prog.ask fun st => f st.reader with
  | some r => Prog.update fun st => { st with reader := r }
  | none => bail

def need (n : ℕ) : Prog Scan Unit := do
  if (← Prog.ask fun st => st.reader.left) < n then bail

/-- `if (c) { … }`. -/
def opt (c : Bool) (m : Prog Scan Unit) : Prog Scan Unit :=
  if c then m else pure ()

def drop {α : Type} (n : ℕ) (f : TlReader → α × TlReader) : Prog Scan Unit := do
  need n
  let _ ← read f

end Scan

/-- What `parse_message` calls: the skippers, and `domain_history_parse_service` for the flags of a
service message. -/
structure MessageWalkers extends MessageSkippers where
  parseService : UInt32 → Prog Scan Unit

structure MessageForm where
  /-- What is done with `peer_id`. -/
  peer : Prog Scan Unit
  /-- Whether `media_info` is kept. -/
  keepsInfo : Bool

section Message

variable (form : MessageForm) (w : MessageWalkers)

open Scan

def setText (msg : Bytes) (e : HistoryEntry) : HistoryEntry :=
  if msg.length ≥ historyTextMax then
    { e with text := msg.take (historyTextMax - 1), truncated := true }
  else { e with text := msg }

/-- `if (msg) { … }`: a text that cannot be read leaves the entry as it is. -/
def noteText : Option Bytes → Prog Scan Unit
  | some msg => set (setText msg)
  | none => pure ()

def parseHead (flags flags2 : UInt32) : Prog Scan Unit := do
  opt (hasFlag flags 8) (skip tlSkipPeer)
  form.peer
  opt (hasFlag flags 28) (skip tlSkipPeer)
  opt (hasFlag flags 2) (skip w.messageFwdHeader)
  opt (hasFlag flags 11) (drop 8 tlReadInt64)
  opt (hasFlag flags2 0) (drop 8 tlReadInt64)
  opt (hasFlag flags 3) (skip w.messageReplyHeader)
  need 4
  let date ← read tlReadInt32
  set fun e => { e with date := date.toInt64 }

/-- The media of a message; its kind is noted even when it cannot be walked over. -/
def parseMedia : Prog Scan Unit := do
  match ← Prog.ask fun st => w.messageMediaEx st.reader with
  | (mi, none) =>
    set fun e => { e with media := mi.kind }
    bail
  | (mi, some r) =>
    Prog.update fun st => { st with reader := r }
    set fun e => { e with
      media := mi.kind
      mediaId := if mi.kind = .photo then mi.photoId
        else if mi.kind = .document then mi.documentId else 0
      mediaDc := mi.dcId
      mediaInfo := if form.keepsInfo then mi else e.mediaInfo }

/-- `views` and `forwards`, behind one check. -/
def dropViews : Prog Scan Unit := do
  need 8
  let _ ← read tlReadInt32
  let _ ← read tlReadInt32

def parseTrailer (flags flags2 : UInt32) : Prog Scan Unit := do
  opt (hasFlag flags 9) (parseMedia form w)
  opt (hasFlag flags 6) (skip w.replyMarkup)
  opt (hasFlag flags 7) (skip w.messageEntitiesVector)
  opt (hasFlag flags 10) dropViews
  opt (hasFlag flags 23) (skip w.messageReplies)
  opt (hasFlag flags 15) (drop 4 tlReadInt32)
  opt (hasFlag flags 16) (skip tlSkipString)
  opt (hasFlag flags 17) (drop 8 tlReadInt64)
  opt (hasFlag flags 20) (skip w.messageReactions)
  opt (hasFlag flags 22) (skip w.restrictionReasonVector)
  opt (hasFlag flags 25) (drop 4 tlReadInt32)
  opt (hasFlag flags2 30) (drop 4 tlReadInt32)
  opt (hasFlag flags2 2) (drop 8 tlReadInt64)
  opt (hasFlag flags2 3) (skip w.factcheck)

/-- `flags2`, which a `messageService` does not have. -/
def readFlags2 (crc : UInt32) : Prog Scan UInt32 :=
  if crc = tlMessage then read tlReadUint32 else pure 0

/-- The part of `parse_message` for a `message` or a `messageService`. -/
def parseBody (crc : UInt32) : Prog Scan Unit := do
  let flags ← read tlReadUint32
  let flags2 ← readFlags2 crc
  set fun e => { e with out := hasFlag flags 1 }
  let id ← read tlReadInt32
  set fun e => { e with id }
  if crc = tlMessageService then w.parseService flags
  else
    parseHead form w flags flags2
    let msg ← read tlReadString
    noteText msg
    parseTrailer form w flags flags2

def parseEmpty : Prog Scan Unit := do
  let flags ← read tlReadUint32
  let id ← read tlReadInt32
  set fun e => { e with id }
  opt (hasFlag flags 0) do
    let _ ← read tlReadUint32
    let _ ← read tlReadInt64

/-- What `parse_message` does behind the constructor. -/
def parseConstructed (crc : UInt32) : Prog Scan Unit :=
  if crc = tlMessageEmpty then parseEmpty
  else if crc ≠ tlMessage ∧ crc ≠ tlMessageService then Prog.fail
  else parseBody form w crc

/-- `parse_message`, of whichever file. -/
def parseMessageAs : Prog Scan Unit := do
  if !(← Prog.ask fun st => tlReaderOk st.reader) then Prog.fail
  else
    let crc ← read tlReadUint32
    parseConstructed form w crc

end Message

/-! ## The loop over the messages -/

def HistoryEntry.isKept (e : HistoryEntry) : Bool :=
  e.id ≠ 0 ∨ e.text ≠ []

section Loop

variable (parse : Prog Scan Unit)

/-- The loop over the messages of an answer, with `count` elements and `room` places left. -/
def messageLoop : ℕ → ℕ → TlReader → List HistoryEntry
  | 0, _, _ => []
  | _, 0, _ => []
  | count + 1, room + 1, r =>
    let x := parse ⟨r, .zero⟩
    let rest (room : ℕ) : List HistoryEntry :=
      if x.1.isNone then [] else messageLoop count room x.2.reader
    if x.2.entry.isKept then x.2.entry :: rest room else rest (room + 1)

/-- The places where the loop calls `parse_message`. -/
def messageAttempts : ℕ → ℕ → TlReader → List TlReader
  | 0, _, _ => []
  | _, 0, _ => []
  | count + 1, room + 1, r =>
    let x := parse ⟨r, .zero⟩
    r :: if x.1.isNone then []
      else messageAttempts count (if x.2.entry.isKept then room else room + 1) x.2.reader

def entryAt (r : TlReader) : HistoryEntry :=
  (parse ⟨r, .zero⟩).2.entry

/-- **The entries are those of the attempts**, as far as there is something in them. -/
theorem messageLoop_eq_attempts (count room : ℕ) (r : TlReader) :
    messageLoop parse count room r =
      ((messageAttempts parse count room r).map (entryAt parse)).filter HistoryEntry.isKept := by
  induction count generalizing room r with
  | zero => simp [messageLoop, messageAttempts]
  | succ count ih =>
    cases room with
    | zero => simp [messageLoop, messageAttempts]
    | succ room =>
      rw [messageLoop, messageAttempts, List.map_cons, List.filter_cons]
      dsimp only
      rw [show entryAt parse r = (parse ⟨r, .zero⟩).2.entry from rfl]
      by_cases hkept : (parse ⟨r, .zero⟩).2.entry.isKept = true
      · rw [if_pos hkept, if_pos hkept, if_pos hkept]
        split_ifs
        · rfl
        · rw [ih]
      · rw [if_neg hkept, if_neg hkept, if_neg hkept]
        split_ifs
        · rfl
        · rw [ih]

end Loop

end TgCli.Domain
