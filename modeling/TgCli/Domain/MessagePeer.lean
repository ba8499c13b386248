import TgCli.Domain.MessageLayout
import TgCli.Domain.ParserAgreement
import TgCli.Domain.UserInfo

/-!
# The peer of a message

A message belongs to a peer: a user, a chat or a channel, each kind with numbers of its own.
`messagePeer` finds it in the message at a cursor, as the schema has it.  `parse_message` of
`updates.c` notes the number of the peer down, without its kind, and only for a `message`; of a
`messageService` it leaves the number at 0, which is also what it leaves of a message that it cannot
read so far.
-/

namespace TgCli.Domain

open Lib TgCli.Core

set_option synthInstance.maxSize 1000000

/-! ## The peer on the wire -/

abbrev Peer : Type :=
  ResolvedKind × Int64

def readPeer (r : TlReader) : Option Peer :=
  if r.left < 12 then none else
  let pcrc := tlReadUint32 r
  (resolvedKind pcrc.1).map fun kind => (kind, (tlReadInt64 pcrc.2).1)

/-- `peer_id`, behind the optional `from_id`. -/
def readPeerBehindFrom (flags : UInt32) (r : TlReader) : Option Peer :=
  if hasFlag flags 8 then (tlSkipPeer r).bind readPeer else readPeer r

def messagePeer (r : TlReader) : Option Peer :=
  let crc := tlReadUint32 r
  let flags := tlReadUint32 crc.2
  if crc.1 = tlMessageEmpty then
    if hasFlag flags.1 0 then readPeer (tlReadInt32 flags.2).2 else none
  else if crc.1 = tlMessage then
    readPeerBehindFrom flags.1 (tlReadInt32 (tlReadUint32 flags.2).2).2
  else if crc.1 = tlMessageService then
    readPeerBehindFrom flags.1 (tlReadInt32 flags.2).2
  else none

/-- The entry that `parse_message` of `updates.c` makes of the message at the cursor. -/
def polledEntry (r : TlReader) : HistoryEntry :=
  (parseMessage messageWalkers ⟨r, .zero⟩).2.entry

theorem resolvedKind_isSome (crc : UInt32) : (resolvedKind crc).isSome = isPeer crc := by
  rw [resolvedKind, isPeer]
  split_ifs with hu hc hch
  · simp [hu]
  · simp [hc]
  · simp [hch]
  · simp [hu, hc, hch]

theorem resolvedKind_ne_unknown {crc : UInt32} {kind : ResolvedKind}
    (h : resolvedKind crc = some kind) : kind ≠ .unknown := by
  rw [resolvedKind] at h
  rintro rfl
  split_ifs at h <;> cases h

/-! ## What the parser leaves alone

Behind the id and the peer nothing writes to them. -/

def Scan.key (st : Scan) : Int32 × Int64 :=
  (st.entry.id, st.entry.peerId)

/-- An assignment to other fields. -/
class KeepsKey (f : HistoryEntry → HistoryEntry) : Prop where
  eq : ∀ e, ((f e).id, (f e).peerId) = (e.id, e.peerId)

instance keepsKey_complex : KeepsKey fun e => { e with complex := true } := ⟨fun _ => rfl⟩
instance keepsKey_isService : KeepsKey fun e => { e with isService := true } := ⟨fun _ => rfl⟩
instance keepsKey_date (x : Int64) : KeepsKey fun e => { e with date := x } := ⟨fun _ => rfl⟩
instance keepsKey_media (x : MediaKind) : KeepsKey fun e => { e with media := x } := ⟨fun _ => rfl⟩

instance keepsKey_setText (s : Bytes) : KeepsKey (setText s) := by
  refine ⟨fun e => ?_⟩
  rw [setText]
  split_ifs <;> rfl

instance keepsKey_restoreText (s : Bytes) : KeepsKey (restoreText s) := by
  refine ⟨fun e => ?_⟩
  rw [restoreText]
  split_ifs <;> rfl

instance keepsKey_pinned (s : Bytes) :
    KeepsKey fun e => if e.text = [] then setText s e else e := by
  refine ⟨fun e => ?_⟩
  split_ifs
  · exact (keepsKey_setText s).eq e
  · rfl

namespace Scan

variable {α : Type}

instance keepsKey_read (f : TlReader → α × TlReader) : Prog.Keeps key (read f) :=
  ⟨fun _ => rfl⟩

instance keepsKey_set (f : HistoryEntry → HistoryEntry) [hf : KeepsKey f] :
    Prog.Keeps key (set f) :=
  ⟨fun st => hf.eq st.entry⟩

instance keepsKey_bail : Prog.Keeps key (bail : Prog Scan α) := by
  rw [bail]
  infer_instance

instance keepsKey_skip (f : TlReader → Option TlReader) : Prog.Keeps key (skip f) := by
  refine ⟨fun st => ?_⟩
  rcases h : f st.reader with _ | r
  · rw [skip_of_none h]
    rfl
  · rw [skip_of_some h]
    rfl

instance keepsKey_need (n : ℕ) : Prog.Keeps key (need n) := by
  rw [need]
  infer_instance

instance keepsKey_opt (c : Bool) {m : Prog Scan Unit} [Prog.Keeps key m] :
    Prog.Keeps key (opt c m) := by
  rw [opt]
  infer_instance

instance keepsKey_drop (n : ℕ) (f : TlReader → α × TlReader) : Prog.Keeps key (drop n f) := by
  rw [drop]
  infer_instance

instance keepsKey_walk (w : Walk α) : Prog.Keeps key (walk w) := by
  refine ⟨fun st => ?_⟩
  rw [walk]
  cases w st.reader <;> rfl

instance keepsKey_say (s : Bytes) : Prog.Keeps key (say s) := by
  rw [say]
  infer_instance

end Scan

open Scan

instance keepsKey_serviceActionRun (acrc : UInt32) : Prog.Keeps key (serviceActionRun acrc) := by
  rw [serviceActionRun]
  infer_instance

instance keepsKey_parseServiceAction : Prog.Keeps key parseServiceAction := by
  rw [parseServiceAction]
  infer_instance

instance keepsKey_notePinned (o : Option Int32) : Prog.Keeps key (notePinned o) := by
  cases o <;> rw [notePinned] <;> infer_instance

instance keepsKey_noteText (o : Option Bytes) : Prog.Keeps key (noteText o) := by
  cases o <;> rw [noteText] <;> infer_instance

instance keepsKey_skipTtl (flags : UInt32) : Prog.Keeps key (skipTtl flags) := by
  rw [skipTtl]
  infer_instance

instance keepsKey_restoring (saved : Bytes) : Prog.Keeps key
    (parseServiceAction.after fun st => { st with entry := restoreText saved st.entry }) :=
  Prog.Keeps.after keepsKey_parseServiceAction fun st => (keepsKey_restoreText saved).eq st.entry

/-- A service message leaves the id and the peer of the entry as they are. -/
instance keepsKey_domainHistoryParseService (flags : UInt32) :
    Prog.Keeps key (domainHistoryParseService flags) := by
  rw [domainHistoryParseService]
  infer_instance

instance keepsKey_dropViews : Prog.Keeps key dropViews := by
  rw [dropViews]
  infer_instance

instance keepsKey_parseMedia (form : MessageForm) (w : MessageWalkers) :
    Prog.Keeps key (parseMedia form w) := by
  refine ⟨fun st => ?_⟩
  rcases h : w.messageMediaEx st.reader with ⟨mi, o⟩
  have hask : (Prog.ask fun st : Scan => w.messageMediaEx st.reader) st = (some (mi, o), st) := by
    rw [← h]
    rfl
  rw [parseMedia, Prog.bind_of_some hask]
  rcases o with _ | r
  · have hbail : Prog.Keeps key
        (do set fun e => { e with media := mi.kind }; bail : Prog Scan Unit) := inferInstance
    exact hbail.eq st
  · rfl

instance keepsKey_parseTrailer (form : MessageForm) (w : MessageWalkers) (flags flags2 : UInt32) :
    Prog.Keeps key (parseTrailer form w flags flags2) := by
  rw [parseTrailer]
  infer_instance

/-! ## What the parser notes down -/

/-- The number that is noted for a peer; 0 when there is none. -/
def notedNumber (p : Option Peer) : Int64 :=
  (p.map Prod.snd).getD 0

theorem key_readPeerId (st : Scan) (h : st.entry.peerId = 0) :
    key (readPeerId st).2 = (st.entry.id, notedNumber (readPeer st.reader)) := by
  by_cases h12 : st.reader.left < 12
  · rw [readPeerId_of_lt h12, readPeer, if_pos h12]
    exact congrArg (st.entry.id, ·) h
  · rw [readPeerId_of_le h12, readPeer, if_neg h12]
    have hsome := resolvedKind_isSome (tlReadUint32 st.reader).1
    dsimp only
    rcases hkind : resolvedKind (tlReadUint32 st.reader).1 with _ | kind <;> rw [hkind] at hsome
    · have hpeer : isPeer (tlReadUint32 st.reader).1 = false := hsome.symm
      rw [hpeer, if_neg Bool.false_ne_true]
      exact congrArg (st.entry.id, ·) h
    · have hpeer : isPeer (tlReadUint32 st.reader).1 = true := hsome.symm
      rw [hpeer, if_pos rfl]
      rfl

theorem key_parseHead (w : MessageWalkers) (flags flags2 : UInt32) (st : Scan)
    (h : st.entry.peerId = 0) :
    key (parseHead ⟨readPeerId, false⟩ w flags flags2 st).2 =
      (st.entry.id, notedNumber (readPeerBehindFrom flags st.reader)) := by
  rw [parseHead, readPeerBehindFrom]
  rcases hasFlag flags 8 with _ | _
  · exact (Prog.Keeps.bind_eq (π := key) readPeerId st).trans (key_readPeerId st h)
  · show key ((skip tlSkipPeer >>= _) st).2 = _
    rcases hskip : tlSkipPeer st.reader with _ | r
    · rw [Prog.bind_of_none (skip_of_none hskip)]
      exact congrArg (st.entry.id, ·) h
    · rw [Prog.bind_of_some (skip_of_some hskip)]
      exact (Prog.Keeps.bind_eq (π := key) readPeerId ⟨r, st.entry⟩).trans
        (key_readPeerId ⟨r, st.entry⟩ h)

theorem read_apply {α : Type} (f : TlReader → α × TlReader) (st : Scan) :
    read f st = (some (f st.reader).1, { st with reader := (f st.reader).2 }) :=
  rfl

theorem set_apply (f : HistoryEntry → HistoryEntry) (st : Scan) :
    set f st = (some (), { st with entry := f st.entry }) :=
  rfl

variable {r : TlReader}

theorem parseMessage_of_ok (hok : tlReaderOk r = true) :
    parseMessage messageWalkers ⟨r, .zero⟩ =
      parseConstructed ⟨readPeerId, false⟩ messageWalkers (tlReadUint32 r).1
        ⟨(tlReadUint32 r).2, .zero⟩ := by
  have hask : (Prog.ask fun st : Scan => tlReaderOk st.reader) ⟨r, .zero⟩ =
      (some true, ⟨r, .zero⟩) := by
    rw [← hok]
    rfl
  rw [parseMessage, parseMessageAs, Prog.bind_of_some hask, Bool.not_true,
    if_neg Bool.false_ne_true, Prog.bind_of_some (read_apply _ _)]

theorem parseMessage_of_not_ok (hok : tlReaderOk r = false) :
    parseMessage messageWalkers ⟨r, .zero⟩ = (none, ⟨r, .zero⟩) := by
  have hask : (Prog.ask fun st : Scan => tlReaderOk st.reader) ⟨r, .zero⟩ =
      (some false, ⟨r, .zero⟩) := by
    rw [← hok]
    rfl
  rw [parseMessage, parseMessageAs, Prog.bind_of_some hask]
  rfl

theorem parseMessage_of_body {crc : UInt32} (hok : tlReaderOk r = true)
    (hcrc : (tlReadUint32 r).1 = crc) (hbody : crc = tlMessage ∨ crc = tlMessageService) :
    parseMessage messageWalkers ⟨r, .zero⟩ =
      parseBody ⟨readPeerId, false⟩ messageWalkers crc ⟨(tlReadUint32 r).2, .zero⟩ := by
  have hempty : crc ≠ tlMessageEmpty := by
    rcases hbody with rfl | rfl <;> decide
  have hknown : ¬ (crc ≠ tlMessage ∧ crc ≠ tlMessageService) := by
    rintro ⟨hm, hs⟩
    exact hbody.elim hm hs
  rw [parseMessage_of_ok hok, hcrc, parseConstructed, if_neg hempty, if_neg hknown]

/-- The part of `parse_message` for a `message`, behind its id. -/
def parseBehindId (flags flags2 : UInt32) : Prog Scan Unit := do
  parseHead ⟨readPeerId, false⟩ messageWalkers flags flags2
  let msg ← read tlReadString
  noteText msg
  parseTrailer ⟨readPeerId, false⟩ messageWalkers flags flags2

theorem key_parseBehindId (flags flags2 : UInt32) (st : Scan) (h : st.entry.peerId = 0) :
    key (parseBehindId flags flags2 st).2 =
      (st.entry.id, notedNumber (readPeerBehindFrom flags st.reader)) := by
  rw [← key_parseHead messageWalkers flags flags2 st h, parseBehindId]
  exact Prog.Keeps.bind_eq (π := key) _ st

theorem parseBody_message (r : TlReader) (e : HistoryEntry) :
    parseBody ⟨readPeerId, false⟩ messageWalkers tlMessage ⟨r, e⟩ =
      parseBehindId (tlReadUint32 r).1 (tlReadUint32 (tlReadUint32 r).2).1
        ⟨(tlReadInt32 (tlReadUint32 (tlReadUint32 r).2).2).2,
          { e with
            out := hasFlag (tlReadUint32 r).1 1
            id := (tlReadInt32 (tlReadUint32 (tlReadUint32 r).2).2).1 }⟩ := by
  have hservice : tlMessage ≠ tlMessageService := by decide
  rw [parseBody, readFlags2, if_pos rfl, Prog.bind_of_some (read_apply _ _),
    Prog.bind_of_some (read_apply _ _), Prog.bind_of_some (set_apply _ _),
    Prog.bind_of_some (read_apply _ _), Prog.bind_of_some (set_apply _ _), if_neg hservice,
    parseBehindId]

/-- **What `parse_message` notes of a `message`:** its id, and the number of its peer. -/
theorem key_parseMessage_message (hok : tlReaderOk r = true)
    (hcrc : (tlReadUint32 r).1 = tlMessage) :
    key (parseMessage messageWalkers ⟨r, .zero⟩).2 =
      ((tlReadInt32 (tlReadUint32 (tlReadUint32 (tlReadUint32 r).2).2).2).1,
        notedNumber (messagePeer r)) := by
  have hpeer : messagePeer r = readPeerBehindFrom (tlReadUint32 (tlReadUint32 r).2).1
      (tlReadInt32 (tlReadUint32 (tlReadUint32 (tlReadUint32 r).2).2).2).2 := by
    rw [messagePeer, hcrc, if_neg (by decide), if_pos rfl]
  rw [parseMessage_of_body hok hcrc (.inl rfl), hpeer, parseBody_message, key_parseBehindId]
  rfl

/-- **What it notes of a `messageService`:** its id. -/
theorem key_parseMessage_service (hok : tlReaderOk r = true)
    (hcrc : (tlReadUint32 r).1 = tlMessageService) :
    key (parseMessage messageWalkers ⟨r, .zero⟩).2 =
      ((tlReadInt32 (tlReadUint32 (tlReadUint32 r).2).2).1, 0) := by
  rw [parseMessage_of_body hok hcrc (.inr rfl)]
  exact (keepsKey_domainHistoryParseService _).eq _

theorem peerId_polledEntry_of_ne (h : (tlReadUint32 r).1 ≠ tlMessage) :
    (polledEntry r).peerId = 0 := by
  by_cases hok : tlReaderOk r = true
  · by_cases hs : (tlReadUint32 r).1 = tlMessageService
    · exact congrArg Prod.snd (key_parseMessage_service hok hs)
    · rw [polledEntry, parseMessage_of_ok hok, parseConstructed, if_pos (And.intro h hs)]
      split_ifs
      · rw [parseEmpty, Prog.bind_of_some (read_apply _ _), Prog.bind_of_some (read_apply _ _),
          Prog.bind_of_some (set_apply _ _)]
        exact congrArg Prod.snd (Prog.Keeps.eq (π := key) _)
      · rfl
  · rw [polledEntry, parseMessage_of_not_ok (Bool.eq_false_of_not_eq_true hok)]
    rfl

theorem kind_ne_unknown_of_readPeer {p : Peer} (h : readPeer r = some p) :
    p.1 ≠ .unknown := by
  rw [readPeer] at h
  split_ifs at h
  obtain ⟨kind, hkind, rfl⟩ := Option.map_eq_some_iff.mp h
  exact resolvedKind_ne_unknown hkind

theorem kind_ne_unknown_of_readPeerBehindFrom {flags : UInt32} {p : Peer}
    (h : readPeerBehindFrom flags r = some p) : p.1 ≠ .unknown := by
  rw [readPeerBehindFrom] at h
  split_ifs at h
  · obtain ⟨r', _, hr'⟩ := Option.bind_eq_some_iff.mp h
    exact kind_ne_unknown_of_readPeer hr'
  · exact kind_ne_unknown_of_readPeer h

theorem kind_ne_unknown_of_messagePeer {p : Peer} (h : messagePeer r = some p) :
    p.1 ≠ .unknown := by
  rw [messagePeer] at h
  split_ifs at h
  · exact kind_ne_unknown_of_readPeer h
  · exact kind_ne_unknown_of_readPeerBehindFrom h
  · exact kind_ne_unknown_of_readPeerBehindFrom h

theorem messagePeer_of_peerId_ne (h : (polledEntry r).peerId ≠ 0) :
    ∃ kind, kind ≠ .unknown ∧ messagePeer r = some (kind, (polledEntry r).peerId) := by
  have hm : (tlReadUint32 r).1 = tlMessage := by
    by_contra hm
    exact h (peerId_polledEntry_of_ne hm)
  have hok : tlReaderOk r = true := by
    by_contra hok
    rw [polledEntry, parseMessage_of_not_ok (Bool.eq_false_of_not_eq_true hok)] at h
    exact h rfl
  have hnoted : (polledEntry r).peerId = notedNumber (messagePeer r) :=
    congrArg Prod.snd (key_parseMessage_message hok hm)
  rw [hnoted] at h ⊢
  rcases hpeer : messagePeer r with _ | ⟨kind, pid⟩ <;> rw [hpeer] at h
  · exact absurd rfl h
  · exact ⟨kind, kind_ne_unknown_of_messagePeer hpeer, rfl⟩

end TgCli.Domain
