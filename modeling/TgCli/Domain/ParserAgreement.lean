import TgCli.Domain.History
import TgCli.Domain.Updates

/-!
# `domain/read`: the three parsers of messages side by side

The parsers of `history.c`, `search.c` and `updates.c` run in step (`Lib.Prog.Alike`): they succeed
together, with the cursor at the same place, and what they note down is the same but for the peer
and the `media_info`.  This also holds when they fail, which matters because a failed entry is kept.

The one step that needs an argument is the peer.  `updates.c` reads it by hand, without the check
that the reader is still inside the buffer, so there the invariant is that it is (`SameInside`); the
steps before the peer keep it, and behind the peer nothing depends on it any more.
-/

namespace TgCli.Domain

open Lib TgCli.Core

set_option synthInstance.maxSize 1000000

/-! ## The three parsers -/

/-- The entry with another peer and another `media_info`. -/
def HistoryEntry.over (e : HistoryEntry) (peerId : Int64) (mediaInfo : MediaInfo) : HistoryEntry :=
  { e with peerId, mediaInfo }

/-- One cursor, and entries that are the same but for the peer and the `media_info`. -/
def Scan.Same (s s' : Scan) : Prop :=
  ∃ peerId mediaInfo, s' = ⟨s.reader, s.entry.over peerId mediaInfo⟩

/-- The same, with the reader still inside the buffer. -/
def Scan.SameInside (s s' : Scan) : Prop :=
  s.Same s' ∧ s.reader.pos ≤ s.reader.data.length

/-- Entries that are the same but for the peer and the `media_info`. -/
def Scan.SameEntry (s s' : Scan) : Prop :=
  ∃ peerId mediaInfo, s'.entry = s.entry.over peerId mediaInfo

theorem Scan.Same.sameEntry {s s' : Scan} (h : s.Same s') : s.SameEntry s' := by
  obtain ⟨pid, info, rfl⟩ := h
  exact ⟨pid, info, rfl⟩

/-- An assignment that neither reads nor writes the peer and the `media_info`. -/
class Keeps (f : HistoryEntry → HistoryEntry) : Prop where
  eq : ∀ e pid info, f (e.over pid info) = (f e).over pid info

instance : Keeps fun e => { e with complex := true } := ⟨fun _ _ _ => rfl⟩
instance : Keeps fun e => { e with isService := true } := ⟨fun _ _ _ => rfl⟩
instance (x : Bool) : Keeps fun e => { e with out := x } := ⟨fun _ _ _ => rfl⟩
instance (x : Int32) : Keeps fun e => { e with id := x } := ⟨fun _ _ _ => rfl⟩
instance (x : Int64) : Keeps fun e => { e with date := x } := ⟨fun _ _ _ => rfl⟩
instance (x : MediaKind) : Keeps fun e => { e with media := x } := ⟨fun _ _ _ => rfl⟩

instance keeps_setText (s : Bytes) : Keeps (setText s) := by
  refine ⟨fun e pid info => ?_⟩
  rw [setText, setText]
  split_ifs <;> rfl

instance keeps_restoreText (s : Bytes) : Keeps (restoreText s) := by
  refine ⟨fun e pid info => ?_⟩
  rw [restoreText, restoreText]
  show (if e.text = [] ∧ s ≠ [] then _ else _) = _
  split_ifs <;> rfl

instance keeps_pinned (s : Bytes) : Keeps fun e => if e.text = [] then setText s e else e := by
  refine ⟨fun e pid info => ?_⟩
  show (if e.text = [] then _ else _) = _
  split_ifs
  · exact (keeps_setText s).eq e pid info
  · rfl

namespace Scan

variable {α : Type}

theorem Same.set {s s' : Scan} (h : s.Same s') (f : HistoryEntry → HistoryEntry) [hf : Keeps f] :
    Same { s with entry := f s.entry } { s' with entry := f s'.entry } := by
  obtain ⟨pid, info, rfl⟩ := h
  exact ⟨pid, info, by rw [hf.eq]⟩

theorem SameEntry.set {s s' : Scan} (h : s.SameEntry s') (f : HistoryEntry → HistoryEntry)
    [hf : Keeps f] : SameEntry { s with entry := f s.entry } { s' with entry := f s'.entry } := by
  obtain ⟨pid, info, h⟩ := h
  exact ⟨pid, info, by show f s'.entry = _; rw [h, hf.eq]⟩

abbrev Alike (m m' : Prog Scan α) : Prop :=
  Prog.Alike Same Same SameEntry m m'

instance alike_fail : Alike (Prog.fail : Prog Scan α) Prog.fail :=
  Prog.Alike.fail Same.sameEntry

instance alike_ask (f : TlReader → α) :
    Alike (Prog.ask fun st => f st.reader) (Prog.ask fun st => f st.reader) := by
  refine Prog.Alike.act fun h => ?_
  obtain ⟨pid, info, rfl⟩ := h
  exact ⟨rfl, pid, info, rfl⟩

instance alike_askText :
    Alike (Prog.ask fun st => st.entry.text) (Prog.ask fun st => st.entry.text) := by
  refine Prog.Alike.act fun h => ?_
  obtain ⟨pid, info, rfl⟩ := h
  exact ⟨rfl, pid, info, rfl⟩

instance alike_moveTo (r : TlReader) :
    Alike (Prog.update fun st => { st with reader := r })
      (Prog.update fun st => { st with reader := r }) := by
  refine Prog.Alike.act fun h => ?_
  obtain ⟨pid, info, rfl⟩ := h
  exact ⟨rfl, pid, info, rfl⟩

instance alike_read (f : TlReader → α × TlReader) : Alike (read f) (read f) := by
  refine Prog.Alike.act fun h => ?_
  obtain ⟨pid, info, rfl⟩ := h
  exact ⟨rfl, pid, info, rfl⟩

instance alike_set (f : HistoryEntry → HistoryEntry) [Keeps f] : Alike (set f) (set f) :=
  Prog.Alike.act fun h => ⟨rfl, h.set f⟩

instance alike_bail : Alike (bail : Prog Scan α) bail := by
  rw [bail]
  infer_instance

instance alike_skip (f : TlReader → Option TlReader) : Alike (skip f) (skip f) := by
  rw [skip]
  refine Prog.Alike.seq (alike_ask f) fun o => ?_
  cases o <;> infer_instance

theorem skip_of_some {f : TlReader → Option TlReader} {s : Scan} {r : TlReader}
    (h : f s.reader = some r) : skip f s = (some (), { s with reader := r }) := by
  have hask : (Prog.ask fun st : Scan => f st.reader) s = (some (some r), s) := by
    rw [← h]
    rfl
  rw [skip, Prog.bind_of_some hask]
  rfl

theorem skip_of_none {f : TlReader → Option TlReader} {s : Scan} (h : f s.reader = none) :
    skip f s = (none, { s with entry := { s.entry with complex := true } }) := by
  have hask : (Prog.ask fun st : Scan => f st.reader) s = (some none, s) := by
    rw [← h]
    rfl
  rw [skip, Prog.bind_of_some hask]
  rfl

theorem need_apply (n : ℕ) (s : Scan) :
    need n s = if s.reader.left < n then
      (none, { s with entry := { s.entry with complex := true } }) else (some (), s) := by
  show (if s.reader.left < n then bail else pure ()) s = _
  split_ifs <;> rfl

instance alike_need (n : ℕ) : Alike (need n) (need n) := by
  rw [need]
  infer_instance

instance alike_opt (c : Bool) {m m' : Prog Scan Unit} [Alike m m'] :
    Alike (opt c m) (opt c m') := by
  rw [opt, opt]
  infer_instance

instance alike_drop (n : ℕ) (f : TlReader → α × TlReader) : Alike (drop n f) (drop n f) := by
  rw [drop]
  infer_instance

instance alike_walk (w : Walk α) : Alike (walk w) (walk w) := by
  refine ⟨fun {s s'} h => ?_⟩
  have hse := h.sameEntry
  obtain ⟨pid, info, rfl⟩ := h
  rw [walk, walk]
  cases w s.reader with
  | none => exact .inr ⟨_, _, rfl, rfl, hse⟩
  | some x => exact .inl ⟨x.1, _, _, rfl, rfl, pid, info, rfl⟩

instance alike_say (s : Bytes) : Alike (say s) (say s) := by
  rw [say]
  infer_instance

end Scan

open Scan

instance alike_serviceActionRun (acrc : UInt32) :
    Scan.Alike (serviceActionRun acrc) (serviceActionRun acrc) := by
  rw [serviceActionRun]
  infer_instance

instance alike_parseServiceAction : Scan.Alike parseServiceAction parseServiceAction := by
  rw [parseServiceAction]
  infer_instance

instance alike_notePinned (o : Option Int32) : Scan.Alike (notePinned o) (notePinned o) := by
  cases o <;> rw [notePinned] <;> infer_instance

instance alike_noteText (o : Option Bytes) : Scan.Alike (noteText o) (noteText o) := by
  cases o <;> rw [noteText] <;> infer_instance

instance alike_skipTtl (flags : UInt32) : Scan.Alike (skipTtl flags) (skipTtl flags) := by
  rw [skipTtl]
  infer_instance

instance alike_restoring (saved : Bytes) :
    Scan.Alike (parseServiceAction.after fun st => { st with entry := restoreText saved st.entry })
      (parseServiceAction.after fun st => { st with entry := restoreText saved st.entry }) :=
  Prog.Alike.after alike_parseServiceAction (fun h => h.set _) (fun h => h.set _)

instance alike_domainHistoryParseService (flags : UInt32) :
    Scan.Alike (domainHistoryParseService flags) (domainHistoryParseService flags) := by
  rw [domainHistoryParseService]
  infer_instance

instance alike_dropViews : Scan.Alike dropViews dropViews := by
  rw [dropViews]
  infer_instance

section Forms

variable {form : MessageForm}

theorem alike_parseMedia (peer : Prog Scan Unit) (w : MessageWalkers) :
    Scan.Alike (parseMedia ⟨peer, false⟩ w) (parseMedia form w) := by
  rw [parseMedia, parseMedia]
  refine Prog.Alike.seq (alike_ask w.messageMediaEx) fun x => ?_
  obtain ⟨mi, _ | r⟩ := x
  · infer_instance
  · refine Prog.Alike.seq (alike_moveTo r) fun _ => Prog.Alike.act fun h => ⟨rfl, ?_⟩
    obtain ⟨pid, info, rfl⟩ := h
    exact ⟨pid, if form.keepsInfo then mi else info, rfl⟩

theorem alike_parseTrailer (peer : Prog Scan Unit) (w : MessageWalkers) (flags flags2 : UInt32) :
    Scan.Alike (parseTrailer ⟨peer, false⟩ w flags flags2) (parseTrailer form w flags flags2) := by
  have hmedia : Scan.Alike (parseMedia ⟨peer, false⟩ w) (parseMedia form w) :=
    alike_parseMedia peer w
  rw [parseTrailer, parseTrailer]
  infer_instance

/-! The peer is read inside the buffer, where the two ways to do it agree. -/

theorem inside_readFixed (r : TlReader) (n : ℕ) :
    (readFixed r n).2.pos ≤ (readFixed r n).2.data.length := by
  rw [data_readFixed]
  by_cases hn : r.pos + n ≤ r.data.length
  · rw [readFixed_of_le hn]
    exact hn
  · rw [readFixed_of_lt (by omega)]
    exact le_rfl

theorem inside_read {α : Type} {f : TlReader → α × TlReader}
    (hf : ∀ r : TlReader, (f r).2.pos ≤ (f r).2.data.length) :
    Prog.Alike SameInside SameInside SameEntry (read f) (read f) := by
  refine Prog.Alike.act fun {s s'} h => ?_
  obtain ⟨⟨pid, info, rfl⟩, -⟩ := h
  exact ⟨rfl, ⟨pid, info, rfl⟩, hf s.reader⟩

instance : Prog.Alike SameInside SameInside SameEntry (read tlReadUint32) (read tlReadUint32) :=
  inside_read fun r => inside_readFixed r 4

instance : Prog.Alike SameInside SameInside SameEntry (read tlReadInt32) (read tlReadInt32) :=
  inside_read fun r => inside_readFixed r 4

instance inside_set (f : HistoryEntry → HistoryEntry) [Keeps f] :
    Prog.Alike SameInside SameInside SameEntry (set f) (set f) :=
  Prog.Alike.act fun h => ⟨rfl, h.1.set f, h.2⟩

theorem inside_tlSkipPeer {r r' : TlReader} (h : tlSkipPeer r = some r') :
    r'.pos ≤ r'.data.length := by
  rw [tlSkipPeer] at h
  dsimp only at h
  split_ifs at h
  obtain rfl := Option.some_inj.mp h
  exact inside_readFixed (tlReadUint32 r).2 8

instance inside_skipPeer :
    Prog.Alike SameInside SameInside SameEntry (skip tlSkipPeer) (skip tlSkipPeer) := by
  refine ⟨fun {s s'} h => ?_⟩
  obtain ⟨hs, -⟩ := h
  obtain ⟨a, t, t', ht, ht', hst⟩ | hfail := (alike_skip tlSkipPeer).rel hs
  · refine .inl ⟨a, t, t', ht, ht', hst, ?_⟩
    cases hp : tlSkipPeer s.reader with
    | none =>
      rw [skip_of_none hp] at ht
      exact nomatch (Prod.mk.inj ht).1
    | some r =>
      rw [skip_of_some hp] at ht
      obtain rfl := (Prod.mk.inj ht).2
      exact inside_tlSkipPeer hp
  · exact .inr hfail

instance inside_opt (c : Bool) {m m' : Prog Scan Unit}
    [Prog.Alike SameInside SameInside SameEntry m m'] :
    Prog.Alike SameInside SameInside SameEntry (opt c m) (opt c m') := by
  rw [opt, opt]
  infer_instance

instance inside_readFlags2 (crc : UInt32) :
    Prog.Alike SameInside SameInside SameEntry (readFlags2 crc) (readFlags2 crc) := by
  rw [readFlags2]
  infer_instance

/-- What a form does with the peer has to agree with `tl_skip_peer` inside the buffer. -/
def PeerAgrees (peer : Prog Scan Unit) : Prop :=
  Prog.Alike SameInside Same SameEntry (skip tlSkipPeer) peer

theorem peerAgrees_skip : PeerAgrees (skip tlSkipPeer) :=
  (alike_skip tlSkipPeer).weaken And.left

theorem readPeerId_of_lt {s : Scan} (h : s.reader.left < 12) :
    readPeerId s = (none, { s with entry := { s.entry with complex := true } }) := by
  have hneed : need 12 s = (none, { s with entry := { s.entry with complex := true } }) := by
    rw [need_apply, if_pos h]
  rw [readPeerId, Prog.bind_of_none hneed]

theorem readPeerId_of_le {s : Scan} (h : ¬ s.reader.left < 12) :
    readPeerId s =
      (let pcrc := tlReadUint32 s.reader
      let pid := tlReadInt64 pcrc.2
      if isPeer pcrc.1 then (some (), ⟨pid.2, { s.entry with peerId := pid.1 }⟩)
      else (none, ⟨pid.2, { s.entry with complex := true }⟩)) := by
  have hneed : need 12 s = (some (), s) := by
    rw [need_apply, if_neg h]
  rw [readPeerId, Prog.bind_of_some hneed]
  show (if isPeer (tlReadUint32 s.reader).1 = true then Scan.set _ else bail) _ = _
  dsimp only
  split_ifs <;> rfl

theorem peerAgrees_readPeerId : PeerAgrees readPeerId := by
  refine ⟨fun {s s'} h => ?_⟩
  obtain ⟨⟨pid, info, rfl⟩, hin⟩ := h
  have hleft : s.reader.left = s.reader.data.length - s.reader.pos := TlReader.left_of_le hin
  by_cases h12 : s.reader.left < 12
  · have hskip : tlSkipPeer s.reader = none := if_pos (.inr h12)
    exact .inr ⟨_, _, skip_of_none hskip, readPeerId_of_lt h12, pid, info, rfl⟩
  · have hok : tlReaderOk s.reader = true :=
      decide_eq_true (by show s.reader.pos < s.reader.data.length; omega)
    have hskip : tlSkipPeer s.reader =
        if isPeer (tlReadUint32 s.reader).1 then
          some (tlReadInt64 (tlReadUint32 s.reader).2).2 else none :=
      if_neg (by rw [hok]; simpa using h12)
    have hread := readPeerId_of_le (s := ⟨s.reader, s.entry.over pid info⟩) h12
    by_cases hpeer : isPeer (tlReadUint32 s.reader).1 = true
    · rw [if_pos hpeer] at hskip hread
      exact .inl ⟨(), _, _, skip_of_some hskip, hread, _, info, rfl⟩
    · rw [if_neg hpeer] at hskip hread
      exact .inr ⟨_, _, skip_of_none hskip, hread, pid, info, rfl⟩

theorem alike_parseHead (hpeer : PeerAgrees form.peer) (w : MessageWalkers)
    (flags flags2 : UInt32) :
    Prog.Alike SameInside Same SameEntry (parseHead ⟨skip tlSkipPeer, false⟩ w flags flags2)
      (parseHead form w flags flags2) := by
  rw [parseHead, parseHead]
  refine Prog.Alike.seq (Q := SameInside) inferInstance fun _ => ?_
  exact Prog.Alike.seq hpeer fun _ => inferInstance

theorem alike_parseBody (hpeer : PeerAgrees form.peer) (crc : UInt32) :
    Prog.Alike SameInside Same SameEntry
      (parseBody ⟨skip tlSkipPeer, false⟩ messageWalkers crc)
      (parseBody form messageWalkers crc) := by
  have hservice : ∀ flags, Prog.Alike SameInside Same SameEntry (messageWalkers.parseService flags)
      (messageWalkers.parseService flags) := fun flags =>
    (alike_domainHistoryParseService flags).weaken And.left
  have hmessage : ∀ flags flags2, Prog.Alike SameInside Same SameEntry
      (parseHead ⟨skip tlSkipPeer, false⟩ messageWalkers flags flags2 >>= fun _ =>
        read tlReadString >>= fun msg => noteText msg >>= fun _ =>
          parseTrailer ⟨skip tlSkipPeer, false⟩ messageWalkers flags flags2)
      (parseHead form messageWalkers flags flags2 >>= fun _ =>
        read tlReadString >>= fun msg => noteText msg >>= fun _ =>
          parseTrailer form messageWalkers flags flags2) := fun flags flags2 =>
    Prog.Alike.seq (alike_parseHead hpeer _ flags flags2) fun _ =>
      Prog.Alike.seq (alike_read _) fun msg => Prog.Alike.seq (alike_noteText msg) fun _ =>
        alike_parseTrailer _ _ flags flags2
  rw [parseBody, parseBody]
  exact .seq (Q := SameInside) inferInstance fun flags =>
    .seq (Q := SameInside) inferInstance fun flags2 =>
      .seq (Q := SameInside) inferInstance fun _ =>
        .seq (Q := SameInside) inferInstance fun id =>
          .seq (Q := SameInside) inferInstance fun _ =>
            .choose (hservice flags) (hmessage flags flags2)

/-- **The parsers of the three files do the same**, up to the peer and the `media_info`. -/
theorem parseMessageAs_alike (hpeer : PeerAgrees form.peer) :
    Prog.Alike SameInside Same SameEntry
      (parseMessageAs ⟨skip tlSkipPeer, false⟩ messageWalkers)
      (parseMessageAs form messageWalkers) := by
  have hempty : Scan.Alike parseEmpty parseEmpty := by
    rw [parseEmpty]
    infer_instance
  have hfail : Prog.Alike SameInside Same SameEntry (Prog.fail : Prog Scan Unit) Prog.fail :=
    alike_fail.weaken And.left
  have hask : Prog.Alike SameInside SameInside SameEntry (Prog.ask fun st => tlReaderOk st.reader)
      (Prog.ask fun st => tlReaderOk st.reader) := by
    refine Prog.Alike.act fun {s s'} h => ?_
    obtain ⟨⟨pid, info, rfl⟩, hin⟩ := h
    exact ⟨rfl, ⟨pid, info, rfl⟩, hin⟩
  rw [parseMessageAs, parseMessageAs]
  refine .seq hask fun ok => .choose hfail ?_
  refine .seq (Q := SameInside) inferInstance fun crc => .choose (hempty.weaken And.left) ?_
  exact .choose hfail (alike_parseBody hpeer crc)

end Forms

end TgCli.Domain
