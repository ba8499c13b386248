import TgCli.Domain.ParserAgreement

/-!
# `domain/read`: what the parsers of messages walk over

Forgetting what a parser notes down leaves a walk on the cursor (`Lib.Prog.Follows`), and that can
be compared with the walk of `tl_skip_message`.  Up to the text, and behind it, the two are
literally the same.  They part in three places: a text that cannot be read (`passText`), an action
that is not known (`passActionRun`), and what may follow an action (`passTtl`).
-/

namespace TgCli.Domain

open Lib TgCli.Core

set_option synthInstance.maxSize 1000000

namespace Scan

variable {α : Type}

/-- The parser moves the cursor as the walk does, whatever the entry is. -/
abbrev Follows (m : Prog Scan α) (w : outParam (Walk α)) : Prop :=
  Prog.Follows Scan.reader m w

instance follows_read (f : TlReader → α × TlReader) : Follows (read f) (Walk.read f) :=
  ⟨fun _ => rfl⟩

instance follows_set (f : HistoryEntry → HistoryEntry) : Follows (set f) (pure ()) :=
  ⟨fun _ => rfl⟩

instance follows_skip (f : TlReader → Option TlReader) : Follows (skip f) (Walk.skip f) := by
  refine ⟨fun s => ?_⟩
  rw [Walk.skip]
  cases h : f s.reader with
  | none => rw [skip_of_none h]; rfl
  | some r => rw [skip_of_some h]; rfl

instance follows_need (n : ℕ) : Follows (need n) (Walk.need n) := by
  refine ⟨fun s => ?_⟩
  rw [need_apply, Walk.need]
  split_ifs <;> rfl

instance follows_drop32 (n : ℕ) :
    Follows (drop n tlReadInt32) (Walk.need n >>= fun _ => Walk.drop32) :=
  .of_eq (w := Walk.need n >>= fun _ => Walk.read tlReadInt32 >>= fun _ => pure ())
    (by rw [drop]; infer_instance) rfl

instance follows_drop64 (n : ℕ) :
    Follows (drop n tlReadInt64) (Walk.need n >>= fun _ => Walk.drop64) :=
  .of_eq (w := Walk.need n >>= fun _ => Walk.read tlReadInt64 >>= fun _ => pure ())
    (by rw [drop]; infer_instance) rfl

instance follows_opt (c : Bool) {m : Prog Scan Unit} {w : Walk Unit} [h : Follows m w] :
    Follows (opt c m) (Walk.opt c w) := by
  rw [opt, Walk.opt]
  infer_instance

instance follows_walk (w : Walk α) : Follows (walk w) w := by
  refine ⟨fun s => ?_⟩
  rw [walk]
  cases w s.reader <;> rfl

instance follows_say (s : Bytes) : Follows (say s) (pure ()) :=
  ⟨fun _ => rfl⟩

end Scan

open Scan

instance follows_noteText (o : Option Bytes) : Scan.Follows (noteText o) (pure ()) := by
  cases o <;> exact ⟨fun _ => rfl⟩

instance follows_notePinned (o : Option Int32) : Scan.Follows (notePinned o) (pure ()) := by
  cases o <;> exact ⟨fun _ => rfl⟩

/-- The media is walked over as `tl_skip_message_media` walks over it. -/
instance follows_parseMedia (form : MessageForm) :
    Scan.Follows (parseMedia form messageWalkers) (Walk.skip tlSkipMessageMedia.run) := by
  refine ⟨fun s => ?_⟩
  have hcall : (messageWalkers.messageMediaEx s.reader).2 = tlSkipMessageMedia.run s.reader :=
    congrFun (tlSkipMessageMediaEx.call_eq (some .zero) none) s.reader
  rw [Walk.skip, ← hcall]
  have hask : (Prog.ask fun st : Scan => messageWalkers.messageMediaEx st.reader) s =
      (some (messageWalkers.messageMediaEx s.reader), s) := rfl
  rw [parseMedia, Prog.bind_of_some hask]
  rcases messageWalkers.messageMediaEx s.reader with ⟨mi, _ | r⟩ <;> rfl

instance follows_dropViews : Scan.Follows dropViews
    (Walk.need 8 >>= fun _ => Walk.drop32 >>= fun _ => Walk.drop32) :=
  .of_eq (w := Walk.need 8 >>= fun _ => Walk.read tlReadInt32 >>= fun _ =>
      Walk.read tlReadInt32 >>= fun _ => pure ()) (by rw [dropViews]; infer_instance) rfl

theorem follows_parseHead (flags flags2 : UInt32) (keepsInfo : Bool) :
    Scan.Follows (parseHead ⟨skip tlSkipPeer, keepsInfo⟩ messageWalkers flags flags2)
      (messageFields flags flags2) := by
  rw [parseHead]
  exact .of_eq inferInstance rfl

theorem follows_parseTrailer (form : MessageForm) (flags flags2 : UInt32) :
    Scan.Follows (parseTrailer form messageWalkers flags flags2)
      (skipMessageRest flags flags2) := by
  rw [parseTrailer]
  exact .of_eq inferInstance rfl

/-! ## The walk of the parsers -/

/-- The text in `parse_message`: when it cannot be read, the cursor is at the end. -/
def passText : Walk Unit :=
  Walk.read fun r => ((), (tlReadString r).2)

/-- What `parse_message` walks over behind the constructor of a `message`. -/
def passMessage : Walk Unit := do
  let flags ← Walk.u32
  let flags2 ← Walk.u32
  Walk.drop32
  messageFields flags flags2
  passText
  skipMessageRest flags flags2

theorem passText_bind (w : Walk Unit) :
    (Walk.read tlReadString >>= fun _ => w) = (passText >>= fun _ => w) :=
  rfl

theorem readInt32_bind (w : Walk Unit) :
    (Walk.read tlReadInt32 >>= fun _ => w) = (Walk.drop32 >>= fun _ => w) :=
  rfl

theorem follows_parseText (keepsInfo : Bool) (flags flags2 : UInt32) :
    Scan.Follows (do
        parseHead ⟨skip tlSkipPeer, keepsInfo⟩ messageWalkers flags flags2
        let msg ← Scan.read tlReadString
        noteText msg
        parseTrailer ⟨skip tlSkipPeer, keepsInfo⟩ messageWalkers flags flags2) (do
        messageFields flags flags2
        passText
        skipMessageRest flags flags2) := by
  have hhead := follows_parseHead flags flags2 keepsInfo
  have htrailer := follows_parseTrailer ⟨skip tlSkipPeer, keepsInfo⟩ flags flags2
  refine .of_eq inferInstance (bind_congr fun _ => ?_)
  simp only [pure_bind]
  exact passText_bind _

theorem follows_parseBody_message (keepsInfo : Bool) :
    Scan.Follows (parseBody ⟨skip tlSkipPeer, keepsInfo⟩ messageWalkers tlMessage) passMessage := by
  have hflags2 : Scan.Follows (readFlags2 tlMessage) (Walk.read tlReadUint32) := by
    rw [readFlags2, if_pos rfl]
    infer_instance
  have htext := follows_parseText keepsInfo
  have hservice : ¬ tlMessage = tlMessageService := by decide
  simp only [parseBody, if_neg hservice]
  refine .of_eq inferInstance (bind_congr fun flags => bind_congr fun flags2 => ?_)
  simp only [pure_bind]
  exact readInt32_bind _

/-! ## Actions -/

/-- What `parse_service_action` walks over behind the constructor: nothing, where it does not know
the action. -/
def passActionRun (acrc : UInt32) : Walk Unit :=
  if acrc ∈ knownActions then messageActionRun acrc else pure ()

theorem bind_unit (w : Walk Unit) : (w >>= fun _ => pure ()) = w :=
  bind_pure w

theorem str_bind {β : Type} (w : Walk β) :
    (Walk.str >>= fun _ => w) = (Walk.skip tlSkipString >>= fun _ => w) := by
  funext r
  show (Walk.str r).bind _ = (Walk.skip tlSkipString r).bind _
  rw [Guarded.skip_tlSkipString_eq, Walk.str]
  rcases tlReadString r with ⟨_ | s, r'⟩ <;> rfl

theorem readLongVectorFirst_bind {β : Type} (w : Walk β) :
    (readLongVectorFirst >>= fun _ => w) = (actionUsers >>= fun _ => w) := by
  rw [readLongVectorFirst, actionUsers]
  simp only [bind_assoc]
  refine bind_congr fun _ => bind_congr fun vec => bind_congr fun _ => bind_congr fun n =>
    bind_congr fun _ => bind_congr fun _ => ?_
  funext r
  show ((Walk.rep Walk.drop64 n.toNat r).map _).bind _ = (Walk.rep Walk.drop64 n.toNat r).bind _
  cases Walk.rep Walk.drop64 n.toNat r <;> rfl

theorem follows_silent {m : Prog Scan Unit}
    (h : ∀ s, (m s).1 = some () ∧ (m s).2.reader = s.reader) :
    Scan.Follows m (pure ()) := by
  refine ⟨fun s => ?_⟩
  rw [(h s).1, (h s).2]
  rfl

theorem follows_str {f : Bytes → Prog Scan Unit} [∀ s, Scan.Follows (f s) (pure ())] :
    Scan.Follows (walk Walk.str >>= f) (Walk.skip tlSkipString) :=
  .of_eq inferInstance ((str_bind (pure ())).trans (bind_pure _))

theorem follows_i64 {f : Int64 → Prog Scan Unit} [∀ s, Scan.Follows (f s) (pure ())] :
    Scan.Follows (walk (Walk.need 8 >>= fun _ => Walk.i64) >>= f)
      (Walk.need 8 >>= fun _ => Walk.drop64) :=
  .of_eq inferInstance (bind_assoc _ _ _)

theorem callReason_bind {β : Type} (pflags : UInt32) (w : Walk β) :
    (callReason pflags >>= fun _ => w) =
      (Walk.opt (hasFlag pflags 0) (Walk.need 4 >>= fun _ => Walk.drop32) >>= fun _ => w) := by
  rw [callReason, Walk.opt]
  split_ifs
  · simp only [bind_assoc]
    rfl
  · rfl

theorem callDuration_bind {β : Type} (pflags : UInt32) (w : Walk β) :
    (callDuration pflags >>= fun _ => w) =
      (Walk.opt (hasFlag pflags 1) (Walk.need 4 >>= fun _ => Walk.drop32) >>= fun _ => w) := by
  rw [callDuration, Walk.opt]
  split_ifs
  · simp only [bind_assoc]
    rfl
  · rfl

theorem follows_phoneCall :
    Scan.Follows (serviceActionRun crcMessageActionPhoneCall)
      (messageActionRun crcMessageActionPhoneCall) := by
  refine .of_eq (m := do
      let pflags ← walk do Walk.need (4 + 8); Walk.u32
      walk Walk.drop64
      let reason ← walk (callReason pflags)
      let duration ← walk (callDuration pflags)
      say (ascii "called (duration " ++ decimal duration.toInt ++ ascii "s, " ++ reason ++
        ascii ")")) inferInstance ?_
  have hskip : messageActionRun crcMessageActionPhoneCall = (do
      Walk.need (4 + 8)
      let pflags ← Walk.u32
      Walk.drop64
      Walk.opt (hasFlag pflags 0) do Walk.need 4; Walk.drop32
      Walk.opt (hasFlag pflags 1) do Walk.need 4; Walk.drop32) := rfl
  rw [hskip]
  simp only [bind_assoc, callReason_bind, callDuration_bind, bind_unit]

theorem follows_groupCall :
    Scan.Follows (serviceActionRun crcMessageActionGroupCall)
      (messageActionRun crcMessageActionGroupCall) := by
  refine .of_eq (m := do
      let gflags ← walk do Walk.need 4; Walk.u32
      walk do Walk.need (4 + 16); dropGroupCall
      walk (Walk.opt (hasFlag gflags 0) do Walk.need 4; Walk.drop32)
      say (ascii "started video chat")) inferInstance ?_
  have hskip : messageActionRun crcMessageActionGroupCall = (do
      Walk.need 4
      let gflags ← Walk.u32
      Walk.need (4 + 16); Walk.drop32; Walk.drop64; Walk.drop64
      Walk.opt (hasFlag gflags 0) do Walk.need 4; Walk.drop32) := rfl
  rw [hskip]
  simp only [dropGroupCall, bind_assoc, bind_unit]

theorem follows_groupCallScheduled :
    Scan.Follows (serviceActionRun crcMessageActionGroupCallScheduled)
      (messageActionRun crcMessageActionGroupCallScheduled) := by
  refine .of_eq (m := do
      walk do Walk.need (4 + 16 + 4); dropGroupCall
      let sched ← walk Walk.i32
      say (ascii "scheduled video chat for " ++ decimal sched.toInt)) inferInstance ?_
  have hskip : messageActionRun crcMessageActionGroupCallScheduled = (do
      Walk.need (4 + 16 + 4); Walk.drop32; Walk.drop64; Walk.drop64; Walk.drop32) := rfl
  have hlast : (Walk.i32 >>= fun _ => (pure () : Walk Unit)) = Walk.drop32 := rfl
  rw [hskip]
  simp only [dropGroupCall, bind_assoc, hlast]

theorem follows_inviteToGroupCall :
    Scan.Follows (serviceActionRun crcMessageActionInviteToGroupCall)
      (messageActionRun crcMessageActionInviteToGroupCall) := by
  refine .of_eq (m := do
      walk do Walk.need (4 + 16); dropGroupCall
      walk actionUsers
      say (ascii "invited to video chat")) inferInstance ?_
  have hskip : messageActionRun crcMessageActionInviteToGroupCall = (do
      Walk.need (4 + 16); Walk.drop32; Walk.drop64; Walk.drop64
      actionUsers) := rfl
  rw [hskip]
  simp only [dropGroupCall, bind_assoc, bind_unit]

theorem follows_serviceActionRun_of_mem {acrc : UInt32} (h : acrc ∈ knownActions) :
    Scan.Follows (serviceActionRun acrc) (messageActionRun acrc) := by
  simp only [knownActions, List.mem_cons, List.not_mem_nil, or_false] at h
  rcases h with rfl | rfl | rfl | rfl | rfl | rfl | rfl | rfl | rfl | rfl | rfl | rfl | rfl |
    rfl | rfl | rfl | rfl | rfl | rfl | rfl | rfl
  · exact follows_silent fun _ => ⟨rfl, rfl⟩
  · exact follows_silent fun _ => ⟨rfl, rfl⟩
  · exact follows_silent fun _ => ⟨rfl, rfl⟩
  · exact follows_silent fun _ => ⟨rfl, rfl⟩
  · exact follows_silent fun _ => ⟨rfl, rfl⟩
  · exact follows_silent fun _ => ⟨rfl, rfl⟩
  · exact follows_silent fun _ => ⟨rfl, rfl⟩
  · exact follows_str (f := fun title =>
      say (ascii "changed title to '" ++ title ++ ascii "'"))
  · exact follows_str (f := fun title =>
      say (ascii "created channel '" ++ title ++ ascii "'"))
  · exact follows_str (f := fun msg => Scan.set (setText msg))
  · exact follows_i64 (f := fun uid => say (ascii "removed @" ++ decimal uid.toInt))
  · exact follows_i64 (f := fun cid => say (ascii "migrated to channel " ++ decimal cid.toInt))
  · exact .of_eq (m := do
        walk do Walk.need 8; Walk.drop64
        say (ascii "joined via invite link")) inferInstance (bind_unit _)
  · refine .of_eq (m := do
        let title ← walk Walk.str
        walk actionUsers
        say (ascii "created group '" ++ title ++ ascii "'")) inferInstance ?_
    rw [bind_pure]
    exact str_bind _
  · exact .of_eq (m := do
        let first ← walk readLongVectorFirst
        say (ascii "added @" ++ decimal first.toInt)) inferInstance
      ((readLongVectorFirst_bind _).trans (bind_pure _))
  · refine .of_eq (m := do
        let title ← walk Walk.str
        let cid ← walk do Walk.need 8; Walk.i64
        say (ascii "migrated from group " ++ decimal cid.toInt ++ ascii " '" ++ title ++ ascii "'"))
      inferInstance ?_
    simp only [bind_assoc]
    exact str_bind _
  · exact .of_eq (m := do
        say (ascii "changed group photo")
        walk (Walk.skip tlSkipPhoto)) inferInstance (pure_bind _ _)
  · exact follows_phoneCall
  · exact follows_groupCall
  · exact follows_groupCallScheduled
  · exact follows_inviteToGroupCall

theorem follows_serviceActionRun (acrc : UInt32) :
    Scan.Follows (serviceActionRun acrc) (passActionRun acrc) := by
  rw [passActionRun]
  split_ifs with h
  · exact follows_serviceActionRun_of_mem h
  · rw [serviceActionRun_of_unlabelled fun hmem => h (List.mem_of_mem_filter hmem)]
    infer_instance

/-! ## Service messages -/

instance follows_ask {α : Type} (f : TlReader → α) :
    Scan.Follows (Prog.ask fun st => f st.reader) (Walk.read fun r => (f r, r)) :=
  ⟨fun _ => rfl⟩

theorem follows_askEntry {α : Type} (g : Scan → α) {f : α → Prog Scan Unit} {w : Walk Unit}
    (h : ∀ a, Scan.Follows (f a) w) : Scan.Follows (Prog.ask g >>= f) w :=
  ⟨fun s => (h (g s)).eq s⟩

theorem follows_after {m : Prog Scan Unit} {w : Walk Unit} (h : Scan.Follows m w)
    (f : HistoryEntry → HistoryEntry) :
    Scan.Follows (m.after fun st => { st with entry := f st.entry }) w :=
  ⟨h.eq⟩

/-- What `parse_service_action` walks over. -/
def passAction : Walk Unit := do
  Walk.need 4
  let acrc ← Walk.u32
  passActionRun acrc

theorem follows_parseServiceAction : Scan.Follows parseServiceAction passAction := by
  have haction := follows_serviceActionRun
  have hshort : Scan.Follows (Scan.set (setText (ascii "[service action truncated]")) >>= fun _ =>
      (Prog.fail : Prog Scan Unit)) Walk.fail := ⟨fun _ => rfl⟩
  rw [parseServiceAction]
  refine .of_eq inferInstance ?_
  funext r
  show (if r.left < 4 then Walk.fail else _) r = ((Walk.need 4 r).bind _)
  rw [Walk.need]
  split_ifs <;> rfl

def passTtl (flags : UInt32) : Walk Unit :=
  if hasFlag flags 25 then fun r => if r.left ≥ 4 then Walk.drop32 r else some ((), r)
  else pure ()

theorem follows_skipTtl (flags : UInt32) : Scan.Follows (skipTtl flags) (passTtl flags) := by
  refine ⟨fun s => ?_⟩
  rw [skipTtl, passTtl]
  split_ifs
  · show ((if s.reader.left ≥ 4 then Scan.read tlReadInt32 >>= fun _ => pure ()
      else pure ()) s).1.map
      (fun a => (a, ((if s.reader.left ≥ 4 then Scan.read tlReadInt32 >>= fun _ => pure ()
        else pure ()) s).2.reader)) = if s.reader.left ≥ 4 then Walk.drop32 s.reader else _
    split_ifs <;> rfl
  · rfl

/-- What `parse_message` walks over behind the constructor of a `messageService`. -/
def passService : Walk Unit := do
  let flags ← Walk.u32
  Walk.drop32
  serviceFields flags
  passAction
  passTtl flags

theorem peek_bind (f : TlReader → Option Int32) (w : Walk Unit) :
    ((Walk.read fun r => (f r, r)) >>= fun _ => w) = w :=
  rfl

theorem follows_domainHistoryParseService (flags : UInt32) :
    Scan.Follows (domainHistoryParseService flags) (do
      serviceFields flags
      passAction
      passTtl flags) := by
  have hreply : Scan.Follows (do
      let pinned ← Prog.ask fun st => peekPinned st.reader
      notePinned pinned
      skip tlSkipMessageReplyHeader) (Walk.skip tlSkipMessageReplyHeader.run) := by
    refine .of_eq inferInstance ?_
    simp only [pure_bind]
    exact peek_bind _ _
  have htail : Scan.Follows (Prog.ask (fun st : Scan => st.entry.text) >>= fun saved =>
      (parseServiceAction.after fun st =>
        { st with entry := restoreText saved st.entry }) >>= fun _ => skipTtl flags)
      (passAction >>= fun _ => passTtl flags) := by
    have httl := follows_skipTtl flags
    refine follows_askEntry _ fun saved => ?_
    have hact := follows_after follows_parseServiceAction (restoreText saved)
    infer_instance
  rw [domainHistoryParseService]
  refine .of_eq inferInstance ?_
  simp only [serviceFields, bind_assoc, pure_bind]
  refine bind_congr fun _ => bind_congr fun _ => bind_congr fun _ => bind_congr fun _ => ?_
  exact readInt32_bind _

theorem follows_parseBody_service (keepsInfo : Bool) :
    Scan.Follows (parseBody ⟨skip tlSkipPeer, keepsInfo⟩ messageWalkers tlMessageService)
      passService := by
  have hflags2 : Scan.Follows (readFlags2 tlMessageService) (pure 0) := by
    rw [readFlags2, if_neg (by decide)]
    infer_instance
  have hservice : ∀ flags, Scan.Follows (messageWalkers.parseService flags) (do
      serviceFields flags
      passAction
      passTtl flags) := follows_domainHistoryParseService
  simp only [parseBody, if_true]
  refine .of_eq inferInstance (bind_congr fun flags => ?_)
  simp only [pure_bind]
  exact readInt32_bind _

end TgCli.Domain
