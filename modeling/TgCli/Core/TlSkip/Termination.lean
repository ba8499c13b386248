import TgCli.Core.TlSkip.CallGraph

/-!
# `core/tl_skip.c`: every call ends, and takes at least a word

For each function that the header declares: its calls come to an end, from every cursor, and when it
succeeds from a cursor that is not behind the end of the buffer, the cursor is at least four bytes
further on (`tlFunction_ends_and_advances`).

The bytes that are left do not measure the progress, for a string can lead the cursor behind the end
and a read brings it back to the end.  But every function except those for a string reads its
constructor first, and behind a check that four bytes are there: so the end is at least four bytes
on, and a cursor that has passed a place inside the buffer stays behind it (`Onward`).
-/

namespace TgCli.Core

open Lib Walk

set_option synthInstance.maxSize 100000000

/-! ## Walks that take a word -/

/-- Success moves the cursor by four bytes at least. -/
class Advances {α : Type} (w : Walk α) : Prop where
  le : ∀ {r a r'}, r.pos ≤ r.data.length → w r = some (a, r') → r.pos + 4 ≤ r'.pos

namespace Advances

variable {α β : Type}

theorem enter_read {n : ℕ} {f : TlReader → α × TlReader} (dec : Bytes → α)
    (hf : ∀ r, f r = (dec (readFixed r 4).1, (readFixed r 4).2)) {r r' : TlReader} {a : α}
    (h : (Walk.enter (n + 4) >>= fun _ => Walk.read f) r = some (a, r')) :
    r.pos + 4 ≤ r.data.length ∧ r' = r.advance 4 := by
  obtain ⟨u, r₁, henter, hread⟩ := bind_eq_some.mp h
  obtain ⟨hlt, hleft, rfl⟩ := Guarded.enter_eq_some.mp henter
  have hfit : r₁.pos + 4 ≤ r₁.data.length := by omega
  obtain ⟨-, -, rfl⟩ | ⟨hno, -, -⟩ := (Guarded.read_eq_some hf).mp hread
  · exact ⟨hfit, rfl⟩
  · omega

theorem of_onward {w : Walk α} {f : α → Walk β} [∀ a, Onward (f a)]
    (hw : ∀ {r a r'}, w r = some (a, r') → r.pos + 4 ≤ r.data.length ∧ r' = r.advance 4) :
    Advances (w >>= f) := by
  refine ⟨fun {r b r'} _ h => ?_⟩
  obtain ⟨a, r₁, h1, h2⟩ := bind_eq_some.mp h
  obtain ⟨hfit, rfl⟩ := hw h1
  exact Onward.le inferInstance h2 le_rfl hfit

theorem enter_u32 {n : ℕ} {r r' : TlReader} {a : UInt32}
    (h : (Walk.enter (n + 4) >>= fun _ => Walk.u32) r = some (a, r')) :
    r.pos + 4 ≤ r.data.length ∧ r' = r.advance 4 :=
  enter_read (fun b => UInt32.ofNat (leNat b)) (fun _ => rfl) h

instance ctor' {n : ℕ} {f : UInt32 → Walk α} [∀ crc, Onward (f crc)] :
    Advances ((Walk.enter (n + 4) >>= fun _ => Walk.u32) >>= f) :=
  of_onward enter_u32

instance ctor {n : ℕ} {f : UInt32 → Walk α} [∀ crc, Onward (f crc)] :
    Advances (Walk.enter (n + 4) >>= fun _ => Walk.u32 >>= f) := by
  rw [← bind_assoc]
  infer_instance

instance pureBind {a : α} {f : α → Walk β} [h : Advances (f a)] :
    Advances ((Pure.pure a : Walk α) >>= f) := by
  rwa [pure_bind]

instance enterVector {w : Walk Unit} [Guarded 0 0 w] : Advances (Walk.enterVector w) := by
  delta Walk.enterVector
  infer_instance

instance of {w : Walk Unit} [Guarded 0 0 w] [h : Advances w] :
    Advances (Walk.skip (Skipper.of w).run) := by
  rwa [Skipper.skip_of]

instance extractor {Ω : Type} {m : Prog (Ext Ω) Unit} {w : Walk Unit} [hm : Ext.Follows m w]
    [Guarded 0 0 w] [h : Advances w] (out : Option Ω) :
    Advances (Walk.skip ((Extractor.of m).call out)) := by
  rwa [Extractor.skip_call_eq (x := Extractor.of m) hm out]

instance skipPeer : Advances (Walk.skip tlSkipPeer) := by
  rw [Guarded.skip_tlSkipPeer_eq]
  infer_instance

/-- A string takes its length and its padding, also behind the end of the buffer. -/
instance skipString : Advances (Walk.skip tlSkipString) := by
  refine ⟨fun {r u r'} _ h => ?_⟩
  obtain ⟨s, hs, -⟩ := Guarded.skip_tlSkipString_eq_some.mp h
  obtain ⟨hd, n, hspan, -, -, rfl⟩ := tlReadBytes_eq_some.mp hs
  have hpos := hspan.pos
  show r.pos + 4 ≤ r.pos + (hd + n + 3) / 4 * 4
  omega

instance skipBool : Advances (Walk.skip tlSkipBool.run) := by
  refine ⟨fun {r u r'} _ h => ?_⟩
  rw [tlSkipBool, Skipper.skip_of] at h
  obtain ⟨-, rfl⟩ := enter_read (fun _ => ()) (fun _ => rfl) h
  exact le_rfl

theorem mediaWithin (n : ℕ) (out : Option MediaInfo) :
    Advances (Walk.skip ((messageMediaWithin n).call out)) := by
  cases n with
  | zero =>
    refine ⟨fun {r u r'} _ h => ?_⟩
    have hnone : Walk.skip ((messageMediaWithin 0).call out) r = none := rfl
    rw [hnone] at h
    cases h
  | succ n => exact Advances.extractor out

end Advances

/-! ## The functions of the header -/

/-- The functions that `tl_skip.h` declares, with the `out` that the caller passes. -/
inductive TlFunction where
  | skipBool
  | skipString
  | skipPeer
  | skipNotificationSound
  | skipPeerNotifySettings
  | skipDraftMessage
  | skipMessageEntity
  | skipMessageEntitiesVector
  | skipMessageFwdHeader
  | skipReplyMarkup
  | skipMessageReactions
  | skipMessageReplies
  | skipFactcheck
  | skipMessageReplyHeader
  | skipPhotoSize
  | skipPhotoSizeVector
  | skipPhoto
  | skipDocument
  | skipMessageMedia
  | skipMessageMediaEx (out : Option MediaInfo)
  | skipChatPhoto
  | skipUserProfilePhoto
  | skipUserStatus
  | skipRestrictionReasonVector
  | skipUsernameVector
  | skipPeerColor
  | skipEmojiStatus
  | skipChat
  | skipUser
  | skipMessage
  | extractChat (out : Option ChatSummary)
  | extractUser (out : Option UserSummary)

structure Called where
  run : TlReader → Option TlReader
  depth : TlReader → ℕ∞

def Called.of (f : TlReader → Option TlReader) [Call f] : Called :=
  ⟨f, Call.depth f⟩

noncomputable def TlFunction.called : TlFunction → Called
  | skipBool => .of tlSkipBool.run
  | skipString => .of tlSkipString
  | skipPeer => .of tlSkipPeer
  | skipNotificationSound => .of tlSkipNotificationSound.run
  | skipPeerNotifySettings => .of tlSkipPeerNotifySettings.run
  | skipDraftMessage => .of tlSkipDraftMessage.run
  | skipMessageEntity => .of tlSkipMessageEntity.run
  | skipMessageEntitiesVector => .of tlSkipMessageEntitiesVector.run
  | skipMessageFwdHeader => .of tlSkipMessageFwdHeader.run
  | skipReplyMarkup => .of tlSkipReplyMarkup.run
  | skipMessageReactions => .of tlSkipMessageReactions.run
  | skipMessageReplies => .of tlSkipMessageReplies.run
  | skipFactcheck => .of tlSkipFactcheck.run
  | skipMessageReplyHeader => .of tlSkipMessageReplyHeader.run
  | skipPhotoSize => .of tlSkipPhotoSize.run
  | skipPhotoSizeVector => .of tlSkipPhotoSizeVector.run
  | skipPhoto => .of tlSkipPhoto.run
  | skipDocument => .of tlSkipDocument.run
  | skipMessageMedia => .of tlSkipMessageMedia.run
  | skipMessageMediaEx out => .of (tlSkipMessageMediaEx.call out)
  | skipChatPhoto => .of tlSkipChatPhoto.run
  | skipUserProfilePhoto => .of tlSkipUserProfilePhoto.run
  | skipUserStatus => .of tlSkipUserStatus.run
  | skipRestrictionReasonVector => .of tlSkipRestrictionReasonVector.run
  | skipUsernameVector => .of tlSkipUsernameVector.run
  | skipPeerColor => .of tlSkipPeerColor.run
  | skipEmojiStatus => .of tlSkipEmojiStatus.run
  | skipChat => .of tlSkipChat.run
  | skipUser => .of tlSkipUser.run
  | skipMessage => .of tlSkipMessage.run
  | extractChat out => .of (tlExtractChat out).run
  | extractUser out => .of (tlExtractUser out).run

theorem Called.of_depth_ne_top (f : TlReader → Option TlReader) [Call f]
    [h : ∀ d m, Ends d m (skip f)] (r : TlReader) : (Called.of f).depth r ≠ ⊤ :=
  (h r.data 0).ne_top (Nat.zero_le _) rfl (Nat.zero_le _)

theorem TlFunction.depth_ne_top (f : TlFunction) (r : TlReader) : f.called.depth r ≠ ⊤ := by
  cases f <;> exact Called.of_depth_ne_top _ r

theorem TlFunction.advances (f : TlFunction) : Advances (skip f.called.run) := by
  cases f with
  | skipBool => exact Advances.skipBool
  | skipString => exact Advances.skipString
  | skipPeer => exact Advances.skipPeer
  | skipPhoto | skipDocument | skipChat | skipUser => exact Advances.extractor none
  | extractChat out | extractUser out => exact Advances.extractor out
  | skipMessageMedia => exact Advances.mediaWithin _ none
  | skipMessageMediaEx out => exact Advances.mediaWithin _ out
  | _ => exact Advances.of

/-- **Termination and progress.**  Whatever the buffer holds, the calls of a function come to an end
from every cursor in it, and success takes four bytes at least. -/
theorem tlFunction_ends_and_advances (f : TlFunction) (b : Bytes) (p : ℕ) (hp : p ≤ b.length) :
    f.called.depth ⟨b, p⟩ ≠ ⊤ ∧
      ∀ r', f.called.run ⟨b, p⟩ = some r' → p + 4 ≤ r'.pos := by
  refine ⟨f.depth_ne_top _, fun r' h => ?_⟩
  have hskip : skip f.called.run ⟨b, p⟩ = some ((), r') := congrArg _ h
  exact f.advances.le hp hskip

/-- A reply in a draft names its peer by a message, whose peer is again named by a message. -/
def nestedPeerDraft : Bytes :=
  u32Bytes crcDraftMessage ++ u32Bytes 0x10 ++ u32Bytes crcInputReplyToStory ++
    u32Bytes crcInputPeerUserFromMessage ++ u32Bytes crcInputPeerChannelFromMessage ++
    u32Bytes crcInputPeerSelf ++ List.replicate 36 0

theorem skipDraftMessage_ends_and_advances :
    (TlFunction.skipDraftMessage.called.run ⟨nestedPeerDraft, 0⟩).isSome ∧
      TlFunction.skipDraftMessage.called.depth ⟨nestedPeerDraft, 0⟩ ≠ ⊤ ∧
      ∀ r', TlFunction.skipDraftMessage.called.run ⟨nestedPeerDraft, 0⟩ = some r' → 4 ≤ r'.pos := by
  obtain ⟨hend, hadv⟩ :=
    tlFunction_ends_and_advances .skipDraftMessage nestedPeerDraft 0 (Nat.zero_le _)
  exact ⟨by decide +kernel, hend, fun r' h => (Nat.zero_add 4).symm.le.trans (hadv r' h)⟩

end TgCli.Core
