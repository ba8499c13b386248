import TgCli.Core.TlSkip.Calls
import TgCli.Core.TlSkip.Draft
import TgCli.Core.TlSkip.Message

/-!
# `core/tl_skip.c`: the calls of its functions

Every function of the file with the nesting of its calls (`Call`) and the fact that they come to an
end (`Ends`; both at once for a function by itself, `Returns`), in the order of the modules that
define them.  Parts of functions that have a definition of their own, and functions that only call
another one, are marked as such; a function that takes the one it calls as a parameter takes its
calls as well.
-/

namespace TgCli.Core

open Lib Walk

set_option synthInstance.maxSize 100000000

noncomputable section Functions

variable {d : Bytes} {m : ℕ}

/-! ## Fields of a message -/

instance : Returns tlSkipMessageEntity.run := .of
instance : Returns tlSkipMessageEntitiesVector.run := .of
instance : Returns skipInlineQueryPeerTypeVector.run := .of
instance : Returns skipKeyboardButton.run := .of
instance : Returns skipKeyboardButtonRow.run := .of
instance : Returns skipButtonRowVector.run := .of
instance : Returns tlSkipReplyMarkup.run := .of
instance : Returns skipReaction.run := .of
instance : Returns skipReactionCount.run := .of
instance : Returns skipMessagePeerReaction.run := .of
instance : Returns skipMessageReactor.run := .of
instance : Returns tlSkipMessageReactions.run := .of
instance : Returns tlSkipMessageReplies.run := .of
instance : Returns tlSkipFactcheck.run := .of
instance : Returns tlSkipMessageFwdHeader.run := .of

/-! ## Photos and documents -/

instance : Returns tlSkipPhotoSize.run := .of
instance : Returns tlSkipPhotoSizeVector.run := .of

instance (out : Option _) : Returns (walkPhotoSizeVector.call out) := .extractor
instance : Returns skipInputStickerSet.run := .of
instance : Returns skipMaskCoords.run := .of
instance : Returns skipVideoSize.run := .of
instance : Returns skipVideoSizeVector.run := .of
instance (out : Option _) : Returns (photoFull.call out) := .extractor
instance : Returns tlSkipPhoto.run := .wrapper photoFull
instance (out : Option _) : Returns (skipDocumentAttribute.call out) := .extractor
instance (out : Option _) : Returns (documentInner.call out) := .extractor
instance : Returns tlSkipDocument.run := .wrapper documentInner

/-! ## Chats and users -/

instance (crcEmpty crcFull : UInt32) : Returns (skipProfilePhoto crcEmpty crcFull).run := .of
instance : Returns tlSkipChatPhoto.run := inferInstanceAs (Returns (skipProfilePhoto _ _).run)
instance : Returns tlSkipUserProfilePhoto.run :=
  inferInstanceAs (Returns (skipProfilePhoto _ _).run)
instance : Returns tlSkipUserStatus.run := .of
instance : Returns tlSkipRestrictionReasonVector.run := .of
instance : Returns tlSkipUsernameVector.run := .of
instance : Returns tlSkipPeerColor.run := .of
instance : Returns tlSkipEmojiStatus.run := .of
instance : Returns skipChatAdminRights.run := .of
instance : Returns skipChatBannedRights.run := .of

instance (out : Option _) : Returns (extractChat.call out) := .part
instance (out : Option _) : Returns (extractChannelForbidden.call out) := .part
instance (out : Option _) : Returns (extractChannel.call out) := .part
instance (out : Option _) : Returns (extractChatInner.call out) := .extractor
instance : Returns tlSkipChat.run := .wrapper extractChatInner
instance (out : Option ChatSummary) : Returns (tlExtractChat out).run := .wrapper extractChatInner

instance (out : Option _) : Returns (extractUser.call out) := .part
instance (out : Option _) : Returns (extractUserInner.call out) := .extractor
instance : Returns tlSkipUser.run := .wrapper extractUserInner
instance (out : Option UserSummary) : Returns (tlExtractUser out).run := .wrapper extractUserInner

/-! ## Pages -/

variable (s : Skipper) [Call s.run] [Ends d m (skip s.run)]

instance : Returns skipGeoPoint.run := .of

instance : BodyCalls ⟨richTextRun, guarded_richTextRun, same_richTextRun⟩ :=
  ⟨fun s _ crc => inferInstanceAs (Calls (richTextRun s crc))⟩

instance : BodyEnds ⟨richTextRun, guarded_richTextRun, same_richTextRun⟩ :=
  ⟨fun s _ d m _ crc => inferInstanceAs (Ends d m (richTextRun s crc))⟩

instance : Returns skipRichText.run := .fix
instance : Returns skipPageCaption.run := .of

instance : Call (skipPageBlockVector s).run := Call.of _
instance : Ends d m (skip (skipPageBlockVector s).run) := Ends.of

instance : Call (skipPageListItem s).run := Call.of _
instance : Ends d m (skip (skipPageListItem s).run) := Ends.of

instance : Call (skipPageListOrderedItem s).run := Call.of _
instance : Ends d m (skip (skipPageListOrderedItem s).run) := Ends.of

instance : Returns skipPageTableCell.run := .of
instance : Returns skipPageTableRow.run := .of
instance : Returns skipPageRelatedArticle.run := .of

instance : BodyCalls ⟨pageBlockRun, guarded_pageBlockRun, same_pageBlockRun⟩ :=
  ⟨fun s _ crc => inferInstanceAs (Calls (pageBlockRun s crc))⟩

instance : BodyEnds ⟨pageBlockRun, guarded_pageBlockRun, same_pageBlockRun⟩ :=
  ⟨fun s _ d m _ crc => inferInstanceAs (Ends d m (pageBlockRun s crc))⟩

instance : Returns skipPageBlock.run := .fix
instance : Returns skipPage.run := .of

/-! ## Media -/

instance : Returns skipWallpaperSettings.run := .of
instance : Returns skipWallpaper.run := .of
instance : Returns skipThemeSettings.run := .of
instance : Returns skipTextWithEntities.run := .of
instance : Returns skipPoll.run := .of
instance : Returns skipPollAnswerVoters.run := .of
instance : Returns skipPollResults.run := .of
instance : Returns skipGame.run := .of

instance : Returns skipWebDocument.run := .of
instance : Returns skipStoryFwdHeader.run := .of
instance : Returns skipMediaAreaCoordinates.run := .of
instance : Returns skipGeoPointAddress.run := .of
instance : Returns skipMediaArea.run := .of
instance : Returns skipPrivacyRule.run := .of
instance : Returns skipStoryViews.run := .of

instance : Call (skipMessageExtendedMedia s).run := Call.of _
instance : Ends d m (skip (skipMessageExtendedMedia s).run) := Ends.of

instance : Call (skipStoryItem s).run := Call.of _
instance : Ends d m (skip (skipStoryItem s).run) := Ends.of

instance : Call (skipWebpageAttributesVector s).run := Call.of _
instance : Ends d m (skip (skipWebpageAttributesVector s).run) := Ends.of

instance (flags : UInt32) : Onward (webpageHead flags) :=
  (inferInstance : Guarded 12 0 (webpageHead flags)).onward

instance (flags : UInt32) : Calls (webpageHead flags) := by
  delta webpageHead
  infer_instance

instance (flags : UInt32) : Ends d m (webpageHead flags) := by
  delta webpageHead
  infer_instance

instance : Call (skipWebpage s).run := Call.of _
instance : Ends d m (skip (skipWebpage s).run) := Ends.of

instance (crc : UInt32) : Calls (mediaKindOnly s crc).2 := by
  delta mediaKindOnly
  infer_instance

instance (crc : UInt32) : Ends d m (mediaKindOnly s crc).2 := by
  delta mediaKindOnly
  infer_instance

instance (out : Option _) : Call ((skipMessageMediaBody s).call out) :=
  Call.extractor out
instance (out : Option _) : Ends d m (skip ((skipMessageMediaBody s).call out)) :=
  Ends.extractor out

/-- `tl_skip_message_media_ex` looks at the counter and calls `skip_message_media_body`. -/
instance Call.mediaWithin : ∀ (n : ℕ) (out : Option MediaInfo),
    Call ((messageMediaWithin n).call out)
  | 0, out => Call.extractor out
  | n + 1, out =>
    have : Call ((messageMediaWithin n).call none) := Call.mediaWithin n none
    ⟨fun r =>
      1 + Call.depth ((skipMessageMediaBody ((messageMediaWithin n).skipper none)).call out) r⟩

instance Ends.mediaWithin (n : ℕ) (out : Option MediaInfo) :
    Ends d m (skip ((messageMediaWithin n).call out)) := by
  induction n generalizing out with
  | zero => exact Ends.extractor out
  | succ n ih =>
    have hbody : Ends d m
        (skip ((skipMessageMediaBody ((messageMediaWithin n).skipper none)).call out)) :=
      inferInstance
    exact ⟨fun hm hd hpos => Ends.one_add_ne_top (hbody.ne_top hm hd hpos)⟩

instance (out : Option MediaInfo) : Returns (tlSkipMessageMediaEx.call out) :=
  @Returns.mk _ (Call.mediaWithin _ out) fun _ _ => Ends.mediaWithin _ out

instance : Returns tlSkipMessageMedia.run := .wrapper tlSkipMessageMediaEx

/-! ## Drafts -/

instance : Returns tlSkipBool.run := .of
instance : Returns tlSkipNotificationSound.run := .of
instance : Returns tlSkipPeerNotifySettings.run := .of

instance : BodyCalls ⟨inputPeerRun, guarded_inputPeerRun, same_inputPeerRun⟩ :=
  ⟨fun s _ crc => inferInstanceAs (Calls (inputPeerRun s crc))⟩

instance : BodyEnds ⟨inputPeerRun, guarded_inputPeerRun, same_inputPeerRun⟩ :=
  ⟨fun s _ d m _ crc => inferInstanceAs (Ends d m (inputPeerRun s crc))⟩

instance : Returns skipInputPeer.run := .fix
instance : Returns skipInputUser.run := .of
instance : Returns skipInputGeoPoint.run := .of
instance (crcEmpty crcFull : UInt32) : Returns (skipInputFile crcEmpty crcFull).run := .of
instance : Returns skipInputPhoto.run := inferInstanceAs (Returns (skipInputFile _ _).run)
instance : Returns skipInputDocument.run := inferInstanceAs (Returns (skipInputFile _ _).run)
instance : Returns skipInputGame.run := .of

instance : BodyCalls ⟨inputMediaRun, guarded_inputMediaRun, same_inputMediaRun⟩ :=
  ⟨fun s _ crc => inferInstanceAs (Calls (inputMediaRun s crc))⟩

instance : BodyEnds ⟨inputMediaRun, guarded_inputMediaRun, same_inputMediaRun⟩ :=
  ⟨fun s _ d m _ crc => inferInstanceAs (Ends d m (inputMediaRun s crc))⟩

instance : Returns skipInputMedia.run := .fix
instance : Returns skipInputReplyTo.run := .of
instance : Returns tlSkipDraftMessage.run := .of

/-! ## Messages -/

instance : Returns tlSkipMessageReplyHeader.run := .of

instance (acrc : UInt32) : Calls (messageActionRun acrc) := by
  delta messageActionRun
  infer_instance

instance (acrc : UInt32) : Ends d m (messageActionRun acrc) := by
  delta messageActionRun
  infer_instance

instance : Returns skipMessageAction.run := .of

instance (flags flags2 : UInt32) : Calls (skipMessageRest flags flags2) := by
  delta skipMessageRest
  infer_instance

instance (flags flags2 : UInt32) : Ends d m (skipMessageRest flags flags2) := by
  delta skipMessageRest
  infer_instance

instance (flags flags2 : UInt32) : Calls (messageFields flags flags2) := by
  delta messageFields
  infer_instance

instance (flags flags2 : UInt32) : Ends d m (messageFields flags flags2) := by
  delta messageFields
  infer_instance

instance : Returns tlSkipMessage.run := .of

end Functions

end TgCli.Core
