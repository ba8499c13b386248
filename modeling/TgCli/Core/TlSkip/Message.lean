import TgCli.Core.TlSkip.Media

/-!
# `core/tl_skip.c`: messages, and what success of a skipper means

`tl_skip_message` completes the file.  The second half of the module asks what a caller knows when
one of the functions returns 0.

In a buffer of whole words the answer is simple: the object is there, the cursor is behind it, and
whatever is appended makes no difference.  A buffer that ends inside a word is another matter.  The
padding of a string is skipped without a look whether it is there, so the cursor can end up behind
the buffer, where every later check passes.  `Skipper.sound_iff` says when this does not happen: the
bytes behind the last whole word must not be needed.
-/

namespace TgCli.Core

open List Lib Walk

set_option synthInstance.maxSize 1000000

/-! ## Constructors -/

def crcMessageReplyStoryHeader : UInt32 := 0x0e5af939
def crcMessageReplyHeader : UInt32 := 0xafbc09db
def crcMessageActionEmpty : UInt32 := 0xb6aef7b0
def crcMessageActionChatDeletePhoto : UInt32 := 0x95e3fbef
def crcMessageActionPinMessage : UInt32 := 0x94bd38ed
def crcMessageActionHistoryClear : UInt32 := 0x9fbab604
def crcMessageActionScreenshotTaken : UInt32 := 0x4792929b
def crcMessageActionContactSignUp : UInt32 := 0x9244c2ad
def crcMessageActionChatJoinedByRequest : UInt32 := 0xb4c38cb5
def crcMessageActionChatEditTitle : UInt32 := 0xb5a1ce5a
def crcMessageActionChannelCreate : UInt32 := 0x95d2ac92
def crcMessageActionCustomAction : UInt32 := 0xfae69f56
def crcMessageActionChatDeleteUser : UInt32 := 0xa43f30cc
def crcMessageActionChatMigrateTo : UInt32 := 0xe1037f92
def crcMessageActionChatJoinedByLink : UInt32 := 0x031224c3
def crcMessageActionChatCreate : UInt32 := 0xbd47cbad
def crcMessageActionChatAddUser : UInt32 := 0x15cefd00
def crcMessageActionChannelMigrateFrom : UInt32 := 0xea3948e9
def crcMessageActionChatEditPhoto : UInt32 := 0x7fcb13a8
def crcMessageActionPhoneCall : UInt32 := 0x80e11a7f
def crcMessageActionGroupCall : UInt32 := 0x7a0d7f42
def crcMessageActionGroupCallScheduled : UInt32 := 0xb3a07661
def crcMessageActionInviteToGroupCall : UInt32 := 0x502f92f7

/-! ## Messages -/

def tlSkipMessageReplyHeader : Skipper := .of do
  enter 4
  let crc ← u32
  if crc = crcMessageReplyStoryHeader then
    skip tlSkipPeer
    need 4; drop32
  else
    ensure (crc = crcMessageReplyHeader)
    need 4
    let flags ← u32
    opt (hasFlag flags 4) do need 4; drop32
    opt (hasFlag flags 0) (skip tlSkipPeer)
    opt (hasFlag flags 5) (skip tlSkipMessageFwdHeader)
    opt (hasFlag flags 8) (skip tlSkipMessageMedia)
    opt (hasFlag flags 1) do need 4; drop32
    opt (hasFlag flags 6) (skip tlSkipString)
    opt (hasFlag flags 7) (skip tlSkipMessageEntitiesVector)
    opt (hasFlag flags 10) do need 4; drop32

/-- `users:Vector<long>` of an action, of at most 4096 entries. -/
abbrev actionUsers : Walk Unit := do
  need 8
  let vcrc ← u32
  ensure (vcrc = tlVector)
  let n ← u32
  ensure (n.toNat ≤ 4096)
  need (n.toNat * 8)
  rep drop64 n.toNat

/-- What `skip_message_action` does behind the constructor. -/
def messageActionRun (acrc : UInt32) : Walk Unit :=
  if acrc ∈ [crcMessageActionEmpty, crcMessageActionChatDeletePhoto, crcMessageActionPinMessage,
      crcMessageActionHistoryClear, crcMessageActionScreenshotTaken,
      crcMessageActionContactSignUp, crcMessageActionChatJoinedByRequest] then pure ()
  else if acrc ∈ [crcMessageActionChatEditTitle, crcMessageActionChannelCreate,
      crcMessageActionCustomAction] then skip tlSkipString
  else if acrc ∈ [crcMessageActionChatDeleteUser, crcMessageActionChatMigrateTo,
      crcMessageActionChatJoinedByLink] then do
    need 8; drop64
  else if acrc = crcMessageActionChatCreate then do
    skip tlSkipString
    actionUsers
  else if acrc = crcMessageActionChatAddUser then actionUsers
  else if acrc = crcMessageActionChannelMigrateFrom then do
    skip tlSkipString
    need 8; drop64
  else if acrc = crcMessageActionChatEditPhoto then skip tlSkipPhoto
  else if acrc = crcMessageActionPhoneCall then do
    need (4 + 8)
    let pflags ← u32
    drop64
    opt (hasFlag pflags 0) do need 4; drop32
    opt (hasFlag pflags 1) do need 4; drop32
  else if acrc = crcMessageActionGroupCall then do
    need 4
    let gflags ← u32
    need (4 + 16); drop32; drop64; drop64
    opt (hasFlag gflags 0) do need 4; drop32
  else if acrc = crcMessageActionGroupCallScheduled then do
    need (4 + 16 + 4); drop32; drop64; drop64; drop32
  else if acrc = crcMessageActionInviteToGroupCall then do
    need (4 + 16); drop32; drop64; drop64
    actionUsers
  else fail

/-- The actions that `skip_message_action` knows. -/
def knownActions : List UInt32 :=
  [crcMessageActionEmpty, crcMessageActionChatDeletePhoto, crcMessageActionPinMessage,
    crcMessageActionHistoryClear, crcMessageActionScreenshotTaken, crcMessageActionContactSignUp,
    crcMessageActionChatJoinedByRequest, crcMessageActionChatEditTitle,
    crcMessageActionChannelCreate, crcMessageActionCustomAction, crcMessageActionChatDeleteUser,
    crcMessageActionChatMigrateTo, crcMessageActionChatJoinedByLink, crcMessageActionChatCreate,
    crcMessageActionChatAddUser, crcMessageActionChannelMigrateFrom, crcMessageActionChatEditPhoto,
    crcMessageActionPhoneCall, crcMessageActionGroupCall, crcMessageActionGroupCallScheduled,
    crcMessageActionInviteToGroupCall]

theorem messageActionRun_of_notMem {acrc : UInt32} (h : acrc ∉ knownActions) :
    messageActionRun acrc = fail := by
  simp only [knownActions, mem_cons, not_mem_nil, not_or, or_false] at h
  simp only [messageActionRun, mem_cons, not_mem_nil, or_false, h, if_false]

instance (acrc : UInt32) : Guarded 0 0 (messageActionRun acrc) := by
  rw [messageActionRun]
  infer_instance

def skipMessageAction : Skipper := .of do
  need 4
  let acrc ← u32
  messageActionRun acrc

/-- What stands between the id and the action of a `messageService`. -/
abbrev serviceFields (flags : UInt32) : Walk Unit := do
  opt (hasFlag flags 8) (skip tlSkipPeer)
  skip tlSkipPeer
  opt (hasFlag flags 3) (skip tlSkipMessageReplyHeader)
  need 4; drop32

/-- The part of `tl_skip_message` for a `messageService`. -/
abbrev skipServiceRun : Walk Unit := do
  need 8
  let flags ← u32
  drop32
  serviceFields flags
  skip skipMessageAction
  opt (hasFlag flags 20) (skip tlSkipMessageReactions)
  opt (hasFlag flags 25) do need 4; drop32

/-- What follows the text in `tl_skip_message`. -/
def skipMessageRest (flags flags2 : UInt32) : Walk Unit := do
  opt (hasFlag flags 9) (skip tlSkipMessageMedia)
  opt (hasFlag flags 6) (skip tlSkipReplyMarkup)
  opt (hasFlag flags 7) (skip tlSkipMessageEntitiesVector)
  opt (hasFlag flags 10) do need 8; drop32; drop32
  opt (hasFlag flags 23) (skip tlSkipMessageReplies)
  opt (hasFlag flags 15) do need 4; drop32
  opt (hasFlag flags 16) (skip tlSkipString)
  opt (hasFlag flags 17) do need 8; drop64
  opt (hasFlag flags 20) (skip tlSkipMessageReactions)
  opt (hasFlag flags 22) (skip tlSkipRestrictionReasonVector)
  opt (hasFlag flags 25) do need 4; drop32
  opt (hasFlag flags2 30) do need 4; drop32
  opt (hasFlag flags2 2) do need 8; drop64
  opt (hasFlag flags2 3) (skip tlSkipFactcheck)

instance (flags flags2 : UInt32) : Guarded 0 0 (skipMessageRest flags flags2) := by
  rw [skipMessageRest]
  infer_instance

/-- What stands between the id and the text of a `message`. -/
def messageFields (flags flags2 : UInt32) : Walk Unit := do
  opt (hasFlag flags 8) (skip tlSkipPeer)
  skip tlSkipPeer
  opt (hasFlag flags 28) (skip tlSkipPeer)
  opt (hasFlag flags 2) (skip tlSkipMessageFwdHeader)
  opt (hasFlag flags 11) do need 8; drop64
  opt (hasFlag flags2 0) do need 8; drop64
  opt (hasFlag flags 3) (skip tlSkipMessageReplyHeader)
  need 4; drop32

instance (flags flags2 : UInt32) : Guarded 0 0 (messageFields flags flags2) := by
  rw [messageFields]
  infer_instance

/-- The part of `tl_skip_message` for a `message`. -/
abbrev skipMessageRun : Walk Unit := do
  need 12
  let flags ← u32
  let flags2 ← u32
  drop32
  messageFields flags flags2
  skip tlSkipString
  skipMessageRest flags flags2

/-- What `tl_skip_message` does behind the constructor. -/
abbrev messageRun (crc : UInt32) : Walk Unit :=
  if crc = tlMessageEmpty then do
    need 8
    let flags ← u32
    drop32
    opt (hasFlag flags 0) (skip tlSkipPeer)
  else if crc = tlMessageService then skipServiceRun
  else if crc = tlMessage then skipMessageRun
  else fail

theorem messageRun_message : messageRun tlMessage = skipMessageRun := by
  rw [messageRun, if_neg (by decide), if_neg (by decide), if_pos rfl]

theorem messageRun_service : messageRun tlMessageService = skipServiceRun := by
  rw [messageRun, if_neg (by decide), if_pos rfl]

def tlSkipMessage : Skipper := .of do
  enter 4
  let crc ← u32
  messageRun crc

/-! ## What success means -/

/-- Success at `p` in `b` means that the object is there: the cursor stays in the buffer, and the
call does the same whatever follows. -/
def Skipper.Sound (f : Skipper) (b : Bytes) (p : ℕ) : Prop :=
  ∀ r', f.run ⟨b, p⟩ = some r' →
    r'.pos ≤ b.length ∧ ∀ s, f.run ⟨b ++ s, p⟩ = some ⟨b ++ s, r'.pos⟩

/-- The buffer without the bytes behind its last whole word, counted from `p`. -/
def wholeWords (b : Bytes) (p : ℕ) : Bytes :=
  b.take (p + (b.length - p) / 4 * 4)

section Words

variable {f : Skipper} {b : Bytes} {p : ℕ}

theorem length_wholeWords (hp : p ≤ b.length) :
    (wholeWords b p).length = p + (b.length - p) / 4 * 4 := by
  rw [wholeWords, length_take]
  omega

theorem wholeWords_append_drop (b : Bytes) (p : ℕ) :
    wholeWords b p ++ b.drop (p + (b.length - p) / 4 * 4) = b :=
  take_append_drop _ b

theorem Skipper.skip_eq_some {r r' : TlReader} :
    Walk.skip f.run r = some ((), r') ↔ f.run r = some r' := by
  rw [Walk.skip, Option.map_eq_some_iff]
  constructor
  · rintro ⟨r₁, h, he⟩
    rwa [← (Prod.mk.inj he).2]
  · intro h
    exact ⟨r', h, rfl⟩

theorem Skipper.sound_of_wholeWords (hp : p ≤ b.length) {r₀ : TlReader}
    (h : f.run ⟨wholeWords b p, p⟩ = some r₀) : f.Sound b p := by
  have hlen := length_wholeWords hp
  obtain ⟨hpos, -, hall⟩ := f.guarded.whole (by omega)
    (by rw [hlen]; omega) (Skipper.skip_eq_some.mpr h)
  intro r' hr'
  have hb := Skipper.skip_eq_some.mp (hall (b.drop (p + (b.length - p) / 4 * 4)))
  rw [wholeWords_append_drop, hr'] at hb
  obtain rfl := Option.some_inj.mp hb
  refine ⟨?_, fun s => ?_⟩
  · show r₀.pos ≤ b.length
    omega
  · have hs := Skipper.skip_eq_some.mp (hall (b.drop (p + (b.length - p) / 4 * 4) ++ s))
    rwa [← append_assoc, wholeWords_append_drop] at hs

theorem Skipper.Sound.wholeWords (hs : f.Sound b p) (hp : p ≤ b.length) {r' : TlReader}
    (h : f.run ⟨b, p⟩ = some r') : (f.run ⟨wholeWords b p, p⟩).isSome = true := by
  obtain ⟨hpos, hall⟩ := hs r' h
  have hlen := length_wholeWords hp
  have hone := Skipper.skip_eq_some.mpr (hall [0])
  -- with one byte more the walk ends inside the buffer, so it has moved by whole words
  obtain ⟨hle, hdvd⟩ := f.guarded.words hone (by
    show r'.pos < (b ++ [0]).length
    rw [length_append, length_singleton]
    omega)
  have hdvd : 4 ∣ r'.pos - p := hdvd
  have hsplit : b ++ [0] =
      TgCli.Core.wholeWords b p ++ (b.drop (p + (b.length - p) / 4 * 4) ++ [0]) := by
    rw [← append_assoc, wholeWords_append_drop]
  rw [hsplit] at hone
  obtain ⟨-, hback⟩ := f.guarded.back (by simp) (by omega) (by rw [hlen]; omega) hone (by
    show r'.pos + 0 ≤ _
    omega)
  rw [Skipper.skip_eq_some.mp hback]
  rfl

/-- **Success is sound exactly when the bytes behind the last whole word are not needed.** -/
theorem Skipper.sound_iff (f : Skipper) (hp : p ≤ b.length) :
    f.Sound b p ↔
      (f.run ⟨b, p⟩).isSome = true → (f.run ⟨TgCli.Core.wholeWords b p, p⟩).isSome = true := by
  constructor
  · intro hs h
    obtain ⟨r', hr'⟩ := Option.isSome_iff_exists.mp h
    exact hs.wholeWords hp hr'
  · intro h r' hr'
    obtain ⟨r₀, hr₀⟩ := Option.isSome_iff_exists.mp (h (by rw [hr']; rfl))
    exact sound_of_wholeWords hp hr₀ r' hr'

end Words

/-! ## The public functions -/

/-- A call of a public function of the file. -/
inductive PublicSkipper where
  | skipMessage
  | skipMessageMediaEx (out : Option MediaInfo)
  | skipChat
  | extractChat (out : Option ChatSummary)
  | skipUser
  | extractUser (out : Option UserSummary)

def PublicSkipper.skipper : PublicSkipper → Skipper
  | skipMessage => tlSkipMessage
  | skipMessageMediaEx out => tlSkipMessageMediaEx.skipper out
  | skipChat => tlSkipChat
  | extractChat out => tlExtractChat out
  | skipUser => tlSkipUser
  | extractUser out => tlExtractUser out

/-- **What success of a public function means.**  A call that starts inside the buffer and succeeds
has found its whole object there exactly when it also succeeds without the one to three bytes that
stand behind the last whole word. -/
theorem publicSkipper_sound_iff (f : PublicSkipper) (b : Bytes) (p : ℕ) (hp : p ≤ b.length) :
    f.skipper.Sound b p ↔ (f.skipper.run ⟨b, p⟩).isSome = true →
      (f.skipper.run ⟨wholeWords b p, p⟩).isSome = true :=
  f.skipper.sound_iff hp

/-- A `chatForbidden` with the title `a`, cut before the two bytes of padding. -/
def cutChatForbidden : Bytes :=
  [0xa7, 0xa1, 0x92, 0x65, 7, 0, 0, 0, 0, 0, 0, 0, 1, 97]

/-- With its padding, the same chat is accepted and found whole. -/
theorem publicSkipper_sound_paddedChat :
    PublicSkipper.skipChat.skipper.run ⟨cutChatForbidden ++ [0, 0], 0⟩ =
        some ⟨cutChatForbidden ++ [0, 0], 16⟩ ∧
      PublicSkipper.skipChat.skipper.Sound (cutChatForbidden ++ [0, 0]) 0 :=
  ⟨by decide +kernel,
    (publicSkipper_sound_iff .skipChat (cutChatForbidden ++ [0, 0]) 0 (Nat.zero_le _)).mpr
      fun h => h⟩

/-- The cut chat is accepted with the cursor two bytes behind the end of the buffer. -/
theorem skipChat_accepts_cutChat :
    PublicSkipper.skipChat.skipper.run ⟨cutChatForbidden, 0⟩ = some ⟨cutChatForbidden, 16⟩ ∧
      cutChatForbidden.length = 14 ∧
      ¬ PublicSkipper.skipChat.skipper.Sound cutChatForbidden 0 := by
  have hrun : PublicSkipper.skipChat.skipper.run ⟨cutChatForbidden, 0⟩ =
      some ⟨cutChatForbidden, 16⟩ := by decide +kernel
  refine ⟨hrun, rfl, fun h => ?_⟩
  exact absurd (h _ hrun).1 (by decide)

end TgCli.Core
