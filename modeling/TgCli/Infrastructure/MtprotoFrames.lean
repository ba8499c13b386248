import TgCli.Core.MtprotoCrypto
import TgCli.Infrastructure.MtprotoRpc
import TgCli.Infrastructure.Transport

/-!
# `infrastructure/mtproto_rpc.c`: the envelopes as bytes

`MtprotoRpc` has what happens to a message once it is decrypted.  This file adds the bytes around
it: the plaintext that `rpc_send_encrypted` lays out, the frame it puts on the wire, and the part of
`rpc_recv_encrypted` that opens a frame.

A message travels (`encrypted_message_roundTrip`), and a sequence of them through the transport
(`stream_delivers`).  But the length field of an envelope is only compared with the capacity of the
caller's buffer, not with the bytes that are there.  The reader behind both functions answers a read
that does not fit with zeros, so an envelope that names more bytes than it has is delivered as zeros
(`recv_delivers_present_iff`).
-/

namespace TgCli.Infrastructure

open Option List Lib TgCli.Core

def rpcBufSize : ℕ := 1024 * 1024

/-! ## Sending -/

/-- The message that `rpc_send_encrypted` makes of a payload. -/
def nextMsg (s : MtProtoSession) (net : Net) (data : Bytes) (contentRelated : Bool) : SentMsg :=
  let msgId := mtprotoSessionNextMsgId s net.clockHead.1 net.clockHead.2
  let seqNo := mtprotoSessionNextSeqNo msgId.2 contentRelated
  ⟨s.serverSalt, s.sessionId, msgId.1, seqNo.1, data⟩

def SentMsg.plaintext (m : SentMsg) : Bytes :=
  let w := tlWriteUint64 [] m.salt
  let w := tlWriteUint64 w m.sessionId
  let w := tlWriteUint64 w m.msgId
  let w := tlWriteUint32 w m.seqNo
  let w := tlWriteUint32 w (UInt32.ofNat m.data.length)
  tlWriteRaw w m.data

/-- `auth_key_id`: the last eight bytes of the hash of the key. -/
def authKeyId (c : Crypto) (key : AuthKey) : UInt64 :=
  u64At (c.sha1 key.1).1 12

def encryptedFrame (c : Crypto) (key : AuthKey) (enc : Bytes × Block 16) : Bytes :=
  let w := tlWriteUint64 [] (authKeyId c key)
  let w := tlWriteRaw w enc.2.1
  tlWriteRaw w enc.1

/-! ## Receiving -/

/-- The part of `rpc_recv_encrypted` that opens a frame: `auth_key_id(8)`, `msg_key(16)`, and the
ciphertext.  `heap` is what the fresh buffer for the plaintext holds. -/
def openFrame (c : Crypto) (s : MtProtoSession) (packet : Option Bytes) (heap : Bytes) :
    Option Bytes := do
  let buf ← packet
  if buf.length < 24 then none
  let recvAuthKeyId := tlReadUint64 (tlReaderInit buf)
  let msgKey := toBlock 16 (tlReadRaw recvAuthKeyId.2 16).1
  if recvAuthKeyId.1 ≠ authKeyId c s.authKey then none
  mtprotoDecrypt c (buf.drop 24) s.authKey msgKey 8 heap

/-- `rpc_recv_encrypted` on the transport packet it received. -/
def rpcRecvEncryptedFrame (c : Crypto) (s : MtProtoSession) (packet : Option Bytes) (heap : Bytes)
    (maxLen : ℕ) : Option Bytes :=
  rpcRecvEncrypted s (openFrame c s packet heap) maxLen

/-! ## Fixed places -/

/-- The length field of an envelope, which ends its header. -/
def declaredLen (header : ℕ) (envelope : Bytes) : ℕ :=
  (u32At envelope (header - 4)).toNat

theorem tlReadRaw_behind (header : ℕ) (envelope : Bytes) (n : ℕ) :
    (tlReadRaw ⟨envelope, header⟩ n).1 =
      if header + n ≤ envelope.length then slice envelope header n else replicate n 0 := by
  by_cases h : header + n ≤ envelope.length
  · rw [if_pos h, tlReadRaw, readFixed_at h]
  · rw [if_neg h, tlReadRaw, readFixed_of_lt (by show envelope.length < header + n; omega)]

theorem rpcRecvUnencrypted_eq (buf : Bytes) (maxLen : ℕ) :
    rpcRecvUnencrypted (some buf) maxLen =
      if buf.length < 20 ∨ maxLen < declaredLen 20 buf then none
      else some (tlReadRaw ⟨buf, 20⟩ (declaredLen 20 buf)).1 := by
  by_cases hlen : buf.length < 20
  · rw [if_pos (.inl hlen)]
    simp only [rpcRecvUnencrypted, bind_eq_bind, bind_some, hlen, if_true,
      bind_none]
  · have h1 : tlReadUint64 (tlReaderInit buf) = (u64At buf 0, ⟨buf, 8⟩) :=
      tlReadUint64_at (by omega)
    have h2 : tlReadUint64 ⟨buf, 8⟩ = (u64At buf 8, ⟨buf, 16⟩) := tlReadUint64_at (by omega)
    have h3 : tlReadUint32 ⟨buf, 16⟩ = (u32At buf 16, ⟨buf, 20⟩) := tlReadUint32_at (by omega)
    simp only [rpcRecvUnencrypted, bind_eq_bind, bind_some, hlen, if_false, h1, h2, h3,
      declaredLen, false_or, gt_iff_lt]
    split_ifs <;> rfl

variable {s : MtProtoSession}

theorem rpcRecvEncrypted_eq (hkey : s.hasAuthKey = true) (plain : Bytes) (maxLen : ℕ) :
    rpcRecvEncrypted s (some plain) maxLen =
      if plain.length < 32 ∨ u64At plain 8 ≠ s.sessionId ∨ maxLen < declaredLen 32 plain then none
      else some (tlReadRaw ⟨plain, 32⟩ (declaredLen 32 plain)).1 := by
  by_cases hlen : plain.length < 32
  · rw [if_pos (.inl hlen)]
    simp only [rpcRecvEncrypted, hkey, bind_eq_bind, bind_some, hlen, if_true,
      Bool.not_true, Bool.false_eq_true, if_false, bind_none]
  · have h1 : tlReadUint64 (tlReaderInit plain) = (u64At plain 0, ⟨plain, 8⟩) :=
      tlReadUint64_at (by omega)
    have h2 : tlReadUint64 ⟨plain, 8⟩ = (u64At plain 8, ⟨plain, 16⟩) := tlReadUint64_at (by omega)
    have h3 : tlReadUint64 ⟨plain, 16⟩ = (u64At plain 16, ⟨plain, 24⟩) := tlReadUint64_at (by omega)
    have h4 : tlReadUint32 ⟨plain, 24⟩ = (u32At plain 24, ⟨plain, 28⟩) := tlReadUint32_at (by omega)
    have h5 : tlReadUint32 ⟨plain, 28⟩ = (u32At plain 28, ⟨plain, 32⟩) := tlReadUint32_at (by omega)
    simp only [rpcRecvEncrypted, hkey, bind_eq_bind, bind_some, hlen, Bool.not_true,
      Bool.false_eq_true, if_false, h1, h2, h3, h4, h5, declaredLen, false_or, gt_iff_lt]
    by_cases hid : u64At plain 8 = s.sessionId
    · simp only [hid, ne_eq, not_true_eq_false, if_false, false_or]
      split_ifs <;> rfl
    · simp only [hid, ne_eq, not_false_eq_true, if_true, bind_none, true_or]

theorem rpcRecvEncrypted_noKey (hkey : s.hasAuthKey = false)
    (packet : Option Bytes) (maxLen : ℕ) : rpcRecvEncrypted s packet maxLen = none := by
  simp [rpcRecvEncrypted, hkey]

/-! ## A message travels -/

theorem length_plaintext (m : SentMsg) : m.plaintext.length = 32 + m.data.length := by
  simp only [SentMsg.plaintext, tlWriteUint64, tlWriteUint32, tlWriteRaw, length_append,
    length_u64Bytes, length_u32Bytes, length_nil]

theorem plaintext_fields (m : SentMsg) (pad : Bytes) (hlen : m.data.length < 2 ^ 32) :
    u64At (m.plaintext ++ pad) 8 = m.sessionId ∧
      declaredLen 32 (m.plaintext ++ pad) = m.data.length ∧
      slice (m.plaintext ++ pad) 32 m.data.length = m.data := by
  set len := UInt32.ofNat m.data.length with hl
  have hn : len.toNat = m.data.length := UInt32.toNat_ofNat_of_lt' hlen
  have hall : m.plaintext ++ pad = u64Bytes m.salt ++ (u64Bytes m.sessionId ++ (u64Bytes m.msgId ++
      (u32Bytes m.seqNo ++ (u32Bytes len ++ (m.data ++ pad))))) := by
    simp only [SentMsg.plaintext, tlWriteUint64, tlWriteUint32, tlWriteRaw, nil_append,
      append_assoc, hl]
  refine ⟨u64At_of_slice ?_, ?_, ?_⟩
  · exact slice_field hall (length_u64Bytes _) (length_u64Bytes _)
  · show (u32At (m.plaintext ++ pad) 28).toNat = m.data.length
    rw [u32At_of_slice (x := len), hn]
    refine slice_field (p := u64Bytes m.salt ++ u64Bytes m.sessionId ++ u64Bytes m.msgId ++
      u32Bytes m.seqNo) (q := m.data ++ pad) ?_ ?_ (length_u32Bytes _)
    · simp only [hall, append_assoc]
    · simp only [length_append, length_u64Bytes, length_u32Bytes]
  · refine slice_field (p := u64Bytes m.salt ++ u64Bytes m.sessionId ++ u64Bytes m.msgId ++
      u32Bytes m.seqNo ++ u32Bytes len) (q := pad) ?_ ?_ rfl
    · simp only [hall, append_assoc]
    · simp only [length_append, length_u64Bytes, length_u32Bytes]

/-- `rpc_recv_encrypted` takes the payload out of a message of its own session, whatever padding
follows it. -/
theorem rpcRecvEncrypted_plaintext (hkey : s.hasAuthKey = true) {m : SentMsg}
    (hid : m.sessionId = s.sessionId) (pad : Bytes) {maxLen : ℕ} (hmax : m.data.length ≤ maxLen)
    (hlen : m.data.length < 2 ^ 32) :
    rpcRecvEncrypted s (some (m.plaintext ++ pad)) maxLen = some m.data := by
  obtain ⟨hsid, hdecl, hdata⟩ := plaintext_fields m pad hlen
  have hlong : 32 + m.data.length ≤ (m.plaintext ++ pad).length := by
    rw [length_append, length_plaintext]
    omega
  rw [rpcRecvEncrypted_eq hkey, hsid, hdecl, if_neg, tlReadRaw_behind, if_pos hlong, hdata]
  rintro (h | h | h)
  · omega
  · exact h hid
  · omega

/-- **A message travels, and only messages do.**  The plaintext that `rpc_send_encrypted` lays out
is padded to whole blocks with 12 to 27 bytes; what `mtproto_encrypt` makes of it `mtproto_decrypt`
accepts and returns, under the same key and direction, and the payload is taken out of it.  In the
other direction, a ciphertext that is accepted at all is the encryption of what it is taken for. -/
theorem encrypted_message_roundTrip (c : Crypto) (hc : c.AesPermutes) (s : MtProtoSession)
    (hkey : s.hasAuthKey = true) (net : Net) (data : Bytes) (contentRelated : Bool)
    (rand : (n : ℕ) → Block n) (x : ℕ) (heap heap' : Bytes) (maxLen : ℕ)
    (hmax : data.length ≤ maxLen)
    (hfit : (mtprotoPad rand (nextMsg s net data contentRelated).plaintext).length + 24 ≤
      rpcBufSize) :
    let plain := (nextMsg s net data contentRelated).plaintext
    let padded := mtprotoPad rand plain
    let enc := mtprotoEncrypt c rand plain s.authKey x heap
    (padded.length % 16 = 0 ∧ plain.length + 12 ≤ padded.length ∧
        padded.length ≤ plain.length + 27) ∧
      mtprotoDecrypt c enc.1 s.authKey enc.2 x heap' = some padded ∧
      rpcRecvEncrypted s (some padded) maxLen = some data ∧
      ∀ cipher msgKey plain', mtprotoDecrypt c cipher s.authKey msgKey x heap' = some plain' →
        mtprotoComputeMsgKey c s.authKey plain' x = msgKey ∧
        aesIgeEncrypt c plain' (mtprotoDeriveKeys c s.authKey msgKey x).1
          (mtprotoDeriveKeys c s.authKey msgKey x).2 heap = cipher := by
  intro plain padded enc
  have hpadded : padded.length = plain.length + padLen plain.length := length_mtprotoPad rand plain
  have hpad := padLen_spec plain.length
  have hplain : plain.length = 32 + data.length := length_plaintext _
  have hbuf : padded.length + 24 ≤ 1048576 := hfit
  have hdata : data.length < 2 ^ 32 := by omega
  refine ⟨⟨length_mtprotoPad_mod rand plain, by omega, by omega⟩, ?_, ?_, ?_⟩
  · exact mtprotoDecrypt_mtprotoEncrypt hc rand plain s.authKey x heap heap'
  · exact rpcRecvEncrypted_plaintext hkey rfl _ hmax hdata
  · intro cipher msgKey plain' h
    exact ((mtprotoDecrypt_eq_some_iff hc heap).mp h).2.2

/-- Primitives without secrets: hashes that cut, a cipher that does nothing. -/
def clearCrypto : Crypto where
  sha1 b := toBlock 20 b
  sha256 b := toBlock 32 b
  pbkdf2HmacSha512 b _ _ := some (toBlock 64 b)
  aesEncryptBlock _ b := b
  aesDecryptBlock _ b := b
  rsaPublicEncrypt m := some m
  serverKeyFingerprint := 0

theorem clearCrypto_aesPermutes : clearCrypto.AesPermutes where
  decrypt_encrypt _ _ := rfl
  encrypt_decrypt _ _ := rfl

def keyedSession : MtProtoSession :=
  { mtprotoSessionInit 5 with hasAuthKey := true }

theorem encrypted_message_roundTrip_keyedSession :
    let plain := (nextMsg keyedSession ⟨[], [], [], []⟩ [1, 2, 3, 4] true).plaintext
    let padded := mtprotoPad (toBlock · []) plain
    let enc := mtprotoEncrypt clearCrypto (toBlock · []) plain keyedSession.authKey 8 []
    padded.length = 48 ∧
      mtprotoDecrypt clearCrypto enc.1 keyedSession.authKey enc.2 8 [] = some padded ∧
      rpcRecvEncrypted keyedSession (some padded) 4 = some [1, 2, 3, 4] := by
  intro plain padded enc
  obtain ⟨-, hdec, hrecv, -⟩ := encrypted_message_roundTrip clearCrypto clearCrypto_aesPermutes
    keyedSession rfl ⟨[], [], [], []⟩ [1, 2, 3, 4] true (toBlock · []) 8 [] [] 4 le_rfl
    (by decide +kernel)
  exact ⟨by decide +kernel, hdec, hrecv⟩

/-! ## What a frame holds -/

theorem openFrame_eq (c : Crypto) (s : MtProtoSession) (buf heap : Bytes) :
    openFrame c s (some buf) heap =
      if buf.length < 24 ∨ u64At buf 0 ≠ authKeyId c s.authKey then none
      else mtprotoDecrypt c (buf.drop 24) s.authKey (toBlock 16 (slice buf 8 16)) 8 heap := by
  by_cases hlen : buf.length < 24
  · rw [if_pos (.inl hlen)]
    simp only [openFrame, bind_eq_bind, bind_some, hlen, if_true, bind_none]
  · have h1 : tlReadUint64 (tlReaderInit buf) = (u64At buf 0, ⟨buf, 8⟩) :=
      tlReadUint64_at (by omega)
    have h2 : (tlReadRaw ⟨buf, 8⟩ 16).1 = slice buf 8 16 := by
      rw [tlReadRaw_behind, if_pos (by omega)]
    simp only [openFrame, bind_eq_bind, bind_some, hlen, if_false, h1, h2, false_or]
    split_ifs <;> rfl

/-- The frame in which the server sends a padded plaintext. -/
def sealFrame (c : Crypto) (key : AuthKey) (plain : Bytes) : Bytes :=
  let msgKey := mtprotoComputeMsgKey c key plain 8
  let aes := mtprotoDeriveKeys c key msgKey 8
  encryptedFrame c key (aesIgeEncrypt c plain aes.1 aes.2 [], msgKey)

theorem encryptedFrame_eq (c : Crypto) (key : AuthKey) (cipher : Bytes) (msgKey : Block 16) :
    encryptedFrame c key (cipher, msgKey) = u64Bytes (authKeyId c key) ++ (msgKey.1 ++ cipher) := by
  simp only [encryptedFrame, tlWriteUint64, tlWriteRaw, nil_append, append_assoc]

/-- **What a frame holds.**  A frame opens to a plaintext exactly when it is the frame of it. -/
theorem openFrame_eq_some_iff {c : Crypto} (hc : c.AesPermutes)
    {packet : Option Bytes} {heap plain : Bytes} :
    openFrame c s packet heap = some plain ↔
      packet = some (sealFrame c s.authKey plain) ∧ 16 ≤ plain.length ∧ plain.length % 16 = 0 := by
  cases packet with
  | none => simp [openFrame]
  | some buf =>
    rw [openFrame_eq, some_inj]
    constructor
    · intro h
      split_ifs at h with hbad
      rw [not_or, not_not] at hbad
      obtain ⟨hlen, hid⟩ := hbad
      obtain ⟨h16, hmod, hkey, hcipher⟩ := (mtprotoDecrypt_eq_some_iff hc []).mp h
      have hblock : (toBlock 16 (slice buf 8 16)).1 = slice buf 8 16 :=
        toBlock_of_length (length_slice_of_le (by omega))
      refine ⟨?_, h16, hmod⟩
      simp only [sealFrame, encryptedFrame_eq, hkey, hcipher, hblock, ← hid]
      rw [u64Bytes_u64At (by omega), slice_zero, slice, show buf.drop 24 = (buf.drop 8).drop 16 by
        rw [drop_drop], take_append_drop, take_append_drop]
    · rintro ⟨rfl, h16, hmod⟩
      rw [sealFrame, encryptedFrame_eq]
      generalize hkey : mtprotoComputeMsgKey c s.authKey plain 8 = msgKey
      generalize hcipher : aesIgeEncrypt c plain _ _ [] = cipher
      have hid : u64At (u64Bytes (authKeyId c s.authKey) ++ (msgKey.1 ++ cipher)) 0 =
          authKeyId c s.authKey :=
        u64At_of_slice (slice_field (p := []) rfl rfl (length_u64Bytes _))
      have hmsg : slice (u64Bytes (authKeyId c s.authKey) ++ (msgKey.1 ++ cipher)) 8 16 =
          msgKey.1 :=
        slice_field rfl (length_u64Bytes _) msgKey.2
      have hdrop : (u64Bytes (authKeyId c s.authKey) ++ (msgKey.1 ++ cipher)).drop 24 = cipher := by
        rw [← append_assoc]
        exact drop_left' (by rw [length_append, length_u64Bytes, length_block])
      have hlong : 24 ≤ (u64Bytes (authKeyId c s.authKey) ++ (msgKey.1 ++ cipher)).length := by
        simp only [length_append, length_u64Bytes, length_block]
        omega
      have hblock : toBlock 16 msgKey.1 = msgKey := Subtype.ext (toBlock_of_length msgKey.2)
      rw [if_neg (by rw [hid, not_or]; exact ⟨by omega, fun h => h rfl⟩), hmsg, hdrop, hblock]
      exact (mtprotoDecrypt_eq_some_iff hc []).mpr ⟨h16, hmod, hkey, hcipher⟩

/-! ## Inflated lengths -/

/-- What a caller of a receiving function relies on: what it gets is the bytes that the length field
counts, and they are there. -/
def Delivers (header : ℕ) (envelope got : Option Bytes) : Prop :=
  ∀ out, got = some out → ∃ e, envelope = some e ∧ declaredLen header e ≤ e.length - header ∧
    out = slice e header (declaredLen header e)

/-- The length field names more bytes than are there, but not more than the caller has room for. -/
def Inflated (header maxLen : ℕ) (e : Bytes) : Prop :=
  header ≤ e.length ∧ e.length - header < declaredLen header e ∧ declaredLen header e ≤ maxLen

theorem delivers_none (header : ℕ) (envelope : Option Bytes) : Delivers header envelope none :=
  fun _ h => nomatch h

theorem delivers_checked_iff {header maxLen : ℕ} {e : Bytes} {ok : Prop} [Decidable ok] :
    Delivers header (some e)
        (if e.length < header ∨ ¬ ok ∨ maxLen < declaredLen header e then none
        else some (tlReadRaw ⟨e, header⟩ (declaredLen header e)).1) ↔
      (ok → ¬ Inflated header maxLen e) := by
  split_ifs with hbad
  · refine ⟨fun _ hok hinf => ?_, fun _ => delivers_none header _⟩
    obtain ⟨h1, -, h3⟩ := hinf
    rcases hbad with h | h | h
    · omega
    · exact h hok
    · omega
  · rw [not_or, not_or, not_not] at hbad
    obtain ⟨hlen, hok, hmax⟩ := hbad
    constructor
    · intro hd _ hinf
      obtain ⟨e', he, hle, -⟩ := hd _ rfl
      obtain rfl := some_inj.mp he
      exact absurd hinf.2.1 (by omega)
    · intro h out hout
      have hle : declaredLen header e ≤ e.length - header := by
        by_contra hgt
        exact h hok ⟨by omega, by omega, by omega⟩
      refine ⟨e, rfl, hle, ?_⟩
      rw [← some_inj.mp hout, tlReadRaw_behind, if_pos (by omega)]

/-- **An envelope is delivered as sent unless its length field is inflated.**  Neither function
compares the length field with the bytes that are there.  An unencrypted packet of at least twenty
bytes, or the frame of a plaintext of the session, is delivered with zeros in the place of what it
does not have, as long as the caller has room for them. -/
theorem recv_delivers_present_iff (c : Crypto) (hc : c.AesPermutes) (s : MtProtoSession)
    (packet : Option Bytes) (heap : Bytes) (maxLen : ℕ) :
    (Delivers 20 packet (rpcRecvUnencrypted packet maxLen) ↔
        ∀ e, packet = some e → ¬ Inflated 20 maxLen e) ∧
      (Delivers 32 (openFrame c s packet heap) (rpcRecvEncryptedFrame c s packet heap maxLen) ↔
        (s.hasAuthKey = true → ∀ e, packet = some (sealFrame c s.authKey e) → e.length % 16 = 0 →
          u64At e 8 = s.sessionId → ¬ Inflated 32 maxLen e)) := by
  constructor
  · cases packet with
    | none => exact ⟨fun _ _ h => (nomatch h), fun _ => delivers_none 20 _⟩
    | some buf =>
      have h := @delivers_checked_iff 20 maxLen buf True inferInstance
      simp only [not_true_eq_false, false_or, true_imp_iff] at h
      rw [rpcRecvUnencrypted_eq, h]
      exact ⟨fun h e he => some_inj.mp he ▸ h, fun h => h buf rfl⟩
  · rw [rpcRecvEncryptedFrame]
    by_cases hkey : s.hasAuthKey = true
    · cases hopen : openFrame c s packet heap with
      | none =>
        rw [rpcRecvEncrypted_none]
        refine ⟨fun _ _ e he hmod _ hinf => ?_, fun _ => delivers_none 32 _⟩
        have h16 : 16 ≤ e.length := le_trans (by decide) hinf.1
        exact nomatch hopen.symm.trans ((openFrame_eq_some_iff hc).mpr ⟨he, h16, hmod⟩)
      | some plain =>
        obtain ⟨hplain, h16, hmod⟩ := (openFrame_eq_some_iff hc).mp hopen
        rw [rpcRecvEncrypted_eq hkey, delivers_checked_iff]
        refine ⟨fun h _ e he hmod' hid hinf => ?_, fun h hid => h hkey plain hplain hmod hid⟩
        have h16' : 16 ≤ e.length := le_trans (by decide) hinf.1
        have he' := hopen.symm.trans ((openFrame_eq_some_iff hc).mpr ⟨he, h16', hmod'⟩)
        obtain rfl := some_inj.mp he'
        exact h hid hinf
    · rw [rpcRecvEncrypted_noKey (Bool.eq_false_iff.mpr hkey)]
      exact ⟨fun _ h => absurd h hkey, fun _ => delivers_none 32 _⟩

/-- A packet whose length field counts the four bytes that follow it. -/
theorem recv_delivers_present_answer :
    Delivers 20 (some [0, 0, 0, 0, 0, 0, 0, 0, 1, 0, 0, 0, 0, 0, 0, 0, 4, 0, 0, 0, 7, 7, 7, 7])
      (rpcRecvUnencrypted (some [0, 0, 0, 0, 0, 0, 0, 0, 1, 0, 0, 0, 0, 0, 0, 0, 4, 0, 0, 0,
        7, 7, 7, 7]) 16) := by
  refine (recv_delivers_present_iff clearCrypto clearCrypto_aesPermutes keyedSession _ []
    16).1.mpr ?_
  intro e he hinf
  obtain rfl := some_inj.mp he
  exact absurd hinf.2.1 (by decide)

/-- An unencrypted packet that is nothing but a header with a length field of four. -/
def bareHeader : Bytes :=
  [0, 0, 0, 0, 0, 0, 0, 0, 1, 0, 0, 0, 0, 0, 0, 0, 4, 0, 0, 0]

/-- A plaintext of the session that is nothing but a header with a length field of four. -/
def barePlaintext : Bytes :=
  u64Bytes 0 ++ u64Bytes keyedSession.sessionId ++ u64Bytes 1 ++ u32Bytes 1 ++ u32Bytes 4

/-- Both headers are delivered as four zero bytes. -/
theorem recv_delivers_absent_bytes :
    let packet := sealFrame clearCrypto keyedSession.authKey barePlaintext
    (bareHeader.length = 20 ∧ rpcRecvUnencrypted (some bareHeader) 16 = some [0, 0, 0, 0] ∧
        ¬ Delivers 20 (some bareHeader) (rpcRecvUnencrypted (some bareHeader) 16)) ∧
      openFrame clearCrypto keyedSession (some packet) [] = some barePlaintext ∧
      barePlaintext.length = 32 ∧
      rpcRecvEncryptedFrame clearCrypto keyedSession (some packet) [] 16 = some [0, 0, 0, 0] ∧
      ¬ Delivers 32 (openFrame clearCrypto keyedSession (some packet) [])
        (rpcRecvEncryptedFrame clearCrypto keyedSession (some packet) [] 16) := by
  intro packet
  have hclear : rpcRecvUnencrypted (some bareHeader) 16 = some [0, 0, 0, 0] := by decide +kernel
  have hopen : openFrame clearCrypto keyedSession (some packet) [] = some barePlaintext := by
    decide +kernel
  have hrecv : rpcRecvEncryptedFrame clearCrypto keyedSession (some packet) [] 16 =
      some [0, 0, 0, 0] := by decide +kernel
  refine ⟨⟨rfl, hclear, fun h => ?_⟩, hopen, rfl, hrecv, fun h => ?_⟩
  · obtain ⟨e, he, hle, -⟩ := h _ hclear
    obtain rfl := some_inj.mp he
    exact absurd hle (by decide)
  · obtain ⟨e, he, hle, -⟩ := h _ hrecv
    obtain rfl := some_inj.mp (hopen.symm.trans he)
    exact absurd hle (by decide)

/-! ## A stream of messages -/

/-- A message of the server, with the random source of its padding. -/
abbrev ServerMsg := SentMsg × ((n : ℕ) → Block n)

def ServerMsg.frame (c : Crypto) (s : MtProtoSession) (m : ServerMsg) : Bytes :=
  sealFrame c s.authKey (mtprotoPad m.2 m.1.plaintext)

section Stream

variable {c : Crypto} {s : MtProtoSession} {m : ServerMsg}

theorem sendable_frame (hlen : (m.frame c s).length ≤ rpcBufSize) : Sendable (m.frame c s) := by
  have hpad := length_mtprotoPad m.2 m.1.plaintext
  have hmod := length_mtprotoPad_mod m.2 m.1.plaintext
  have hplain := length_plaintext m.1
  have hne : mtprotoPad m.2 m.1.plaintext ≠ [] := ne_nil_of_length_pos (by omega)
  have hframe : (m.frame c s).length = 24 + (mtprotoPad m.2 m.1.plaintext).length := by
    rw [ServerMsg.frame, sealFrame, encryptedFrame_eq, length_append, length_append,
      length_u64Bytes, length_block, length_aesIgeEncrypt c hne hmod]
    omega
  rw [rpcBufSize] at hlen
  exact ⟨ne_nil_of_length_pos (by omega), by omega, by omega⟩

theorem rpcRecvEncryptedFrame_frame (hc : c.AesPermutes) (hkey : s.hasAuthKey = true)
    (hid : m.1.sessionId = s.sessionId) (heap : Bytes) {maxLen : ℕ}
    (hmax : m.1.data.length ≤ maxLen)
    (hlen : m.1.data.length < 2 ^ 32) :
    rpcRecvEncryptedFrame c s (some (m.frame c s)) heap maxLen = some m.1.data := by
  have hpad := length_mtprotoPad m.2 m.1.plaintext
  have hplain := length_plaintext m.1
  have hopen : openFrame c s (some (m.frame c s)) heap = some (mtprotoPad m.2 m.1.plaintext) :=
    (openFrame_eq_some_iff hc).mpr ⟨rfl, by omega, length_mtprotoPad_mod m.2 m.1.plaintext⟩
  rw [rpcRecvEncryptedFrame, hopen]
  exact rpcRecvEncrypted_plaintext hkey hid _ hmax hlen

end Stream

/-- **Messages arrive whole and in order.**  What the server seals for a session and sends through
any two sockets that move the length of every long frame at once, the client receives, opens and
takes apart message by message. -/
theorem stream_delivers (c : Crypto) (hc : c.AesPermutes) (s : MtProtoSession)
    (hkey : s.hasAuthKey = true) (ms : List ServerMsg) (heap : Bytes) (maxLen : ℕ)
    (hmax : maxLen < 2 ^ 32) (out inn : Pace)
    (hms : ∀ m ∈ ms, m.1.sessionId = s.sessionId ∧ m.1.data.length ≤ maxLen ∧
      (m.frame c s).length ≤ rpcBufSize)
    (hwhole : WholeLengths out inn 0 (ms.map (ServerMsg.frame c s))) :
    (recvAll rpcBufSize ms.length (InSocket.start inn
        (sendAll (OutSocket.start out) (ms.map (ServerMsg.frame c s))).sent)).map
        (rpcRecvEncryptedFrame c s · heap maxLen) = ms.map fun m => some m.1.data := by
  have hsend : ∀ p ∈ ms.map (ServerMsg.frame c s), Sendable p ∧ p.length ≤ rpcBufSize := by
    intro p hp
    obtain ⟨m, hm, rfl⟩ := mem_map.mp hp
    exact ⟨sendable_frame (hms m hm).2.2, (hms m hm).2.2⟩
  have hrecv := (recvAll_iff (fun p hp => (hsend p hp).1) (fun p hp => (hsend p hp).2)
    (OutSocket.start out) (InSocket.start inn _) rfl rfl).mpr hwhole
  rw [length_map] at hrecv
  rw [hrecv, List.map_map, List.map_map]
  refine map_congr_left fun m hm => ?_
  obtain ⟨hid, hlen, -⟩ := hms m hm
  exact rpcRecvEncryptedFrame_frame hc hkey hid heap hlen (by omega)

/-- Two messages in frames of one word of length each. -/
theorem stream_delivers_two :
    let m (d : UInt8) : ServerMsg :=
      (⟨0, keyedSession.sessionId, 1, 1, [d, 2, 3, 4]⟩, (toBlock · []))
    (recvAll rpcBufSize 2 (InSocket.start (demoPace 3 1) (sendAll (OutSocket.start (demoPace 5 3))
        ([m 1, m 2].map (ServerMsg.frame clearCrypto keyedSession))).sent)).map
        (rpcRecvEncryptedFrame clearCrypto keyedSession · [] 4) =
      [some [1, 2, 3, 4], some [2, 2, 3, 4]] := by
  intro m
  exact stream_delivers clearCrypto clearCrypto_aesPermutes keyedSession rfl [m 1, m 2] [] 4
    (by decide) (demoPace 5 3) (demoPace 3 1) (by decide +kernel) (by decide +kernel)

end TgCli.Infrastructure
