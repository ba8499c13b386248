import TgCli.Infrastructure.ApiCall
import TgCli.Infrastructure.MtprotoFrames

/-!
# The buffers of a request

A query passes two buffers of one mebibyte each on its way out.  `api_wrap_query` puts the header of
the connection before it and is told the capacity of the first buffer; `rpc_send_encrypted` adds 32
bytes of its own and at least 12 of padding, up to whole blocks, and encrypts into the second, which
nothing is compared with.

So the only limit a query meets is that of the first buffer, and it is 44 bytes too high: a wrapped
query of up to 1048532 bytes fits the second buffer, a longer one that still passes
`api_wrap_query` does not (`fitsBuffer_iff`).
-/

namespace TgCli.Infrastructure

open Lib TgCli.Core

def stringLen (s : Option Bytes) : ℕ :=
  let len := (cstr (s.getD [])).length
  ((if len < 254 then 1 else 4) + len + 3) / 4 * 4

/-- The bytes before the query: five words and six strings. -/
def connectionLen (cfg : ApiConfig) : ℕ :=
  20 + stringLen cfg.deviceModel + stringLen cfg.systemVersion + stringLen cfg.appVersion +
    stringLen cfg.systemLangCode + stringLen cfg.langPack + stringLen cfg.langCode

/-- What `rpc_send_encrypted` writes to its buffer for a payload of `api_call`. -/
def ciphertext (c : Crypto) (rand : (n : ℕ) → Block n) (s : MtProtoSession) (net : Net)
    (heap wrapped : Bytes) : Bytes :=
  (mtprotoEncrypt c rand (nextMsg s net wrapped true).plaintext s.authKey 0 heap).1

/-- Whatever the session, the randomness and the cipher, what becomes of the query fits the buffer
it is written to. -/
def FitsBuffer (cfg : ApiConfig) (query : Bytes) : Prop :=
  ∀ wrapped, apiWrapQuery cfg query apiBufSize = some wrapped →
    ∀ c rand s net heap, (ciphertext c rand s net heap wrapped).length ≤ rpcBufSize

theorem length_tlWriteString (w : TlWriter) (s : Option Bytes) :
    (tlWriteString w (s.getD [])).length = w.length + stringLen s := by
  rw [tlWriteString, tlWriteBytes_eq, List.length_append, length_tlBytes, stringLen]

/-- **What `api_wrap_query` passes on**: the query behind the header, up to the capacity. -/
theorem apiWrapQuery_cases (cfg : ApiConfig) (query : Bytes) (maxLen : ℕ) :
    (maxLen < connectionLen cfg + query.length ∧ apiWrapQuery cfg query maxLen = none) ∨
      (connectionLen cfg + query.length ≤ maxLen ∧ ∃ wrapped,
        apiWrapQuery cfg query maxLen = some wrapped ∧
          wrapped.length = connectionLen cfg + query.length) := by
  set w := tlWriteRaw (tlWriteString (tlWriteString (tlWriteString (tlWriteString (tlWriteString
    (tlWriteString (tlWriteInt32 (tlWriteInt32 (tlWriteUint32 (tlWriteInt32 (tlWriteUint32 []
      crcInvokeWithLayer) tlLayer) crcInitConnection) 0) cfg.apiId) (cfg.deviceModel.getD []))
        (cfg.systemVersion.getD [])) (cfg.appVersion.getD [])) (cfg.systemLangCode.getD []))
          (cfg.langPack.getD [])) (cfg.langCode.getD [])) query with hw
  have hwrap : apiWrapQuery cfg query maxLen = if w.length > maxLen then none else some w := rfl
  have hlen : w.length = connectionLen cfg + query.length := by
    rw [hw, tlWriteRaw, List.length_append]
    simp only [length_tlWriteString, connectionLen, tlWriteInt32, tlWriteUint32, List.length_append,
      length_u32Bytes, List.length_nil]
  rw [hwrap, hlen]
  by_cases hle : connectionLen cfg + query.length > maxLen
  · exact Or.inl ⟨hle, if_pos hle⟩
  · exact Or.inr ⟨Nat.not_lt.mp hle, w, if_neg hle, hlen⟩

/-- **What becomes of it**: 32 bytes more, at least 12 of padding, whole blocks. -/
theorem length_ciphertext (c : Crypto) (rand : (n : ℕ) → Block n) (s : MtProtoSession) (net : Net)
    (heap wrapped : Bytes) :
    (ciphertext c rand s net heap wrapped).length = (wrapped.length + 59) / 16 * 16 := by
  have hpad := length_mtprotoPad_mod rand (nextMsg s net wrapped true).plaintext
  have hlen := length_mtprotoPad rand (nextMsg s net wrapped true).plaintext
  have hplain : (nextMsg s net wrapped true).plaintext.length = 32 + wrapped.length :=
    length_plaintext _
  have hpos := padLen_spec (nextMsg s net wrapped true).plaintext.length
  have hne : mtprotoPad rand (nextMsg s net wrapped true).plaintext ≠ [] :=
    List.ne_nil_of_length_pos (by omega)
  rw [ciphertext, mtprotoEncrypt]
  rw [length_aesIgeEncrypt c hne hpad]
  omega

/-- **Which queries fit.**  A query that is passed on fits the buffer of `rpc_send_encrypted`
exactly if it leaves 44 bytes of it. -/
theorem fitsBuffer_iff (cfg : ApiConfig) (query : Bytes) :
    FitsBuffer cfg query ↔
      connectionLen cfg + query.length ≤ 1048532 ∨ 1048576 < connectionLen cfg + query.length := by
  have hbuf : rpcBufSize = 1048576 := rfl
  have hapi : apiBufSize = 1048576 := rfl
  rcases apiWrapQuery_cases cfg query apiBufSize with ⟨hlt, hnone⟩ | ⟨hle, w, hw, hlen⟩
  · refine ⟨fun _ => Or.inr (by omega), fun _ wrapped h => ?_⟩
    rw [hnone] at h
    exact absurd h (Option.some_ne_none wrapped).symm
  · constructor
    · intro h
      have := h w hw clearCrypto (toBlock · []) keyedSession ⟨[], [], [], []⟩ []
      rw [length_ciphertext] at this
      omega
    · intro h wrapped hwrapped c rand s net heap
      rw [hw, Option.some_inj] at hwrapped
      rw [← hwrapped, length_ciphertext]
      omega

/-- With the default configuration, a query of 1048520 bytes fills the first buffer and is written
48 bytes past the second. -/
theorem full_buffer_overflows : ¬ ∀ (cfg : ApiConfig) (query : Bytes), FitsBuffer cfg query := by
  intro hall
  have hconn : connectionLen apiConfigInit = 56 := by decide
  have hquery : (List.replicate 1048520 (0 : UInt8)).length = 1048520 := List.length_replicate
  have hapi : apiBufSize = 1048576 := rfl
  rcases apiWrapQuery_cases apiConfigInit (List.replicate 1048520 0) apiBufSize with
    ⟨hlt, -⟩ | ⟨-, w, hw, hlen⟩
  · omega
  · have := hall _ _ w hw clearCrypto (toBlock · []) keyedSession ⟨[], [], [], []⟩ []
    have hbuf : rpcBufSize = 1048576 := rfl
    rw [length_ciphertext, hlen, hconn, hquery, hbuf] at this
    exact absurd this (by decide)

end TgCli.Infrastructure
