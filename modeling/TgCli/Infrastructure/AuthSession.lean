import TgCli.Infrastructure.ApiCallRouting

/-!
# `infrastructure/auth_session.c`: the calls of a login

`auth.sendCode`, `auth.resendCode`, `auth.signIn` and `auth.signUp`.  Each builds a query, hands it
to `api_call` and looks at the answer; `authRequest` is the part they share, and each keeps its own
reading of the answer.  A call either succeeds or returns -1 with an `RpcError`, which is the one
the server sent or, when no `rpc_error` arrived, the one the caller had prepared.
-/

namespace TgCli.Infrastructure

open Lib TgCli.Core

/-! ## Constructors -/

def crcAuthSendCode : UInt32 := 0xa677244f
def crcCodeSettings : UInt32 := 0xad253d78
def crcAuthSentCode : UInt32 := 0x5e002502
def crcAuthSentCodeTypeApp : UInt32 := 0x3dbb5986
def crcAuthSentCodeTypeSms : UInt32 := 0xc000bba2
def crcAuthSentCodeTypeCall : UInt32 := 0x5353e5a7
def crcAuthSentCodeTypeFlashCall : UInt32 := 0xab03c6d9
def crcAuthResendCode : UInt32 := 0x3ef1a9bf
def crcCodeTypeSms : UInt32 := 0x72a3158c
def crcAuthSignIn : UInt32 := 0x8d52a951
def crcAuthSignUp : UInt32 := 0x80eee427
def crcAuthAuthorization : UInt32 := 0x2ea2c0d4
def crcAuthAuthorizationSignUpRequired : UInt32 := 0x44747e9a
def tlUserFull : UInt32 := 0x93eadb53

def authCodeHashMax : ℕ := 128

/-! ## One request -/

structure ApiEnv where
  tinf : ℕ → Bytes → Option Bytes
  cfg : ApiConfig

/-- What a call on a session and a connection leaves: its outcome, the session and the network. -/
abbrev Called (α : Type) := Except RpcError α × MtProtoSession × Net

/-- The checks every caller makes on a response: at least a constructor, and no `rpc_error`. -/
def checkReply (err : RpcError) (resp : Bytes) : Except RpcError Bytes :=
  if resp.length < 4 then .error err
  else if u32At resp 0 = crcRpcError then .error ((rpcParseError resp).getD err)
  else .ok resp

/-- A query, `api_call`, and the checks on the response; `err` is what the caller put into its
`RpcError` before. -/
def authRequest (env : ApiEnv) (err : RpcError) (query : Bytes) (respCap : ℕ) (s : MtProtoSession)
    (net : Net) : Called Bytes :=
  let r := apiCall env.tinf env.cfg s net query respCap
  match r.1 with
  | none => (.error err, r.2)
  | some reply => (checkReply err reply.resp, r.2)

/-- A request whose query has to fit a buffer, and the reading of its response. -/
def authCall {α : Type} (env : ApiEnv) (queryCap : ℕ) (query : Bytes)
    (parse : Bytes → Except RpcError α) (s : MtProtoSession) (net : Net) : Called α :=
  if query.length > queryCap then (.error .reset, s, net) else
  let r := authRequest env .reset query 65536 s net
  (r.1.bind parse, r.2)

/-! ## `auth.sendCode` -/

structure AuthSentCode where
  phoneCodeHash : Bytes
  timeout : Int32
  codeType : UInt32
  nextType : UInt32
  deriving DecidableEq

def buildSendCode (cfg : ApiConfig) (phone : Bytes) : Bytes :=
  let w := tlWriteUint32 [] crcAuthSendCode
  let w := tlWriteString w phone
  let w := tlWriteInt32 w cfg.apiId
  let w := tlWriteString w (cfg.apiHash.getD [])
  let w := tlWriteUint32 w crcCodeSettings
  tlWriteUint32 w 0

/-- `read_sent_code_type`: the constructor of a known type, else 0. -/
def readSentCodeType (r : TlReader) : UInt32 × TlReader :=
  if !tlReaderOk r then (0, r) else
  let typeCrc := tlReadUint32 r
  if typeCrc.1 = crcAuthSentCodeTypeApp ∨ typeCrc.1 = crcAuthSentCodeTypeSms ∨
      typeCrc.1 = crcAuthSentCodeTypeCall then
    (typeCrc.1, (tlReadInt32 typeCrc.2).2)
  else if typeCrc.1 = crcAuthSentCodeTypeFlashCall then
    (typeCrc.1, (tlReadString typeCrc.2).2)
  else (0, typeCrc.2)

/-- `next_type` and `timeout`, each behind its flag. -/
def readSentCodeTail (flags : UInt32) (timeout : Int32) (r : TlReader) : UInt32 × Int32 :=
  let nextType := if hasFlag flags 1 then tlReadUint32 r else (0, r)
  (nextType.1, if hasFlag flags 2 then (tlReadInt32 nextType.2).1 else timeout)

/-- The part of `auth_send_code` that reads the response. -/
def parseSentCode (resp : Bytes) : Except RpcError AuthSentCode :=
  if u32At resp 0 ≠ crcAuthSentCode then .error .reset else
  let flags := tlReadUint32 (tlReadUint32 (tlReaderInit resp)).2
  let codeType := readSentCodeType flags.2
  if codeType.1 = 0 then .error .reset else
  let hash := tlReadString codeType.2
  match hash.1 with
  | none => .error .reset
  | some h =>
    if h.length ≥ authCodeHashMax then .error .reset else
    let tail := readSentCodeTail flags.1 0 hash.2
    .ok ⟨h, tail.2, codeType.1, tail.1⟩

def authSendCode (env : ApiEnv) (phone : Bytes) : MtProtoSession → Net → Called AuthSentCode :=
  authCall env 4096 (buildSendCode env.cfg phone) parseSentCode

/-! ## `auth.resendCode` -/

def buildResendCode (phone hash : Bytes) : Bytes :=
  let w := tlWriteUint32 [] crcAuthResendCode
  let w := tlWriteUint32 w 0
  let w := tlWriteString w phone
  tlWriteString w hash

/-- The part of `auth_resend_code` that reads the response.  The hash is kept, and the type is not
checked. -/
def parseResentCode (sent : AuthSentCode) (resp : Bytes) : Except RpcError AuthSentCode :=
  if u32At resp 0 ≠ crcAuthSentCode then .error .reset else
  let flags := tlReadUint32 (tlReadUint32 (tlReaderInit resp)).2
  let codeType := readSentCodeType flags.2
  let newHash := tlReadString codeType.2
  let tail := readSentCodeTail flags.1 sent.timeout newHash.2
  .ok { sent with codeType := codeType.1, nextType := tail.1, timeout := tail.2 }

def authResendCode (env : ApiEnv) (phone : Bytes) (sent : AuthSentCode) :
    MtProtoSession → Net → Called AuthSentCode :=
  authCall env 1024 (buildResendCode phone sent.phoneCodeHash) (parseResentCode sent)

/-! ## `auth.signIn` and `auth.signUp` -/

/-- `parse_authorization`: the user id, 0 when the user object is not a known one. -/
def parseAuthorization (resp : Bytes) : Int64 :=
  let flags := tlReadUint32 (tlReadUint32 (tlReaderInit resp)).2
  let r := if hasFlag flags.1 1 then (tlReadInt32 flags.2).2 else flags.2
  let userCrc := tlReadUint32 r
  if userCrc.1 ≠ tlUser ∧ userCrc.1 ≠ tlUser2 ∧ userCrc.1 ≠ tlUserFull then 0 else
  (tlReadInt64 (tlReadUint32 userCrc.2).2).1

/-- How `auth_sign_in` ends when it does not fail: with the user id, or with `signup_required` set
and -1. -/
inductive SignIn where
  | authorized (userId : Int64)
  | signUpRequired
  deriving DecidableEq

def SignIn.isAuthorized : SignIn → Bool
  | authorized _ => true
  | signUpRequired => false

def buildSignIn (phone hash code : Bytes) : Bytes :=
  let w := tlWriteUint32 [] crcAuthSignIn
  let w := tlWriteUint32 w 1
  let w := tlWriteString w phone
  let w := tlWriteString w hash
  tlWriteString w code

/-- The part of `auth_sign_in` that reads the response. -/
def parseSignIn (resp : Bytes) : Except RpcError SignIn :=
  if u32At resp 0 = crcAuthAuthorizationSignUpRequired then .ok .signUpRequired
  else if u32At resp 0 ≠ crcAuthAuthorization then .error .reset
  else .ok (.authorized (parseAuthorization resp))

def authSignIn (env : ApiEnv) (phone hash code : Bytes) : MtProtoSession → Net → Called SignIn :=
  authCall env 4096 (buildSignIn phone hash code) parseSignIn

def buildSignUp (phone hash firstName lastName : Bytes) : Bytes :=
  let w := tlWriteUint32 [] crcAuthSignUp
  let w := tlWriteString w phone
  let w := tlWriteString w hash
  let w := tlWriteString w firstName
  tlWriteString w lastName

/-- The part of `auth_sign_up` that reads the response. -/
def parseSignUp (resp : Bytes) : Except RpcError Int64 :=
  if u32At resp 0 ≠ crcAuthAuthorization then .error .reset else .ok (parseAuthorization resp)

def authSignUp (env : ApiEnv) (phone hash firstName lastName : Bytes) :
    MtProtoSession → Net → Called Int64 :=
  authCall env 4096 (buildSignUp phone hash firstName lastName) parseSignUp

/-! ## What a call does to the key

A call changes the salt, the counters and nothing else of a session; in particular it never touches
the key, and without a key it fails.
-/

/-- `s'` has the key of `s`, or none as `s`. -/
def SameKey (s s' : MtProtoSession) : Prop :=
  s'.authKey = s.authKey ∧ s'.hasAuthKey = s.hasAuthKey

theorem SameKey.refl (s : MtProtoSession) : SameKey s s :=
  ⟨rfl, rfl⟩

theorem SameKey.trans {s s' s'' : MtProtoSession} (h : SameKey s s') (h' : SameKey s' s'') :
    SameKey s s'' :=
  ⟨h'.1.trans h.1, h'.2.trans h.2⟩

theorem SameButSalt.sameKey {s s' : MtProtoSession} (h : SameButSalt s s') : SameKey s s' := by
  rw [h]
  exact ⟨rfl, rfl⟩

theorem rpcSendEncrypted_sameKey (s : MtProtoSession) (net : Net) (data : Bytes) (c : Bool) :
    SameKey s (rpcSendEncrypted s net data c).2.1 := by
  rw [rpcSendEncrypted]
  split
  · exact SameKey.refl s
  · exact ⟨authKey_mtprotoSessionNextSeqNo _ c, hasAuthKey_mtprotoSessionNextSeqNo _ c⟩

section Key

variable (tinf : ℕ → Bytes → Option Bytes) (cfg : ApiConfig) (net : Net) (query : Bytes)
  (maxLen : ℕ)

theorem apiCallOnce_sameKey (s : MtProtoSession) :
    SameKey s (apiCallOnce tinf cfg s net query maxLen).2.1 := by
  rw [apiCallOnce]
  rcases apiWrapQuery cfg query apiBufSize with _ | wrapped
  · exact SameKey.refl s
  · have hsend := rpcSendEncrypted_sameKey s net wrapped true
    dsimp only
    generalize rpcSendEncrypted s net wrapped true = snd at hsend ⊢
    obtain ⟨sent, s₁, net₁⟩ := snd
    cases sent with
    | false => exact hsend
    | true =>
      have hdrain := hsend.trans (drain_sameButSalt serviceFrameLimit s₁ net₁).sameKey
      generalize drain serviceFrameLimit s₁ net₁ = d at hdrain ⊢
      obtain ⟨out, s₂, net₂⟩ := d
      cases out with
      | fail => exact hdrain
      | limit => exact hdrain
      | badSalt => exact hdrain
      | frame raw => exact hdrain

/-- **A call keeps the key.** -/
theorem apiCall_sameKey (s : MtProtoSession) :
    SameKey s (apiCall tinf cfg s net query maxLen).2.1 := by
  have h1 := apiCallOnce_sameKey tinf cfg net query maxLen s
  rw [apiCall]
  generalize apiCallOnce tinf cfg s net query maxLen = first at h1 ⊢
  obtain ⟨out, s₁, net₁⟩ := first
  cases out with
  | fail => exact h1
  | ok reply => exact h1
  | badSalt =>
    have h2 := h1.trans (apiCallOnce_sameKey tinf cfg net₁ query maxLen s₁)
    generalize apiCallOnce tinf cfg s₁ net₁ query maxLen = second at h2 ⊢
    obtain ⟨out, s₂, net₂⟩ := second
    cases out with
    | fail => exact h2
    | badSalt => exact h2
    | ok reply => exact h2

/-- **Without a key a call fails**, before anything is sent. -/
theorem apiCall_of_not_hasAuthKey {s : MtProtoSession} (h : s.hasAuthKey = false) :
    apiCall tinf cfg s net query maxLen = (none, s, net) := by
  have hsend (wrapped : Bytes) : rpcSendEncrypted s net wrapped true = (false, s, net) := by
    rw [rpcSendEncrypted]
    simp [h]
  have honce : apiCallOnce tinf cfg s net query maxLen = (.fail, s, net) := by
    rw [apiCallOnce]
    rcases apiWrapQuery cfg query apiBufSize with _ | wrapped
    · rfl
    · simp [hsend wrapped]
  rw [apiCall, honce]

end Key

variable {α : Type} (env : ApiEnv) (query : Bytes) (parse : Bytes → Except RpcError α) (net : Net)

theorem authRequest_sameKey (err : RpcError) (respCap : ℕ) (s : MtProtoSession) :
    SameKey s (authRequest env err query respCap s net).2.1 := by
  have h := apiCall_sameKey env.tinf env.cfg net query respCap s
  rw [authRequest]
  generalize apiCall env.tinf env.cfg s net query respCap = r at h ⊢
  obtain ⟨out, s₁, net₁⟩ := r
  cases out with
  | none => exact h
  | some reply => exact h

theorem authCall_sameKey (queryCap : ℕ) (s : MtProtoSession) :
    SameKey s (authCall env queryCap query parse s net).2.1 := by
  have h := authRequest_sameKey env query net .reset 65536 s
  rw [authCall]
  generalize authRequest env .reset query 65536 s net = r at h ⊢
  split
  · exact SameKey.refl s
  · exact h

end TgCli.Infrastructure
