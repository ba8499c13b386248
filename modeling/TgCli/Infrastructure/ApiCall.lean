import TgCli.Infrastructure.MtprotoRpc

/-!
# `infrastructure/api_call.c`: one request, and the frames drained until an answer

`api_call` wraps a query, sends it, and reads frames until one of them is not a service frame.
Three pieces cooperate: `classify_service_frame` says what a frame is (and stores a new salt when
the frame brings one), the drain loop of `api_call_once` skips service frames, and the first
`rpc_result` of a container is picked out of the frame the loop stopped at.

Classification recurses into containers.  The source's recursion ends because a body is shorter
than its container; here the depth is a counter, and `classifyServiceFrame_eq` shows that the
counter is never reached.
-/

namespace TgCli.Infrastructure

open Lib TgCli.Core

/-! ## Wrapping a query -/

/-- `ApiConfig`; a `NULL` string is `none`. -/
structure ApiConfig where
  apiId : Int32
  apiHash : Option Bytes
  deviceModel : Option Bytes
  systemVersion : Option Bytes
  appVersion : Option Bytes
  systemLangCode : Option Bytes
  langPack : Option Bytes
  langCode : Option Bytes
  startDc : Int32
  startDcSet : Bool

def apiConfigInit : ApiConfig where
  apiId := 0
  apiHash := none
  deviceModel := some (ascii "tg-cli")
  systemVersion := some (ascii "Linux")
  appVersion := some (ascii "0.1.0")
  systemLangCode := some (ascii "en")
  langPack := some []
  langCode := some (ascii "en")
  startDc := 0
  startDcSet := false

def crcInvokeWithLayer : UInt32 := 0xda9b0d0d
def crcInitConnection : UInt32 := 0xc1cd5ea9
def tlLayer : Int32 := 185

def apiWrapQuery (cfg : ApiConfig) (query : Bytes) (maxLen : ℕ) : Option Bytes :=
  let w := tlWriteUint32 [] crcInvokeWithLayer
  let w := tlWriteInt32 w tlLayer
  let w := tlWriteUint32 w crcInitConnection
  let w := tlWriteInt32 w 0
  let w := tlWriteInt32 w cfg.apiId
  let w := tlWriteString w (cfg.deviceModel.getD [])
  let w := tlWriteString w (cfg.systemVersion.getD [])
  let w := tlWriteString w (cfg.appVersion.getD [])
  let w := tlWriteString w (cfg.systemLangCode.getD [])
  let w := tlWriteString w (cfg.langPack.getD [])
  let w := tlWriteString w (cfg.langCode.getD [])
  let w := tlWriteRaw w query
  if w.length > maxLen then none else some w

/-! ## Service frames -/

def tlMsgsAck : UInt32 := 0x62d6b459
def tlBadMsgNotification : UInt32 := 0xa7eff811
def tlBadServerSalt : UInt32 := 0xedab447b
def tlNewSessionCreated : UInt32 := 0x9ec20908
def tlPong : UInt32 := 0x347773c5

inductive Svc where
  | result
  | badSalt
  | skip
  | error
  deriving DecidableEq

/-- The loop over the messages of a container, for a given classification of one message. -/
def classifyMsgs (classify : MtProtoSession → Bytes → Svc × MtProtoSession) :
    List RpcContainerMsg → Bool → MtProtoSession → Svc × MtProtoSession
  | [], hasResult, s => (if hasResult then .result else .skip, s)
  | m :: ms, hasResult, s =>
    let sub := classify s m.body
    match sub.1 with
    | .error => (.error, sub.2)
    | .badSalt => (.badSalt, sub.2)
    | .result => classifyMsgs classify ms true sub.2
    | .skip => classifyMsgs classify ms hasResult sub.2

/-- The body of `classify_service_frame`, with the recursive call as an argument. -/
def classifyFrame (recurse : MtProtoSession → Bytes → Svc × MtProtoSession) (s : MtProtoSession)
    (resp : Bytes) : Svc × MtProtoSession :=
  if resp.length < 4 then (.error, s) else
  let crc := u32At resp 0
  if crc = tlBadServerSalt then
    if resp.length < 28 then (.error, s) else (.badSalt, mtprotoSessionSetSalt s (u64At resp 20))
  else if crc = tlBadMsgNotification then (.error, s)
  else if crc = tlNewSessionCreated then
    (.skip, if resp.length ≥ 28 then mtprotoSessionSetSalt s (u64At resp 20) else s)
  else if crc = tlMsgsAck ∨ crc = tlPong then (.skip, s)
  else if crc = crcMsgContainer then
    match rpcParseContainer resp 16 with
    | none => (.error, s)
    | some msgs => classifyMsgs recurse msgs false s
  else (.result, s)

/-- `classify_service_frame` to a nesting of `d` containers. -/
def classifyDepth : ℕ → MtProtoSession → Bytes → Svc × MtProtoSession
  | 0, s, _ => (.error, s)
  | d + 1, s, resp => classifyFrame (classifyDepth d) s resp

def classifyServiceFrame (s : MtProtoSession) (resp : Bytes) : Svc × MtProtoSession :=
  classifyDepth (resp.length + 1) s resp

/-! ## One attempt -/

def apiBufSize : ℕ := 1024 * 1024

def serviceFrameLimit : ℕ := 64

inductive Drain where
  | fail
  | badSalt
  | limit
  | frame (raw : Bytes)
  deriving DecidableEq

/-- The drain loop of `api_call_once` with `n` receives left. -/
def drain : ℕ → MtProtoSession → Net → Drain × MtProtoSession × Net
  | 0, s, net => (.limit, s, net)
  | n + 1, s, net =>
    let net' := { net with frames := net.frames.tail }
    match rpcRecvEncrypted s (net.frames.headD none) apiBufSize with
    | none => (.fail, s, net')
    | some raw =>
      let svc := classifyServiceFrame s raw
      match svc.1 with
      | .error => (.fail, svc.2, net')
      | .badSalt => (.badSalt, svc.2, net')
      | .skip => drain n svc.2 net'
      | .result => (.frame raw, svc.2, net')

/-- The first message of a container that is an `rpc_result`. -/
def firstRpcResult (msgs : List RpcContainerMsg) : Option Bytes :=
  (msgs.find? fun m => decide (m.body.length ≥ 4) && decide (u32At m.body 0 = crcRpcResult)).map
    RpcContainerMsg.body

/-- The TL object that `api_call_once` takes for the answer: the first `rpc_result` of a container,
else the frame as it is. -/
def answerPayload (raw : Bytes) : Bytes :=
  if raw.length ≥ 4 ∧ u32At raw 0 = crcMsgContainer then
    ((rpcParseContainer raw 16).bind firstRpcResult).getD raw
  else raw

/-- What a successful call hands back, with the TL object (`payload` in the source) that the bytes
were taken from. -/
structure ApiReply where
  payload : Bytes
  resp : Bytes
  deriving DecidableEq

inductive Once where
  | fail
  | badSalt
  | ok (reply : ApiReply)
  deriving DecidableEq

/-- The body of an `rpc_result`; any other object is its own body. -/
def resultBody (payload : Bytes) : Bytes :=
  match rpcUnwrapResult payload with
  | some (_, inner) => inner
  | none => payload

/-- The tail of `api_call_once`: unwrap the `rpc_result`, if it is one, and the `gzip_packed`. -/
def unwrapReply (tinf : ℕ → Bytes → Option Bytes) (raw : Bytes) (maxLen : ℕ) : Once :=
  match rpcUnwrapGzip tinf (resultBody (answerPayload raw)) maxLen with
  | none => .fail
  | some resp => .ok ⟨answerPayload raw, resp⟩

def apiCallOnce (tinf : ℕ → Bytes → Option Bytes) (cfg : ApiConfig) (s : MtProtoSession)
    (net : Net) (query : Bytes) (maxLen : ℕ) : Once × MtProtoSession × Net :=
  match apiWrapQuery cfg query apiBufSize with
  | none => (.fail, s, net)
  | some wrapped =>
    let snd := rpcSendEncrypted s net wrapped true
    if !snd.1 then (.fail, snd.2) else
    let d := drain serviceFrameLimit snd.2.1 snd.2.2
    match d.1 with
    | .fail => (.fail, d.2)
    | .limit => (.fail, d.2)
    | .badSalt => (.badSalt, d.2)
    | .frame raw => (unwrapReply tinf raw maxLen, d.2)

/-- `api_call`: a second attempt after a `bad_server_salt`, and no third. -/
def apiCall (tinf : ℕ → Bytes → Option Bytes) (cfg : ApiConfig) (s : MtProtoSession) (net : Net)
    (query : Bytes) (maxLen : ℕ) : Option ApiReply × MtProtoSession × Net :=
  let first := apiCallOnce tinf cfg s net query maxLen
  match first.1 with
  | .fail => (none, first.2)
  | .ok reply => (some reply, first.2)
  | .badSalt =>
    let second := apiCallOnce tinf cfg first.2.1 first.2.2 query maxLen
    match second.1 with
    | .fail => (none, second.2)
    | .badSalt => (none, second.2)
    | .ok reply => (some reply, second.2)

end TgCli.Infrastructure
