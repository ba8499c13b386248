import TgCli.Infrastructure.AuthSession

/-!
# `infrastructure/auth_transfer.c`: an authorization for another data center

`auth.exportAuthorization` on the home DC yields a token, and `auth.importAuthorization` with that
token binds the user to the key of a session on another DC.
-/

namespace TgCli.Infrastructure

open Lib TgCli.Core

def crcAuthExportAuthorization : UInt32 := 0xe5bfffcd
def crcAuthExportedAuthorization : UInt32 := 0xb434e2b8
def crcAuthImportAuthorization : UInt32 := 0xa57a7dad

def authTransferBytesMax : ℕ := 1024

/-- `AuthExported`; `bytes_len` is the length of `bytes`. -/
structure AuthExported where
  id : Int64
  bytes : Bytes
  deriving DecidableEq

def AuthExported.isSized (tok : AuthExported) : Bool :=
  tok.bytes.length ≠ 0 ∧ tok.bytes.length ≤ authTransferBytesMax

/-! ## Export -/

def buildExport (targetDcId : Int32) : Bytes :=
  tlWriteInt32 (tlWriteUint32 [] crcAuthExportAuthorization) targetDcId

/-- The part of `auth_transfer_export` that reads the response. -/
def parseExported (resp : Bytes) : Except RpcError AuthExported :=
  if u32At resp 0 ≠ crcAuthExportedAuthorization then .error .reset else
  let id := tlReadInt64 (tlReadUint32 (tlReaderInit resp)).2
  match (tlReadBytes id.2).1 with
  | none => .error .reset
  | some bytes =>
    let tok : AuthExported := ⟨id.1, bytes⟩
    if tok.isSized then .ok tok else .error .reset

def authTransferExport (env : ApiEnv) (targetDcId : Int32) :
    MtProtoSession → Net → Called AuthExported :=
  authCall env 64 (buildExport targetDcId) parseExported

/-! ## Import -/

def buildImport (tok : AuthExported) : Bytes :=
  tlWriteBytes (tlWriteInt64 (tlWriteUint32 [] crcAuthImportAuthorization) tok.id) tok.bytes

/-- The part of `auth_transfer_import` that reads the response. -/
def parseImported (resp : Bytes) : Except RpcError Unit :=
  if u32At resp 0 ≠ crcAuthAuthorization ∧ u32At resp 0 ≠ crcAuthAuthorizationSignUpRequired then
    .error .reset
  else .ok ()

/-- `auth_transfer_import`.  A token of a wrong length is refused before the `RpcError` is reset, so
the one the caller has zeroed is left as it is. -/
def authTransferImport (env : ApiEnv) (tok : AuthExported) (s : MtProtoSession) (net : Net) :
    Called Unit :=
  if !tok.isSized then (.error .zero, s, net) else
  let r := authRequest env .reset (buildImport tok) 65536 s net
  (r.1.bind parseImported, r.2)

theorem authTransferImport_sameKey (env : ApiEnv) (tok : AuthExported) (s : MtProtoSession)
    (net : Net) : SameKey s (authTransferImport env tok s net).2.1 := by
  have h := authRequest_sameKey env (buildImport tok) net .reset 65536 s
  rw [authTransferImport]
  generalize authRequest env .reset (buildImport tok) 65536 s net = r at h ⊢
  split
  · exact SameKey.refl s
  · exact h

end TgCli.Infrastructure
