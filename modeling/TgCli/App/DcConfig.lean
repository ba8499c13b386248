import TgCli.Lib.Decimal

/-!
# `app/dc_config.c`: endpoints of the data centers

The environment variables of the process and the hosts from `config.ini` are one record here; the
source keeps them in globals that do not change during a login.
-/

namespace TgCli.App

open Lib

structure DcEndpoint where
  id : Int32
  host : Bytes
  port : Int32
  deriving DecidableEq

def defaultDcId : Int32 := 2

def endpoints : List DcEndpoint :=
  [⟨1, ascii "149.154.175.50", 443⟩, ⟨2, ascii "149.154.167.50", 443⟩,
    ⟨3, ascii "149.154.175.100", 443⟩, ⟨4, ascii "149.154.167.91", 443⟩,
    ⟨5, ascii "91.108.56.130", 443⟩]

/-- What `dc_lookup` reads besides its table: `TG_CLI_DC_HOST`, `TG_CLI_DC_PORT`, and the hosts set
with `dc_config_set_host_override`. -/
structure DcHosts where
  envHost : Option Bytes
  envPort : Option Bytes
  hostOverride : Int32 → Option Bytes

/-- The redirect of the environment, when both variables are set and not empty. -/
def DcHosts.redirect (h : DcHosts) : Option (Bytes × Int32) :=
  match h.envHost, h.envPort with
  | some host, some port => if host = [] ∨ port = [] then none else some (host, atoi port)
  | _, _ => none

/-- The table entry that a DC id stands for: 0 is a wildcard, a negative id is a test DC on the
endpoint of its absolute value. -/
def absDcId (dcId : Int32) : Int32 :=
  if dcId = 0 then defaultDcId else if dcId < 0 then -dcId else dcId

def dcLookup (h : DcHosts) (dcId : Int32) : Option DcEndpoint :=
  match h.redirect with
  | some (host, port) => some ⟨dcId, host, port⟩
  | none =>
    (endpoints.find? fun e => decide (e.id = absDcId dcId)).map fun e =>
      ⟨dcId, (h.hostOverride e.id).getD e.host, e.port⟩

end TgCli.App
