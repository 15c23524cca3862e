import KarpenterProviderSsh.Api.StatusWrites
import KarpenterProviderSsh.Interleaving.Pools

/-! The requests the provider and the probe reconciler send: to the API server through the
cached client and the clientset, and to the hosts over SSH. -/

namespace KarpenterProviderSsh.Cluster

open Api Interleaving

/-- Why the API server refused; `landed` tells whether a write that timed out was applied. -/
inductive Reason
  | conflict
  | notFound
  | other (landed : Bool)
deriving DecidableEq, Repr

/-- An error with what `errors.As` can still find in its chain. -/
structure Err where
  message : String
  reason : Option Reason := none
  config : Bool := false
  exitStatus : Option ℕ := none
deriving DecidableEq, Repr

namespace Err

def isConflict (e : Err) : Bool := e.reason == some .conflict
def isNotFound (e : Err) : Bool := e.reason == some .notFound

def wrap (text : String) (e : Err) : Err := { e with message := text ++ e.message }

def asConfig (e : Err) : Err := { e with config := true }

def configError (text : String) : Err := { message := text, config := true }

end Err

inductive ScriptPhase
  | probe
  | install
  | join
  | leave
  | uninstall
  | reboot
deriving DecidableEq, Repr

def ScriptPhase.text : ScriptPhase → String
  | .probe => "probe"
  | .install => "install"
  | .join => "join"
  | .leave => "leave"
  | .uninstall => "uninstall"
  | .reboot => "reboot"

structure Target where
  address : String
  port : ℕ
  user : String
  privateKey : String
  pinnedHostKey : String
  shimCommand : String
deriving DecidableEq, Repr

structure Envelope where
  phase : ScriptPhase
  script : String
  sig : String
  params : List (String × String)
deriving DecidableEq, Repr

inductive Payload
  | script (text : String) (env : List (String × String))
  | envelope (e : Envelope)
deriving DecidableEq, Repr

structure ExecResult where
  stdout : String
  stderr : String
  hostKeyFingerprint : String
deriving DecidableEq, Repr

structure ProfileScripts where
  install : String
  join : String
  leave : String
  uninstall : String
  reboot : String
deriving DecidableEq, Repr

structure SSHJoinProfile where
  name : String
  version : String
  scripts : ProfileScripts
  signatures : Option ProfileScripts
deriving DecidableEq, Repr

structure ClusterInfo where
  endpoint : String
  caCertB64 : String
deriving DecidableEq, Repr

structure BootstrapToken where
  id : String
  secret : String
deriving DecidableEq, Repr

def BootstrapToken.text (tok : BootstrapToken) : String := tok.id ++ "." ++ tok.secret

/-- A call of the SSH executor is two requests, so that other actors may move while its script
runs. -/
inductive Eff
  | listHosts (ns : String)
  | getHost (k : NamespacedName)
  | updateStatus (h : SSHHost) (wr : StatusWrite)
  | patchStatus (orig : SSHHost) (wr : StatusWrite)
  | getNodeClaim (name : String)
  | listNodes (ip : String)
  | deleteNode (node : Node)
  | getProfile (name : String)
  | getSecret (k : NamespacedName)
  | readClusterInfo
  | createToken
  | deleteToken (id : String)
  | sshStart (k : NamespacedName) (phase : ScriptPhase) (target : Target) (payload : Payload)
  | sshWait (k : NamespacedName) (phase : ScriptPhase)
  | now
  | pollTick
deriving DecidableEq, Repr

abbrev Res : Eff → Type
  | .listHosts _ => Except Err (List SSHHost)
  | .getHost _ => Except Err SSHHost
  | .updateStatus _ _ => Except Err SSHHost
  | .patchStatus _ _ => Except Err SSHHost
  | .getNodeClaim _ => Except Err String
  | .listNodes _ => Except Err (List Node)
  | .deleteNode _ => Except Err Unit
  | .getProfile _ => Except Err SSHJoinProfile
  | .getSecret _ => Except Err (List (String × String))
  | .readClusterInfo => Except Err ClusterInfo
  | .createToken => Except Err BootstrapToken
  | .deleteToken _ => Except Err Unit
  | .sshStart _ _ _ _ => Except Err Unit
  | .sshWait _ _ => Except Err ExecResult
  | .now => ℕ
  | .pollTick => Bool

abbrev Prog := Interleaving.Prog Eff Res

abbrev request (e : Eff) : Prog (Res e) := Interleaving.Prog.request e

end KarpenterProviderSsh.Cluster
