import KarpenterProviderSsh.Providers.Hosts
import Mathlib.Data.Rat.Defs

/-! Create, Delete and Reboot (`pkg/providers/instance`), with the bootstrap tokens they mint and
delete (`pkg/providers/bootstrap`). -/

namespace KarpenterProviderSsh.Providers

open Api Cluster Scripts

structure ClusterSpec where
  endpoint : String
  caBundle : List UInt8

structure SSHNodeClass (X : Externals) where
  hostSelector : Option X.LabelSelector
  joinProfileRef : String
  vars : List (String × String)
  joinSecretRef : Option String
  adoptsProviderID : Bool
  cluster : Option ClusterSpec

structure InstanceType where
  name : String
  offerings : List ℚ

structure Instance where
  providerID : String
  hostName : String
  nodeName : String
  cls : String
  capacity : ResourceList
  creationTime : ℕ
  installedProfile : String
deriving DecidableEq, Repr

inductive CloudError
  | insufficientCapacity (text : String)
  | createError (e : Err) (reason message : String)
  | nodeClaimNotFound (e : Err)
  | nodeRebootFailed (e : Err)
  | plain (e : Err)
deriving DecidableEq, Repr

def deleteTokenByID (id : String) : Prog (Except Err Unit) :=
  if id = "" then pure (.error { message := "empty bootstrap token id" })
  else do
    match ← request (.deleteToken id) with
    | .ok () => return .ok ()
    | .error e => return if e.isNotFound then .ok () else .error e

def clusterInfo (X : Externals) (nodeClass : SSHNodeClass X) : Prog (Except Err ClusterInfo) :=
  match nodeClass.cluster with
  | some c =>
    if c.endpoint ≠ "" then pure (.ok ⟨c.endpoint, X.encodeToString c.caBundle⟩)
    else request .readClusterInfo
  | none => request .readClusterInfo

def maxFloat64 : ℚ := (2 ^ 53 - 1) * 2 ^ 971

def cheapest (it : InstanceType) : ℚ := it.offerings.foldl min maxFloat64

def sortByPrice (its : List InstanceType) : List InstanceType :=
  its.insertionSort (fun a b => cheapest a ≤ cheapest b)

def hasSuffix (s tail : String) : Bool := tail.toList.isSuffixOf s.toList

def kubeletSelfLabel (key : String) : Bool :=
  let ns := if '/' ∈ key.toList then String.ofList (key.toList.takeWhile (· ≠ '/')) else ""
  let inSpace (root : String) := ns == root || hasSuffix ns ("." ++ root)
  if inSpace "kubernetes.io" || inSpace "k8s.io" then
    inSpace "kubelet.kubernetes.io" || inSpace "node.kubernetes.io"
  else true

def joinComma (parts : List String) : String := String.intercalate "," parts

def renderNodeLabels (nc : NodeClaim) : String :=
  joinComma ((nc.labels.filter (fun p => kubeletSelfLabel p.1)).map (fun p => p.1 ++ "=" ++ p.2))

def unregisteredTaintKey : String := "karpenter.sh/unregistered"

def renderTaints (nc : NodeClaim) : String :=
  joinComma ((unregisteredTaintKey ++ ":NoExecute") :: nc.taints.map (fun t =>
    if t.value ≠ "" then t.key ++ "=" ++ t.value ++ ":" ++ t.effect else t.key ++ ":" ++ t.effect))

structure Preparation where
  profile : SSHJoinProfile
  target : Target
  context : Context
  env : List (String × String)

def joinSecrets {X : Externals} (nodeClass : SSHNodeClass X) (h : SSHHost) :
    Prog (Except Err (List (String × String))) :=
  match nodeClass.joinSecretRef with
  | none => pure (.ok [])
  | some name => do
    match ← request (.getSecret ⟨h.key.ns, name⟩) with
    | .error e => return .error (e.wrap "getting joinSecretRef secret: ")
    | .ok data => return .ok data

/-- Reads configuration only; every failure is a configError. -/
def prepare (X : Externals) (nodeClass : SSHNodeClass X) (nc : NodeClaim) (h : SSHHost) :
    Prog (Except Err Preparation) := do
  match ← request (.getProfile nodeClass.joinProfileRef) with
  | .error e => return .error (e.wrap "getting join profile: ").asConfig
  | .ok prof =>
    match ← readSSHCredentials X h with
    | .error e => return .error e.asConfig
    | .ok creds =>
      match ← clusterInfo X nodeClass with
      | .error e => return .error e.asConfig
      | .ok info =>
        match ← joinSecrets nodeClass h with
        | .error e => return .error e.asConfig
        | .ok secrets =>
          let pctx : Context :=
            { clusterEndpoint := info.endpoint
              clusterCACert := info.caCertB64
              nodeName := nc.name
              hostAddress := h.spec.address
              nodeAddress := h.spec.nodeIP
              nodeLabels := renderNodeLabels nc
              registerWithTaints := renderTaints nc
              vars := nodeClass.vars
              secrets := secrets
              providerID := if nodeClass.adoptsProviderID then "" else providerID h }
          match pctx.env with
          | .error e => return .error e.asConfig
          | .ok env => return .ok ⟨prof, sshTarget h creds, pctx, env⟩

/-- Redaction flattens the error to its text; only the configError marker is put back. -/
def redactPhaseErr (pctx : Context) (phase : ScriptPhase) (e : Err) : Err :=
  { message := phase.text ++ " phase: " ++ pctx.redact e.message, config := e.config }

def runInstall (X : Externals) (p : Preparation) (h : SSHHost) : Prog (SSHHost × Option Err) :=
  if h.status.installedProfile = installedMarker p.profile then pure (h, none)
  else do
    match ← runPhase X p.target h p.profile .install p.context p.env with
    | .error e => return (h, some (redactPhaseErr p.context .install e))
    | .ok _ => setInstalled h (installedMarker p.profile)

def deleteToken (h : SSHHost) (tok : BootstrapToken) : Prog SSHHost := do
  let _ ← deleteTokenByID tok.id
  if h.status.bootstrapTokenID = "" then return h
  else do
    let r ← setBootstrapTokenID h ""
    return r.1

/-- The token is recorded on the host before the join script can use it. -/
def runJoin (X : Externals) (p : Preparation) (h : SSHHost) : Prog (SSHHost × Option Err) := do
  match ← request .createToken with
  | .error e => return (h, some (e.wrap "creating bootstrap token secret: "))
  | .ok tok =>
    let pctx := { p.context with bootstrapToken := some tok }
    match pctx.env with
    | .error e =>
      let h ← deleteToken h tok
      return (h, some e)
    | .ok env =>
      let r ← setBootstrapTokenID h tok.id
      match r with
      | (h, some e) =>
        let h ← deleteToken h tok
        return (h, some (e.wrap "recording bootstrap token: "))
      | (h, none) =>
        match ← runPhase X p.target h p.profile .join pctx env with
        | .error e =>
          let h ← deleteToken h tok
          return (h, some (redactPhaseErr pctx .join e))
        | .ok _ => return (h, none)

def join (X : Externals) (nodeClass : SSHNodeClass X) (nc : NodeClaim) (h : SSHHost) :
    Prog (SSHHost × Option Err) := do
  match ← prepare X nodeClass nc h with
  | .error e => return (h, some e)
  | .ok p =>
    let r ← runInstall X p h
    match r with
    | (h, some e) => return (h, some e)
    | (h, none) => runJoin X p h

def claimFirst (nc : NodeClaim) : List SSHHost → Prog (Except Err (Option SSHHost))
  | [] => pure (.ok none)
  | c :: cs => do
    let r ← claim c nc
    match r with
    | (_, .error e) => return .error e
    | (h, .ok true) => return .ok (some h)
    | (_, .ok false) => claimFirst nc cs

def claimCheapest (X : Externals) (nodeClass : SSHNodeClass X) (nc : NodeClaim) :
    List InstanceType → Prog (Except Err (Option SSHHost))
  | [] => pure (.ok none)
  | it :: its => do
    match ← available X nodeClass.hostSelector it.name with
    | .error e => return .error e
    | .ok candidates =>
      match ← claimFirst nc candidates with
      | .error e => return .error e
      | .ok (some h) => return .ok (some h)
      | .ok none => claimCheapest X nodeClass nc its

def deleteBootstrapToken (h : SSHHost) : Prog Unit :=
  if h.status.bootstrapTokenID = "" then pure ()
  else do
    let _ ← deleteTokenByID h.status.bootstrapTokenID
    return ()

/-- The release after a failed launch; its own failure is only logged. -/
def releaseHost (h : SSHHost) (healthy : Bool) (reason : String) : Prog Unit := do
  deleteBootstrapToken h
  let _ ← release h healthy reason
  return ()

def adoptPolls : ℕ := 48

def pollNodes (ip : String) : ℕ → Prog (Option String)
  | 0 => pure none
  | n + 1 => do
    let nodes ← request (.listNodes ip)
    -- a failed List is transient and never ends the wait
    let ids := match nodes with
      | .ok l => l.map Node.providerID
      | .error _ => []
    match ids.find? (· ≠ "") with
    | some id => return some id
    | none => if ← request .pollTick then pollNodes ip n else return none

def adoptProviderID (h : SSHHost) : Prog (Except Err String) := do
  match ← pollNodes h.spec.nodeIP (adoptPolls + 1) with
  | some id => return .ok id
  | none =>
    return .error { message := "no node with InternalIP " ++ h.spec.nodeIP ++
      " appeared within 4m0s: context deadline exceeded" }

def toInstance (h : SSHHost) (nodeName : String) : Instance where
  providerID := if h.status.providerID = "" then providerID h else h.status.providerID
  hostName := h.key.name
  nodeName := nodeName
  cls := hostClass h
  capacity := h.spec.capacity
  creationTime := h.creationTimestamp
  installedProfile := h.status.installedProfile

def launch (X : Externals) (nodeClass : SSHNodeClass X) (nc : NodeClaim) (h : SSHHost) :
    Prog (Except CloudError Instance) := do
  let r ← join X nodeClass nc h
  match r with
  | (h, some e) =>
    releaseHost h e.config ("join failed: " ++ e.message)
    return .error (.createError (e.wrap ("joining host " ++ h.key.name ++ ": ")) "JoinFailed"
      "joining host over SSH failed")
  | (h, none) =>
    match ← (if nodeClass.adoptsProviderID then adoptProviderID h
      else pure (.ok (providerID h))) with
    | .error e =>
      releaseHost h false ("providerID adoption failed: " ++ e.message)
      return .error (.createError e "AdoptFailed" "node did not appear for providerID adoption")
    | .ok id =>
      let r ← setProviderID h id
      match r with
      | (_, some e) => return .error (.plain e)
      | (h, none) =>
        let r ← markInUse h
        return .ok (toInstance r.1 nc.name)

def create (X : Externals) (nodeClass : SSHNodeClass X) (nc : NodeClaim) (its : List InstanceType) :
    Prog (Except CloudError Instance) := do
  match ← byClaim X nc with
  | .error e => return .error (.plain e)
  | .ok (some h) => launch X nodeClass nc h
  | .ok none =>
    match ← claimCheapest X nodeClass nc (sortByPrice its) with
    | .error e => return .error (.plain e)
    | .ok none =>
      return .error (.insufficientCapacity ("no Available SSHHost for NodeClaim " ++ nc.name))
    | .ok (some h) => launch X nodeClass nc h

def notFoundOr (e : Err) : CloudError :=
  if e.isNotFound then .nodeClaimNotFound e else .plain e

def leaveInstalled (X : Externals) (h : SSHHost) : Prog Bool :=
  if h.status.installedProfile = "" then pure false
  else do
    match ← leaveHost X h with
    | .error _ => return false
    | .ok () => return true

def teardown (X : Externals) (h : SSHHost) : Prog (Except CloudError Unit) := do
  let leaveOK ← leaveInstalled X h
  deleteBootstrapToken h
  match ← release h leaveOK "leave phase did not complete cleanly" with
  | some e => return .error (.plain e)
  | none => return .ok ()

/-- The fence of Delete: only the NodeClaim that holds the host may tear it down. -/
def deleteHost (X : Externals) (nc : NodeClaim) (h : SSHHost) : Prog (Except CloudError Unit) :=
  match h.status.claimRef with
  | none =>
    pure (.error (.nodeClaimNotFound { message := "host " ++ h.key.name ++ " is not claimed" }))
  | some ref =>
    if ref.heldBy nc then teardown X h
    else
      pure (.error (.nodeClaimNotFound { message := "host " ++ h.key.name ++
        " is claimed by NodeClaim " ++ ref.name ++ ", not " ++ nc.name }))

def delete (X : Externals) (nc : NodeClaim) : Prog (Except CloudError Unit) := do
  match ← byProviderID X nc.providerID with
  | .error e => return .error (notFoundOr e)
  | .ok h => deleteHost X nc h

def rebootHost (X : Externals) (nc : NodeClaim) (h : SSHHost) : Prog (Except CloudError Unit) :=
  if claimHeldBy h nc then do
    match ← runInstalledPhase X h .reboot with
    | .ok () => return .ok ()
    | .error e =>
      -- exit status 5 is a shim that predates the phase
      if e.config || (h.spec.execMode == .verified && e.exitStatus == some 5) then
        return .error (.nodeRebootFailed e)
      else return .error (.plain e)
  else
    pure (.error (.nodeClaimNotFound { message := "host " ++ h.key.name ++
      " is not claimed by NodeClaim " ++ nc.name }))

def reboot (X : Externals) (nc : NodeClaim) : Prog (Except CloudError Unit) := do
  match ← byProviderID X nc.providerID with
  | .error e => return .error (notFoundOr e)
  | .ok h => rebootHost X nc h

def Instance.get (X : Externals) (id : String) : Prog (Except CloudError Instance) := do
  match ← byProviderID X id with
  | .error e => return .error (notFoundOr e)
  | .ok h =>
    match h.status.claimRef with
    | none =>
      return .error (.nodeClaimNotFound { message := "host " ++ h.key.name ++ " is not claimed" })
    | some ref => return .ok (toInstance h ref.name)

/-- The source's claimed hosts all carry a claim. -/
def Instance.list (X : Externals) : Prog (Except Err (List Instance)) := do
  match ← claimed X with
  | .error e => return .error e
  | .ok hosts =>
    return .ok (hosts.filterMap (fun h => h.status.claimRef.map (fun ref => toInstance h ref.name)))

end KarpenterProviderSsh.Providers
