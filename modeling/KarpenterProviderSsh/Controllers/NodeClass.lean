import KarpenterProviderSsh.Catalogs.Requests
import KarpenterProviderSsh.Profiles.Validation

/-! The node class reconciler (`pkg/controllers/nodeclass.go`): the Ready condition of a class, and
the finalizer that keeps it while NodeClaims reference it. -/

namespace KarpenterProviderSsh.Controllers

open Api Cluster Scripts Providers Catalogs Profiles

variable {X : Externals}

def terminationFinalizer : String := "karpenter.dklesev.github.io/termination"

structure Verdict where
  status : ConditionStatus
  reason : String
  message : String
deriving DecidableEq

namespace Verdict

def ready : Verdict := ⟨.true, "Ready", ""⟩

def profileNotFound (name : String) : Verdict :=
  ⟨.false, "ProfileNotFound", "SSHJoinProfile " ++ name.quote ++ " not found"⟩

def profileInvalid (e : Err) : Verdict := ⟨.false, "ProfileInvalid", e.message⟩

def selectorError (e : String) : Verdict := ⟨.false, "SelectorError", e⟩

def noHosts : Verdict := ⟨.false, "NoHosts", "no SSHHosts match the selector"⟩

end Verdict

def transitionTime (old : Option Condition) (status : ConditionStatus) (now : ℕ) : ℕ :=
  match old with
  | some c => if c.status = status then c.lastTransitionTime else now
  | none => now

def setReady (n : NodeClass X) (now : ℕ) (v : Verdict) : NodeClass X :=
  { n with
    ready := some ⟨"Ready", v.status, v.reason, v.message, n.generation,
      transitionTime n.ready v.status now⟩ }

def report (orig : NodeClass X) (v : Verdict) : ClassProg X (Except Err Result) := do
  let now ← classRequest (.cluster .now)
  let nc := setReady orig now v
  if nc.ready = orig.ready then return .ok {}
  else
    match ← classRequest (.patchReady orig nc.ready) with
    | .ok () => return .ok {}
    | .error e => return .error e

/-- An unparsable selector is the class's own bug, a failing List is not. -/
def parseSelector : Option X.LabelSelector → Except String Unit
  | none => .ok ()
  | some s => (X.labelSelectorAsSelector s).map fun _ => ()

def reportReadiness (X : Externals) (nc : NodeClass X) : ClassProg X (Except Err Result) := do
  match ← classRequest (.cluster (.getProfile nc.spec.joinProfileRef)) with
  | .error e =>
    if e.isNotFound then report nc (.profileNotFound nc.spec.joinProfileRef) else return .error e
  | .ok prof =>
    match validate X prof with
    | .error e => report nc (.profileInvalid e)
    | .ok () =>
      match parseSelector nc.spec.hostSelector with
      | .error e => report nc (.selectorError e)
      | .ok () =>
        match ← onCluster X (list X nc.spec.hostSelector) with
        | .error e => return .error e
        | .ok hosts => report nc (if hosts = [] then .noHosts else .ready)

def finalize (nc : NodeClass X) : ClassProg X (Except Err Result) :=
  if terminationFinalizer ∉ nc.finalizers then pure (.ok {})
  else do
    match ← classRequest (.listNodeClaims nc.spec.name) with
    | .error e => return .error e
    | .ok claims =>
      if claims ≠ [] then return .ok {}
      else
        match ← classRequest (.updateNodeClass
          { nc with finalizers := nc.finalizers.filter (· ≠ terminationFinalizer) }) with
        | .ok _ => return .ok {}
        | .error e => return .error e

def addFinalizer (nc : NodeClass X) : ClassProg X (Except Err (NodeClass X)) :=
  if terminationFinalizer ∈ nc.finalizers then pure (.ok nc)
  else classRequest (.updateNodeClass
    { nc with finalizers := nc.finalizers ++ [terminationFinalizer] })

def reconcileNodeClass (X : Externals) (name : String) : ClassProg X (Except Err Result) := do
  match ← classRequest (.getNodeClass name) with
  | .error e => return ignoreNotFound e
  | .ok nc =>
    if nc.deleting then finalize nc
    else
      match ← addFinalizer nc with
      | .error e => return .error e
      | .ok nc => reportReadiness X nc

end KarpenterProviderSsh.Controllers
