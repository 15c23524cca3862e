import KarpenterProviderSsh.Catalogs.Requests
import KarpenterProviderSsh.Drift.JoinHash
import KarpenterProviderSsh.Providers.InstanceTypes

/-! What karpenter core calls (`pkg/cloudprovider`): the provider's operations behind the node class
of a NodeClaim, and its instances as NodeClaims. -/

namespace KarpenterProviderSsh.CloudProvider

open Api Cluster Scripts Providers Controllers Catalogs Drift

structure NodeSelectorRequirement where
  key : String
  operator : String
  values : List String
  minValues : Option ℤ

/-- What the plugin does not own: float arithmetic and the order of a map, what karpenter leaves of
a capacity after the overhead, the digest of a hash, and what karpenter makes of requirements and
requests. -/
structure Toolkit where
  floats : Floats
  iteration : Iteration (String × ClassInfo)
  allocatable : AdvertisedType → ResourceList
  sha256 : List UInt8 → List UInt8
  -- `Has`, `Get(key).Has(value)` and `Compatible` of the `scheduling.Requirements` of a NodeClaim
  has : List NodeSelectorRequirement → String → Bool
  getHas : List NodeSelectorRequirement → String → String → Bool
  compatible : List NodeSelectorRequirement → Requirements → Bool
  -- `resources.Fits`
  fits : ResourceList → ResourceList → Bool

/-- A label of an instance type has one value, and where the requirements have its key, `Compatible`
asks them for that value. -/
def Toolkit.Agrees (T : Toolkit) : Prop :=
  ∀ reqs labels, T.compatible reqs labels = true →
    ∀ p ∈ labels, T.has reqs p.1 = true → T.getHas reqs p.1 p.2 = true

structure LaunchClaim where
  claim : NodeClaim
  nodeClassRef : Option NodeClassReference
  requirements : List NodeSelectorRequirement
  requests : ResourceList
  annotations : List (String × String)

structure ClaimView where
  name : String
  labels : List (String × String)
  annotations : List (String × String)
  creationTimestamp : ℕ
  providerID : String
  capacity : ResourceList
  allocatable : ResourceList
deriving DecidableEq

inductive Failure
  | nodeClassNotReady (message : String)
  | cloud (e : CloudError)
deriving DecidableEq

inductive DriftReason
  | none
  | profileDrift
  | nodeClassDrift
deriving DecidableEq

def annotationNodeClassHash : String := "karpenter.dklesev.github.io/nodeclass-hash"
def annotationNodeClassHashVersion : String := "karpenter.dklesev.github.io/nodeclass-hash-version"
def nodeClassHashVersion : String := "v1"

variable {X : Externals}

def nodeClassByRef (X : Externals) : Option NodeClassReference →
    ClassProg X (Except Err (NodeClass X))
  | none => pure (.error { message := "no nodeClassRef" })
  | some ref => classRequest (.getNodeClass ref.name)

def suits (T : Toolkit) (lc : LaunchClaim) (t : AdvertisedType) : Bool :=
  (!T.has lc.requirements labelInstanceTypeStable ||
      T.getHas lc.requirements labelInstanceTypeStable t.name) &&
    T.compatible lc.requirements t.requirements && T.fits lc.requests (T.allocatable t)

def resolveInstanceTypes (T : Toolkit) (lc : LaunchClaim) (n : SSHNodeClassSpec X) :
    ClassProg X (Except Err (List AdvertisedType)) := do
  match ← onCluster X (listInstanceTypes T.floats T.iteration n) with
  | .error e => return .error e
  | .ok all => return .ok (all.filter (suits T lc))

def poolLabels (inst : Instance) : List (String × String) :=
  [(labelInstanceTypeStable, inst.cls), (labelTopologyZone, poolZone),
      (capacityTypeLabelKey, "on-demand")]

def instanceToNodeClaim (T : Toolkit) (inst : Instance) (types : List AdvertisedType) : ClaimView :=
  let view : ClaimView :=
    { name := inst.nodeName
      labels := poolLabels inst
      annotations := []
      creationTimestamp := inst.creationTime
      providerID := inst.providerID
      capacity := inst.capacity
      allocatable := [] }
  match types.find? (·.name == inst.cls) with
  | none => view
  | some t =>
    { view with
      capacity := t.capacity
      allocatable := T.allocatable t
      labels := t.requirements.foldl (fun m p => setEntry m p.1 p.2) view.labels }

/-- The Ready condition of a class that nobody has reported on yet is Unknown. -/
def readiness (n : NodeClass X) : ConditionStatus × String :=
  match n.ready with
  | none => (.unknown, "")
  | some c => (c.status, c.message)

def stamps (T : Toolkit) (n : NodeClass X) : List (String × String) :=
  [(annotationNodeClassHash, joinHash T.sha256 n.spec),
      (annotationNodeClassHashVersion, nodeClassHashVersion)]

def createReady (T : Toolkit) (lc : LaunchClaim) (n : NodeClass X) :
    ClassProg X (Except Failure ClaimView) := do
  match ← resolveInstanceTypes T lc n.spec with
  | .error e => return .error (.cloud (.plain e))
  | .ok types =>
    if types = [] then
      return .error (.cloud (.insufficientCapacity
        ("no compatible instance types for NodeClaim " ++ lc.claim.name)))
    else
      match ← onCluster X (Providers.create X n.spec.launching lc.claim
        (types.map AdvertisedType.priced)) with
      | .error e => return .error (.cloud e)
      | .ok inst => return .ok { instanceToNodeClaim T inst types with annotations := stamps T n }

def create (T : Toolkit) (lc : LaunchClaim) : ClassProg X (Except Failure ClaimView) := do
  match ← nodeClassByRef X lc.nodeClassRef with
  | .error e =>
    -- core deletes the NodeClaim on a capacity verdict, so only a missing class is one
    if e.isNotFound then
      return .error (.cloud (.insufficientCapacity ("resolving node class, " ++ e.message)))
    else return .error (.cloud (.plain (e.wrap "resolving node class, ")))
  | .ok n =>
    match readiness n with
    | (.false, message) => return .error (.nodeClassNotReady message)
    | (.unknown, _) =>
      return .error (.cloud (.createError
        { message := "resolving node class readiness, NodeClass is in Ready=Unknown" }
        "NodeClassReadinessUnknown" "NodeClass is in Ready=Unknown"))
    | (.true, _) => createReady T lc n

/-- Without a providerID nothing was ever launched; NotFound ends the termination. -/
def noProviderID (nc : NodeClaim) (text : String) : CloudError :=
  .nodeClaimNotFound { message := text ++ " " ++ nc.name ++ " has no providerID" }

def delete (lc : LaunchClaim) : ClassProg X (Except CloudError Unit) :=
  if lc.claim.providerID = "" then pure (.error (noProviderID lc.claim "nodeClaim"))
  else onCluster X (Providers.delete X lc.claim)

def reboot (lc : LaunchClaim) : ClassProg X (Except CloudError Unit) :=
  if lc.claim.providerID = "" then pure (.error (noProviderID lc.claim "nodeclaim"))
  else onCluster X (Providers.reboot X lc.claim)

def get (T : Toolkit) (id : String) : ClassProg X (Except CloudError ClaimView) :=
  if id = "" then pure (.error (.plain { message := "empty providerID" }))
  else do
    match ← onCluster X (Instance.get X id) with
    | .error e => return .error e
    | .ok inst => return .ok (instanceToNodeClaim T inst [])

def list (T : Toolkit) : ClassProg X (Except Err (List ClaimView)) := do
  match ← onCluster X (Instance.list X) with
  | .error e => return .error e
  | .ok insts => return .ok (insts.map fun inst => instanceToNodeClaim T inst [])

def getInstanceTypes (T : Toolkit) (pool : Option (Option NodeClassReference)) :
    ClassProg X (Except Err (List AdvertisedType)) :=
  match pool with
  | none => pure (.ok [])
  | some ref =>
    if ownsNodeClassRef ref then do
      match ← nodeClassByRef X ref with
      | .error e => return .error (e.wrap "resolving node class, ")
      | .ok n => onCluster X (listInstanceTypes T.floats T.iteration n.spec)
    else pure (.ok [])

/-- The verdict on an instance, its class and the profile of the class. A claim without the
annotations, or with those of another algorithm, abstains. -/
def driftOf (T : Toolkit) (annotations : List (String × String)) (inst : Instance) (n : NodeClass X)
    (prof : SSHJoinProfile) : DriftReason :=
  let stamped := (annotations.lookup annotationNodeClassHash).getD ""
  let version := (annotations.lookup annotationNodeClassHashVersion).getD ""
  if inst.installedProfile ≠ "" ∧ inst.installedProfile ≠ installedMarker prof then .profileDrift
  else if stamped ≠ "" ∧ version = nodeClassHashVersion ∧ stamped ≠ joinHash T.sha256 n.spec
    then .nodeClassDrift
  else .none

def isDrifted (T : Toolkit) (lc : LaunchClaim) : ClassProg X (Except CloudError DriftReason) :=
  if lc.claim.providerID = "" then pure (.ok .none)
  else do
    match ← onCluster X (Instance.get X lc.claim.providerID) with
    | .error (.nodeClaimNotFound _) => return .ok .none
    | .error e => return .error e
    | .ok inst =>
      match ← nodeClassByRef X lc.nodeClassRef with
      | .error e => return .error (.plain (e.wrap "resolving node class, "))
      | .ok n =>
        match ← onCluster X (request (.getProfile n.spec.joinProfileRef)) with
        | .error e => return .error (.plain (e.wrap "resolving join profile, "))
        | .ok prof => return .ok (driftOf T lc.annotations inst n prof)

end KarpenterProviderSsh.CloudProvider
