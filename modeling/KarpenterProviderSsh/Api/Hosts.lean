import KarpenterProviderSsh.Store.Histories

/-! The SSHHost inventory entry and the NodeClaim side of it (`pkg/apis/v1beta1`). Go maps are
association lists; a missing state is the empty string of the source. -/

namespace KarpenterProviderSsh.Api

structure NamespacedName where
  ns : String
  name : String
deriving DecidableEq, Repr

inductive HostState
  | unset
  | pending
  | available
  | claimed
  | inUse
  | unhealthy
  | leaving
  | maintenance
deriving DecidableEq, Repr

def HostState.text : HostState → String
  | .unset => ""
  | .pending => "Pending"
  | .available => "Available"
  | .claimed => "Claimed"
  | .inUse => "InUse"
  | .unhealthy => "Unhealthy"
  | .leaving => "Leaving"
  | .maintenance => "Maintenance"

def maintenanceAnnotation : String := "karpenter.dklesev.github.io/maintenance"
def hostClassLabel : String := "karpenter.dklesev.github.io/host-class"
def defaultHostClass : String := "default"
def providerPrefixText : String := "kpssh://"

inductive ExecMode
  | raw
  | verified
deriving DecidableEq, Repr

/-- Quantities are whole numbers of the smallest unit a Quantity can hold. -/
abbrev ResourceList := List (String × ℤ)

structure SSHHostSpec where
  address : String
  port : ℕ
  user : String
  sshKeySecretRef : String
  nodeAddress : String
  capacity : ResourceList
  execMode : ExecMode
  trustedSigners : List String
  shimCommand : String
deriving DecidableEq, Repr

def SSHHostSpec.nodeIP (s : SSHHostSpec) : String :=
  if s.nodeAddress ≠ "" then s.nodeAddress else s.address

@[ext] structure ClaimReference where
  name : String
  uid : String
deriving DecidableEq, Repr

inductive ConditionStatus
  | true
  | false
  | unknown
deriving DecidableEq, Repr

structure Condition where
  type : String
  status : ConditionStatus
  reason : String
  message : String
  observedGeneration : ℕ
  lastTransitionTime : ℕ
deriving DecidableEq, Repr

structure SSHHostStatus where
  state : HostState
  conditions : List Condition
  claimRef : Option ClaimReference
  installedProfile : String
  bootstrapTokenID : String
  providerID : String
  hostKeyFingerprint : String
  observedCapacity : ResourceList
  observedArch : String
  observedGeneration : ℕ
  lastProbeTime : Option ℕ
  lastProbeError : String
deriving DecidableEq, Repr

def SSHHostStatus.empty : SSHHostStatus where
  state := .unset
  conditions := []
  claimRef := none
  installedProfile := ""
  bootstrapTokenID := ""
  providerID := ""
  hostKeyFingerprint := ""
  observedCapacity := []
  observedArch := ""
  observedGeneration := 0
  lastProbeTime := none
  lastProbeError := ""

structure SSHHost where
  key : NamespacedName
  labels : List (String × String)
  annotations : List (String × String)
  creationTimestamp : ℕ
  generation : ℕ
  resourceVersion : ℕ
  spec : SSHHostSpec
  status : SSHHostStatus
deriving DecidableEq, Repr

def hostClass (h : SSHHost) : String :=
  match h.labels.lookup hostClassLabel with
  | some c => if c ≠ "" then c else defaultHostClass
  | none => defaultHostClass

/-- The annotation counts by its presence, whatever its value. -/
def SSHHost.maintenance (h : SSHHost) : Bool :=
  (h.annotations.lookup maintenanceAnnotation).isSome

structure Taint where
  key : String
  value : String
  effect : String
deriving DecidableEq, Repr

structure NodeClaim where
  name : String
  uid : String
  labels : List (String × String)
  taints : List Taint
  providerID : String
deriving DecidableEq, Repr

def NodeClaim.ref (nc : NodeClaim) : ClaimReference := ⟨nc.name, nc.uid⟩

structure Node where
  name : String
  internalIPs : List String
  providerID : String
deriving DecidableEq, Repr

/-- The claim belongs to this NodeClaim; a UID missing on either side disables its comparison. -/
def ClaimReference.heldBy (ref : ClaimReference) (nc : NodeClaim) : Bool :=
  ref.name == nc.name && !(ref.uid != "" && nc.uid != "" && ref.uid != nc.uid)

def claimHeldBy (h : SSHHost) (nc : NodeClaim) : Bool :=
  match h.status.claimRef with
  | none => false
  | some ref => ref.heldBy nc

def sameClaim (a b : Option ClaimReference) : Bool :=
  match a, b with
  | some a, some b => a.name == b.name && a.uid == b.uid
  | none, none => true
  | _, _ => false

lemma sameClaim_iff (a b : Option ClaimReference) : sameClaim a b = true ↔ a = b := by
  cases a <;> cases b <;> simp [sameClaim, ClaimReference.ext_iff]

end KarpenterProviderSsh.Api
