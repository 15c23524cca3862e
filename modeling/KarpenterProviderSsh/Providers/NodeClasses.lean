import KarpenterProviderSsh.Providers.Instances

/-! The whole SSHNodeClass (`pkg/apis/v1beta1/sshnodeclass_types.go`), of which Create reads a
part. -/

namespace KarpenterProviderSsh.Providers

open Api Cluster Scripts

inductive ProviderIDSource
  | unset
  | static
  | adopt
deriving DecidableEq, Repr

def ProviderIDSource.text : ProviderIDSource → String
  | .unset => ""
  | .static => "Static"
  | .adopt => "Adopt"

/-- A `map[string]string`; in the order of its keys, so that equal maps are equal. -/
@[ext] structure StringMap where
  entries : List (String × String)
  sorted : entries.Pairwise (fun a b => a.1 < b.1)

def StringMap.empty : StringMap := ⟨[], .nil⟩

structure PodsReadyCondition (X : Externals) where
  ns : String
  selector : X.LabelSelector
  minReady : Option Int32

def PodsReadyCondition.minReadyOrDefault {X : Externals} (p : PodsReadyCondition X) : Int32 :=
  match p.minReady with
  | none => 1
  | some n => if n < 1 then 1 else n

structure NodeConditionCondition where
  type : String
  status : Option ConditionStatus

def NodeConditionCondition.statusOrDefault (n : NodeConditionCondition) : ConditionStatus :=
  n.status.getD .true

structure StartupTaintCondition (X : Externals) where
  podsReady : Option (PodsReadyCondition X)
  nodeCondition : Option NodeConditionCondition

structure StartupTaintGate (X : Externals) where
  taintKey : String
  removeWhen : StartupTaintCondition X

structure SSHNodeClassSpec (X : Externals) where
  name : String
  hostSelector : Option X.LabelSelector
  joinProfileRef : String
  vars : StringMap
  joinSecretRef : Option String
  providerIDSource : ProviderIDSource
  pricePerCPUHour : String
  kubeReserved : ResourceList
  maxPods : Option ℤ
  cluster : Option ClusterSpec
  startupTaintGates : List (StartupTaintGate X)

def SSHNodeClassSpec.launching {X : Externals} (n : SSHNodeClassSpec X) : SSHNodeClass X where
  hostSelector := n.hostSelector
  joinProfileRef := n.joinProfileRef
  vars := n.vars.entries
  joinSecretRef := n.joinSecretRef
  adoptsProviderID := n.providerIDSource == .adopt
  cluster := n.cluster

end KarpenterProviderSsh.Providers
