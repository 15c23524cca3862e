import KarpenterProviderSsh.Controllers.HostProbe
import KarpenterProviderSsh.Interleaving.Traces
import KarpenterProviderSsh.Providers.NodeClasses

/-! The startup taint gates (`pkg/controllers/startuptaintgate.go`). Its requests are its own: it
reads Nodes with their taints, NodeClaims, node classes and pods, and writes the taints of a
Node. -/

namespace KarpenterProviderSsh.Controllers

open Api Cluster Scripts Providers

structure OwnerReference where
  apiVersion : String
  kind : String
  name : String
deriving DecidableEq

structure NodeCondition where
  type : String
  status : ConditionStatus
deriving DecidableEq

structure TaintedNode where
  name : String
  resourceVersion : ℕ
  deleting : Bool
  ownerReferences : List OwnerReference
  taints : List Taint
  conditions : List NodeCondition
deriving DecidableEq

structure NodeClassReference where
  group : String
  kind : String
  name : String
deriving DecidableEq

structure OwningClaim where
  name : String
  taints : List Taint
  startupTaints : List Taint
  nodeClassRef : Option NodeClassReference
deriving DecidableEq

structure Pod where
  labels : List (String × String)
  nodeName : String
  deleting : Bool
  conditions : List NodeCondition
deriving DecidableEq

/-- The patch carries the object it was computed from as its optimistic lock. -/
inductive GateEff
  | getNode (name : String)
  | getNodeClaim (name : String)
  | getNodeClass (name : String)
  | listPods (ns : String)
  | patchTaints (stored : TaintedNode) (taints : List Taint)

abbrev GateRes (X : Externals) : GateEff → Type
  | .getNode _ => Except Err TaintedNode
  | .getNodeClaim _ => Except Err OwningClaim
  | .getNodeClass _ => Except Err (SSHNodeClassSpec X)
  | .listPods _ => Except Err (List Pod)
  | .patchTaints _ _ => Except Err Unit

abbrev GateProg (X : Externals) := Interleaving.Prog GateEff (GateRes X)

variable {X : Externals}

abbrev gateRequest (X : Externals) (e : GateEff) : GateProg X (GateRes X e) :=
  Interleaving.Prog.request e

def nodeClaimAPIVersion : String := "karpenter.sh/v1"
def nodeClassGroup : String := "karpenter.dklesev.github.io"
def nodeClassKind : String := "SSHNodeClass"
def gateRecheck : ℕ := 30

def hasTaintKey (taints : List Taint) (key : String) : Bool := taints.any (·.key == key)

def isPodReady (p : Pod) : Bool :=
  match p.conditions.find? (·.type == "Ready") with
  | some c => c.status == .true
  | none => false

/-- The owner reference karpenter core sets at registration; a NodeClaim that is gone counts as
none. -/
def nodeClaimFor (X : Externals) (node : TaintedNode) :
    GateProg X (Except Err (Option OwningClaim)) :=
  match node.ownerReferences.find? (fun ref => ref.kind == "NodeClaim" &&
      ref.apiVersion == nodeClaimAPIVersion) with
  | none => pure (.ok none)
  | some ref => do
    match ← gateRequest X (.getNodeClaim ref.name) with
    | .error e => return if e.isNotFound then .ok none else .error e
    | .ok nc => return .ok (some nc)

def nodeClassFor (X : Externals) (nc : OwningClaim) :
    GateProg X (Except Err (Option (SSHNodeClassSpec X))) :=
  match nc.nodeClassRef with
  | none => pure (.ok none)
  | some ref =>
    if ref.group ≠ nodeClassGroup ∨ ref.kind ≠ nodeClassKind then pure (.ok none)
    else do
      match ← gateRequest X (.getNodeClass ref.name) with
      | .error e => return if e.isNotFound then .ok none else .error e
      | .ok n => return .ok (some n)

def podsReady (X : Externals) (node : TaintedNode) (cond : PodsReadyCondition X) :
    GateProg X (Except Err Bool) :=
  match X.labelSelectorAsSelector cond.selector with
  | .error e => pure (.error { message := "podsReady selector: " ++ e })
  | .ok matchesLabels => do
    match ← gateRequest X (.listPods cond.ns) with
    | .error e => return .error (e.wrap "listing pods: ")
    | .ok pods =>
      let ready : Int32 := (pods.filter (fun p => matchesLabels p.labels)).foldl
        (fun n p => if p.nodeName == node.name && !p.deleting && isPodReady p then n + 1 else n) 0
      return .ok (cond.minReadyOrDefault ≤ ready)

def evaluate (X : Externals) (node : TaintedNode) (cond : StartupTaintCondition X) :
    GateProg X (Except Err Bool) :=
  match cond.podsReady, cond.nodeCondition with
  | some pods, _ => podsReady X node pods
  | none, some wanted =>
    match node.conditions.find? (·.type == wanted.type) with
    | some c => pure (.ok (c.status == wanted.statusOrDefault))
    | none => pure (.ok false)
  | none, none => pure (.error { message := "removeWhen sets no condition" })

def evaluateGates (X : Externals) (node : TaintedNode) (nc : OwningClaim) :
    List (StartupTaintGate X) → List String → ℕ → GateProg X (Except Err (List String × ℕ))
  | [], remove, pending => pure (.ok (remove, pending))
  | gate :: gates, remove, pending =>
    if !hasTaintKey node.taints gate.taintKey then evaluateGates X node nc gates remove pending
    else if !hasTaintKey nc.startupTaints gate.taintKey
      then evaluateGates X node nc gates remove pending
    else do
      match ← evaluate X node gate.removeWhen with
      | .error e => return .error (e.wrap ("evaluating gate " ++ gate.taintKey.quote ++ ": "))
      | .ok true => evaluateGates X node nc gates (gate.taintKey :: remove) pending
      | .ok false => evaluateGates X node nc gates remove (pending + 1)

/-- One patch for all keys; a lost race is left to the Node watch. -/
def removeTaints (X : Externals) (node : TaintedNode) (keys : List String) :
    GateProg X (Option Err) := do
  let kept := node.taints.filter (fun t => !keys.contains t.key)
  match ← gateRequest X (.patchTaints node kept) with
  | .ok () => return none
  | .error e => return if e.isConflict then none else some (e.wrap "removing startup taints: ")

def openGates (X : Externals) (node : TaintedNode) (nc : OwningClaim) (n : SSHNodeClassSpec X) :
    GateProg X (Except Err Result) := do
  match ← evaluateGates X node nc n.startupTaintGates [] 0 with
  | .error e => return .error e
  | .ok (remove, pending) =>
    match ← (if remove = [] then pure none else removeTaints X node remove) with
    | some e => return ignoreNotFound e
    | none => return .ok (if 0 < pending then { requeueAfter := gateRecheck } else {})

def reconcileGates (X : Externals) (name : String) : GateProg X (Except Err Result) := do
  match ← gateRequest X (.getNode name) with
  | .error e => return ignoreNotFound e
  | .ok node =>
    if node.deleting ∨ node.taints = [] then return .ok {}
    else
      match ← nodeClaimFor X node with
      | .error e => return .error e
      | .ok none => return .ok {}
      | .ok (some nc) =>
        if nc.startupTaints = [] then return .ok {}
        else
          match ← nodeClassFor X nc with
          | .error e => return .error e
          | .ok none => return .ok {}
          | .ok (some n) =>
            if n.startupTaintGates = [] then return .ok {}
            else openGates X node nc n

end KarpenterProviderSsh.Controllers
