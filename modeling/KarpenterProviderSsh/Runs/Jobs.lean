import KarpenterProviderSsh.Cluster.Records
import KarpenterProviderSsh.Controllers.HostProbe

/-! The operations karpenter core and the controller manager start, as one pool of programs over
the cluster. -/

namespace KarpenterProviderSsh.Runs

open Api Cluster Scripts Providers Controllers Interleaving

inductive Job (X : Externals)
  | create (nodeClass : SSHNodeClass X) (nc : NodeClaim) (its : List InstanceType)
  | delete (nc : NodeClaim)
  | reboot (nc : NodeClaim)
  | reconcile (k : NamespacedName)

variable {X : Externals}

def Job.owner : Job X → Owner
  | .create _ nc _ => .create nc
  | .delete nc => .delete nc
  | .reboot nc => .reboot nc
  | .reconcile k => .reconcile k

def Job.program : Job X → Cluster.Prog Unit
  | .create nodeClass nc its => do
    let _ ← Providers.create X nodeClass nc its
    return ()
  | .delete nc => do
    let _ ← Providers.delete X nc
    return ()
  | .reboot nc => do
    let _ ← Providers.reboot X nc
    return ()
  | .reconcile k => do
    let _ ← Controllers.reconcile X k
    return ()

def machine (X : Externals) : Machine Eff Res where
  World := World
  Job := Job X
  Choice := Choice
  Outer := Outer
  program := Job.program
  enter w t j := w.enter t j.owner
  handle := World.handle
  leave := World.leave
  outside := World.outside

abbrev Run (X : Externals) := Config (machine X)

def idle (X : Externals) (hosts : List SSHHost) : Run X :=
  Config.start (M := machine X) (World.start hosts)

/-! A pool of two hosts and one profile, on which single runs are replayed. -/

namespace Sample

def externals : Externals where
  ns := "pool"
  LabelSelector := Unit
  labelSelectorAsSelector _ := .ok (fun _ => true)
  encodeToString _ := ""
  Template := String
  parse _ raw := .ok raw
  execute text _ := .ok text
  PublicKey := Unit
  parseTrustedSigners _ := .ok []
  verifySSHSIG _ _ _ _ := .ok ()
  pinnedFingerprintFromKnownHost _ := .ok ""

def host (name address : String) (n : ℕ) : SSHHost where
  key := ⟨"pool", name⟩
  labels := []
  annotations := []
  creationTimestamp := n
  generation := 1
  resourceVersion := n
  spec := ⟨address, 22, "root", "key", "", [], .raw, [], ""⟩
  status := .empty

def k1 : NamespacedName := ⟨"pool", "h1"⟩
def k2 : NamespacedName := ⟨"pool", "h2"⟩

def hosts : List SSHHost := [host "h1" "10.0.0.1" 1, host "h2" "10.0.0.2" 2]

def claimA : NodeClaim := ⟨"a", "uid-a", [], [], "kpssh://pool/h1"⟩
def claimB : NodeClaim := ⟨"b", "uid-b", [], [], "kpssh://pool/h1"⟩

def nodeClass : SSHNodeClass externals := ⟨none, "p", [], none, false, none⟩
def profile : SSHJoinProfile :=
  ⟨"p", "1", ⟨"install", "join", "leave", "uninstall", "reboot"⟩, none⟩

def node : Node := ⟨"h1", ["10.0.0.1"], "kpssh://pool/h1"⟩

abbrev Script := List (Interleaving.Event (machine externals))

def done : Choice := .output ⟨"", "", ""⟩

def claiming (t : ℕ) (nc : NodeClaim) (k : NamespacedName) : Script :=
  [.spawn t (.create nodeClass nc [⟨"default", []⟩]), .call t (.listing [(k, 0)]),
    .call t (.listing [(k, 0)]), .call t .ok]

def resuming (t : ℕ) (nc : NodeClaim) (k : NamespacedName) : Script :=
  [.spawn t (.create nodeClass nc [⟨"default", []⟩]), .call t (.listing [(k, 0)])]

def preparing (t : ℕ) : Script :=
  [.call t (.profile profile), .call t (.data [("privateKey", "pk")]),
      .call t (.clusterInfo ⟨"e", "c"⟩)]

def installing (t : ℕ) : Script := [.call t .ok, .call t done, .call t .ok]

def joining (t : ℕ) (id : String) : Script :=
  [.call t (.token ⟨id, "secret"⟩), .call t .ok, .call t .ok]

def joined (t : ℕ) : Script := [.call t done, .call t .ok, .call t .ok, .finish t]

/-- A Delete is served the version of `k` that is `n` writes old and dials the leave script. -/
def leaving (t : ℕ) (nc : NodeClaim) (n : ℕ) : Script :=
  [.spawn t (.delete nc), .call t (.version n), .call t (.profile profile),
      .call t (.data [("privateKey", "pk")]),
    .call t .ok]

def left (t : ℕ) : Script := [.call t done, .call t .ok, .call t .ok, .finish t]

def probing (t : ℕ) (k : NamespacedName) (now : ℕ) (kubelet : String) : Script :=
  [.spawn t (.reconcile k), .call t (.version 0), .call t (.time now),
      .call t (.data [("privateKey", "pk")]),
    .call t .ok, .call t (.output ⟨"2 1024 x86_64 " ++ kubelet, "", "fp"⟩), .call t (.time now)]

def admitting (t : ℕ) (k : NamespacedName) (now : ℕ) : Script :=
  probing t k now "inactive" ++ [.call t (.time now), .call t .ok, .finish t]

def guarding (t : ℕ) : Script :=
  [.call t .ok, .call t (.nodes []), .call t .ok, .call t (.profile profile),
      .call t (.data [("privateKey", "pk")]),
    .call t .ok]

def failedJoin : Script :=
  admitting 0 k1 1000 ++ claiming 1 claimA k1 ++ preparing 1 ++ installing 1 ++ joining 1 "id1" ++
    [.outside (.kubeletUp k1), .call 1 (.scriptFailed "join failed" (some 1)), .call 1 .ok]

def dialsJoin (t : ℕ) (k : NamespacedName) : Obs (machine externals) → Bool
  | .call u (.sshStart k' .join _ _) (.ok _) => u = t && k' = k
  | _ => false

lemma of_dialsJoin {t : ℕ} {k : NamespacedName} {obs : Obs (machine externals)}
    (h : dialsJoin t k obs = true) :
    ∃ target payload, obs = .call t (.sshStart k .join target payload) (.ok ()) := by
  unfold dialsJoin at h
  split at h
  · simp only [Bool.and_eq_true, decide_eq_true_eq] at h
    obtain ⟨rfl, rfl⟩ := h
    exact ⟨_, _, rfl⟩
  · cases h

end Sample

end KarpenterProviderSsh.Runs
