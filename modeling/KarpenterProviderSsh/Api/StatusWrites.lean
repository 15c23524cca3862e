import KarpenterProviderSsh.Api.Hosts

/-! What each writer of an SSHHost means to change, and what the API server makes of it. -/

namespace KarpenterProviderSsh.Api

def hostConditionReady : String := "Ready"

/-- `meta.SetStatusCondition`: the transition time moves only with the status. -/
def setStatusCondition (now : ℕ) (cond : Condition) : List Condition → List Condition
  | [] => [{ cond with lastTransitionTime := now }]
  | c :: cs =>
    if c.type = cond.type then
      { cond with lastTransitionTime :=
          if c.status = cond.status then c.lastTransitionTime else now } :: cs
    else c :: setStatusCondition now cond cs

def readyCondition (generation : ℕ) (st : SSHHostStatus) : Condition :=
  let orState (m : String) := if m = "" then st.state.text else m
  match st.state with
  | .unhealthy =>
    ⟨hostConditionReady, .false, "ProbeFailed", orState st.lastProbeError, generation, 0⟩
  | .maintenance => ⟨hostConditionReady, .false, "Maintenance",
      "host is annotated for maintenance and will not be claimed", generation, 0⟩
  | .pending | .unset => ⟨hostConditionReady, .unknown, "AwaitingProbe", "no successful probe yet",
      generation, 0⟩
  | _ => ⟨hostConditionReady, .true, "ProbeSucceeded", orState "", generation, 0⟩

def setReadyCondition (generation now : ℕ) (st : SSHHostStatus) : SSHHostStatus :=
  { st with conditions := setStatusCondition now (readyCondition generation st) st.conditions }

structure ProbeResult where
  cpus : ℤ
  memKB : ℤ
  arch : String
  fingerprint : String
  kubeletActive : Bool
deriving DecidableEq, Repr

inductive Setter
  | markInUse
  | installed (marker : String)
  | providerID (id : String)
  | bootstrapTokenID (id : String)
deriving DecidableEq, Repr

def Setter.apply (st : SSHHostStatus) : Setter → SSHHostStatus
  | .markInUse => { st with state := .inUse }
  | .installed marker => { st with installedProfile := marker }
  | .providerID id => { st with providerID := id }
  | .bootstrapTokenID id => { st with bootstrapTokenID := id }

inductive ProbeWrite
  | maintenance
  | releaseStale
  | collectToken
  | recheck
  | probeFailed (generation now : ℕ) (err : String)
  | probeFacts (generation now : ℕ) (res : ProbeResult)
  | probeOk (generation now : ℕ) (res : ProbeResult)
  | parkForeign
  | enterLeaving
  | leaveFailed (err : String)
  | leaveOk
deriving DecidableEq, Repr

def foreignKubeletError : String :=
  "kubelet active on unclaimed host that this provider never installed — foreign membership? " ++
    "run leave/uninstall manually or remove the host from the pool"

/-- The probe facts; a host leaving maintenance is Pending until its probe is through. -/
def recordFacts (generation now : ℕ) (res : ProbeResult) (st : SSHHostStatus) : SSHHostStatus :=
  { st with
    state := if st.state = .maintenance then .pending else st.state
    lastProbeTime := some now
    observedGeneration := generation
    hostKeyFingerprint :=
      if st.hostKeyFingerprint = "" then res.fingerprint else st.hostKeyFingerprint
    observedCapacity :=
      [("cpu", res.cpus * 10 ^ 9), ("memory", (res.memKB * 1024).bmod (2 ^ 64) * 10 ^ 9)]
    observedArch := res.arch }

def ProbeWrite.apply (st : SSHHostStatus) : ProbeWrite → SSHHostStatus
  | .maintenance => { st with state := .maintenance }
  | .releaseStale =>
    { st with claimRef := none, providerID := "", bootstrapTokenID := "", state := .pending }
  | .collectToken => { st with bootstrapTokenID := "" }
  | .recheck => st
  | .probeFailed generation now err =>
    { st with
      lastProbeTime := some now
      observedGeneration := generation
      state := .unhealthy
      lastProbeError := err }
  | .probeFacts generation now res => recordFacts generation now res st
  | .probeOk generation now res =>
    { recordFacts generation now res st with lastProbeError := "", state := .available }
  | .parkForeign => { st with state := .unhealthy, lastProbeError := foreignKubeletError }
  | .enterLeaving => { st with state := .leaving }
  | .leaveFailed err =>
    { st with state := .unhealthy, lastProbeError := "zombie leave failed: " ++ err }
  | .leaveOk => { st with lastProbeError := "", state := .available }

structure Stamp where
  generation : ℕ
  now : ℕ
deriving DecidableEq, Repr

/-- A status write; the probe's go through `patchStatus` with a stamp, or directly without. -/
inductive StatusWrite
  | claim (ref : ClaimReference)
  | release (healthy : Bool) (reason : String)
  | set (s : Setter)
  | probe (p : ProbeWrite) (ready : Option Stamp)
deriving DecidableEq, Repr

def StatusWrite.apply (st : SSHHostStatus) : StatusWrite → SSHHostStatus
  | .claim ref => { st with state := .claimed, claimRef := some ref }
  | .release healthy reason =>
    { st with
      claimRef := none
      providerID := ""
      bootstrapTokenID := ""
      state := if healthy then .available else .unhealthy
      lastProbeError := if healthy then st.lastProbeError else reason }
  | .set s => s.apply st
  | .probe p none => p.apply st
  | .probe p (some stamp) => setReadyCondition stamp.generation stamp.now (p.apply st)

def StatusWrite.applyTo (wr : StatusWrite) (h : SSHHost) : SSHHost :=
  { h with status := wr.apply h.status }

def mergeField {α : Type} [DecidableEq α] (orig modified stored : α) : α :=
  if modified = orig then stored else modified

/-- A JSON merge patch: the fields that differ between the two objects replace the stored ones. -/
def mergePatch (orig modified stored : SSHHostStatus) : SSHHostStatus where
  state := mergeField orig.state modified.state stored.state
  conditions := mergeField orig.conditions modified.conditions stored.conditions
  claimRef := mergeField orig.claimRef modified.claimRef stored.claimRef
  installedProfile :=
    mergeField orig.installedProfile modified.installedProfile stored.installedProfile
  bootstrapTokenID :=
    mergeField orig.bootstrapTokenID modified.bootstrapTokenID stored.bootstrapTokenID
  providerID := mergeField orig.providerID modified.providerID stored.providerID
  hostKeyFingerprint :=
    mergeField orig.hostKeyFingerprint modified.hostKeyFingerprint stored.hostKeyFingerprint
  observedCapacity :=
    mergeField orig.observedCapacity modified.observedCapacity stored.observedCapacity
  observedArch := mergeField orig.observedArch modified.observedArch stored.observedArch
  observedGeneration :=
    mergeField orig.observedGeneration modified.observedGeneration stored.observedGeneration
  lastProbeTime := mergeField orig.lastProbeTime modified.lastProbeTime stored.lastProbeTime
  lastProbeError := mergeField orig.lastProbeError modified.lastProbeError stored.lastProbeError

section Merging

variable {α : Type} [DecidableEq α]

@[simp] lemma mergeField_same (orig stored : α) : mergeField orig orig stored = stored := by
  simp [mergeField]

@[simp] lemma mergeField_stored (orig modified : α) : mergeField orig modified orig = modified := by
  by_cases h : modified = orig <;> simp [mergeField, h]

end Merging

@[simp] lemma mergePatch_stored (orig modified : SSHHostStatus) :
    mergePatch orig modified orig = modified := by
  simp [mergePatch]

end KarpenterProviderSsh.Api
