import KarpenterProviderSsh.Scripts.Runners

/-! The host pool (`pkg/providers/host`). The source updates its host argument in place; here an
operation returns the object its caller is left with. -/

namespace KarpenterProviderSsh.Providers

open Api Cluster Scripts

def list (X : Externals) (selector : Option X.LabelSelector) : Prog (Except Err (List SSHHost)) :=
  match selector with
  | none => request (.listHosts X.ns)
  | some s =>
    match X.labelSelectorAsSelector s with
    | .error e => pure (.error { message := "invalid host selector: " ++ e })
    | .ok matchesLabels => do
      match ← request (.listHosts X.ns) with
      | .error e => return .error e
      | .ok hosts => return .ok (hosts.filter (fun h => matchesLabels h.labels))

def selectsLabels {X : Externals} (selector : Option X.LabelSelector)
    (labels : List (String × String)) : Bool :=
  match selector with
  | none => true
  | some s =>
    match X.labelSelectorAsSelector s with
    | .error _ => false
    | .ok matchesLabels => matchesLabels labels

def claimable (h : SSHHost) : Bool :=
  h.status.state == .available && h.status.claimRef.isNone && !h.maintenance

def oldestFirst (a b : SSHHost) : Prop :=
  a.creationTimestamp < b.creationTimestamp ∨
    (a.creationTimestamp = b.creationTimestamp ∧ a.key.name ≤ b.key.name)

instance (a b : SSHHost) : Decidable (oldestFirst a b) := inferInstanceAs (Decidable (_ ∨ _))

def available (X : Externals) (selector : Option X.LabelSelector) (cls : String) :
    Prog (Except Err (List SSHHost)) := do
  match ← list X selector with
  | .error e => return .error e
  | .ok hosts =>
    let out := hosts.filter (fun h => claimable h && (cls == "" || hostClass h == cls))
    return .ok (out.insertionSort oldestFirst)

def claim (h : SSHHost) (nc : NodeClaim) : Prog (SSHHost × Except Err Bool) := do
  match ← request (.updateStatus h (.claim nc.ref)) with
  | .ok h' => return (h', .ok true)
  | .error e =>
    let mutated := (StatusWrite.claim nc.ref).applyTo h
    return (mutated, if e.isConflict then .ok false else .error e)

/-- `retry.RetryOnConflict`: up to `steps` attempts, the last conflict is the error returned. -/
def retryOnConflict {σ : Type} (fn : σ → Prog (σ × Option Err)) : ℕ → σ → Prog (σ × Option Err)
  | 0, s => pure (s, none)
  | steps + 1, s => do
    let r ← fn s
    match r with
    | (s', none) => return (s', none)
    | (s', some e) =>
      if e.isConflict && steps ≠ 0 then retryOnConflict fn steps s' else return (s', some e)

def defaultBackoffSteps : ℕ := 4

def claimText : Option ClaimReference → String
  | none => "<nil>"
  | some ref => "&\x7b" ++ ref.name ++ " " ++ ref.uid ++ "\x7d"

/-- One attempt of a setter. A lost race is retried on a fresh read only while the claim it was
issued under still holds; every other failure leaves the caller with its own unsaved change. -/
def setStatusOnce (expect : Option ClaimReference) (s : Setter) (h : SSHHost) :
    Prog (SSHHost × Option Err) := do
  let mutated := (StatusWrite.set s).applyTo h
  match ← request (.patchStatus h (.set s)) with
  | .ok h' => return (h', none)
  | .error e =>
    if e.isConflict then
      match ← request (.getHost h.key) with
      | .error gerr => return (mutated, some gerr)
      | .ok fresh =>
        if sameClaim expect fresh.status.claimRef then return (fresh, some e)
        else
          return (mutated, some { message := "host " ++ h.key.name ++
            " claim changed while writing status (now " ++ claimText fresh.status.claimRef ++ ")" })
    else return (mutated, some e)

def setStatus (h : SSHHost) (s : Setter) : Prog (SSHHost × Option Err) :=
  retryOnConflict (setStatusOnce h.status.claimRef s) defaultBackoffSteps h

def release (h : SSHHost) (healthy : Bool) (reason : String) : Prog (Option Err) := do
  match ← request (.patchStatus h (.release healthy reason)) with
  | .ok _ => return none
  | .error e => return some e

def markInUse (h : SSHHost) : Prog (SSHHost × Option Err) := setStatus h .markInUse

def setInstalled (h : SSHHost) (marker : String) : Prog (SSHHost × Option Err) :=
  setStatus h (.installed marker)

def setProviderID (h : SSHHost) (id : String) : Prog (SSHHost × Option Err) :=
  setStatus h (.providerID id)

def setBootstrapTokenID (h : SSHHost) (id : String) : Prog (SSHHost × Option Err) :=
  setStatus h (.bootstrapTokenID id)

def providerID (h : SSHHost) : String := providerPrefixText ++ h.key.ns ++ "/" ++ h.key.name

def cutText (s head : String) : Option String :=
  if head.toList.isPrefixOf s.toList then some (String.ofList (s.toList.drop head.length)) else none

/-- `strings.SplitN(s, "/", 2)` when it gives two parts. -/
def cutSlash (s : String) : Option (String × String) :=
  let cs := s.toList
  if '/' ∈ cs then
    some (String.ofList (cs.takeWhile (· ≠ '/')), String.ofList ((cs.dropWhile (· ≠ '/')).drop 1))
  else none

def hostNotFound (what : String) : Err :=
  { message := "sshhosts.karpenter.dklesev.github.io " ++ what.quote ++ " not found"
    reason := some .notFound }

def byProviderID (X : Externals) (id : String) : Prog (Except Err SSHHost) :=
  if id = "" then pure (.error (hostNotFound "<empty providerID>"))
  else
    match cutText id providerPrefixText with
    | some rest =>
      match cutSlash rest with
      | none => pure (.error { message := "malformed providerID " ++ id.quote })
      | some (ns, name) => request (.getHost ⟨ns, name⟩)
    | none => do
      match ← list X none with
      | .error e => return .error e
      | .ok hosts =>
        match hosts.find? (fun h => h.status.providerID == id) with
        | some h => return .ok h
        | none => return .error (hostNotFound id)

def byClaim (X : Externals) (nc : NodeClaim) : Prog (Except Err (Option SSHHost)) := do
  match ← list X none with
  | .error e => return .error e
  | .ok hosts => return .ok (hosts.find? (fun h => claimHeldBy h nc))

def claimed (X : Externals) : Prog (Except Err (List SSHHost)) := do
  match ← list X none with
  | .error e => return .error e
  | .ok hosts => return .ok (hosts.filter (fun h => h.status.claimRef.isSome))

end KarpenterProviderSsh.Providers
