import KarpenterProviderSsh.Providers.Instances

/-! The host probe reconciler (`pkg/controllers/hostprobe.go`): health probing, stale-claim and
bootstrap-token hygiene and the zombie guard. Durations are in seconds. -/

namespace KarpenterProviderSsh.Controllers

open Api Cluster Scripts Providers

def probeInterval : ℕ := 120
def claimedRecheck : ℕ := 300
def tokenRecheck : ℕ := 30
def conflictRetry : ℕ := 1

def probeScript : String :=
  "nproc\nawk '/MemTotal/ \x7bprint $2\x7d' /proc/meminfo\nuname -m\n" ++
    "systemctl is-active kubelet 2>/dev/null || true\n"

structure Result where
  requeueAfter : ℕ := 0
deriving DecidableEq, Repr

def ignoreNotFound (e : Err) : Except Err Result :=
  if e.isNotFound then .ok {} else .error e

def isSpace (c : Char) : Bool :=
  let n := c.toNat
  (9 ≤ n && n ≤ 13) || n == 0x20 || n == 0x85 || n == 0xA0 || n == 0x1680 ||
    (0x2000 ≤ n && n ≤ 0x200a) || n == 0x2028 || n == 0x2029 || n == 0x202f ||
    n == 0x205f || n == 0x3000

def fieldsFrom : List Char → List Char → List String
  | word, [] => if word = [] then [] else [String.ofList word]
  | word, c :: cs =>
    if isSpace c then
      if word = [] then fieldsFrom [] cs else String.ofList word :: fieldsFrom [] cs
    else fieldsFrom (word ++ [c]) cs

def fields (s : String) : List String := fieldsFrom [] s.toList

/-- The digits of `strconv.ParseUint`; a value out of range is noticed before a later bad letter. -/
def parseDigits : ℕ → List Char → Option ℕ
  | n, [] => some n
  | n, c :: cs =>
    if c.isDigit then
      let n' := n * 10 + (c.toNat - '0'.toNat)
      if n' < 2 ^ 64 then parseDigits n' cs else some (2 ^ 64 - 1)
    else none

/-- `strconv.ParseInt(s, 10, 64)` with its error dropped: 0 on bad text, clamped out of range. -/
def parseInt (s : String) : ℤ :=
  let signed (neg : Bool) (cs : List Char) : ℤ :=
    if cs = [] then 0 else
    match parseDigits 0 cs with
    | none => 0
    | some n =>
      if neg then (if 2 ^ 63 < n then -(2 ^ 63) else -n) else (if 2 ^ 63 ≤ n then 2 ^ 63 - 1 else n)
  match s.toList with
  | '-' :: cs => signed true cs
  | '+' :: cs => signed false cs
  | cs => signed false cs

def normalizeArch (m : String) : String :=
  if m = "x86_64" then "amd64" else if m = "aarch64" ∨ m = "arm64" then "arm64" else m

def parseProbeOutput (stdout fingerprint : String) : ProbeResult :=
  match fields stdout with
  | cpus :: mem :: arch :: rest =>
    { cpus := parseInt cpus
      memKB := parseInt mem
      arch := normalizeArch arch
      fingerprint := fingerprint
      kubeletActive := rest.head? == some "active" }
  | _ => { cpus := 0, memKB := 0, arch := "", fingerprint := fingerprint, kubeletActive := false }

def probe (X : Externals) (h : SSHHost) : Prog (Except Err ProbeResult) := do
  match ← readSSHCredentials X h with
  | .error e => return .error e
  | .ok creds =>
    let target := sshTarget h creds
    match ← (if h.spec.execMode = .verified then
        runShim h.key { target with shimCommand := h.spec.shimCommand } ⟨.probe, "", "", []⟩
      else run h.key .probe target probeScript []) with
    | .error e => return .error e
    | .ok out => return .ok (parseProbeOutput out.stdout out.hostKeyFingerprint)

/-- The source's `patchStatus`: the Ready condition rides along and an unchanged status is not
sent at all. -/
def patchStatus (h : SSHHost) (p : ProbeWrite) (result : Result) : Prog (Except Err Result) := do
  let now ← request .now
  let wr : StatusWrite := .probe p (some ⟨h.generation, now⟩)
  if wr.apply h.status = h.status then return .ok result
  else do
    match ← request (.patchStatus h wr) with
    | .ok _ => return .ok result
    | .error e => return if e.isConflict then .ok ⟨conflictRetry⟩ else ignoreNotFound e

def nodeByInternalIP (ip : String) : Prog (Except Err (Option Node)) := do
  match ← request (.listNodes ip) with
  | .error e => return .error e
  | .ok nodes => return .ok nodes.head?

def leaveZombie (X : Externals) (h : SSHHost) (node : Option Node) : Prog (Except Err Result) := do
  match ← leaveHost X h with
  | .error e => patchStatus h (.leaveFailed e.message) ⟨probeInterval⟩
  | .ok () =>
    match node with
    | none => patchStatus h .leaveOk ⟨probeInterval⟩
    | some n =>
      match ← request (.deleteNode n) with
      | .ok () => patchStatus h .leaveOk ⟨probeInterval⟩
      | .error e => if e.isNotFound then patchStatus h .leaveOk ⟨probeInterval⟩ else return .error e

def handleZombie (X : Externals) (h : SSHHost) : Prog (Except Err Result) :=
  if h.status.claimRef.isSome then pure (.ok ⟨probeInterval⟩)
  else do
    match ← nodeByInternalIP h.spec.nodeIP with
    | .error e => return .error e
    | .ok node =>
      if node.isNone && h.status.installedProfile == "" then
        patchStatus h .parkForeign ⟨probeInterval⟩
      else
        match ← request (.patchStatus h (.probe .enterLeaving none)) with
        | .error e => return if e.isConflict then .ok ⟨conflictRetry⟩ else ignoreNotFound e
        | .ok h' => leaveZombie X h' node

/-- Why the NodeClaim behind a claim no longer holds the host, if so; a transient API error is no
evidence either way. -/
def staleClaim (ref : ClaimReference) : Prog (Except Err Bool) := do
  match ← request (.getNodeClaim ref.name) with
  | .error e => return if e.isNotFound then .ok true else .error e
  | .ok uid => return .ok (ref.uid != "" && uid != "" && ref.uid != uid)

def reconcileToken (h : SSHHost) : Prog (Except Err Result) :=
  if h.status.bootstrapTokenID = "" ∨
    h.status.providerID = "" then patchStatus h .recheck ⟨claimedRecheck⟩
  else do
    match ← nodeByInternalIP h.spec.nodeIP with
    | .error e => return .error e
    | .ok none => patchStatus h .recheck ⟨tokenRecheck⟩
    | .ok (some _) =>
      match ← deleteTokenByID h.status.bootstrapTokenID with
      | .error e => return .error (e.wrap "deleting spent bootstrap token: ")
      | .ok () => patchStatus h .collectToken ⟨claimedRecheck⟩

def reconcileClaimed (h : SSHHost) : Prog (Except Err Result) :=
  match h.status.claimRef with
  | none => reconcileToken h
  | some ref => do
    match ← staleClaim ref with
    | .error e => return .error e
    | .ok true =>
      deleteBootstrapToken h
      patchStatus h .releaseStale ⟨conflictRetry⟩
    | .ok false => reconcileToken h

def probeDue (h : SSHHost) (now : ℕ) : Option ℕ :=
  match h.status.lastProbeTime with
  | some last =>
    if h.status.observedGeneration = h.generation ∧ (now : ℤ) - last < probeInterval then
      some ((probeInterval : ℤ) - (now - last)).toNat
    else none
  | none => none

def reconcileUnclaimed (X : Externals) (h : SSHHost) : Prog (Except Err Result) := do
  let started ← request .now
  match probeDue h started with
  | some wait => return .ok ⟨wait⟩
  | none =>
    let res ← probe X h
    let now ← request .now
    match res with
    | .error e => patchStatus h (.probeFailed h.generation now e.message) ⟨probeInterval⟩
    | .ok res =>
      if res.kubeletActive then
        match ← request (.patchStatus h (.probe (.probeFacts h.generation now res) none)) with
        | .error e => return if e.isConflict then .ok ⟨conflictRetry⟩ else ignoreNotFound e
        | .ok h' => handleZombie X h'
      else patchStatus h (.probeOk h.generation now res) ⟨probeInterval⟩

def reconcile (X : Externals) (k : NamespacedName) : Prog (Except Err Result) := do
  match ← request (.getHost k) with
  | .error e => return ignoreNotFound e
  | .ok h =>
    if h.maintenance && (h.status.claimRef.isNone || h.status.state == .maintenance) then
      patchStatus h .maintenance {}
    else
      match h.status.state with
      | .claimed | .inUse => reconcileClaimed h
      | _ => reconcileUnclaimed X h

end KarpenterProviderSsh.Controllers
