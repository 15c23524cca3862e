import KarpenterProviderSsh.Scripts.Contexts

/-! The SSH executors (`internal/sshexec`): names are checked before anything is dialled. -/

namespace KarpenterProviderSsh.Scripts

open Api Cluster

def isWordChar (c : Char) : Bool := c.isAlphanum || c == '_'

/-- `^[A-Za-z_][A-Za-z0-9_]*$` -/
def envNameOk (name : String) : Bool :=
  match name.toList with
  | c :: cs => (c.isAlpha || c == '_') && cs.all isWordChar
  | [] => false

/-- `^KPSSH_[A-Za-z0-9_]+$` -/
def paramNameOk (name : String) : Bool :=
  let head := "KPSSH_".toList
  let rest := name.toList.drop head.length
  head.isPrefixOf name.toList && !rest.isEmpty && rest.all isWordChar

/-- Dial, then run: the script is on the host between the two requests. -/
def session (k : NamespacedName) (phase : ScriptPhase) (target : Target) (payload : Payload) :
    Prog (Except Err ExecResult) := do
  match ← request (.sshStart k phase target payload) with
  | .error e => return .error e
  | .ok () => request (.sshWait k phase)

def run (k : NamespacedName) (phase : ScriptPhase) (target : Target) (text : String)
    (env : List (String × String)) : Prog (Except Err ExecResult) :=
  match (sortedEntries env).find? (fun p => !envNameOk p.1) with
  | some p => pure (.error { message := "invalid environment variable name " ++ p.1.quote })
  | none => session k phase target (.script text env)

def Envelope.check (e : Envelope) : Except Err Unit :=
  if e.phase ≠ .probe ∧ (e.script = "" ∨ e.sig = "") then
    .error { message := "phase " ++ e.phase.text.quote ++ " requires script and signature" }
  else
    match (sortedEntries e.params).find? (fun p => !paramNameOk p.1 ||
      p.2.toList.contains '\n') with
    | some p =>
      if paramNameOk p.1 then
        .error { message := "param " ++ p.1.quote ++ " value contains a newline" }
      else
        .error { message := "invalid param name " ++ p.1.quote ++
          ": verified-exec params must match ^KPSSH_[A-Za-z0-9_]+$" }
    | none => .ok ()

def runShim (k : NamespacedName) (target : Target) (e : Envelope) : Prog (Except Err ExecResult) :=
  match Envelope.check e with
  | .error err => pure (.error (err.wrap "building envelope: "))
  | .ok () => session k e.phase target (.envelope e)

structure SSHCredentials where
  privateKey : String
  pinnedHostKey : String

def SSHCredentials.effectivePin (c : SSHCredentials) (h : SSHHost) : String :=
  if c.pinnedHostKey ≠ "" then c.pinnedHostKey else h.status.hostKeyFingerprint

def sshTarget (h : SSHHost) (creds : SSHCredentials) : Target where
  address := h.spec.address
  port := h.spec.port
  user := h.spec.user
  privateKey := creds.privateKey
  pinnedHostKey := creds.effectivePin h
  shimCommand := ""

def readSSHCredentials (X : Externals) (h : SSHHost) : Prog (Except Err SSHCredentials) := do
  match ← request (.getSecret ⟨h.key.ns, h.spec.sshKeySecretRef⟩) with
  | .error e => return .error (e.wrap "getting ssh key secret: ")
  | .ok data =>
    let name := h.key.ns ++ "/" ++ h.spec.sshKeySecretRef
    match data.lookup "privateKey" with
    | none => return .error { message := "secret " ++ name ++ " has no " ++ "privateKey".quote }
    | some key =>
      match data.lookup "knownHost" with
      | none => return .ok ⟨key, ""⟩
      | some kh =>
        match X.pinnedFingerprintFromKnownHost kh with
        | .error e =>
          return .error { message := "secret " ++ name ++ " " ++ "knownHost".quote ++ ": " ++ e }
        | .ok fp => return .ok ⟨key, fp⟩

/-- The verified path: the stored script verbatim, with a signature checked before dialling. -/
def runVerifiedPhase (X : Externals) (target : Target) (h : SSHHost) (prof : SSHJoinProfile)
    (phase : ScriptPhase) (env : List (String × String)) : Prog (Except Err ExecResult) :=
  let raw := script prof phase
  let sig := signature prof phase
  let send := runShim h.key { target with shimCommand := h.spec.shimCommand } ⟨phase, raw, sig, env⟩
  if raw = "" then
    pure (.error (.configError ("profile " ++ prof.name ++ " has no " ++ phase.text ++ " script")))
  else if hasTemplateActions raw then
    pure (.error (.configError ("verified exec requires template-free scripts; profile " ++
      prof.name ++ " " ++ phase.text ++ " uses Go template actions")))
  else if sig = "" then
    pure (.error (.configError ("verified host " ++ h.key.name ++ ": profile " ++ prof.name ++
      " has no signature for phase " ++ phase.text)))
  else if h.spec.trustedSigners = [] then send
  else
    match X.parseTrustedSigners h.spec.trustedSigners with
    | .error e => pure (.error (.configError ("host " ++ h.key.name ++ " trustedSigners: " ++ e)))
    | .ok signers =>
      match X.verifySSHSIG raw sig signers "kpssh" with
      | .error e =>
        pure (.error (.configError ("controller-side signature check for profile " ++
          prof.name ++ " " ++ phase.text ++ ": " ++ e)))
      | .ok () => send

def runPhase (X : Externals) (target : Target) (h : SSHHost) (prof : SSHJoinProfile)
    (phase : ScriptPhase) (pctx : Context) (env : List (String × String)) :
    Prog (Except Err ExecResult) :=
  if h.spec.execMode = .verified then runVerifiedPhase X target h prof phase env
  else
    match render X prof phase pctx with
    | .error e => pure (.error e.asConfig)
    | .ok text => run h.key phase target text env

def profileName (marker : String) : String :=
  String.ofList (marker.toList.takeWhile (· ≠ '@'))

def runInstalledPhase (X : Externals) (h : SSHHost) (phase : ScriptPhase) :
    Prog (Except Err Unit) :=
  if h.status.installedProfile = "" then
    pure (.error (.configError ("host " ++ h.key.name ++ " has no installed profile to " ++
      phase.text ++ " with")))
  else do
    let profName := profileName h.status.installedProfile
    match ← request (.getProfile profName) with
    | .error e => return .error (e.wrap ("getting profile " ++ profName ++ ": "))
    | .ok prof =>
      if script prof phase = "" then
        return .error (.configError ("profile " ++ profName ++ " has no " ++
          phase.text ++ " script"))
      else
        match ← readSSHCredentials X h with
        | .error e => return .error e
        | .ok creds =>
          let pctx : Context := { hostAddress := h.spec.address, nodeAddress := h.spec.nodeIP }
          match pctx.env with
          | .error e => return .error e
          | .ok env =>
            match ← runPhase X (sshTarget h creds) h prof phase pctx env with
            | .error e => return .error (e.wrap (phase.text ++ " phase: "))
            | .ok _ => return .ok ()

def leaveHost (X : Externals) (h : SSHHost) : Prog (Except Err Unit) :=
  runInstalledPhase X h .leave

end KarpenterProviderSsh.Scripts
