import KarpenterProviderSsh.Cluster.Requests
import Mathlib.Data.List.Sort

/-! The join context and its environment (`internal/profile`). The template engine and the
signature check are parameters. -/

namespace KarpenterProviderSsh.Scripts

open Api Cluster

structure Context where
  clusterEndpoint : String := ""
  clusterCACert : String := ""
  bootstrapToken : Option BootstrapToken := none
  nodeName : String := ""
  providerID : String := ""
  nodeLabels : String := ""
  registerWithTaints : String := ""
  hostAddress : String := ""
  nodeAddress : String := ""
  vars : List (String × String) := []
  secrets : List (String × String) := []

/-- The code the provider relies on and does not own: `text/template`, the SSH key parsers and
the SSHSIG check, label selectors and base64, and the namespace it was started with. -/
structure Externals where
  ns : String
  LabelSelector : Type
  labelSelectorAsSelector : LabelSelector → Except String (List (String × String) → Bool)
  encodeToString : List UInt8 → String
  Template : Type
  parse : String → String → Except String Template
  execute : Template → Context → Except String String
  PublicKey : Type
  parseTrustedSigners : List String → Except String (List PublicKey)
  verifySSHSIG : String → String → List PublicKey → String → Except String Unit
  pinnedFingerprintFromKnownHost : String → Except String String

def secretEnvName (key : String) : String :=
  "KPSSH_SECRET_" ++ key.map (fun c => if c = '-' ∨ c = '.' then '_' else c.toUpper)

def setEntry (m : List (String × String)) (k v : String) : List (String × String) :=
  if (m.lookup k).isSome then m.map (fun p => if p.1 = k then (k, v) else p) else m ++ [(k, v)]

def sortedEntries (m : List (String × String)) : List (String × String) :=
  m.insertionSort (fun a b => a.1 ≤ b.1)

def addSecrets (seen : List (String × String)) :
    List (String × String) → List (String × String) → Except Err (List (String × String))
  | env, [] => .ok env
  | env, (k, v) :: rest =>
    let name := secretEnvName k
    match seen.lookup name with
    | some prev =>
      .error { message := "secret keys " ++ prev.quote ++ " and " ++ k.quote ++
        " both map to " ++ name }
    | none => addSecrets ((name, k) :: seen) (setEntry env name v) rest

def Context.env (c : Context) : Except Err (List (String × String)) :=
  let base := [
    ("KPSSH_CLUSTER_ENDPOINT", c.clusterEndpoint),
    ("KPSSH_CLUSTER_CA_B64", c.clusterCACert),
    ("KPSSH_BOOTSTRAP_TOKEN", (c.bootstrapToken.map BootstrapToken.text).getD ""),
    ("KPSSH_NODE_NAME", c.nodeName),
    ("KPSSH_PROVIDER_ID", c.providerID),
    ("KPSSH_NODE_LABELS", c.nodeLabels),
    ("KPSSH_TAINTS", c.registerWithTaints),
    ("KPSSH_HOST_ADDRESS", c.hostAddress),
    ("KPSSH_NODE_ADDRESS", c.nodeAddress)]
  let env := c.vars.foldl (fun env p => setEntry env ("KPSSH_VAR_" ++ p.1) p.2) base
  addSecrets [] env (sortedEntries c.secrets)

def redactionPlaceholder : String := "[REDACTED]"
def minRedactableLen : ℕ := 8

def replaceAll {α : Type} [DecidableEq α] (old new : List α) : ℕ → List α → List α
  | 0, s => s
  | _, [] => []
  | n + 1, c :: cs =>
    if old.isPrefixOf (c :: cs) then new ++ replaceAll old new n ((c :: cs).drop old.length)
    else c :: replaceAll old new n cs

/-- Longest values first: one that contains another must not be half-redacted. -/
def Context.redact (c : Context) (msg : String) : String :=
  let tokens := match c.bootstrapToken with
    | some tok => [tok.text, tok.secret]
    | none => []
  let values := (tokens ++ c.secrets.map Prod.snd).insertionSort
    (fun a b => b.utf8ByteSize ≤ a.utf8ByteSize)
  values.foldl (fun msg v =>
    if v.utf8ByteSize < minRedactableLen then msg
    else String.ofList (replaceAll v.toList redactionPlaceholder.toList msg.length msg.toList)) msg

def script (p : SSHJoinProfile) : ScriptPhase → String
  | .install => p.scripts.install
  | .join => p.scripts.join
  | .leave => p.scripts.leave
  | .uninstall => p.scripts.uninstall
  | .reboot => p.scripts.reboot
  | .probe => ""

def signature (p : SSHJoinProfile) (phase : ScriptPhase) : String :=
  match p.signatures with
  | none => ""
  | some s => script { p with scripts := s } phase

def hasTemplateActions (raw : String) : Bool :=
  go raw.toList
where
  go : List Char → Bool
    | a :: b :: cs => (a == '\x7b' && b == '\x7b') || go (b :: cs)
    | _ => false

def render (X : Externals) (p : SSHJoinProfile) (phase : ScriptPhase) (ctx : Context) :
    Except Err String :=
  if phase = .probe then .error { message := "unknown phase " ++ phase.text.quote } else
  let raw := script p phase
  if raw = "" then
    .error { message := "profile " ++ p.name ++ " has no " ++ phase.text ++ " script" } else
  match X.parse phase.text raw with
  | .error e =>
    .error { message := "profile " ++ p.name ++ ": parsing " ++ phase.text ++ " script: " ++ e }
  | .ok tpl =>
    match X.execute tpl ctx with
    | .error e =>
      .error { message := "rendering " ++ phase.text ++ " script of profile " ++
        p.name ++ ": " ++ e }
    | .ok text => .ok text

def installedMarker (p : SSHJoinProfile) : String :=
  p.name ++ "@" ++ (if p.version = "" then "1" else p.version)

end KarpenterProviderSsh.Scripts
