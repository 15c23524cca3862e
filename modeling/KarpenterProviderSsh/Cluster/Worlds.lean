import KarpenterProviderSsh.Cluster.Requests

/-! The API server, the hosts and the running operations, and how each request is answered.
A read may be served any version stored so far. A write carries the resourceVersion of the
object it was computed from and is refused unless that version is the current one; it may also
fail for any other reason, with or without having been applied. -/

namespace KarpenterProviderSsh.Cluster

open Api Store

inductive Owner
  | create (nc : NodeClaim)
  | delete (nc : NodeClaim)
  | reboot (nc : NodeClaim)
  | reconcile (k : NamespacedName)
deriving DecidableEq, Repr

def Owner.nodeClaim : Owner → Option NodeClaim
  | .create nc | .delete nc => some nc
  | .reboot _ | .reconcile _ => none

def Owner.launching : Owner → Option NodeClaim
  | .create nc => some nc
  | _ => none

def Owner.deleting : Owner → Option NodeClaim
  | .delete nc => some nc
  | _ => none

/-- What is on record about one running operation: whose it is, the store revision it started
at, the host objects it was served, whether its Claim won, the token it minted and has neither
recorded nor deleted, and the token it recorded for a join that has neither ended nor been given
up. -/
structure Activity where
  owner : Owner
  since : ℕ
  reads : List SSHHost := []
  won : Bool := false
  minting : Option String := none
  recorded : Option String := none
deriving DecidableEq, Repr

structure Session where
  thread : ℕ
  host : NamespacedName
  phase : ScriptPhase
deriving DecidableEq, Repr

abbrev HostHistory := History SSHHost.resourceVersion

structure World where
  keys : List NamespacedName
  store : NamespacedName → Option HostHistory
  rev : ℕ
  tokens : List String
  minted : List String
  sessions : List Session
  kubelet : NamespacedName → Bool
  nodes : List Node
  running : List ℕ
  threads : ℕ → Option Activity
  seen : NamespacedName → ℕ

namespace World

/-- A pool as the operator registers it: nothing has touched a host's status yet. A host that
appears later is one that no read has returned so far. -/
def start (hosts : List SSHHost) : World where
  keys := hosts.map SSHHost.key
  store k := (hosts.find? (·.key = k)).map (fun h => .single { h with status := .empty })
  rev := (hosts.map SSHHost.resourceVersion).foldr max 0
  tokens := []
  minted := []
  sessions := []
  kubelet _ := false
  nodes := []
  running := []
  threads _ := none
  seen _ := 0

def versions (w : World) (k : NamespacedName) : List SSHHost :=
  match w.store k with
  | some h => h.versions
  | none => []

def current (w : World) (k : NamespacedName) : Option SSHHost :=
  (w.store k).map History.current

def extend (w : World) (h : HostHistory) (o : SSHHost) : HostHistory :=
  h.push { o with resourceVersion := max w.rev h.current.resourceVersion + 1 } (by
    simp only
    omega)

/-- A status write that changes nothing stores no new version. -/
def save (w : World) (h : HostHistory) (st : SSHHostStatus) : HostHistory :=
  if st = h.current.status then h else w.extend h { h.current with status := st }

def commit (w : World) (k : NamespacedName) (h : HostHistory) : World :=
  { w with
    store := Function.update w.store k (some h)
    rev := max w.rev h.current.resourceVersion }

def note (w : World) (t : ℕ) (f : Activity → Activity) : World :=
  { w with threads := Function.update w.threads t ((w.threads t).map f) }

/-- Objects served from the cache: the newest revision seen of each host is remembered. -/
def serve (w : World) (t : ℕ) (os : List SSHHost) : World :=
  { w.note t (fun a => { a with reads := os ++ a.reads }) with
    seen := fun k => os.foldl (fun n o => if o.key = k then max n o.resourceVersion
      else n) (w.seen k) }

end World

inductive Choice
  | ok
  | version (n : ℕ)
  | listing (l : List (NamespacedName × ℕ))
  | conflict
  | notFound
  | fail (landed : Bool) (message : String)
  | nodeClaim (uid : String)
  | nodes (l : List Node)
  | profile (p : SSHJoinProfile)
  | data (l : List (String × String))
  | clusterInfo (info : ClusterInfo)
  | token (tok : BootstrapToken)
  | lostToken (id message : String)
  | output (r : ExecResult)
  | scriptFailed (message : String) (exitStatus : Option ℕ)
  | time (n : ℕ)
  | tick (more : Bool)

namespace World

def lookup (w : World) (k : NamespacedName) (n : ℕ) : Option SSHHost :=
  (w.versions k)[n]?

def conflictErr : Err := { message := "the object has been modified", reason := some .conflict }
def notFoundErr : Err := { message := "not found", reason := some .notFound }
def otherErr (landed : Bool) (message : String) : Err :=
  { message := message, reason := some (.other landed) }

def failed {α : Type} (w : World) : Choice → Option (Except Err α × World)
  | .notFound => some (.error notFoundErr, w)
  | .fail _ m => some (.error (otherErr false m), w)
  | _ => none

/-- A status write from `o`; `st` makes the new status out of the stored one, `mark` is what the
record of the operation gains when it lands and `won` when the writer also hears of it. -/
def write (w : World) (t : ℕ) (o : SSHHost) (st : SSHHostStatus → SSHHostStatus)
    (mark won : Activity → Activity) (ch : Choice) : Option (Except Err SSHHost × World) :=
  match w.store o.key with
  | none => w.failed ch
  | some h =>
    let h' := w.save h (st h.current.status)
    let w' := (w.commit o.key h').note t mark
    match ch with
    | .ok =>
      if o.resourceVersion = h.current.resourceVersion then some (.ok h'.current, w'.note t won)
      else none
    | .conflict =>
      if o.resourceVersion = h.current.resourceVersion then none else some (.error conflictErr, w)
    | .fail true m =>
      if o.resourceVersion = h.current.resourceVersion then some (.error (otherErr true m), w')
      else none
    | ch => w.failed ch

def markWrite (wr : StatusWrite) (a : Activity) : Activity :=
  match wr with
  | .set (.bootstrapTokenID id) => if a.minting = some id then { a with minting := none } else a
  | _ => a

def markOk (wr : StatusWrite) (a : Activity) : Activity :=
  match wr with
  | .claim _ => { a with won := true }
  | .set (.bootstrapTokenID id) => { a with recorded := if id = "" then none else some id }
  | _ => a

def giveUp (id : String) (a : Activity) : Activity :=
  if a.recorded = some id then { a with recorded := none } else a

def forget (id : String) (a : Activity) : Activity :=
  giveUp id (if a.minting = some id then { a with minting := none } else a)

def endJoin (phase : ScriptPhase) (a : Activity) : Activity :=
  if phase = .join then { a with recorded := none } else a

def listed (w : World) (ns : String) (l : List (NamespacedName × ℕ)) : Option (List SSHHost) :=
  if (l.map Prod.fst).Nodup ∧ ∀ p ∈ l, p.1.ns = ns then l.mapM (fun p => w.lookup p.1 p.2) else none

def fresh (w : World) (id : String) : Prop := id ≠ "" ∧ id ∉ w.minted

instance (w : World) (id : String) : Decidable (w.fresh id) := inferInstanceAs (Decidable (_ ∧ _))

def mint (w : World) (id : String) : World :=
  { w with tokens := id :: w.tokens, minted := id :: w.minted }

def handle (w : World) (t : ℕ) : (e : Eff) → Choice → Option (Res e × World)
  | .listHosts ns, ch =>
    match ch with
    | .listing l => (w.listed ns l).map (fun os => (.ok os, w.serve t os))
    | ch => w.failed ch
  | .getHost k, ch =>
    match ch with
    | .version n => (w.lookup k n).map (fun o => (.ok o, w.serve t [o]))
    | ch => w.failed ch
  | .updateStatus h wr, ch =>
    w.write t h (fun _ => wr.apply h.status) (markWrite wr) (markOk wr) ch
  | .patchStatus orig wr, ch =>
    w.write t orig (mergePatch orig.status (wr.apply orig.status)) (markWrite wr) (markOk wr) ch
  | .getNodeClaim _, ch =>
    match ch with
    | .nodeClaim uid => some (.ok uid, w)
    | ch => w.failed ch
  | .listNodes _, ch =>
    match ch with
    | .nodes l => some (.ok l, w)
    | ch => w.failed ch
  | .deleteNode node, ch =>
    match ch with
    | .ok => some (.ok (), { w with nodes := w.nodes.filter (· ≠ node) })
    | ch => w.failed ch
  | .getProfile _, ch =>
    match ch with
    | .profile p => some (.ok p, w)
    | ch => w.failed ch
  | .getSecret _, ch =>
    match ch with
    | .data l => some (.ok l, w)
    | ch => w.failed ch
  | .readClusterInfo, ch =>
    match ch with
    | .clusterInfo info => some (.ok info, w)
    | ch => w.failed ch
  | .createToken, ch =>
    match ch with
    | .token tok =>
      -- a generated id is new; the API server would also refuse one whose Secret exists
      if w.fresh tok.id then
        some (.ok tok, (w.mint tok.id).note t (fun a => { a with minting := some tok.id }))
      else none
    | .lostToken id m =>
      if w.fresh id then some (.error (otherErr true m), w.mint id) else none
    | ch => w.failed ch
  | .deleteToken id, ch =>
    let w' := { w.note t (forget id) with tokens := w.tokens.filter (· ≠ id) }
    match ch with
    | .ok => if id ∈ w.tokens then some (.ok (), w') else none
    | .notFound => if id ∈ w.tokens then none else some (.error notFoundErr, w')
    | .fail true m => some (.error (otherErr true m), w')
    | ch => (w.note t (giveUp id)).failed ch
  | .sshStart k phase _ _, ch =>
    match ch with
    | .ok => some (.ok (), { w with sessions := ⟨t, k, phase⟩ :: w.sessions })
    | .scriptFailed m exit => some (.error { message := m, exitStatus := exit }, w)
    | _ => none
  | .sshWait k phase, ch =>
    let w' := { w with sessions := w.sessions.filter (· ≠ Session.mk t k phase) }
    let ended := w'.note t (endJoin phase)
    match ch with
    | .output r =>
      some (.ok r, if phase = .leave then
        { ended with kubelet := Function.update w.kubelet k false } else ended)
    | .scriptFailed m exit => some (.error { message := m, exitStatus := exit }, ended)
    | _ => none
  | .now, ch =>
    match ch with
    | .time n => some (n, w)
    | _ => none
  | .pollTick, ch =>
    match ch with
    | .tick more => some (more, w)
    | _ => none

def enter (w : World) (t : ℕ) (o : Owner) : World :=
  { w with
    running := t :: w.running
    threads := Function.update w.threads t (some { owner := o, since := w.rev }) }

def leave (w : World) (t : ℕ) : World :=
  { w with
    running := w.running.filter (· ≠ t)
    threads := Function.update w.threads t none
    sessions := w.sessions.filter (fun s => s.thread ≠ t) }

end World

/-- What happens outside the provider: an operator edits a host's labels, annotations or spec
(the address is immutable), a kubelet comes up while a join script runs, a Node registers or is
removed. -/
inductive Outer
  | edit (k : NamespacedName) (labels annotations : List (String × String)) (spec : SSHHostSpec)
  | kubeletUp (k : NamespacedName)
  | addNode (n : Node)
  | dropNode (n : Node)

def World.outside (w : World) : Outer → Option World
  | .edit k labels annotations spec =>
    match w.store k with
    | some h =>
      if spec.address = h.current.spec.address then
        some (w.commit k (w.extend h
          { h.current with
            labels := labels
            annotations := annotations
            spec := spec
            generation := h.current.generation + (if spec = h.current.spec then 0 else 1) }))
      else none
    | none => none
  | .kubeletUp k =>
    if ∃ s ∈ w.sessions, s.host = k ∧ s.phase = .join then
      some { w with kubelet := Function.update w.kubelet k true }
    else none
  | .addNode n => some { w with nodes := n :: w.nodes }
  | .dropNode n => some { w with nodes := w.nodes.filter (· ≠ n) }

end KarpenterProviderSsh.Cluster
