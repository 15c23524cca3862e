import KarpenterProviderSsh.Runs.Jobs
import KarpenterProviderSsh.Interleaving.Protocols

/-! How far each operation has got, which requests it may send from there, and what it then knows
of the host objects it holds. -/

namespace KarpenterProviderSsh.Runs

open Api Cluster Scripts Providers Controllers

inductive Stage
  | prepare
  | minted (id : String)
  | recorded (id : String)
  | joining (id : String)
  | joined

namespace Stage

inductive Sets : Stage → Setter → Prop
  | installed (marker : String) : Sets .prepare (.installed marker)
  | token (id : String) : Sets (.minted id) (.bootstrapTokenID id)
  | providerID (id : String) : Sets .joined (.providerID id)
  | inUse : Sets .joined .markInUse

def next : Stage → Stage
  | .minted id => .recorded id
  | st => st

def own : Stage → Option String
  | .minted id | .recorded id | .joining id => some id
  | _ => none

end Stage

/-- A launch that is being given up: the stored version it works from, the object it holds, whether
the join script was started, a token of its own still to be deleted, whether the token on the
object it holds was deleted, and whether a conflict showed the version to be outdated. -/
structure Closing where
  stored : SSHHost
  held : SSHHost
  started : Bool
  own : Option String
  freed : Bool
  lost : Bool

inductive Phase
  | lookup (nc : NodeClaim)
  | picking (nc : NodeClaim) (candidates : List SSHHost)
  | launch (nc : NodeClaim) (resumed : Bool) (h : SSHHost) (st : Stage)
  | closing (nc : NodeClaim) (resumed : Bool) (cl : Closing)
  | resolving (nc : NodeClaim)
  | teardown (nc : NodeClaim) (h : SSHHost) (left freed : Bool)
  | tearing (nc : NodeClaim) (h : SSHHost)
  | rebooting (nc : NodeClaim)
  | reading (k : NamespacedName)
  | maintained (h : SSHHost)
  | claimed (h : SSHHost)
  | stale (h : SSHHost) (freed : Bool)
  | spent (h : SSHHost)
  | unclaimed (h : SSHHost)
  | probed (h : SSHHost) (active : Bool)
  | guarding (h : SSHHost)
  | fenced (h : SSHHost)
  | forcing (h : SSHHost)
  | cleared (h : SSHHost)
  | over (o : Owner)

namespace Phase

def owner : Phase → Owner
  | .lookup nc | .picking nc _ | .launch nc _ _ _ | .closing nc _ _ => .create nc
  | .resolving nc | .teardown nc _ _ _ | .tearing nc _ => .delete nc
  | .rebooting nc => .reboot nc
  | .reading k => .reconcile k
  | .maintained h | .claimed h | .stale h _ | .spent h | .unclaimed h | .probed h _ | .guarding h
  | .fenced h | .forcing h | .cleared h => .reconcile h.key
  | .over o => o

def own : Phase → Option String
  | .launch _ _ _ st => st.own
  | .closing _ _ cl => cl.own
  | _ => none

def isReading : Phase → Bool
  | .reading _ => true
  | _ => false

def close : Phase → Option (NodeClaim × Bool × Closing)
  | .launch nc r h .prepare => some (nc, r, ⟨h, h, false, none, false, false⟩)
  | .launch nc r h (.minted id) | .launch nc r h (.recorded id) =>
    some (nc, r, ⟨h, h, false, some id, false, false⟩)
  | .launch nc r h .joined => some (nc, r, ⟨h, h, true, none, false, false⟩)
  | .closing nc r cl => some (nc, r, cl)
  | _ => none

end Phase

def withSet (h : SSHHost) (s : Setter) : SSHHost := (StatusWrite.set s).applyTo h

inductive Probes : Phase → SSHHost → ProbeWrite → Prop
  | maintenance (h) : Probes (.maintained h) h .maintenance
  | recheck (h) : Probes (.claimed h) h .recheck
  | collect (h) : Probes (.spent h) h .collectToken
  | release (h freed) : h.status.bootstrapTokenID = "" ∨ freed = true →
      Probes (.stale h freed) h .releaseStale
  | failed (h n now e) : Probes (.unclaimed h) h (.probeFailed n now e)
  | ok (h n now res) : Probes (.probed h false) h (.probeOk n now res)
  | facts (h n now res) : Probes (.probed h true) h (.probeFacts n now res)
  | park (h) : Probes (.guarding h) h .parkForeign
  | fence (h) : h.status.claimRef = none → Probes (.guarding h) h .enterLeaving
  | leaveFailed (h e) : Probes (.fenced h) h (.leaveFailed e)
  | leaveOk (h) : Probes (.cleared h) h .leaveOk

/-- From this phase the object held, based on this stored version, may be written so. -/
inductive Writes : Phase → SSHHost → SSHHost → StatusWrite → Prop
  | claim {nc os o} : o ∈ os → Writes (.picking nc os) o o (.claim nc.ref)
  | set {nc r h st s} : st.Sets s → Writes (.launch nc r h st) h h (.set s)
  | clear {φ nc r s o started freed lost} :
      Phase.close φ = some (nc, r, ⟨s, o, started, none, freed, lost⟩) →
      o.status.bootstrapTokenID ≠ "" ∨ o = s → Writes φ o s (.set (.bootstrapTokenID ""))
  | release {φ nc r s o started freed lost healthy} (reason) :
      Phase.close φ = some (nc, r, ⟨s, o, started, none, freed, lost⟩) →
      (healthy = true → started = false) → (o.status.bootstrapTokenID = "" ∨
        (freed = true ∧ o.status.bootstrapTokenID = s.status.bootstrapTokenID)) →
      Writes φ o s (.release healthy reason)
  | teardown {nc h left freed} (reason) : h.status.bootstrapTokenID = "" ∨ freed = true →
      Writes (.teardown nc h left freed) h h (.release left reason)
  | probe {φ h p} (ready) : Probes φ h p → Writes φ h h (.probe p ready)

inductive After : Phase → SSHHost → SSHHost → StatusWrite → Except Err SSHHost → Phase → Prop
  | claimOk {nc os o ref o'} :
      After (.picking nc os) o o (.claim ref) (.ok o') (.launch nc false o' .prepare)
  | claimLost {nc os o ref e} : e.isConflict = true →
      After (.picking nc os) o o (.claim ref) (.error e) (.picking nc os)
  | claimErr {nc os o ref e} :
      After (.picking nc os) o o (.claim ref) (.error e) (.over (.create nc))
  | setOk {nc r h st s o'} : st.Sets s →
      After (.launch nc r h st) h h (.set s) (.ok o') (.launch nc r o' st.next)
  | setLost {nc r h st s e} : e.isConflict = true →
      After (.launch nc r h st) h h (.set s) (.error e) (.launch nc r h st)
  | setErr {nc r h st s e} : st.Sets s → st ≠ .joined →
      After (.launch nc r h st) h h (.set s) (.error e)
        (.closing nc r ⟨h, withSet h s, false, st.own, false, false⟩)
  | lastErr {nc r h s e} :
      After (.launch nc r h .joined) h h (.set s) (.error e) (.over (.create nc))
  | clearOk {φ nc r s o started freed lost o'} :
      Phase.close φ = some (nc, r, ⟨s, o, started, none, freed, lost⟩) →
      After φ o s (.set (.bootstrapTokenID "")) (.ok o')
      (.closing nc r ⟨o', o', started, none, false, false⟩)
  | clearLost {φ nc r s o started freed lost e} :
      Phase.close φ = some (nc, r, ⟨s, o, started, none, freed, lost⟩) → e.isConflict = true →
      After φ o s (.set (.bootstrapTokenID "")) (.error e)
        (.closing nc r ⟨s, o, started, none, freed, true⟩)
  | clearErr {φ nc r s o started freed lost e} :
      Phase.close φ = some (nc, r, ⟨s, o, started, none, freed, lost⟩) → e.isConflict = false →
      After φ o s (.set (.bootstrapTokenID "")) (.error e)
        (.closing nc r ⟨s, withSet o (.bootstrapTokenID ""), started, none, freed, lost⟩)
  | released {φ h s healthy reason a} : After φ h s (.release healthy reason) a (.over φ.owner)
  | factsOk {h n now res active o'} :
      After (.probed h active) h h (.probe (.probeFacts n now res) none) (.ok o') (.guarding o')
  | fenceOk {h o'} : After (.guarding h) h h (.probe .enterLeaving none) (.ok o') (.fenced o')
  | probeEnd {φ h p ready a} : After φ h h (.probe p ready) a (.over φ.owner)

def Silent : Eff → Bool
  | .listNodes _ | .deleteNode _ | .getProfile _ | .getSecret _ | .readClusterInfo | .now
    | .pollTick => true
  | _ => false

def showsStale (ref : ClaimReference) : Except Err String → Bool
  | .error e => e.isNotFound
  | .ok uid => ref.uid != "" && uid != "" && ref.uid != uid

inductive Act : Phase → (e : Eff) → Res e → Phase → Prop
  | silent {φ e r} : Silent e = true → Act φ e r φ
  | look {φ k r} : φ.isReading = false ∨ (∃ e, r = .error e) → Act φ (.getHost k) r φ
  | list {φ ns r} : φ.isReading = false → Act φ (.listHosts ns) r φ
  | quietStart {φ k p a b r} : p ≠ .join → p ≠ .leave → Act φ (.sshStart k p a b) r φ
  | quietWait {φ k p r} : p ≠ .join → p ≠ .leave → Act φ (.sshWait k p) r φ
  | startFailed {φ k p a b e} : Act φ (.sshStart k p a b) (.error e) φ
  | update {φ o ref a ψ} : Writes φ o o (.claim ref) → After φ o o (.claim ref) a ψ →
      Act φ (.updateStatus o (.claim ref)) a ψ
  | patch {φ o s wr a ψ} : Writes φ o s wr → (∀ ref, wr ≠ .claim ref) → After φ o s wr a ψ →
      Act φ (.patchStatus o wr) a ψ
  -- Create
  | found {nc ns os o} : o ∈ os → claimHeldBy o nc = true →
      Act (.lookup nc) (.listHosts ns) (.ok os) (.launch nc true o .prepare)
  | none {nc ns os} : (∀ o ∈ os, claimHeldBy o nc = false) →
      Act (.lookup nc) (.listHosts ns) (.ok os) (.picking nc [])
  | pick {nc ns os cs ds} : (∀ o ∈ ds, o ∈ os ∧ claimable o = true) →
      Act (.picking nc cs) (.listHosts ns) (.ok os) (.picking nc ds)
  | mint {nc r h tok} :
      Act (.launch nc r h .prepare) .createToken (.ok tok) (.launch nc r h (.minted tok.id))
  | mintFailed {nc r h e} :
      Act (.launch nc r h .prepare) .createToken (.error e) (.launch nc r h .prepare)
  | refetch {nc r h st s k o} : st.Sets s → o.status.claimRef = h.status.claimRef → o.key = h.key →
      Act (.launch nc r h st) (.getHost k) (.ok o) (.launch nc r o st)
  | abandon {nc r h st s k a} : st.Sets s → st ≠ .joined →
      Act (.launch nc r h st) (.getHost k) a
        (.closing nc r ⟨h, withSet h s, false, st.own, false, false⟩)
  | refetchClosing {nc r s o started freed lost k o'} :
      o'.status.claimRef = s.status.claimRef → o'.key = s.key →
      Act (.closing nc r ⟨s, o, started, none, freed, lost⟩) (.getHost k) (.ok o')
        (.closing nc r ⟨o', o', started, none, false, false⟩)
  | abandonClosing {nc r s o started freed k a} :
      Act (.closing nc r ⟨s, o, started, none, freed, true⟩) (.getHost k) a
        (.closing nc r ⟨s, withSet o (.bootstrapTokenID ""), started, none, freed, true⟩)
  | discard {φ nc r s o started freed lost id a} :
      Phase.close φ = some (nc, r, ⟨s, o, started, some id, freed, lost⟩) →
      Act φ (.deleteToken id) a (.closing nc r ⟨s, o, started, none, freed, lost⟩)
  | free {φ nc r s o started freed lost a} :
      Phase.close φ = some (nc, r, ⟨s, o, started, none, freed, lost⟩) →
      o.status.bootstrapTokenID ≠ "" → o.status.bootstrapTokenID = s.status.bootstrapTokenID →
      Act φ (.deleteToken o.status.bootstrapTokenID) a
      (.closing nc r ⟨s, o, started, none, true, lost⟩)
  | joinStart {nc r h id a b} :
      Act (.launch nc r h (.recorded id)) (.sshStart h.key .join a b) (.ok ())
      (.launch nc r h (.joining id))
  | joinOk {nc r h id x} : Act (.launch nc r h (.joining id)) (.sshWait h.key .join) (.ok x)
      (.launch nc r h .joined)
  | joinErr {nc r h id e} : Act (.launch nc r h (.joining id)) (.sshWait h.key .join) (.error e)
      (.closing nc r ⟨h, h, true, some id, false, false⟩)
  -- Delete
  | resolve {nc k o} : claimHeldBy o nc = true →
      Act (.resolving nc) (.getHost k) (.ok o) (.teardown nc o false false)
  | resolveListed {nc ns os o} : o ∈ os → claimHeldBy o nc = true →
      Act (.resolving nc) (.listHosts ns) (.ok os) (.teardown nc o false false)
  | leaveStart {nc h a b} : Act (.teardown nc h false false) (.sshStart h.key .leave a b) (.ok ())
      (.tearing nc h)
  | leaveOk {nc h x} :
      Act (.tearing nc h) (.sshWait h.key .leave) (.ok x) (.teardown nc h true false)
  | leaveErr {nc h e} :
      Act (.tearing nc h) (.sshWait h.key .leave) (.error e) (.teardown nc h false false)
  | freeLeft {nc h left freed a} : h.status.bootstrapTokenID ≠ "" →
      Act (.teardown nc h left freed) (.deleteToken h.status.bootstrapTokenID) a
        (.teardown nc h left true)
  -- Reconcile
  | readMaintained {k h} : h.key = k → h.maintenance = true →
      h.status.claimRef = .none ∨ h.status.state = .maintenance →
      Act (.reading k) (.getHost k) (.ok h) (.maintained h)
  | readClaimed {k h} : h.key = k → h.status.state = .claimed ∨ h.status.state = .inUse →
      Act (.reading k) (.getHost k) (.ok h) (.claimed h)
  | readUnclaimed {k h} : h.key = k → h.status.state ≠ .claimed → h.status.state ≠ .inUse →
      Act (.reading k) (.getHost k) (.ok h) (.unclaimed h)
  | alive {h name a} : Act (.claimed h) (.getNodeClaim name) a (.claimed h)
  | stale {h ref a} : h.status.claimRef = some ref → showsStale ref a = true →
      Act (.claimed h) (.getNodeClaim ref.name) a (.stale h false)
  | freeStale {h freed a} : h.status.bootstrapTokenID ≠ "" →
      Act (.stale h freed) (.deleteToken h.status.bootstrapTokenID) a (.stale h true)
  | collect {h a} : h.status.bootstrapTokenID ≠ "" → h.status.providerID ≠ "" →
      (∀ e, a = .error e → e.isNotFound = true) →
      Act (.claimed h) (.deleteToken h.status.bootstrapTokenID) a (.spent h)
  | collectFailed {h a} : h.status.bootstrapTokenID ≠ "" → h.status.providerID ≠ "" →
      Act (.claimed h) (.deleteToken h.status.bootstrapTokenID) a (.over (.reconcile h.key))
  | probed {h x} : Act (.unclaimed h) (.sshWait h.key .probe) (.ok x)
      (.probed h (parseProbeOutput x.stdout x.hostKeyFingerprint).kubeletActive)
  | forceStart {h a b} : Act (.fenced h) (.sshStart h.key .leave a b) (.ok ()) (.forcing h)
  | forceOk {h x} : Act (.forcing h) (.sshWait h.key .leave) (.ok x) (.cleared h)
  | forceErr {h e} : Act (.forcing h) (.sshWait h.key .leave) (.error e) (.fenced h)

end KarpenterProviderSsh.Runs
