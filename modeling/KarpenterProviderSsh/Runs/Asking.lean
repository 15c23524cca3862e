import KarpenterProviderSsh.Interleaving.Contracts
import KarpenterProviderSsh.Runs.Following

/-! The kinds of requests the parts of an operation make, whatever they are answered. -/

namespace KarpenterProviderSsh.Runs

open Api Cluster Scripts Providers Controllers Interleaving

abbrev Asks {α : Type} (P : Eff → Prop) (p : Cluster.Prog α) : Prop :=
  Prog.Abides (fun _ _ => True) P (fun _ => True) p

variable {X : Externals} {P : Eff → Prop} {α : Type}

lemma Quiet.asks {p : Cluster.Prog α} (hq : Quiet p) (hP : ∀ e, QuietRequest e → P e) :
    Asks P p := by
  induction p with
  | ret a => trivial
  | call e k ih => exact ⟨hP e hq.1, fun r _ => ih r (hq.2 r)⟩

lemma Dials.asks {k : NamespacedName} {phase : ScriptPhase}
    {p : Cluster.Prog (Except Err ExecResult)} (hd : Dials k phase p)
    (hs : ∀ target payload, P (.sshStart k phase target payload)) (hw : P (.sshWait k phase)) :
    Asks P p := by
  rcases hd with ⟨e, rfl⟩ | ⟨target, payload, rfl⟩
  · trivial
  · refine .step (hs _ _) fun a _ => ?_
    cases a with
    | error e => trivial
    | ok u => exact ⟨hw, fun _ _ => trivial⟩

lemma asks_setStatusOnce {x : Setter} (hw : ∀ o, P (.patchStatus o (.set x)))
    (hg : ∀ k, P (.getHost k)) (expect : Option ClaimReference) (h : SSHHost) :
    Asks P (setStatusOnce expect x h) := by
  refine .step (hw _) fun a _ => ?_
  cases a with
  | ok h' => trivial
  | error e =>
    dsimp only
    split_ifs
    · refine .step (hg _) fun b _ => ?_
      cases b with
      | error g => trivial
      | ok fresh =>
        dsimp only
        split_ifs <;> trivial
    · trivial

lemma asks_setStatus {x : Setter} (hw : ∀ o, P (.patchStatus o (.set x)))
    (hg : ∀ k, P (.getHost k)) (h : SSHHost) :
    Asks P (setStatus h x) := by
  suffices ∀ n (h : SSHHost) expect, Asks P
      (retryOnConflict (setStatusOnce expect x) n h) from this _ _ _
  intro n
  induction n with
  | zero => intros; trivial
  | succ n ih =>
    intro h expect
    refine (asks_setStatusOnce hw hg expect h).bind fun a _ => ?_
    obtain ⟨h', e⟩ := a
    cases e with
    | none => trivial
    | some e =>
      dsimp only
      split_ifs
      · exact ih _ _
      · trivial

lemma asks_readSSHCredentials (hP : ∀ k, P (.getSecret k)) (h : SSHHost) :
    Asks P (readSSHCredentials X h) := by
  refine .step (hP _) fun a _ => ?_
  cases a with
  | error e => trivial
  | ok data =>
    dsimp only
    split
    · trivial
    · split
      · trivial
      · split <;> trivial

lemma asks_clusterInfo (hP : P .readClusterInfo) (nodeClass : SSHNodeClass X) :
    Asks P (clusterInfo X nodeClass) := by
  unfold clusterInfo
  split
  · split_ifs
    · trivial
    · exact ⟨hP, fun _ _ => trivial⟩
  · exact ⟨hP, fun _ _ => trivial⟩

lemma asks_joinSecrets (hP : ∀ k, P (.getSecret k)) (nodeClass : SSHNodeClass X) (h : SSHHost) :
    Asks P (joinSecrets nodeClass h) := by
  unfold joinSecrets
  split
  · trivial
  · refine .step (hP _) fun a _ => ?_
    cases a <;> trivial

lemma asks_deleteTokenByID (hP : ∀ id, P (.deleteToken id)) (id : String) :
    Asks P (deleteTokenByID id) := by
  unfold deleteTokenByID
  split_ifs
  · trivial
  · refine .step (hP _) fun a _ => ?_
    cases a <;> trivial

lemma asks_deleteBootstrapToken (hP : ∀ id, P (.deleteToken id)) (h : SSHHost) :
    Asks P (deleteBootstrapToken h) := by
  unfold deleteBootstrapToken
  split_ifs
  · trivial
  · exact (asks_deleteTokenByID hP _).bind fun _ _ => trivial

lemma asks_staleClaim (hP : ∀ name, P (.getNodeClaim name)) (ref : ClaimReference) :
    Asks P (staleClaim ref) := by
  refine .step (hP _) fun a _ => ?_
  cases a <;> trivial

lemma asks_pollNodes (hl : ∀ ip, P (.listNodes ip)) (hp : P .pollTick) (ip : String) (n : ℕ) :
    Asks P (pollNodes ip n) := by
  induction n with
  | zero => trivial
  | succ n ih =>
    refine .step (hl ip) fun a _ => ?_
    dsimp only
    split
    · trivial
    · refine .step hp fun b _ => ?_
      split_ifs
      · exact ih
      · trivial

lemma asks_adoptProviderID (hl : ∀ ip, P (.listNodes ip)) (hp : P .pollTick) (h : SSHHost) :
    Asks P (adoptProviderID h) := by
  refine (asks_pollNodes hl hp _ _).bind fun a _ => ?_
  cases a <;> trivial

lemma asks_list (hl : ∀ ns, P (.listHosts ns)) (selector : Option X.LabelSelector) :
    Asks P (list X selector) := by
  unfold list
  split
  · exact ⟨hl _, fun _ _ => trivial⟩
  · split
    · trivial
    · refine .step (hl _) fun a _ => ?_
      cases a <;> trivial

lemma asks_available (hl : ∀ ns, P (.listHosts ns))
    (selector : Option X.LabelSelector) (cls : String) :
    Asks P (available X selector cls) := by
  refine (asks_list hl selector).bind fun a _ => ?_
  cases a <;> trivial

lemma asks_claimCheapest (hl : ∀ ns, P (.listHosts ns)) (hu : ∀ o wr, P (.updateStatus o wr))
    (nodeClass : SSHNodeClass X) (nc : NodeClaim) (its : List InstanceType) :
    Asks P (claimCheapest X nodeClass nc its) := by
  have hfirst (cs : List SSHHost) : Asks P (claimFirst nc cs) := by
    induction cs with
    | nil => trivial
    | cons c cs ih =>
      have hclaim : Asks P (claim c nc) := by
        refine .step (hu _ _) fun a _ => ?_
        cases a <;> trivial
      refine hclaim.bind fun a _ => ?_
      match a with
      | (_, .error e) => trivial
      | (_, .ok true) => trivial
      | (_, .ok false) => exact ih
  induction its with
  | nil => trivial
  | cons it its ih =>
    refine (asks_available hl _ _).bind fun a _ => ?_
    cases a with
    | error e => trivial
    | ok cs =>
      refine (hfirst cs).bind fun b _ => ?_
      match b with
      | .error e => trivial
      | .ok (some h) => trivial
      | .ok none => exact ih

lemma asks_byProviderID (hg : ∀ k, P (.getHost k)) (hl : ∀ ns, P (.listHosts ns)) (id : String) :
    Asks P (byProviderID X id) := by
  unfold byProviderID
  split_ifs
  · trivial
  · split
    · split
      · trivial
      · exact ⟨hg _, fun _ _ => trivial⟩
    · refine (asks_list hl none).bind fun a _ => ?_
      cases a with
      | error e => trivial
      | ok os =>
        dsimp only
        split <;> trivial

lemma asks_runInstalledPhase (hp : ∀ name, P (.getProfile name))
    (hs : ∀ k, P (.getSecret k)) {h : SSHHost} {phase : ScriptPhase}
    (hd : ∀ a b, P (.sshStart h.key phase a b)) (hw : P (.sshWait h.key phase)) :
    Asks P (runInstalledPhase X h phase) := by
  unfold runInstalledPhase
  split_ifs
  · trivial
  · refine .step (hp _) fun a _ => ?_
    cases a with
    | error e => trivial
    | ok prof =>
      dsimp only
      split_ifs
      · trivial
      · refine (asks_readSSHCredentials hs h).bind fun a _ => ?_
        cases a with
        | error e => trivial
        | ok creds =>
          dsimp only
          split
          · trivial
          · refine ((dials_runPhase _ h prof phase _ _).asks hd hw).bind fun a _ => ?_
            cases a <;> trivial

lemma asks_release (hr : ∀ o b s, P (.patchStatus o (.release b s))) {healthy : Bool}
    {reason : String} {h : SSHHost} : Asks P (release h healthy reason) := by
  refine .step (hr _ _ _) fun a _ => ?_
  cases a <;> trivial

lemma asks_releaseHost (hd : ∀ id, P (.deleteToken id))
    (hr : ∀ o b s, P (.patchStatus o (.release b s))) (healthy : Bool) (reason : String)
    {h : SSHHost} : Asks P (releaseHost h healthy reason) :=
  (asks_deleteBootstrapToken hd h).bind fun _ _ => (asks_release hr).bind fun _ _ => trivial

section Joins

inductive JoinRequest : Eff → Prop
  | quiet {e} : QuietRequest e → JoinRequest e
  | start {k p a b} : JoinRequest (.sshStart k p a b)
  | wait {k p} : JoinRequest (.sshWait k p)
  | mint : JoinRequest .createToken
  | revoke {id} : JoinRequest (.deleteToken id)
  | set {o x} : JoinRequest (.patchStatus o (.set x))
  | refetch {k} : JoinRequest (.getHost k)

structure CoversJoin (P : Eff → Prop) : Prop where
  quiet : ∀ e, QuietRequest e → P e
  start : ∀ k p a b, P (.sshStart k p a b)
  wait : ∀ k p, P (.sshWait k p)
  mint : P .createToken
  revoke : ∀ id, P (.deleteToken id)
  installed : ∀ o m, P (.patchStatus o (.set (.installed m)))
  token : ∀ o id, P (.patchStatus o (.set (.bootstrapTokenID id)))
  refetch : ∀ k, P (.getHost k)

lemma coversJoin_joinRequest : CoversJoin JoinRequest :=
  ⟨fun _ => .quiet, fun _ _ _ _ => .start, fun _ _ => .wait, .mint, fun _ => .revoke,
      fun _ _ => .set, fun _ _ => .set,
    fun _ => .refetch⟩

variable {nodeClass : SSHNodeClass X} {nc : NodeClaim} {h : SSHHost}

lemma asks_deleteToken (hP : CoversJoin P) (tok : BootstrapToken) : Asks P (deleteToken h tok) := by
  refine (asks_deleteTokenByID hP.revoke _).bind fun _ _ => ?_
  split_ifs
  · trivial
  · exact (asks_setStatus (fun o => hP.token o _) hP.refetch _).bind fun _ _ => trivial

lemma asks_runPhase (hP : CoversJoin P) {target : Target} {prof : SSHJoinProfile}
    {phase : ScriptPhase} {pctx : Context} {env : List (String × String)} :
    Asks P (runPhase X target h prof phase pctx env) :=
  (dials_runPhase target h prof phase pctx env).asks (hP.start _ _) (hP.wait _ _)

lemma asks_runInstall (hP : CoversJoin P) (p : Preparation) : Asks P (runInstall X p h) := by
  unfold runInstall
  split_ifs
  · trivial
  · refine (asks_runPhase hP).bind fun a _ => ?_
    cases a with
    | error e => trivial
    | ok x => exact asks_setStatus (fun o => hP.installed o _) hP.refetch _

lemma asks_runJoin (hP : CoversJoin P) (p : Preparation) : Asks P (runJoin X p h) := by
  refine .step hP.mint fun a _ => ?_
  cases a with
  | error e => trivial
  | ok tok =>
    dsimp only
    split
    · exact (asks_deleteToken hP tok).bind fun _ _ => trivial
    · refine (asks_setStatus (fun o => hP.token o _) hP.refetch _).bind fun r _ => ?_
      obtain ⟨h', e⟩ := r
      cases e with
      | some e => exact (asks_deleteToken hP tok).bind fun _ _ => trivial
      | none =>
        refine (asks_runPhase hP).bind fun a _ => ?_
        cases a with
        | error e => exact (asks_deleteToken hP tok).bind fun _ _ => trivial
        | ok x => trivial

lemma asks_join (hP : CoversJoin P) : Asks P (join X nodeClass nc h) := by
  refine ((quiet_prepare nodeClass nc h).asks hP.quiet).bind fun a _ => ?_
  cases a with
  | error e => trivial
  | ok p =>
    refine (asks_runInstall hP p).bind fun r _ => ?_
    obtain ⟨h', e⟩ := r
    cases e with
    | some e => trivial
    | none => exact asks_runJoin hP p

end Joins

section Rounds

inductive RoundRequest : Eff → Prop
  | clock : RoundRequest .now
  | look {k} : RoundRequest (.getHost k)
  | nodes {ip} : RoundRequest (.listNodes ip)
  | evict {n} : RoundRequest (.deleteNode n)
  | claim {name} : RoundRequest (.getNodeClaim name)
  | profile {name} : RoundRequest (.getProfile name)
  | secret {k} : RoundRequest (.getSecret k)
  | revoke {id} : RoundRequest (.deleteToken id)
  | start {k p a b} : p = .probe ∨ p = .leave → RoundRequest (.sshStart k p a b)
  | wait {k p} : p = .probe ∨ p = .leave → RoundRequest (.sshWait k p)
  | stamped {o p s} : RoundRequest (.patchStatus o (.probe p (some s)))
  | facts {o n now res} : RoundRequest (.patchStatus o (.probe (.probeFacts n now res) none))
  | fence {o} : RoundRequest (.patchStatus o (.probe .enterLeaving none))

variable {h : SSHHost}

lemma asks_patchStatus (p : ProbeWrite) (result : Result) :
    Asks RoundRequest (patchStatus h p result) := by
  refine .step .clock fun now _ => ?_
  dsimp only
  split_ifs
  · trivial
  · refine .step .stamped fun a _ => ?_
    cases a <;> trivial

lemma asks_nodeByInternalIP (ip : String) : Asks RoundRequest (nodeByInternalIP ip) := by
  refine .step .nodes fun a _ => ?_
  cases a <;> trivial

lemma asks_leaveHost : Asks RoundRequest (leaveHost X h) :=
  asks_runInstalledPhase (fun _ => .profile) (fun _ => .secret) (fun _ _ => .start (.inr rfl))
      (.wait (.inr rfl))

lemma asks_handleZombie : Asks RoundRequest (handleZombie X h) := by
  unfold handleZombie
  split_ifs
  · trivial
  · refine (asks_nodeByInternalIP _).bind fun a _ => ?_
    cases a with
    | error e => trivial
    | ok n =>
      dsimp only
      split_ifs
      · exact asks_patchStatus _ _
      · refine .step .fence fun a _ => ?_
        cases a with
        | error e => trivial
        | ok h' =>
          refine asks_leaveHost.bind fun a _ => ?_
          cases a with
          | error e => exact asks_patchStatus _ _
          | ok u =>
            cases n with
            | none => exact asks_patchStatus _ _
            | some n =>
              refine .step .evict fun a _ => ?_
              cases a with
              | ok u => exact asks_patchStatus _ _
              | error e =>
                dsimp only
                split_ifs
                · exact asks_patchStatus _ _
                · trivial

lemma asks_probe : Asks RoundRequest (probe X h) := by
  refine (asks_readSSHCredentials (fun _ => .secret) h).bind fun a _ => ?_
  cases a with
  | error e => trivial
  | ok creds =>
    have hrun : Dials h.key .probe (if h.spec.execMode = .verified then
        runShim h.key { sshTarget h creds with shimCommand := h.spec.shimCommand }
          ⟨.probe, "", "", []⟩
        else run h.key .probe (sshTarget h creds) probeScript []) := by
      split_ifs
      · exact dials_runShim _ _ ⟨.probe, "", "", []⟩
      · exact dials_run _ _ _ _ _
    refine (hrun.asks (fun _ _ => .start (.inl rfl)) (.wait (.inl rfl))).bind fun a _ => ?_
    cases a <;> trivial

lemma asks_reconcileUnclaimed : Asks RoundRequest (reconcileUnclaimed X h) := by
  refine .step .clock fun started _ => ?_
  split
  · trivial
  · refine asks_probe.bind fun a _ => .step .clock fun now _ => ?_
    cases a with
    | error e => exact asks_patchStatus _ _
    | ok res =>
      dsimp only
      split_ifs
      · refine .step .facts fun a _ => ?_
        cases a with
        | error e => trivial
        | ok h' => exact asks_handleZombie
      · exact asks_patchStatus _ _

lemma asks_reconcileToken : Asks RoundRequest (reconcileToken h) := by
  unfold reconcileToken
  split_ifs
  · exact asks_patchStatus _ _
  · refine (asks_nodeByInternalIP _).bind fun a _ => ?_
    match a with
    | .error e => trivial
    | .ok none => exact asks_patchStatus _ _
    | .ok (some n) =>
      refine (asks_deleteTokenByID (fun _ => .revoke) _).bind fun a _ => ?_
      cases a with
      | error e => trivial
      | ok u => exact asks_patchStatus _ _

lemma asks_reconcileClaimed : Asks RoundRequest (reconcileClaimed h) := by
  unfold reconcileClaimed
  split
  · exact asks_reconcileToken
  · refine (asks_staleClaim (fun _ => .claim) _).bind fun a _ => ?_
    match a with
    | .error e => trivial
    | .ok true =>
      exact (asks_deleteBootstrapToken (fun _ => .revoke) h).bind fun _ _ => asks_patchStatus _ _
    | .ok false => exact asks_reconcileToken

lemma asks_reconcile (k : NamespacedName) : Asks RoundRequest (reconcile X k) := by
  refine .step .look fun a _ => ?_
  cases a with
  | error e => trivial
  | ok h =>
    dsimp only
    split_ifs
    · exact asks_patchStatus _ _
    · split
      · exact asks_reconcileClaimed
      · exact asks_reconcileClaimed
      · exact asks_reconcileUnclaimed

end Rounds

section Deletes

inductive TeardownRequest : Eff → Prop
  | look {k} : TeardownRequest (.getHost k)
  | list {ns} : TeardownRequest (.listHosts ns)
  | profile {name} : TeardownRequest (.getProfile name)
  | secret {k} : TeardownRequest (.getSecret k)
  | start {k p a b} : p = .leave ∨ p = .reboot → TeardownRequest (.sshStart k p a b)
  | wait {k p} : p = .leave ∨ p = .reboot → TeardownRequest (.sshWait k p)
  | revoke {id} : TeardownRequest (.deleteToken id)
  | release {o b s} : TeardownRequest (.patchStatus o (.release b s))

variable {h : SSHHost} {nc : NodeClaim}

lemma asks_teardown : Asks TeardownRequest (teardown X h) := by
  have hleave : Asks TeardownRequest (leaveInstalled X h) := by
    unfold leaveInstalled leaveHost
    split_ifs
    · trivial
    · refine (asks_runInstalledPhase (fun _ => .profile) (fun _ => .secret)
        (fun _ _ => .start (.inl rfl)) (.wait (.inl rfl))).bind fun a _ => ?_
      cases a <;> trivial
  refine hleave.bind fun left _ =>
    (asks_deleteBootstrapToken (fun _ => .revoke) h).bind fun _ _ => ?_
  refine (asks_release fun _ _ _ => .release).bind fun a _ => ?_
  cases a <;> trivial

lemma asks_delete : Asks TeardownRequest (delete X nc) := by
  refine (asks_byProviderID (fun _ => .look) (fun _ => .list) _).bind fun a _ => ?_
  cases a with
  | error e => trivial
  | ok h =>
    change Asks TeardownRequest (deleteHost X nc h)
    unfold deleteHost
    split
    · trivial
    · split_ifs
      · exact asks_teardown
      · trivial

lemma asks_reboot : Asks TeardownRequest (reboot X nc) := by
  refine (asks_byProviderID (fun _ => .look) (fun _ => .list) _).bind fun a _ => ?_
  cases a with
  | error e => trivial
  | ok h =>
    change Asks TeardownRequest (rebootHost X nc h)
    unfold rebootHost
    split_ifs
    · refine (asks_runInstalledPhase (fun _ => .profile) (fun _ => .secret)
        (fun _ _ => .start (.inr rfl)) (.wait (.inr rfl))).bind fun a _ => ?_
      cases a with
      | ok u => trivial
      | error e =>
        dsimp only
        split_ifs <;> trivial
    · trivial

end Deletes

end KarpenterProviderSsh.Runs
