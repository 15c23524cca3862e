import KarpenterProviderSsh.Interleaving.Logs
import KarpenterProviderSsh.Runs.Asking

/-! One round of the host probe, request by request: what it has read, probed, found and done when
it writes. -/

namespace KarpenterProviderSsh.Runs

open Api Cluster Scripts Providers Controllers Interleaving

variable {X : Externals}

inductive Round
  | opened (k : NamespacedName)
  | served (h : SSHHost)
  | dialled (h : SSHHost)
  | probed (h : SSHHost) (x : ExecResult)
  | noted (h : SSHHost)
  | looked (h : SSHHost) (n : Option Node)
  | fenced (h : SSHHost) (n : Option Node)
  | forcing (h : SSHHost) (n : Option Node)
  | left (h : SSHHost) (n : Option Node)
  | dropped (h : SSHHost) (n : Node)

def probeResult (x : ExecResult) : ProbeResult := parseProbeOutput x.stdout x.hostKeyFingerprint

def InService (h : SSHHost) : Prop :=
  (h.maintenance && (h.status.claimRef.isNone || h.status.state == .maintenance)) = false

namespace Round

def see : Round → (e : Eff) → Res e → Round
  | .opened _, .getHost _, .ok h => .served h
  | .served h, .sshStart _ .probe _ _, .ok _ => .dialled h
  | .dialled h, .sshWait _ .probe, .ok x => .probed h x
  | .probed _ _, .patchStatus _ (.probe (.probeFacts _ _ _) _), .ok h => .noted h
  | .noted h, .listNodes _, .ok ns => .looked h ns.head?
  | .looked _ n, .patchStatus _ (.probe .enterLeaving _), .ok h => .fenced h n
  | .fenced h n, .sshStart _ .leave _ _, .ok _ => .forcing h n
  | .forcing h n, .sshWait _ .leave, .ok _ => .left h n
  | .left h _, .deleteNode n, .ok _ => .dropped h n
  | .left h n, .deleteNode n', .error e => if e.isNotFound then .dropped h n' else .left h n
  | σ, _, _ => σ

def Writes (σ : Round) (o : SSHHost) : ProbeWrite → Prop
  | .probeOk _ _ res =>
    ∃ x, σ = .probed o x ∧ InService o ∧ res = probeResult x ∧ res.kubeletActive = false
  | .probeFacts _ _ res => ∃ x, σ = .probed o x ∧ InService o ∧ res = probeResult x
  | .enterLeaving => ∃ n, σ = .looked o n
  | .leaveOk => σ = .left o none ∨ ∃ n, σ = .dropped o n
  | _ => True

def Allows (σ : Round) : Eff → Prop
  | .getHost k => σ = .opened k
  | .sshStart k .probe _ _ => ∃ h, σ = .served h ∧ h.key = k
  | .sshWait k .probe => ∃ h, σ = .dialled h ∧ h.key = k
  | .sshStart k .leave _ _ => ∃ h n, σ = .fenced h n ∧ h.key = k
  | .sshWait k .leave => ∃ h n, σ = .forcing h n ∧ h.key = k
  | .deleteNode n => ∃ h, σ = .left h (some n)
  | .patchStatus o (.probe p _) => σ.Writes o p
  | _ => True

end Round

def rounds (X : Externals) : Monitor (machine X) where
  State := Round
  init
    | .reconcile k => some (.opened k)
    | _ => none
  see := Round.see
  Allows := Round.Allows

section Obeys

variable {α : Type} {Q : α → Round → Prop} {σ : Round} {h : SSHHost} {n : Option Node}

def Calm : Eff → Prop
  | .getNodeClaim _ | .getProfile _ | .getSecret _ | .deleteToken _ | .now => True
  | _ => False

lemma calm_round {e : Eff} (he : Calm e) (σ : Round) : σ.Allows e ∧ ∀ r, σ.see e r = σ := by
  cases e <;> first | exact he.elim | exact ⟨trivial, fun r => by cases σ <;> rfl⟩

abbrev ObeysRound (X : Externals) (Q : α → Round → Prop) (σ : Round) (p : Cluster.Prog α) : Prop :=
  (rounds X).Obeys Q σ p

lemma obeys_calm {T : α → Prop} {p : Cluster.Prog α} (hp : Prog.Abides (fun _ _ => True) Calm T p) :
    ObeysRound X (fun a τ => τ = σ ∧ T a) σ p :=
  Monitor.obeys_of_abides hp fun _ he => calm_round he σ

lemma obeys_patchStatus {p : ProbeWrite} {result : Result} (hw : σ.Writes h p) :
    ObeysRound X (fun _ _ => True) σ (patchStatus h p result) := by
  refine .step trivial fun now => ?_
  have hσ : Round.see σ .now now = σ := (calm_round (e := .now) trivial σ).2 now
  change ObeysRound X _ (Round.see σ .now now) _
  rw [hσ]
  dsimp only
  split_ifs
  · trivial
  · refine .step hw fun a => ?_
    cases a <;> trivial

lemma obeys_dials_probe {q : Cluster.Prog (Except Err ExecResult)} (hd : Dials h.key .probe q) :
    ObeysRound X (fun a τ => ∀ x, a = .ok x → τ = .probed h x) (.served h) q := by
  rcases hd with ⟨e, rfl⟩ | ⟨target, payload, rfl⟩
  · exact nofun
  · refine .step ⟨h, rfl, rfl⟩ fun a => ?_
    cases a with
    | error e => exact nofun
    | ok u =>
      refine ⟨⟨h, rfl, rfl⟩, fun r x hx => ?_⟩
      subst hx
      rfl

lemma obeys_dials_leave {q : Cluster.Prog (Except Err ExecResult)} (hd : Dials h.key .leave q) :
    ObeysRound X (fun a τ => ∀ x, a = .ok x → τ = .left h n) (.fenced h n) q := by
  rcases hd with ⟨e, rfl⟩ | ⟨target, payload, rfl⟩
  · exact nofun
  · refine .step ⟨h, n, rfl, rfl⟩ fun a => ?_
    cases a with
    | error e => exact nofun
    | ok u =>
      refine ⟨⟨h, n, rfl, rfl⟩, fun r x hx => ?_⟩
      subst hx
      rfl

lemma obeys_probe :
    ObeysRound X (fun a τ => ∀ res, a = .ok res → ∃ x, res = probeResult x ∧ τ = .probed h x)
    (.served h) (probe X h) := by
  refine (obeys_calm (asks_readSSHCredentials (fun _ => trivial) h)).bind fun a τ hτ => ?_
  obtain ⟨rfl, _⟩ := hτ
  cases a with
  | error e => exact nofun
  | ok creds =>
    have hrun : Dials h.key .probe (if h.spec.execMode = .verified then
        runShim h.key { sshTarget h creds with shimCommand := h.spec.shimCommand }
          ⟨.probe, "", "", []⟩
        else run h.key .probe (sshTarget h creds) probeScript []) := by
      split_ifs
      · exact dials_runShim _ _ ⟨.probe, "", "", []⟩
      · exact dials_run _ _ _ _ _
    refine (obeys_dials_probe hrun).bind fun a τ ha => ?_
    cases a with
    | error e => exact nofun
    | ok x =>
      rintro res ⟨⟩
      exact ⟨x, rfl, ha x rfl⟩

lemma obeys_leaveHost : ObeysRound X (fun a τ => a = .ok () → τ = .left h n) (.fenced h n)
    (leaveHost X h) := by
  unfold leaveHost runInstalledPhase
  split_ifs
  · exact nofun
  · refine .step trivial fun a => ?_
    cases a with
    | error e => exact nofun
    | ok prof =>
      dsimp only
      split_ifs
      · exact nofun
      · refine (obeys_calm (σ := .fenced h n) (asks_readSSHCredentials (fun _ => trivial) h)).bind
          fun a τ hτ => ?_
        obtain ⟨rfl, _⟩ := hτ
        cases a with
        | error e => exact nofun
        | ok creds =>
          dsimp only
          split
          · exact nofun
          · refine (obeys_dials_leave (dials_runPhase _ h prof .leave _ _)).bind fun a τ ha => ?_
            cases a with
            | error e => exact nofun
            | ok x => exact fun _ => ha x rfl

lemma obeys_leaveZombie : ObeysRound X (fun _ _ => True) (.fenced h n) (leaveZombie X h n) := by
  refine obeys_leaveHost.bind fun a τ ha => ?_
  cases a with
  | error e => exact obeys_patchStatus trivial
  | ok u =>
    obtain rfl := ha rfl
    cases n with
    | none => exact obeys_patchStatus (.inl rfl)
    | some n =>
      refine .step ⟨h, rfl⟩ fun a => ?_
      cases a with
      | ok u => exact obeys_patchStatus (.inr ⟨n, rfl⟩)
      | error e =>
        dsimp only
        split_ifs with he
        · refine obeys_patchStatus (.inr ⟨n, ?_⟩)
          simp [rounds, Round.see, he]
        · trivial

lemma obeys_handleZombie : ObeysRound X (fun _ _ => True) (.noted h) (handleZombie X h) := by
  unfold handleZombie
  split_ifs
  · trivial
  · refine Monitor.Obeys.bind (Q := fun a τ => ∀ n, a = .ok n → τ = Round.looked h n)
      ?_ fun a τ ha => ?_
    · refine .step trivial fun a => ?_
      cases a with
      | error e => exact nofun
      | ok ns =>
        rintro n ⟨⟩
        rfl
    · cases a with
      | error e => trivial
      | ok n =>
        obtain rfl := ha n rfl
        dsimp only
        split_ifs
        · exact obeys_patchStatus trivial
        · refine .step ⟨n, rfl⟩ fun a => ?_
          cases a with
          | error e => trivial
          | ok h' => exact obeys_leaveZombie

lemma obeys_reconcileUnclaimed (hs : InService h) :
    ObeysRound X (fun _ _ => True) (.served h) (reconcileUnclaimed X h) := by
  refine .step trivial fun started => ?_
  change ObeysRound X _ (.served h) _
  split
  · trivial
  · refine obeys_probe.bind fun a τ ha => .step trivial fun now => ?_
    have hτ : Round.see τ .now now = τ := (calm_round (e := .now) trivial τ).2 now
    change ObeysRound X _ (Round.see τ .now now) _
    rw [hτ]
    cases a with
    | error e => exact obeys_patchStatus trivial
    | ok res =>
      obtain ⟨x, hx, rfl⟩ := ha res rfl
      dsimp only
      split_ifs with hact
      · refine .step ⟨x, rfl, hs, hx⟩ fun a => ?_
        cases a with
        | error e => trivial
        | ok h' => exact obeys_handleZombie
      · exact obeys_patchStatus ⟨x, rfl, hs, hx, by simpa using hact⟩

lemma obeys_reconcileToken : ObeysRound X (fun _ _ => True) (.served h) (reconcileToken h) := by
  unfold reconcileToken
  split_ifs
  · exact obeys_patchStatus trivial
  · refine Monitor.Obeys.bind (Q := fun _ τ => τ = Round.served h) ?_ fun a τ hτ => ?_
    · refine .step trivial fun a => ?_
      cases a <;> rfl
    · subst hτ
      cases a with
      | error e => trivial
      | ok n =>
        cases n with
        | none => exact obeys_patchStatus trivial
        | some n =>
          refine (obeys_calm (asks_deleteTokenByID (fun _ => trivial) _)).bind fun a τ hτ => ?_
          obtain ⟨rfl, _⟩ := hτ
          cases a with
          | error e => trivial
          | ok u => exact obeys_patchStatus trivial

lemma obeys_reconcileClaimed : ObeysRound X (fun _ _ => True) (.served h) (reconcileClaimed h) := by
  unfold reconcileClaimed
  split
  · exact obeys_reconcileToken
  · refine (obeys_calm (asks_staleClaim (fun _ => trivial) _)).bind fun a τ hτ => ?_
    obtain ⟨rfl, _⟩ := hτ
    match a with
    | .error e => trivial
    | .ok true =>
      refine (obeys_calm (asks_deleteBootstrapToken (fun _ => trivial) h)).bind fun a τ hτ => ?_
      exact obeys_patchStatus trivial
    | .ok false => exact obeys_reconcileToken

lemma obeys_reconcile (k : NamespacedName) :
    ObeysRound X (fun _ _ => True) (.opened k) (reconcile X k) := by
  refine .step rfl fun a => ?_
  cases a with
  | error e => trivial
  | ok h =>
    change ObeysRound X _ (.served h) _
    dsimp only
    split_ifs with hm
    · exact obeys_patchStatus trivial
    · have hs : InService h := by simpa only [InService, Bool.not_eq_true] using hm
      split
      · exact obeys_reconcileClaimed
      · exact obeys_reconcileClaimed
      · exact obeys_reconcileUnclaimed hs

theorem rounds_respected (X : Externals) : (rounds X).Respected := by
  intro j σ hj
  cases j with
  | reconcile k =>
    cases hj
    exact (obeys_reconcile k).bind fun _ _ _ => trivial
  | create | delete | reboot => cases hj

end Obeys

end KarpenterProviderSsh.Runs
