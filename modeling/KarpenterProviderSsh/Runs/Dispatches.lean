import KarpenterProviderSsh.Interleaving.Contracts
import KarpenterProviderSsh.Runs.Jobs

/-! What every operation sends to a host, and the probe results it writes, given the answers it was
told. -/

namespace KarpenterProviderSsh.Runs

open Api Cluster Scripts Providers Controllers Interleaving Interleaving.Prog

abbrev Answers := (e : Eff) → Res e → Prop

def served : (e : Eff) → Res e → List SSHHost
  | .listHosts _, .ok os => os
  | .getHost _, .ok o => [o]
  | .updateStatus _ _, .ok o => [o]
  | .patchStatus _ _, .ok o => [o]
  | _, _ => []

variable {X : Externals} {G : Answers} {α β : Type}

def Told (G : Answers) (h : SSHHost) : Prop := ∃ e r, G e r ∧ ∃ o ∈ served e r, o.key = h.key ∧
    o.spec = h.spec

inductive Engaged (G : Answers) : SSHHost → Prop
  | found {ns os h nc} : G (.listHosts ns) (.ok os) → h ∈ os → claimHeldBy h nc = true → Engaged G h
  | claimed {o ref h} : G (.updateStatus o (.claim ref)) (.ok h) → Engaged G h
  | resolved {k h nc} : G (.getHost k) (.ok h) → claimHeldBy h nc = true → Engaged G h
  | fenced {o h} : G (.patchStatus o (.probe .enterLeaving none)) (.ok h) → Engaged G h

lemma Engaged.told {h : SSHHost} (he : Engaged G h) : Told G h := by
  cases he with
  | found hg hm _ => exact ⟨_, _, hg, h, hm, rfl, rfl⟩
  | claimed hg | resolved hg _ | fenced hg =>
    exact ⟨_, _, hg, h, List.mem_singleton_self h, rfl, rfl⟩

def Checked (X : Externals) (spec : SSHHostSpec) (script sig : String) : Prop :=
  ∃ signers, X.parseTrustedSigners spec.trustedSigners = .ok signers ∧
    X.verifySSHSIG script sig signers "kpssh" = .ok ()

/-- What a Verified host of this spec may be sent. -/
def Carries (X : Externals) (G : Answers) (spec : SSHHostSpec) (phase : ScriptPhase)
    (payload : Payload) : Prop :=
  spec.execMode = .verified → ∃ e, payload = .envelope e ∧ e.phase = phase ∧
    (phase ≠ .probe → ∃ name prof, G (.getProfile name) (.ok prof) ∧ e.script = script prof phase ∧
      e.sig = signature prof phase ∧ (spec.trustedSigners ≠ [] → Checked X spec e.script e.sig))

structure Dispatched (X : Externals) (G : Answers) (k : NamespacedName) (phase : ScriptPhase)
    (target : Target) (payload : Payload) : Prop where
  carries : ∃ h, Told G h ∧ h.key = k ∧ Carries X G h.spec phase payload
  pinned : phase ≠ .probe → ∃ h creds, Engaged G h ∧
    target.pinnedHostKey = SSHCredentials.effectivePin creds h

def Probed (G : Answers) (k : NamespacedName) (res : ProbeResult) : Prop :=
  ∃ x, G (.sshWait k .probe) (.ok x) ∧ res = parseProbeOutput x.stdout x.hostKeyFingerprint

def Recorded (G : Answers) (h : SSHHost) : Prop :=
  ∃ o n now res, G (.patchStatus o (.probe (.probeFacts n now res) none)) (.ok h)

def Contract (X : Externals) (G : Answers) : Eff → Prop
  | .sshStart k phase target payload => Dispatched X G k phase target payload
  | .patchStatus o (.probe (.probeFacts _ _ res) _) => Probed G o.key res
  | .patchStatus o (.probe (.probeOk _ _ res) _) => Probed G o.key res
  | .patchStatus o (.probe .enterLeaving _) => Recorded G o
  | _ => True

abbrev Keeps (X : Externals) (G : Answers) (Q : α → Prop) (p : Cluster.Prog α) : Prop :=
  Abides G (Contract X G) Q p

section Runners

variable {h : SSHHost} {k : NamespacedName} {phase : ScriptPhase} {target : Target}
  {prof : SSHJoinProfile}

def Waited (G : Answers) (k : NamespacedName) (phase : ScriptPhase) (a : Except Err ExecResult) :
    Prop :=
  ∀ x, a = .ok x → G (.sshWait k phase) (.ok x)

lemma waited_error (e : Err) : Waited G k phase (.error e) := by
  intro x hx
  cases hx

lemma keeps_session {payload : Payload} (hd : Dispatched X G k phase target payload) :
    Keeps X G (Waited G k phase) (session k phase target payload) := by
  refine .step hd fun a _ => ?_
  cases a with
  | error e => exact waited_error e
  | ok u =>
    refine ⟨trivial, fun r hr x hx => ?_⟩
    rw [← hx]
    exact hr

lemma keeps_run {text : String} {env : List (String × String)}
    (hd : Dispatched X G k phase target (.script text env)) :
    Keeps X G (Waited G k phase) (run k phase target text env) := by
  unfold run
  split
  · exact waited_error _
  · exact keeps_session hd

lemma keeps_runShim {e : Envelope} (hd : Dispatched X G k e.phase target (.envelope e)) :
    Keeps X G (Waited G k e.phase) (runShim k target e) := by
  unfold runShim
  split
  · exact waited_error _
  · exact keeps_session hd

lemma keeps_readSSHCredentials (h : SSHHost) :
    Keeps X G (fun _ => True) (readSSHCredentials X h) := by
  refine .step trivial fun a _ => ?_
  cases a with
  | error e => trivial
  | ok data =>
    dsimp only
    split
    · trivial
    · split
      · trivial
      · split <;> trivial

def Pinned (G : Answers) (target : Target) : Prop :=
  ∃ h creds, Engaged G h ∧ target.pinnedHostKey = SSHCredentials.effectivePin creds h

lemma keeps_runVerifiedPhase (ht : Told G h) (hp : Pinned G target) {name : String}
    (hg : G (.getProfile name) (.ok prof)) (env : List (String × String)) :
    Keeps X G (Waited G h.key phase) (runVerifiedPhase X target h prof phase env) := by
  have hsend (hc : h.spec.trustedSigners ≠ [] →
      Checked X h.spec (script prof phase) (signature prof phase)) :
      Keeps X G (Waited G h.key phase)
        (runShim h.key { target with shimCommand := h.spec.shimCommand } ⟨phase, script prof phase,
          signature prof phase, env⟩) := by
    obtain ⟨h₀, creds, he, hpin⟩ := hp
    refine keeps_runShim (e := ⟨phase, script prof phase, signature prof phase, env⟩)
      ⟨⟨h, ht, rfl, fun _ => ?_⟩, fun _ => ⟨h₀, creds, he, hpin⟩⟩
    exact ⟨_, rfl, rfl, fun _ => ⟨name, prof, hg, rfl, rfl, hc⟩⟩
  unfold runVerifiedPhase
  dsimp only
  split_ifs with _ _ _ hs
  · exact waited_error _
  · exact waited_error _
  · exact waited_error _
  · exact hsend fun hne => absurd hs hne
  · split
    · exact waited_error _
    · rename_i signers hparse
      split
      · exact waited_error _
      · rename_i hverify
        exact hsend fun _ => ⟨signers, hparse, hverify⟩

lemma keeps_runPhase (ht : Told G h) (hp : Pinned G target) {name : String}
    (hg : G (.getProfile name) (.ok prof)) (pctx : Context) (env : List (String × String)) :
    Keeps X G (Waited G h.key phase) (runPhase X target h prof phase pctx env) := by
  unfold runPhase
  split_ifs with hv
  · exact keeps_runVerifiedPhase ht hp hg env
  · split
    · exact waited_error _
    · exact keeps_run ⟨⟨h, ht, rfl, fun hx => absurd hx hv⟩, fun _ => hp⟩

lemma keeps_runInstalledPhase (he : Engaged G h) :
    Keeps X G (fun _ => True) (runInstalledPhase X h phase) := by
  unfold runInstalledPhase
  split_ifs
  · trivial
  refine .step trivial fun a ha => ?_
  cases a with
  | error e => trivial
  | ok prof =>
    dsimp only
    split_ifs
    · trivial
    refine (keeps_readSSHCredentials h).bind fun c _ => ?_
    cases c with
    | error e => trivial
    | ok creds =>
      dsimp only
      split
      · trivial
      · refine (keeps_runPhase he.told ⟨h, creds, he, rfl⟩ ha _ _).bind fun b _ => ?_
        cases b <;> trivial

end Runners

section Setters

variable {h : SSHHost}

lemma told_of {o : SSHHost} (ht : Told G o) (hk : o.key = h.key) (hs : o.spec = h.spec) :
    Told G h := by
  obtain ⟨e, r, hg, o', ho, hk', hs'⟩ := ht
  exact ⟨e, r, hg, o', ho, hk'.trans hk, hs'.trans hs⟩

lemma told_answer {e : Eff} {r : Res e} (hg : G e r) (hm : h ∈ served e r) : Told G h :=
  ⟨e, r, hg, h, hm, rfl, rfl⟩

lemma keeps_setStatusOnce {expect : Option ClaimReference} {x : Setter} (ht : Told G h) :
    Keeps X G (fun a => Told G a.1) (setStatusOnce expect x h) := by
  have hm : Told G ((StatusWrite.set x).applyTo h) := told_of ht rfl rfl
  refine .step trivial fun a ha => ?_
  cases a with
  | ok h' => exact told_answer ha (List.mem_singleton_self h')
  | error e =>
    dsimp only
    split_ifs
    · refine .step trivial fun b hb => ?_
      cases b with
      | error g => exact hm
      | ok fresh =>
        dsimp only
        split_ifs
        · exact told_answer hb (List.mem_singleton_self fresh)
        · exact hm
    · exact hm

lemma keeps_retry {x : Setter} {expect : Option ClaimReference} (n : ℕ) (ht : Told G h) :
    Keeps X G (fun a => Told G a.1) (retryOnConflict (setStatusOnce expect x) n h) := by
  induction n generalizing h with
  | zero => exact ht
  | succ n ih =>
    refine (keeps_setStatusOnce ht).bind fun a ha => ?_
    obtain ⟨h', e⟩ := a
    cases e with
    | none => exact ha
    | some e =>
      dsimp only
      split_ifs
      · exact ih ha
      · exact ha

lemma keeps_setStatus {x : Setter} (ht : Told G h) :
    Keeps X G (fun a => Told G a.1) (setStatus h x) :=
  keeps_retry _ ht

lemma keeps_deleteTokenByID (id : String) : Keeps X G (fun _ => True) (deleteTokenByID id) := by
  unfold deleteTokenByID
  split_ifs
  · trivial
  · refine .step trivial fun a _ => ?_
    cases a <;> trivial

lemma keeps_deleteToken {tok : BootstrapToken} (ht : Told G h) :
    Keeps X G (Told G) (deleteToken h tok) := by
  refine (keeps_deleteTokenByID _).bind fun _ _ => ?_
  split_ifs
  · exact ht
  · exact (keeps_setStatus ht).bind fun a ha => ha

lemma keeps_release {healthy : Bool} {reason : String} :
    Keeps X G (fun _ => True) (release h healthy reason) := by
  refine .step trivial fun a _ => ?_
  cases a <;> trivial

lemma keeps_deleteBootstrapToken : Keeps X G (fun _ => True) (deleteBootstrapToken h) := by
  unfold deleteBootstrapToken
  split_ifs
  · trivial
  · exact (keeps_deleteTokenByID _).bind fun _ _ => trivial

lemma keeps_releaseHost {healthy : Bool} {reason : String} :
    Keeps X G (fun _ => True) (releaseHost h healthy reason) :=
  keeps_deleteBootstrapToken.bind fun _ _ => keeps_release.bind fun _ _ => trivial

end Setters

section Create

variable {h : SSHHost} {nodeClass : SSHNodeClass X} {nc : NodeClaim}

def Prepared (G : Answers) (a : Except Err Preparation) : Prop :=
  ∀ p, a = .ok p → Pinned G p.target ∧ ∃ name, G (.getProfile name) (.ok p.profile)

lemma prepared_error (e : Err) : Prepared G (.error e) := by
  intro p hp
  cases hp

lemma keeps_clusterInfo : Keeps X G (fun _ => True) (clusterInfo X nodeClass) := by
  unfold clusterInfo
  split
  · split_ifs
    · trivial
    · exact ⟨trivial, fun _ _ => trivial⟩
  · exact ⟨trivial, fun _ _ => trivial⟩

lemma keeps_joinSecrets : Keeps X G (fun _ => True) (joinSecrets nodeClass h) := by
  unfold joinSecrets
  split
  · trivial
  · refine .step trivial fun a _ => ?_
    cases a <;> trivial

lemma keeps_prepare (he : Engaged G h) : Keeps X G (Prepared G) (prepare X nodeClass nc h) := by
  refine .step trivial fun a ha => ?_
  cases a with
  | error e => exact prepared_error _
  | ok prof =>
    refine (keeps_readSSHCredentials h).bind fun c _ => ?_
    cases c with
    | error e => exact prepared_error _
    | ok creds =>
      refine keeps_clusterInfo.bind fun i _ => ?_
      cases i with
      | error e => exact prepared_error _
      | ok info =>
        refine keeps_joinSecrets.bind fun s _ => ?_
        cases s with
        | error e => exact prepared_error _
        | ok secrets =>
          dsimp only
          split
          · exact prepared_error _
          · rintro p hp
            cases hp
            exact ⟨⟨h, creds, he, rfl⟩, _, ha⟩

variable {p : Preparation} {name : String}

lemma keeps_runInstall (ht : Told G h) (hp : Pinned G p.target)
    (hg : G (.getProfile name) (.ok p.profile)) :
    Keeps X G (fun a => Told G a.1) (runInstall X p h) := by
  unfold runInstall
  split_ifs
  · exact ht
  · refine (keeps_runPhase ht hp hg _ _).bind fun a _ => ?_
    cases a with
    | error e => exact ht
    | ok x => exact keeps_setStatus ht

lemma keeps_runJoin (ht : Told G h) (hp : Pinned G p.target)
    (hg : G (.getProfile name) (.ok p.profile)) :
    Keeps X G (fun a => Told G a.1) (runJoin X p h) := by
  refine .step trivial fun a _ => ?_
  cases a with
  | error e => exact ht
  | ok tok =>
    dsimp only
    split
    · exact (keeps_deleteToken ht).bind fun _ h' => h'
    · refine (keeps_setStatus ht).bind fun r hr => ?_
      obtain ⟨h', e⟩ := r
      cases e with
      | some e => exact (keeps_deleteToken hr).bind fun _ h' => h'
      | none =>
        refine (keeps_runPhase hr hp hg _ _).bind fun b _ => ?_
        cases b with
        | error e => exact (keeps_deleteToken hr).bind fun _ h' => h'
        | ok x => exact hr

lemma keeps_join (he : Engaged G h) : Keeps X G (fun a => Told G a.1) (join X nodeClass nc h) := by
  refine (keeps_prepare he).bind fun a ha => ?_
  cases a with
  | error e => exact he.told
  | ok p =>
    obtain ⟨hp, name, hg⟩ := ha p rfl
    refine (keeps_runInstall he.told hp hg).bind fun r hr => ?_
    obtain ⟨h', e⟩ := r
    cases e with
    | some e => exact hr
    | none => exact keeps_runJoin hr hp hg

lemma keeps_pollNodes (ip : String) (n : ℕ) : Keeps X G (fun _ => True) (pollNodes ip n) := by
  induction n with
  | zero => trivial
  | succ n ih =>
    refine .step trivial fun a _ => ?_
    dsimp only
    split
    · trivial
    · refine .step trivial fun b _ => ?_
      cases b
      · trivial
      · exact ih

lemma keeps_adoptProviderID : Keeps X G (fun _ => True) (adoptProviderID h) := by
  refine (keeps_pollNodes _ _).bind fun a _ => ?_
  cases a <;> trivial

lemma keeps_launch (he : Engaged G h) : Keeps X G (fun _ => True) (launch X nodeClass nc h) := by
  refine (keeps_join he).bind fun r hr => ?_
  obtain ⟨h', e⟩ := r
  cases e with
  | some e => exact keeps_releaseHost.bind fun _ _ => trivial
  | none =>
    have hid : Keeps X G (fun _ => True)
        (if nodeClass.adoptsProviderID then adoptProviderID h'
          else pure (.ok (providerID h'))) := by
      split_ifs
      · exact keeps_adoptProviderID
      · trivial
    refine hid.bind fun a _ => ?_
    cases a with
    | error e => exact keeps_releaseHost.bind fun _ _ => trivial
    | ok id =>
      refine (keeps_setStatus hr).bind fun b hb => ?_
      obtain ⟨h'', e⟩ := b
      cases e with
      | some e => trivial
      | none => exact (keeps_setStatus hb).bind fun _ _ => trivial

lemma keeps_list {selector : Option X.LabelSelector} :
    Keeps X G (fun a => ∀ os, a = .ok os → ∃ ns all, G (.listHosts ns) (.ok all) ∧
      ∀ o ∈ os, o ∈ all)
      (list X selector) := by
  unfold list
  split
  · refine ⟨trivial, fun r hr os ho => ?_⟩
    exact ⟨_, os, ho ▸ hr, fun _ h => h⟩
  · split
    · intro os ho
      cases ho
    · refine .step trivial fun a ha => ?_
      cases a with
      | error e =>
        intro os ho
        cases ho
      | ok all =>
        intro os ho
        cases ho
        exact ⟨_, all, ha, fun _ h => List.mem_of_mem_filter h⟩

lemma keeps_claimFirst (cs : List SSHHost) :
    Keeps X G (fun a => ∀ h, a = .ok (some h) → Engaged G h) (claimFirst nc cs) := by
  induction cs with
  | nil =>
    intro h hh
    cases hh
  | cons c cs ih =>
    refine (Abides.step trivial fun a ha => ?_ : Keeps X G
      (fun r => ∀ h, r = (h, .ok true) → Engaged G h) (claim c nc)).bind fun r hr => ?_
    · cases a with
      | ok h' =>
        intro h hh
        cases hh
        exact .claimed ha
      | error e =>
        intro h hh
        have hb := congrArg Prod.snd hh
        dsimp only at hb
        split_ifs at hb
        cases hb
    · obtain ⟨h, b⟩ := r
      cases b with
      | error e =>
        intro h hh
        cases hh
      | ok b =>
        cases b with
        | true =>
          intro h' hh
          cases hh
          exact hr _ rfl
        | false => exact ih

lemma keeps_claimCheapest (its : List InstanceType) :
    Keeps X G (fun a => ∀ h, a = .ok (some h) → Engaged G h)
      (claimCheapest X nodeClass nc its) := by
  induction its with
  | nil =>
    intro h hh
    cases hh
  | cons it its ih =>
    have hav : Keeps X G (fun _ => True) (available X nodeClass.hostSelector it.name) := by
      refine keeps_list.bind fun a _ => ?_
      cases a <;> trivial
    refine hav.bind fun a _ => ?_
    cases a with
    | error e =>
      intro h hh
      cases hh
    | ok cs =>
      refine (keeps_claimFirst cs).bind fun b hb => ?_
      cases b with
      | error e =>
        intro h hh
        cases hh
      | ok o =>
        cases o with
        | none => exact ih
        | some h =>
          intro h' hh
          cases hh
          exact hb h rfl

lemma keeps_create (its : List InstanceType) :
    Keeps X G (fun _ => True) (create X nodeClass nc its) := by
  have hby : Keeps X G (fun a => ∀ h, a = .ok (some h) → Engaged G h) (byClaim X nc) := by
    refine keeps_list.bind fun a ha => ?_
    cases a with
    | error e =>
      intro h hh
      cases hh
    | ok os =>
      intro h hh
      obtain ⟨ns, all, hg, hsub⟩ := ha os rfl
      have hf := Except.ok.inj hh
      have hheld : claimHeldBy h nc = true := by simpa using List.find?_some hf
      exact .found hg (hsub h (List.mem_of_find?_eq_some hf)) hheld
  refine hby.bind fun a ha => ?_
  cases a with
  | error e => trivial
  | ok o =>
    cases o with
    | some h => exact keeps_launch (ha h rfl)
    | none =>
      refine (keeps_claimCheapest _).bind fun b hb => ?_
      cases b with
      | error e => trivial
      | ok o =>
        cases o with
        | none => trivial
        | some h => exact keeps_launch (hb h rfl)

end Create

section Delete

variable {h : SSHHost} {nc : NodeClaim}

def Resolved (G : Answers) (h : SSHHost) : Prop :=
  (∃ k, G (.getHost k) (.ok h)) ∨ ∃ ns os, G (.listHosts ns) (.ok os) ∧ h ∈ os

lemma Resolved.engaged (hr : Resolved G h) (hc : claimHeldBy h nc = true) : Engaged G h := by
  rcases hr with ⟨k, hg⟩ | ⟨ns, os, hg, hm⟩
  · exact .resolved hg hc
  · exact .found hg hm hc

lemma keeps_byProviderID (id : String) :
    Keeps X G (fun a => ∀ h, a = .ok h → Resolved G h) (byProviderID X id) := by
  have herr (e : Err) : ∀ h, (.error e : Except Err SSHHost) = .ok h → Resolved G h := by
    intro h hh
    cases hh
  unfold byProviderID
  split_ifs
  · exact herr _
  · split
    · split
      · exact herr _
      · refine ⟨trivial, fun r hr h hh => ?_⟩
        subst hh
        exact .inl ⟨_, hr⟩
    · refine keeps_list.bind fun a ha => ?_
      cases a with
      | error e => exact herr _
      | ok os =>
        dsimp only
        split
        · rename_i h₀ hf
          intro h hh
          cases hh
          obtain ⟨ns, all, hg, hsub⟩ := ha os rfl
          exact .inr ⟨ns, all, hg, hsub _ (List.mem_of_find?_eq_some hf)⟩
        · exact herr _

lemma keeps_teardown (he : Engaged G h) : Keeps X G (fun _ => True) (teardown X h) := by
  have hleave : Keeps X G (fun _ => True) (leaveInstalled X h) := by
    unfold leaveInstalled
    split_ifs
    · trivial
    · refine (keeps_runInstalledPhase he).bind fun a _ => ?_
      cases a <;> trivial
  refine hleave.bind fun left _ => keeps_deleteBootstrapToken.bind
    fun _ _ => keeps_release.bind fun a _ => ?_
  cases a <;> trivial

lemma keeps_delete : Keeps X G (fun _ => True) (delete X nc) := by
  refine (keeps_byProviderID _).bind fun a ha => ?_
  cases a with
  | error e => trivial
  | ok h =>
    change Keeps X G _ (deleteHost X nc h)
    unfold deleteHost
    split
    · trivial
    · rename_i ref href
      split_ifs with hheld
      · have hc : claimHeldBy h nc = true := by simpa [claimHeldBy, href] using hheld
        exact keeps_teardown ((ha h rfl).engaged hc)
      · trivial

lemma keeps_reboot : Keeps X G (fun _ => True) (reboot X nc) := by
  refine (keeps_byProviderID _).bind fun a ha => ?_
  cases a with
  | error e => trivial
  | ok h =>
    change Keeps X G _ (rebootHost X nc h)
    unfold rebootHost
    split_ifs with hheld
    · refine (keeps_runInstalledPhase ((ha h rfl).engaged hheld)).bind fun b _ => ?_
      cases b with
      | ok u => trivial
      | error e =>
        dsimp only
        split_ifs <;> trivial
    · trivial

end Delete

section Reconcile

variable {h : SSHHost}

lemma keeps_patchStatus {p : ProbeWrite} {result : Result}
    (hp : ∀ ready, Contract X G (.patchStatus h (.probe p ready))) :
    Keeps X G (fun _ => True) (patchStatus h p result) := by
  refine .step trivial fun now _ => ?_
  dsimp only
  split_ifs
  · trivial
  · refine .step (hp _) fun a _ => ?_
    cases a <;> trivial

lemma keeps_probe (ht : Told G h) :
    Keeps X G (fun a => ∀ res, a = .ok res → Probed G h.key res) (probe X h) := by
  refine (keeps_readSSHCredentials h).bind fun c _ => ?_
  cases c with
  | error e =>
    intro res hres
    cases hres
  | ok creds =>
    have hrun : Keeps X G (Waited G h.key .probe) (if h.spec.execMode = .verified then
        runShim h.key { sshTarget h creds with shimCommand := h.spec.shimCommand }
          ⟨.probe, "", "", []⟩
        else run h.key .probe (sshTarget h creds) probeScript []) := by
      split_ifs with hv
      · exact keeps_runShim (e := ⟨.probe, "", "", []⟩)
          ⟨⟨h, ht, rfl, fun _ => ⟨_, rfl, rfl, fun hx => absurd rfl hx⟩⟩, fun hx => absurd rfl hx⟩
      · exact keeps_run ⟨⟨h, ht, rfl, fun hx => absurd hx hv⟩, fun hx => absurd rfl hx⟩
    refine hrun.bind fun a ha => ?_
    cases a with
    | error e =>
      intro res hres
      cases hres
    | ok out =>
      intro res hres
      cases hres
      exact ⟨out, ha out rfl, rfl⟩

lemma keeps_nodeByInternalIP (ip : String) : Keeps X G (fun _ => True) (nodeByInternalIP ip) := by
  refine .step trivial fun a _ => ?_
  cases a <;> trivial

lemma keeps_leaveZombie {node : Option Node} (he : Engaged G h) :
    Keeps X G (fun _ => True) (leaveZombie X h node) := by
  refine (keeps_runInstalledPhase he).bind fun a _ => ?_
  cases a with
  | error e => exact keeps_patchStatus fun _ => trivial
  | ok u =>
    cases node with
    | none => exact keeps_patchStatus fun _ => trivial
    | some n =>
      refine .step trivial fun b _ => ?_
      cases b with
      | ok u => exact keeps_patchStatus fun _ => trivial
      | error e =>
        dsimp only
        split_ifs
        · exact keeps_patchStatus fun _ => trivial
        · trivial

lemma keeps_handleZombie (hr : Recorded G h) : Keeps X G (fun _ => True) (handleZombie X h) := by
  unfold handleZombie
  split_ifs
  · trivial
  · refine (keeps_nodeByInternalIP _).bind fun a _ => ?_
    cases a with
    | error e => trivial
    | ok node =>
      dsimp only
      split_ifs
      · exact keeps_patchStatus fun _ => trivial
      · refine .step hr fun b hb => ?_
        cases b with
        | error e => trivial
        | ok h' => exact keeps_leaveZombie (.fenced hb)

lemma keeps_reconcileToken : Keeps X G (fun _ => True) (reconcileToken h) := by
  unfold reconcileToken
  split_ifs
  · exact keeps_patchStatus fun _ => trivial
  · refine (keeps_nodeByInternalIP _).bind fun a _ => ?_
    cases a with
    | error e => trivial
    | ok node =>
      cases node with
      | none => exact keeps_patchStatus fun _ => trivial
      | some n =>
        refine (keeps_deleteTokenByID _).bind fun b _ => ?_
        cases b with
        | error e => trivial
        | ok u => exact keeps_patchStatus fun _ => trivial

lemma keeps_reconcileClaimed : Keeps X G (fun _ => True) (reconcileClaimed h) := by
  unfold reconcileClaimed
  split
  · exact keeps_reconcileToken
  · have hst (ref : ClaimReference) : Keeps X G (fun _ => True) (staleClaim ref) := by
      refine .step trivial fun a _ => ?_
      cases a <;> trivial
    refine (hst _).bind fun a _ => ?_
    cases a with
    | error e => trivial
    | ok b =>
      cases b with
      | true => exact keeps_deleteBootstrapToken.bind fun _ _ => keeps_patchStatus fun _ => trivial
      | false => exact keeps_reconcileToken

lemma keeps_reconcileUnclaimed (ht : Told G h) :
    Keeps X G (fun _ => True) (reconcileUnclaimed X h) := by
  refine .step trivial fun started _ => ?_
  split
  · trivial
  · refine (keeps_probe ht).bind fun res hres => .step trivial fun now _ => ?_
    cases res with
    | error e => exact keeps_patchStatus fun _ => trivial
    | ok res =>
      dsimp only
      split_ifs
      · refine .step (hres res rfl) fun a ha => ?_
        cases a with
        | error e => trivial
        | ok h' => exact keeps_handleZombie ⟨_, _, _, _, ha⟩
      · exact keeps_patchStatus fun _ => hres res rfl

lemma keeps_reconcile (k : NamespacedName) : Keeps X G (fun _ => True) (reconcile X k) := by
  refine .step trivial fun a ha => ?_
  cases a with
  | error e => trivial
  | ok h =>
    dsimp only
    split_ifs
    · exact keeps_patchStatus fun _ => trivial
    · split
      · exact keeps_reconcileClaimed
      · exact keeps_reconcileClaimed
      · exact keeps_reconcileUnclaimed (told_answer ha (List.mem_singleton_self h))

end Reconcile

theorem keeps_job (X : Externals) (G : Answers) (j : Job X) :
    Keeps X G (fun _ => True) j.program := by
  cases j with
  | create nodeClass nc its => exact (keeps_create its).bind fun _ _ => trivial
  | delete nc => exact keeps_delete.bind fun _ _ => trivial
  | reboot nc => exact keeps_reboot.bind fun _ _ => trivial
  | reconcile k => exact (keeps_reconcile k).bind fun _ _ => trivial

section Verified

variable {j : Job X} {l : Trace Eff Res} {k : NamespacedName} {phase : ScriptPhase}
  {target : Target} {payload : Payload}
  {cont : Res (.sshStart k phase target payload) → Cluster.Prog Unit}

theorem verified_host_sent_verified
    (ha : After j.program l (.call (.sshStart k phase target payload) cont))
    (hv : ∀ x ∈ l, ∀ o ∈ served x.1 x.2, o.key = k → o.spec.execMode = .verified ∧
    o.spec.trustedSigners ≠ []) :
    ∃ e, payload = .envelope e ∧ e.phase = phase ∧ (phase ≠ .probe →
      ∃ name prof o signers, ⟨.getProfile name, .ok prof⟩ ∈ l ∧ e.script = script prof phase ∧
        e.sig = signature prof phase ∧ (∃ x ∈ l, o ∈ served x.1 x.2) ∧ o.key = k ∧
        X.parseTrustedSigners o.spec.trustedSigners = .ok signers ∧
        X.verifySSHSIG e.script e.sig signers "kpssh" = .ok ()) := by
  have hk := (keeps_job X (fun e r => ⟨e, r⟩ ∈ l) j).after ha fun _ hx => hx
  obtain ⟨h, ⟨e, r, hg, o, ho, hkey, hspec⟩, rfl, hc⟩ := hk.1.carries
  obtain ⟨hmode, hne⟩ := hv _ hg o ho hkey
  obtain ⟨e, hpay, hphase, hsent⟩ := hc (hspec ▸ hmode)
  refine ⟨e, hpay, hphase, fun hp => ?_⟩
  obtain ⟨name, prof, hprof, hscript, hsig, hcheck⟩ := hsent hp
  obtain ⟨signers, hparse, hverify⟩ := hcheck (hspec ▸ hne)
  exact ⟨name, prof, o, signers, hprof, hscript, hsig, ⟨_, hg, ho⟩, hkey, hspec ▸ hparse, hverify⟩

end Verified

section Sample

open Sample

def verifiedHost : SSHHost :=
  { host "h1" "10.0.0.1" 1 with
    spec := ⟨"10.0.0.1", 22, "root", "key", "", [], .verified, ["signer"], "shim"⟩
    status := { SSHHostStatus.empty with
      state := .inUse, claimRef := some claimA.ref, installedProfile := "p@1",
      hostKeyFingerprint := "fp" } }

def signedProfile : SSHJoinProfile :=
  { profile with signatures := some ⟨"s1", "s2", "s3", "s4", "s5"⟩ }

def verifiedAnswers : (e : Eff) → Res e
  | .getHost _ => .ok verifiedHost
  | .getProfile _ => .ok signedProfile
  | .getSecret _ => .ok [("privateKey", "pk")]
  | .listHosts _ => .ok []
  | .updateStatus h _ | .patchStatus h _ => .ok h
  | .getNodeClaim _ => .ok ""
  | .listNodes _ => .ok []
  | .deleteNode _ | .deleteToken _ | .sshStart _ _ _ _ => .ok ()
  | .readClusterInfo => .ok ⟨"", ""⟩
  | .createToken => .ok ⟨"id", "secret"⟩
  | .sshWait _ _ => .ok ⟨"", "", "fp"⟩
  | .now => 0
  | .pollTick => false

def leaveParams : List (String × String) :=
  [("KPSSH_CLUSTER_ENDPOINT", ""), ("KPSSH_CLUSTER_CA_B64", ""), ("KPSSH_BOOTSTRAP_TOKEN", ""),
      ("KPSSH_NODE_NAME", ""),
    ("KPSSH_PROVIDER_ID", ""), ("KPSSH_NODE_LABELS", ""), ("KPSSH_TAINTS", ""),
    ("KPSSH_HOST_ADDRESS", "10.0.0.1"), ("KPSSH_NODE_ADDRESS", "10.0.0.1")]

def verifiedDelete : Trace Eff Res × Cluster.Prog Unit :=
  advance verifiedAnswers 3 (Job.program (X := externals) (.delete claimA))

theorem verified_host_sent_verified_leave :
    ∃ target e, verifiedDelete.2.next = some (.sshStart k1 .leave target (.envelope e)) ∧
    e.phase = .leave ∧
      ∃ name prof, ⟨.getProfile name, .ok prof⟩ ∈ verifiedDelete.1 ∧ e.script = script prof .leave ∧
        e.sig = signature prof .leave := by
  have hn :
      verifiedDelete.2.next = some (.sshStart k1 .leave ⟨"10.0.0.1", 22, "root", "pk", "fp", "shim"⟩
        (.envelope ⟨.leave, "leave", "s3", leaveParams⟩)) := by
    decide +kernel
  obtain ⟨cont, hc⟩ := eq_call_of_next hn
  have ha := after_advance verifiedAnswers 3 (Job.program (X := externals) (.delete claimA))
  change After _ verifiedDelete.1 verifiedDelete.2 at ha
  rw [hc] at ha
  obtain ⟨e, he, hphase, hsent⟩ :=
    verified_host_sent_verified (j := .delete claimA) ha (by decide +kernel)
  obtain ⟨name, prof, _, _, hprof, hscript, hsig, _⟩ := hsent (by decide)
  exact ⟨_, e, by rw [hn, he], hphase, name, prof, hprof, hscript, hsig⟩

end Sample

end KarpenterProviderSsh.Runs
