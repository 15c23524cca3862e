import KarpenterProviderSsh.Runs.Asking
import KarpenterProviderSsh.Runs.Dispatches

/-! Launches that fail before the host is dialled: which of them are put down to the
configuration. -/

namespace KarpenterProviderSsh.Launches

open Api Cluster Scripts Providers
open Runs (Asks JoinRequest QuietRequest Checked asks_join asks_releaseHost coversJoin_joinRequest)
open Interleaving.Prog (Runs Trace Abides runs_bind runs_call runs_ret)

variable {X : Externals} {nodeClass : SSHNodeClass X} {nc : NodeClaim} {h h' : SSHHost}
  {l : Trace Eff Res} {parse : String → Except String Unit}

/-- Every call of the executor stopped at the private key (`connect`), before anything was
dialled. -/
def Undialled (parse : String → Except String Unit) (l : Trace Eff Res) : Prop :=
  ∀ k phase target payload a, ⟨.sshStart k phase target payload, a⟩ ∈ l →
    ∃ text, parse target.privateKey = .error text ∧
    a = .error { message := "parsing private key: " ++ text }

/-- The API server's errors are no configErrors. -/
def Unmarked : (e : Eff) → Res e → Prop
  | .createToken, .error e => e.config = false
  | .patchStatus _ _, .error e => e.config = false
  | .getHost _, .error e => e.config = false
  | _, _ => True

section Phases

variable {target : Target} {prof : SSHJoinProfile} {phase : ScriptPhase} {pctx : Context}
  {env : List (String × String)}

def Ready (X : Externals) (h : SSHHost) (prof : SSHJoinProfile) (phase : ScriptPhase)
    (pctx : Context) : Prop :=
  if h.spec.execMode = .verified then
    script prof phase ≠ "" ∧ hasTemplateActions (script prof phase) = false ∧
      signature prof phase ≠ "" ∧
      (h.spec.trustedSigners ≠ [] → Checked X h.spec (script prof phase) (signature prof phase))
  else ∃ text, render X prof phase pctx = .ok text

def Executes (k : NamespacedName) (phase : ScriptPhase) (p : Prog (Except Err ExecResult)) : Prop :=
  (∃ e, p = .ret (.error e) ∧ e.config = false) ∨
    ∃ target payload, p = session k phase target payload

lemma executes_run (k : NamespacedName) (text : String) :
    Executes k phase (run k phase target text env) := by
  unfold run
  split
  · exact .inl ⟨_, rfl, rfl⟩
  · exact .inr ⟨_, _, rfl⟩

lemma check_config {e : Envelope} {err : Err} (hc : Envelope.check e = .error err) :
    err.config = false := by
  unfold Envelope.check at hc
  split_ifs at hc
  · cases hc
    rfl
  · split at hc
    · split_ifs at hc <;> cases hc <;> rfl
    · cases hc

lemma executes_runShim (target : Target) (k : NamespacedName) (e : Envelope) :
    Executes k e.phase (runShim k target e) := by
  unfold runShim
  split
  · rename_i err hc
    have hconf : err.config = false := check_config hc
    exact .inl ⟨_, rfl, hconf⟩
  · exact .inr ⟨_, _, rfl⟩

lemma runVerifiedPhase_cases (hv : h.spec.execMode = .verified) :
    (¬ Ready X h prof phase pctx ∧ ∃ e, runVerifiedPhase X target h prof phase env = .ret
      (.error e) ∧ e.config = true) ∨
      (Ready X h prof phase pctx ∧
      Executes h.key phase (runVerifiedPhase X target h prof phase env)) := by
  have hsend := executes_runShim { target with shimCommand := h.spec.shimCommand } h.key
    ⟨phase, script prof phase, signature prof phase, env⟩
  simp only [Ready, hv, if_true]
  unfold runVerifiedPhase
  dsimp only
  split_ifs with hraw htpl hsig hsigners
  · exact .inl ⟨fun hr => hr.1 hraw, _, rfl, rfl⟩
  · exact .inl ⟨fun hr => by simp [htpl] at hr, _, rfl, rfl⟩
  · exact .inl ⟨fun hr => hr.2.2.1 hsig, _, rfl, rfl⟩
  · exact .inr ⟨⟨hraw, by simpa using htpl, hsig, fun hne => absurd hsigners hne⟩, hsend⟩
  · split
    · rename_i e hp
      refine .inl ⟨fun hr => ?_, _, rfl, rfl⟩
      obtain ⟨signers, hs, _⟩ := hr.2.2.2 hsigners
      rw [hp] at hs
      cases hs
    · rename_i signers hp
      split
      · rename_i e hver
        refine .inl ⟨fun hr => ?_, _, rfl, rfl⟩
        obtain ⟨signers', hs, hok⟩ := hr.2.2.2 hsigners
        rw [hp] at hs
        cases hs
        rw [hver] at hok
        cases hok
      · rename_i hver
        exact .inr ⟨⟨hraw, by simpa using htpl, hsig, fun _ => ⟨signers, hp, hver⟩⟩, hsend⟩

variable (X h prof pctx) in
lemma runPhase_cases :
    (¬ Ready X h prof phase pctx ∧ ∃ e, runPhase X target h prof phase pctx env = .ret (.error e) ∧
      e.config = true) ∨ (Ready X h prof phase pctx ∧
      Executes h.key phase (runPhase X target h prof phase pctx env)) := by
  unfold runPhase
  split_ifs with hv
  · exact runVerifiedPhase_cases hv
  · simp only [Ready, hv, if_false]
    cases hr : render X prof phase pctx with
    | error e => exact .inl ⟨by simp, _, rfl, rfl⟩
    | ok text => exact .inr ⟨⟨text, rfl⟩, executes_run h.key text⟩

lemma runs_runPhase {r : Except Err ExecResult}
    (hr : Runs (runPhase X target h prof phase pctx env) l r) (hu : Undialled parse l) :
    ∃ e, r = .error e ∧ (e.config = true ↔ ¬ Ready X h prof phase pctx) := by
  rcases runPhase_cases X h prof pctx with
    ⟨hn, e, he, hc⟩ | ⟨hready, ⟨e, he, hc⟩ | ⟨t, payload, he⟩⟩
  · rw [he] at hr
    exact ⟨e, (runs_ret.mp hr).2, by simp [hc, hn]⟩
  · rw [he] at hr
    exact ⟨e, (runs_ret.mp hr).2, by simp [hc, hready]⟩
  · rw [he] at hr
    obtain ⟨a, l', rfl, hk⟩ := runs_call.mp hr
    obtain ⟨text, _, rfl⟩ := hu _ _ _ _ _ (List.mem_cons_self)
    exact ⟨_, (runs_ret.mp hk).2, by simp [hready]⟩

end Phases

section Joins

lemma addSecrets_ok {seen env env' secrets r : List (String × String)}
    (h : addSecrets seen env secrets = .ok r) :
    ∃ r', addSecrets seen env' secrets = .ok r' := by
  induction secrets generalizing seen env env' with
  | nil => exact ⟨env', rfl⟩
  | cons p secrets ih =>
    simp only [addSecrets] at h ⊢
    split at h
    · cases h
    · exact ih h

def Prepared : Except Err Preparation → Prop
  | .error e => e.config = true
  | .ok p => ∀ tok, ∃ env, Context.env { p.context with bootstrapToken := tok } = .ok env

lemma abides_prepare :
    Abides (fun _ _ => True) (fun _ => True) Prepared (prepare X nodeClass nc h) := by
  have hquiet {α : Type} {p : Prog α} (hq : Runs.Quiet p) : Asks (fun _ => True) p :=
    hq.asks fun _ _ => trivial
  refine .step trivial fun a _ => ?_
  cases a with
  | error e => exact rfl
  | ok prof =>
    refine (hquiet (Runs.quiet_readSSHCredentials h)).bind fun a _ => ?_
    cases a with
    | error e => exact rfl
    | ok creds =>
      refine (hquiet (Runs.quiet_clusterInfo nodeClass)).bind fun a _ => ?_
      cases a with
      | error e => exact rfl
      | ok info =>
        refine (hquiet (Runs.quiet_joinSecrets nodeClass h)).bind fun a _ => ?_
        cases a with
        | error e => exact rfl
        | ok secrets =>
          dsimp only
          split
          · exact rfl
          · rename_i env henv
            exact fun tok => addSecrets_ok henv

lemma setStatus_config (x : Setter) (h : SSHHost) :
    Abides Unmarked (fun _ => True) (fun a => ∀ e, a.2 = some e → e.config = false)
      (setStatus h x) := by
  have hfail (h : SSHHost) {e : Err} (hc : e.config = false) :
      ∀ e', ((h, some e) : SSHHost × Option Err).2 = some e' → e'.config = false := by
    rintro _ ⟨⟩
    exact hc
  have honce (expect : Option ClaimReference) (h : SSHHost) : Abides Unmarked (fun _ => True)
      (fun a => ∀ e, a.2 = some e → e.config = false) (setStatusOnce expect x h) := by
    refine .step trivial fun a ha => ?_
    cases a with
    | ok h' => nofun
    | error e =>
      dsimp only
      split_ifs
      · refine .step trivial fun b hb => ?_
        cases b with
        | error g => exact hfail _ hb
        | ok fresh =>
          dsimp only
          split_ifs
          · exact hfail _ ha
          · exact hfail _ rfl
      · exact hfail _ ha
  suffices ∀ n (h : SSHHost) expect, Abides Unmarked (fun _ => True)
      (fun a => ∀ e, a.2 = some e → e.config = false)
    (retryOnConflict (setStatusOnce expect x) n h) from this _ _ _
  intro n
  induction n with
  | zero => exact fun _ _ => nofun
  | succ n ih =>
    intro h expect
    refine (honce expect h).bind fun a ha => ?_
    obtain ⟨h', e⟩ := a
    cases e with
    | none => nofun
    | some e =>
      dsimp only
      split_ifs
      · exact ih _ _
      · exact hfail _ (ha e rfl)

/-- The script to run next cannot be sent; for the join script that is told only once its token has
been minted and recorded. -/
def Lacks (X : Externals) (h : SSHHost) (p : Preparation) (l : Trace Eff Res) : Prop :=
  if h.status.installedProfile = installedMarker p.profile then
    ∃ tok l₁ l₂ h₁, l = ⟨.createToken, .ok tok⟩ :: (l₁ ++ l₂) ∧
      Runs (setBootstrapTokenID h tok.id) l₁ (h₁, none) ∧
      ¬ Ready X h₁ p.profile .join { p.context with bootstrapToken := some tok }
  else ¬ Ready X h p.profile .install p.context

def Unconfigured (X : Externals) (nodeClass : SSHNodeClass X) (nc : NodeClaim) (h : SSHHost)
    (l : Trace Eff Res) : Prop :=
  ∃ l₁ l₂ r, l = l₁ ++ l₂ ∧ Runs (prepare X nodeClass nc h) l₁ r ∧ ∀ p, r = .ok p → Lacks X h p l₂

lemma unconfigured_iff {l₁ l₂ : Trace Eff Res} {r : Except Err Preparation}
    (hp : Runs (prepare X nodeClass nc h) l₁ r) :
    Unconfigured X nodeClass nc h (l₁ ++ l₂) ↔ ∀ p, r = .ok p → Lacks X h p l₂ := by
  constructor
  · rintro ⟨l₃, l₄, r', he, hp', hl⟩
    obtain ⟨rfl, rfl⟩ := hp.unique hp' he
    exact List.append_cancel_left he ▸ hl
  · exact fun hl => ⟨l₁, l₂, r, rfl, hp, hl⟩

lemma Undialled.left {l' : Trace Eff Res} (hu : Undialled parse (l ++ l')) : Undialled parse l :=
  fun k phase target payload a hm => hu k phase target payload a (List.mem_append_left _ hm)

lemma Undialled.right {l' : Trace Eff Res} (hu : Undialled parse (l ++ l')) : Undialled parse l' :=
  fun k phase target payload a hm => hu k phase target payload a (List.mem_append_right _ hm)

lemma runs_runJoin {p : Preparation} {o : Option Err} (hr : Runs (runJoin X p h) l (h', o))
    (hu : Undialled parse l) (hm : ∀ x ∈ l, Unmarked x.1 x.2)
    (hc : h.status.installedProfile = installedMarker p.profile) (hp : Prepared (.ok p)) :
    ∃ e, o = some e ∧ (e.config = true ↔ Lacks X h p l) := by
  rw [Lacks, if_pos hc]
  obtain ⟨a, l₁, rfl, hk⟩ := runs_call.mp hr
  cases a with
  | error e =>
    obtain ⟨rfl, he⟩ := runs_ret.mp hk
    cases he
    have hconf : e.config = false := hm _ List.mem_cons_self
    refine ⟨_, rfl, ?_⟩
    simp [Err.wrap, hconf]
  | ok tok =>
    obtain ⟨env, henv⟩ := hp (some tok)
    dsimp only [Interleaving.Prog.bind] at henv hk
    rw [henv] at hk
    obtain ⟨l₂, ⟨h₁, o₁⟩, l₃, rfl, hset, hk⟩ := runs_bind.mp hk
    -- nothing else could have come of the record
    have hrecord (P : Prop) (hP : P ↔ o₁ = none ∧
        ¬ Ready X h₁ p.profile .join { p.context with bootstrapToken := some tok }) :
        P ↔ ∃ tok' l₁ l₂' h₂,
          ⟨.createToken, .ok tok⟩ :: (l₂ ++ l₃) = ⟨.createToken, .ok tok'⟩ :: (l₁ ++ l₂') ∧
          Runs (setBootstrapTokenID h tok'.id) l₁ (h₂, none) ∧
          ¬ Ready X h₂ p.profile .join { p.context with bootstrapToken := some tok' } := by
      rw [hP]
      constructor
      · rintro ⟨rfl, hn⟩
        exact ⟨tok, l₂, l₃, h₁, rfl, hset, hn⟩
      · rintro ⟨tok', l₄, l₅, h₂, he, hset', hn⟩
        obtain ⟨htok, hrest⟩ := List.cons.inj he
        cases htok
        obtain ⟨_, hres⟩ := hset.unique hset' hrest
        cases hres
        exact ⟨rfl, hn⟩
    cases o₁ with
    | some e =>
      obtain ⟨l₄, h₂, l₅, rfl, _, hret⟩ := runs_bind.mp hk
      obtain ⟨rfl, he⟩ := runs_ret.mp hret
      cases he
      have hconf := ((setStatus_config _ h).runs hset fun x hx => hm x (by simp [hx])).2 e rfl
      refine ⟨_, rfl, hrecord _ ?_⟩
      simp [Err.wrap, hconf]
    | none =>
      obtain ⟨l₄, ph, l₅, rfl, hph, hk⟩ := runs_bind.mp hk
      have hu' : Undialled parse l₄ := fun k phase target payload a hx =>
          hu k phase target payload a (by simp [hx])
      obtain ⟨e, rfl, hiff⟩ := runs_runPhase hph hu'
      obtain ⟨l₆, h₂, l₇, rfl, _, hret⟩ := runs_bind.mp hk
      obtain ⟨rfl, he⟩ := runs_ret.mp hret
      cases he
      refine ⟨_, rfl, hrecord _ ?_⟩
      simpa [redactPhaseErr] using hiff

lemma runs_join {o : Option Err} (hr : Runs (join X nodeClass nc h) l (h', o))
    (hu : Undialled parse l) (hm : ∀ x ∈ l, Unmarked x.1 x.2) :
    ∃ e, o = some e ∧ (e.config = true ↔ Unconfigured X nodeClass nc h l) := by
  obtain ⟨l₁, r, l₂, rfl, hp, hk⟩ := runs_bind.mp hr
  have hprep := (abides_prepare.runs hp fun _ _ => trivial).2
  rw [unconfigured_iff hp]
  cases r with
  | error e =>
    obtain ⟨rfl, he⟩ := runs_ret.mp hk
    cases he
    exact ⟨e, rfl, fun _ => nofun, fun _ => hprep⟩
  | ok p =>
    have hok : (∀ p', (Except.ok p : Except Err Preparation) = .ok p' → Lacks X h p' l₂) ↔
        Lacks X h p l₂ :=
      ⟨fun hl => hl p rfl, by rintro hl _ ⟨⟩; exact hl⟩
    rw [hok]
    obtain ⟨l₃, ⟨h₁, o₁⟩, l₄, rfl, hi, hj⟩ := runs_bind.mp hk
    by_cases hc : h.status.installedProfile = installedMarker p.profile
    · rw [runInstall, if_pos hc] at hi
      obtain ⟨rfl, he⟩ := runs_ret.mp hi
      cases he
      exact runs_runJoin hj hu.right (fun x hx => hm x (List.mem_append_right _ hx)) hc hprep
    · rw [runInstall, if_neg hc] at hi
      obtain ⟨l₅, ph, l₆, rfl, hph, hki⟩ := runs_bind.mp hi
      obtain ⟨e, rfl, hiff⟩ := runs_runPhase hph hu.right.left.left
      obtain ⟨rfl, he⟩ := runs_ret.mp hki
      cases he
      obtain ⟨rfl, he⟩ := runs_ret.mp hj
      cases he
      rw [Lacks, if_neg hc]
      exact ⟨_, rfl, hiff⟩

end Joins

section Creates

open Interleaving.Prog (Only)

variable {its : List InstanceType} {a : Except CloudError Instance} {o : SSHHost} {healthy : Bool}
  {reason : String}

def Releases (b : Bool) : Eff → Prop
  | .patchStatus _ (.release b' _) => b' = b
  | _ => True

def Chooses : Eff → Prop
  | .listHosts _ | .updateStatus _ _ => True
  | _ => False

lemma chooses_list (selector : Option X.LabelSelector) : Only Chooses (list X selector) := by
  unfold list
  split
  · exact ⟨trivial, fun _ => trivial⟩
  · split
    · trivial
    · exact ⟨trivial, fun r => by cases r <;> trivial⟩

lemma chooses_claimFirst (cs : List SSHHost) : Only Chooses (claimFirst nc cs) := by
  induction cs with
  | nil => trivial
  | cons c cs ih =>
    have hclaim : Only Chooses (claim c nc) := ⟨trivial, fun r => by cases r <;> trivial⟩
    refine hclaim.bind fun r => ?_
    match r with
    | (_, .error e) => trivial
    | (_, .ok true) => trivial
    | (_, .ok false) => exact ih

lemma chooses_claimCheapest (its : List InstanceType) :
    Only Chooses (claimCheapest X nodeClass nc its) := by
  induction its with
  | nil => trivial
  | cons it its ih =>
    have havail : Only Chooses (available X nodeClass.hostSelector it.name) :=
      (chooses_list _).bind fun r => by cases r <;> trivial
    refine havail.bind fun r => ?_
    cases r with
    | error e => trivial
    | ok cs =>
      refine (chooses_claimFirst cs).bind fun r => ?_
      match r with
      | .error e => trivial
      | .ok (some h) => trivial
      | .ok none => exact ih

lemma chooses_byClaim : Only Chooses (byClaim X nc) :=
  (chooses_list _).bind fun r => by cases r <;> trivial

lemma not_mem_of_chooses {α : Type} {p : Prog α} {b : α}
    {r : Res (.patchStatus o (.release healthy reason))} (hp : Only Chooses p) (hr : Runs p l b) :
    ⟨.patchStatus o (.release healthy reason), r⟩ ∉ l :=
  fun hm => hp.runs hr _ hm

lemma launch_of_release {r : Res (.patchStatus o (.release healthy reason))}
    (hr : Runs (create X nodeClass nc its) l a)
    (hm : ⟨.patchStatus o (.release healthy reason), r⟩ ∈ l) :
    ∃ h l₁ l₂, l = l₁ ++ l₂ ∧ Runs (launch X nodeClass nc h) l₂ a ∧
    ⟨.patchStatus o (.release healthy reason), r⟩ ∈ l₂ := by
  obtain ⟨l₁, b, l₂, rfl, hb, hk⟩ := runs_bind.mp hr
  have hm := (List.mem_append.mp hm).resolve_left (not_mem_of_chooses chooses_byClaim hb)
  match b with
  | .error e =>
    obtain ⟨rfl, _⟩ := runs_ret.mp hk
    cases hm
  | .ok (some h) => exact ⟨h, l₁, l₂, rfl, hk, hm⟩
  | .ok none =>
    obtain ⟨l₃, c, l₄, rfl, hc, hk⟩ := runs_bind.mp hk
    have hm := (List.mem_append.mp hm).resolve_left
      (not_mem_of_chooses (chooses_claimCheapest _) hc)
    match c with
    | .error e =>
      obtain ⟨rfl, _⟩ := runs_ret.mp hk
      cases hm
    | .ok none =>
      obtain ⟨rfl, _⟩ := runs_ret.mp hk
      cases hm
    | .ok (some h) => exact ⟨h, l₁ ++ l₃, l₄, (List.append_assoc _ _ _).symm, hk, hm⟩

lemma releases_releaseHost : Asks (Releases healthy) (releaseHost h healthy reason) := by
  refine (Runs.asks_deleteBootstrapToken (fun _ => trivial) h).bind
    fun _ _ => .bind (Q := fun _ => True) ?_ fun _ _ => trivial
  refine .step rfl fun a _ => ?_
  cases a <;> trivial

lemma not_release_of_join {e : Eff} (hj : JoinRequest e) :
    e ≠ .patchStatus o (.release healthy reason) := by
  rintro rfl
  cases hj with
  | quiet hq =>
    cases hq with
    | silent hs => cases hs

/-- A Create that dials nothing gives its host back Available, if its release wins, exactly when the
join lacked something of its configuration. -/
theorem untouched_host_available_iff {r : Res (.patchStatus o (.release healthy reason))}
    (hr : Runs (create X nodeClass nc its) l a) (hu : Undialled parse l)
    (hu' : ∀ x ∈ l, Unmarked x.1 x.2) (hm : ⟨.patchStatus o (.release healthy reason), r⟩ ∈ l) :
    ∃ h h' e l₁ l₂ l₃, l = l₁ ++ (l₂ ++ l₃) ∧ Runs (join X nodeClass nc h) l₂ (h', some e) ∧
      (((StatusWrite.release healthy reason).apply o.status).state = .available ↔
        Unconfigured X nodeClass nc h l₂) := by
  obtain ⟨h, l₁, l₂, rfl, hl, hm⟩ := launch_of_release hr hm
  obtain ⟨l₃, ⟨h', x⟩, l₄, rfl, hj, hk⟩ := runs_bind.mp hl
  obtain ⟨e, rfl, hiff⟩ := runs_join hj hu.right.left fun x hx => hu' x (by simp [hx])
  refine ⟨h, h', e, l₁, l₃, l₄, rfl, hj, ?_⟩
  have hm := (List.mem_append.mp hm).resolve_left fun hm =>
    not_release_of_join (((asks_join coversJoin_joinRequest).runs hj fun _ _ => trivial).1 _ hm) rfl
  obtain ⟨l₅, _, l₆, rfl, hrel, hret⟩ := runs_bind.mp hk
  obtain ⟨rfl, _⟩ := runs_ret.mp hret
  rw [List.append_nil] at hm
  have hh : healthy = e.config := (releases_releaseHost.runs hrel fun _ _ => trivial).1 _ hm
  rw [← hiff, hh]
  cases e.config <;> simp [StatusWrite.apply]

end Creates

section Sample

open Runs.Sample
open Interleaving.Prog (answered runs_answered)

def resumed : SSHHost :=
  { host "h1" "10.0.0.1" 1 with
    status :=
      { SSHHostStatus.empty with
        state := .claimed
        claimRef := some ⟨"a", "uid-a"⟩
        installedProfile := "p@1" } }

def unminted (prof : Except Err SSHJoinProfile) : (e : Eff) → Res e
  | .listHosts _ => .ok [resumed]
  | .getProfile _ => prof
  | .getSecret _ => .ok [("privateKey", "pk")]
  | .readClusterInfo => .ok ⟨"e", "c"⟩
  | .patchStatus o _ => .ok o
  | .now => 0
  | .pollTick => false
  | .getHost _ | .updateStatus _ _ | .getNodeClaim _ | .listNodes _ | .deleteNode _
    | .createToken | .deleteToken _
  | .sshStart _ _ _ _ | .sshWait _ _ => .error { message := "timeout" }

def starts : Eff → Bool
  | .sshStart _ _ _ _ => true
  | _ => false

lemma undialled_of_all (hl : l.all (fun x => !starts x.1) = true) : Undialled parse l := by
  intro k phase target payload a hm
  have := List.all_eq_true.mp hl _ hm
  cases this

lemma unmarked_unminted (prof : Except Err SSHJoinProfile) (e : Eff) :
    Unmarked e (unminted prof e) := by
  cases e <;> trivial

lemma mem_answered {α : Type} {f : (e : Eff) → Res e} {p : Prog α} {x : (e : Eff) × Res e}
    (hx : x ∈ (answered f p).1) :
    x.2 = f x.1 := by
  induction p with
  | ret a => cases hx
  | call e k ih =>
    rcases List.mem_cons.mp hx with rfl | hx
    · rfl
    · exact ih _ hx

theorem untouched_host_available_iff_unread :
    ∃ l a o reason v, Runs (create externals Runs.Sample.nodeClass claimA []) l a ∧
      ⟨.patchStatus o (.release true reason), .ok v⟩ ∈ l ∧
      ∃ h h' e l₁ l₂ l₃, l = l₁ ++ (l₂ ++ l₃) ∧
      Runs (join externals Runs.Sample.nodeClass claimA h) l₂ (h', some e) ∧
        Unconfigured externals Runs.Sample.nodeClass claimA h l₂ := by
  have hr := runs_answered (unminted (.error { message := "gone" }))
    (create externals Runs.Sample.nodeClass claimA [])
  have hm :
      ⟨.patchStatus resumed (.release true "join failed: getting join profile: gone"),
      .ok resumed⟩ ∈
      (answered (unminted (.error { message := "gone" }))
        (create externals Runs.Sample.nodeClass claimA [])).1 :=
    List.mem_of_getElem? (i := 2) rfl
  refine ⟨_, _, _, _, _, hr, hm, ?_⟩
  have hu : Undialled (fun _ => .ok ()) (answered (unminted (.error { message := "gone" }))
      (create externals Runs.Sample.nodeClass claimA [])).1 := undialled_of_all (by decide +kernel)
  obtain ⟨h, h', e, l₁, l₂, l₃, hl, hj, hiff⟩ := untouched_host_available_iff hr hu
    (fun x hx => by rw [mem_answered hx]; exact unmarked_unminted _ _) hm
  exact ⟨h, h', e, l₁, l₂, l₃, hl, hj, hiff.mp rfl⟩

/-- The token cannot be minted: the host is parked, though nothing was dialled. -/
theorem untouched_host_parked :
    ∃ l a o reason v, Runs (create externals Runs.Sample.nodeClass claimA []) l a ∧
    l.all (fun x => !starts x.1) = true ∧
      ⟨.patchStatus o (.release false reason), .ok v⟩ ∈ l ∧
      ((StatusWrite.release false reason).apply o.status).state = .unhealthy := by
  have hr := runs_answered (unminted (.ok profile))
    (create externals Runs.Sample.nodeClass claimA [])
  have hm :
      ⟨.patchStatus resumed
      (.release false "join failed: creating bootstrap token secret: timeout"), .ok resumed⟩ ∈
      (answered (unminted (.ok profile)) (create externals Runs.Sample.nodeClass claimA [])).1 :=
    List.mem_of_getElem? (i := 5) rfl
  exact ⟨_, _, _, _, _, hr, by decide +kernel, hm, rfl⟩

end Sample

end KarpenterProviderSsh.Launches
