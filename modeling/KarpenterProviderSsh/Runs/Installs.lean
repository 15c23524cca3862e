import KarpenterProviderSsh.Interleaving.Logs
import KarpenterProviderSsh.Runs.Asking
import KarpenterProviderSsh.Runs.Changes

/-! One Create, request by request: the host object it starts from, the profile it has read, and
what has become of the install script. -/

namespace KarpenterProviderSsh.Runs

open Api Cluster Scripts Providers Controllers Interleaving

variable {X : Externals}

inductive Launching
  | bystander
  | looking (nc : NodeClaim)
  | choosing (nc : NodeClaim)
  | held (nc : NodeClaim) (h : SSHHost)
  | prepared (nc : NodeClaim) (h : SSHHost) (p : SSHJoinProfile)
  | installing (nc : NodeClaim) (h : SSHHost) (p : SSHJoinProfile)
  | installed (nc : NodeClaim) (h : SSHHost) (p : SSHJoinProfile)
  | ready (nc : NodeClaim) (h : SSHHost) (p : SSHJoinProfile)
  | over

def faithful : (e : Eff) → Res e → Bool
  | .getHost k, .ok o => o.key = k
  | .patchStatus o _, .ok o' => o'.key = o.key
  | .updateStatus o _, .ok o' => o'.key = o.key
  | _, _ => true

namespace Launching

def listed : Launching → Except Err (List SSHHost) → Launching
  | .looking nc, .ok os =>
    match os.find? (fun h => claimHeldBy h nc) with
    | some h => .held nc h
    | none => .choosing nc
  | .looking _, .error _ => .over
  | σ, _ => σ

def claimed : Launching → Except Err SSHHost → Launching
  | .choosing nc, .ok h => .held nc h
  | σ, _ => σ

def briefed : Launching → Except Err SSHJoinProfile → Launching
  | .held nc h, .ok p => .prepared nc h p
  | σ, _ => σ

def started : Launching → Except Err Unit → Launching
  | .prepared nc h p, .ok _ => .installing nc h p
  | σ, _ => σ

def exited : Launching → Except Err ExecResult → Launching
  | .installing nc h p, .ok _ => .installed nc h p
  | σ, _ => σ

def recorded : Launching → Except Err SSHHost → Launching
  | .installed nc h p, a => if carriedOut a then .ready nc h p else .installed nc h p
  | σ, _ => σ

def released : Launching → Except Err SSHHost → Launching
  | .bystander, _ => .bystander
  | σ, a => if carriedOut a then .over else σ

def next (σ : Launching) : (e : Eff) → Res e → Launching
  | .listHosts _, r => σ.listed r
  | .updateStatus _ _, r => σ.claimed r
  | .getProfile _, r => σ.briefed r
  | .sshStart _ .install _ _, r => σ.started r
  | .sshWait _ .install, r => σ.exited r
  | .patchStatus _ (.set (.installed _)), r => σ.recorded r
  | .patchStatus _ (.release _ _), r => σ.released r
  | _, _ => σ

def Settled : Launching → Prop
  | .looking _ => False
  | _ => True

def MayJoin (σ : Launching) (nc : NodeClaim) (h : SSHHost) (p : SSHJoinProfile) : Prop :=
  σ = .ready nc h p ∨ (σ = .prepared nc h p ∧ h.status.installedProfile = installedMarker p)

def Permits (σ : Launching) : Eff → Prop
  | .listHosts _ => True
  | .updateStatus _ _ => ∃ nc, σ = .choosing nc
  | .getProfile _ => σ = .bystander ∨ ∃ nc h, σ = .held nc h
  | .sshStart k .install _ _ => ∃ nc h p, σ = .prepared nc h p ∧ h.key = k
  | .sshWait k .install => ∃ nc h p, σ = .installing nc h p ∧ h.key = k
  | .patchStatus o (.set (.installed m)) =>
    ∃ nc h p, σ = .installed nc h p ∧ o.key = h.key ∧ m = installedMarker p
  | .sshStart k .join _ _ => ∃ nc h p, σ.MayJoin nc h p ∧ h.key = k
  | _ => σ.Settled

end Launching

def launches (X : Externals) : Monitor (machine X) where
  State := Launching
  init
    | .create _ nc _ => some (.looking nc)
    | _ => some .bystander
  see := Launching.next
  Allows := Launching.Permits

lemma obeys_retry {S : Monitor (machine X)} {G : (e : Eff) → Res e → Prop} {α : Type}
    {fn : α → Cluster.Prog (α × Option Err)} {I : α → S.State → Prop}
    {Q : α × Option Err → S.State → Prop} (hfn : ∀ a σ, I a σ → S.ObeysGiven G
    (fun b τ => Q b τ ∧ ∀ e, b.2 = some e → e.isConflict = true → I b.1 τ) σ (fn a))
    {n : ℕ} (hn : n ≠ 0) {a : α} {σ : S.State} (ha : I a σ) :
    S.ObeysGiven G Q σ (retryOnConflict fn n a) := by
  induction n generalizing a σ with
  | zero => exact absurd rfl hn
  | succ n ih =>
    refine (hfn a σ ha).bind fun b τ hb => ?_
    obtain ⟨a', x⟩ := b
    cases x with
    | none => exact hb.1
    | some e =>
      dsimp only
      split_ifs with hretry
      · simp only [Bool.and_eq_true, decide_eq_true_eq] at hretry
        exact ih hretry.2 (hb.2 e rfl hretry.1)
      · exact hb.1

section Obeys

open Launching

variable {α β : Type} {σ : Launching} {nc : NodeClaim} {h : SSHHost} {p : SSHJoinProfile}

abbrev ObeysLaunch (X : Externals) (Q : α → Launching → Prop) (σ : Launching) (q : Cluster.Prog α) :
    Prop :=
  (launches X).ObeysGiven (fun e r => faithful e r = true) Q σ q

def Steady : Eff → Prop
  | .getSecret _ | .readClusterInfo | .createToken | .deleteToken _ | .listNodes _
    | .pollTick | .getHost _
  | .getNodeClaim _ | .deleteNode _ | .now | .patchStatus _ (.probe _ _) => True
  | .patchStatus _ (.set x) => ∀ m, x ≠ .installed m
  | .sshStart _ phase _ _ => phase ≠ .install ∧ phase ≠ .join
  | .sshWait _ phase => phase ≠ .install
  | _ => False

lemma Steady.permits {e : Eff} (he : Steady e) (hσ : σ.Settled) : σ.Permits e := by
  cases e with
  | patchStatus o wr =>
    cases wr with
    | set x =>
      cases x with
      | installed m => exact absurd rfl (he m)
      | _ => exact hσ
    | probe => exact hσ
    | claim | release => exact he.elim
  | sshStart k phase a b =>
    cases phase with
    | install => exact absurd rfl he.1
    | join => exact absurd rfl he.2
    | _ => exact hσ
  | sshWait k phase =>
    cases phase with
    | install => exact absurd rfl he
    | _ => exact hσ
  | listHosts | updateStatus | getProfile => exact he.elim
  | _ => exact hσ

lemma Steady.next_eq {e : Eff} (he : Steady e) (r : Res e) : σ.next e r = σ := by
  cases e with
  | patchStatus o wr =>
    cases wr with
    | set x =>
      cases x with
      | installed m => exact absurd rfl (he m)
      | _ => rfl
    | probe => rfl
    | claim | release => exact he.elim
  | sshStart k phase a b =>
    cases phase with
    | install => exact absurd rfl he.1
    | _ => rfl
  | sshWait k phase =>
    cases phase with
    | install => exact absurd rfl he
    | _ => rfl
  | listHosts | updateStatus | getProfile => exact he.elim
  | _ => rfl

lemma ObeysLaunch.step {Q : β → Launching → Prop} {e : Eff} {f : Res e → Cluster.Prog β}
    (he : σ.Permits e) (hf : ∀ r, faithful e r = true → ObeysLaunch X Q (σ.next e r) (f r)) :
    ObeysLaunch X Q σ (Cluster.request e >>= f) :=
  Monitor.ObeysGiven.step he hf

lemma ObeysLaunch.steady {Q : β → Launching → Prop} {T : α → Prop} {q : Cluster.Prog α}
    {f : α → Cluster.Prog β} (hq : Prog.Abides (fun e r => faithful e r = true) Steady T q)
    (hσ : σ.Settled) (hf : ∀ a, T a → ObeysLaunch X Q σ (f a)) : ObeysLaunch X Q σ (q >>= f) := by
  refine (Monitor.obeysGiven_of_abides hq fun e he => ⟨he.permits hσ, he.next_eq⟩).bind ?_
  rintro a _ ⟨rfl, ha⟩
  exact hf a ha

lemma key_setStatusOnce {P : Eff → Prop} (x : Setter) (hw : ∀ o, P (.patchStatus o (.set x)))
    (hg : ∀ k, P (.getHost k)) (expect : Option ClaimReference) (h : SSHHost) :
    Prog.Abides (fun e r => faithful e r = true) P (fun a => a.1.key = h.key)
      (setStatusOnce expect x h) := by
  refine .step (hw _) fun a ha => ?_
  cases a with
  | ok h' => exact (of_decide_eq_true ha : h'.key = h.key)
  | error e =>
    dsimp only
    split_ifs
    · refine .step (hg _) fun b hb => ?_
      cases b with
      | error g => exact rfl
      | ok fresh =>
        dsimp only
        split_ifs
        · exact (of_decide_eq_true hb : fresh.key = h.key)
        · exact rfl
    · exact rfl

lemma key_setStatus {P : Eff → Prop} (x : Setter) (hw : ∀ o, P (.patchStatus o (.set x)))
    (hg : ∀ k, P (.getHost k)) (h : SSHHost) :
    Prog.Abides (fun e r => faithful e r = true) P (fun a => a.1.key = h.key) (setStatus h x) := by
  suffices ∀ n (g : SSHHost) expect, g.key = h.key → Prog.Abides (fun e r => faithful e r = true) P
      (fun a => a.1.key = h.key) (retryOnConflict (setStatusOnce expect x) n g) from this _ _ _ rfl
  intro n
  induction n with
  | zero => exact fun g _ hg => hg
  | succ n ih =>
    intro g expect hgk
    refine (key_setStatusOnce x hw hg expect g).bind fun a ha => ?_
    obtain ⟨h', e⟩ := a
    cases e with
    | none => exact ha.trans hgk
    | some e =>
      dsimp only
      split_ifs
      · exact ih _ _ (ha.trans hgk)
      · exact ha.trans hgk

def PreparedFor (nc : NodeClaim) (h : SSHHost) (a : Except Err Preparation)
    (τ : Launching) : Prop :=
  τ.Settled ∧ ∀ q, a = .ok q → τ = .prepared nc h q.profile

lemma obeys_prepare (nodeClass : SSHNodeClass X) :
    ObeysLaunch X (PreparedFor nc h) (.held nc h) (prepare X nodeClass nc h) := by
  refine ObeysLaunch.step (.inr ⟨nc, h, rfl⟩) fun r _ => ?_
  cases r with
  | error e => exact ⟨trivial, fun _ he => nomatch he⟩
  | ok prof =>
    change ObeysLaunch X _ (.prepared nc h prof) _
    have hfail (e : Err) : PreparedFor nc h (.error e) (.prepared nc h prof) :=
      ⟨trivial, fun _ he => nomatch he⟩
    refine ObeysLaunch.steady (asks_readSSHCredentials (fun _ => trivial) h).given
      trivial fun a _ => ?_
    cases a with
    | error e => exact hfail _
    | ok creds =>
      refine ObeysLaunch.steady (asks_clusterInfo trivial nodeClass).given trivial fun a _ => ?_
      cases a with
      | error e => exact hfail _
      | ok info =>
        refine ObeysLaunch.steady (asks_joinSecrets (fun _ => trivial) nodeClass h).given
          trivial fun a _ => ?_
        cases a with
        | error e => exact hfail _
        | ok secrets =>
          dsimp only
          split
          · exact hfail _
          · refine ⟨trivial, ?_⟩
            rintro q ⟨⟩
            rfl

def InstalledFor (nc : NodeClaim) (h : SSHHost) (p : SSHJoinProfile) (a : SSHHost × Option Err)
    (τ : Launching) : Prop :=
  τ.Settled ∧ (a.2 = none → a.1.key = h.key ∧ τ.MayJoin nc h p)

lemma obeys_setInstalledOnce {g : SSHHost} (hg : g.key = h.key) (expect : Option ClaimReference) :
    ObeysLaunch X (fun a τ => a.1.key = h.key ∧ ((a.2 = none ∧ τ = .ready nc h p) ∨
      ∃ e, a.2 = some e ∧ ((e.isConflict = true ∧ τ = .installed nc h p) ∨
        (e.isConflict = false ∧ τ.Settled))))
      (.installed nc h p) (setStatusOnce expect (.installed (installedMarker p)) g) := by
  refine ObeysLaunch.step ⟨nc, h, p, rfl, hg, rfl⟩ fun a ha => ?_
  cases a with
  | ok g' => exact ⟨(of_decide_eq_true ha).trans hg, .inl ⟨rfl, rfl⟩⟩
  | error e =>
    by_cases hc : e.isConflict = true
    · have hno : carriedOut (.error e) = false := by
        simp only [Err.isConflict, beq_iff_eq] at hc
        simp [carriedOut, hc]
      have hn :
          Launching.next (.installed nc h p)
          (.patchStatus g (.set (.installed (installedMarker p)))) (.error e) =
          .installed nc h p := by simp [Launching.next, Launching.recorded, hno]
      rw [hn]
      simp only [hc, if_true]
      refine ObeysLaunch.step trivial fun b hb => ?_
      change ObeysLaunch X _ (.installed nc h p) _
      cases b with
      | error ge =>
        refine ⟨hg, .inr ⟨ge, rfl, ?_⟩⟩
        cases hge : ge.isConflict with
        | true => exact .inl ⟨rfl, rfl⟩
        | false => exact .inr ⟨rfl, trivial⟩
      | ok fresh =>
        dsimp only
        split_ifs
        · exact ⟨(of_decide_eq_true hb).trans hg, .inr ⟨e, rfl, .inl ⟨hc, rfl⟩⟩⟩
        · exact ⟨hg, .inr ⟨_, rfl, .inr ⟨rfl, trivial⟩⟩⟩
    · simp only [hc]
      refine ⟨hg, .inr ⟨e, rfl, .inr ⟨by simpa using hc, ?_⟩⟩⟩
      simp only [Launching.next, Launching.recorded]
      split_ifs <;> trivial

lemma obeys_setInstalled {g : SSHHost} (hg : g.key = h.key) :
    ObeysLaunch X (InstalledFor nc h p) (.installed nc h p)
      (setInstalled g (installedMarker p)) := by
  refine obeys_retry (S := launches X) (I := fun g τ => g.key = h.key ∧
    τ = Launching.installed nc h p) ?_
    (by simp [defaultBackoffSteps]) ⟨hg, rfl⟩
  rintro g _ ⟨hg, rfl⟩
  refine (obeys_setInstalledOnce hg _).conseq fun a τ ha => ?_
  obtain ⟨g', x⟩ := a
  obtain ⟨hk, ⟨rfl, rfl⟩ | ⟨e, rfl, ⟨_, rfl⟩ | ⟨hc, hs⟩⟩⟩ := ha
  · exact ⟨⟨trivial, fun _ => ⟨hk, .inl rfl⟩⟩, fun _ he => nomatch he⟩
  · exact ⟨⟨trivial, fun he => nomatch he⟩, fun _ _ _ => ⟨hk, rfl⟩⟩
  · refine ⟨⟨hs, fun he => nomatch he⟩, ?_⟩
    rintro _ ⟨⟩ hc'
    rw [hc] at hc'
    cases hc'

lemma obeys_install {g : SSHHost} (hg : g.key = h.key) {q : Cluster.Prog (Except Err ExecResult)}
    (hd : Dials g.key .install q) : ObeysLaunch X
      (fun a τ => τ.Settled ∧ ∀ x, a = .ok x → τ = .installed nc h p) (.prepared nc h p) q := by
  rcases hd with ⟨e, rfl⟩ | ⟨target, payload, rfl⟩
  · exact ⟨trivial, nofun⟩
  · refine ObeysLaunch.step ⟨nc, h, p, rfl, hg.symm⟩ fun a _ => ?_
    cases a with
    | error e => exact ⟨trivial, nofun⟩
    | ok u =>
      change ObeysLaunch X _ (.installing nc h p) (Cluster.request (.sshWait g.key .install) >>=
        pure)
      refine ObeysLaunch.step ⟨nc, h, p, rfl, hg.symm⟩ fun b _ => ?_
      cases b with
      | error e => exact ⟨trivial, nofun⟩
      | ok x => exact ⟨trivial, fun _ _ => rfl⟩

lemma obeys_runInstall (q : Preparation) :
    ObeysLaunch X (InstalledFor nc h q.profile) (.prepared nc h q.profile) (runInstall X q h) := by
  unfold runInstall
  split_ifs with hm
  · exact ⟨trivial, fun _ => ⟨rfl, .inr ⟨rfl, hm⟩⟩⟩
  · refine (obeys_install (h := h) rfl (dials_runPhase _ h q.profile .install _ _)).bind
      fun a τ ha => ?_
    obtain ⟨hs, ha⟩ := ha
    cases a with
    | error e => exact ⟨hs, nofun⟩
    | ok x =>
      rw [ha x rfl]
      exact obeys_setInstalled rfl

abbrev Settles (_ : α) (τ : Launching) : Prop := τ.Settled

lemma steady_deleteToken (g : SSHHost) (tok : BootstrapToken) :
    Prog.Abides (fun e r => faithful e r = true) Steady (fun _ => True) (deleteToken g tok) := by
  refine (asks_deleteTokenByID (fun _ => trivial) tok.id).given.bind fun _ _ => ?_
  split_ifs
  · trivial
  · exact (key_setStatus (.bootstrapTokenID "") (fun _ => nofun) (fun _ => trivial) g).bind
      fun _ _ => trivial

lemma obeys_joinScript {g : SSHHost} (hj : σ.MayJoin nc h p) (hg : g.key = h.key)
    {q : Cluster.Prog (Except Err ExecResult)} (hd : Dials g.key .join q) :
    ObeysLaunch X Settles σ q := by
  have hset : σ.Settled := by
    rcases hj with rfl | ⟨rfl, _⟩ <;> trivial
  rcases hd with ⟨e, rfl⟩ | ⟨target, payload, rfl⟩
  · exact hset
  · refine ObeysLaunch.step ⟨nc, h, p, hj, hg.symm⟩ fun a _ => ?_
    have hn : σ.next (.sshStart g.key .join target payload) a = σ := by
      rcases hj with rfl | ⟨rfl, _⟩ <;> rfl
    rw [hn]
    cases a with
    | error e => exact hset
    | ok u =>
      have hw : Prog.Abides (fun e r => faithful e r = true) Steady (fun _ => True)
          (Cluster.request (.sshWait g.key .join)) := ⟨by simp [Steady], fun _ _ => trivial⟩
      exact ObeysLaunch.steady hw hset fun _ _ => hset

lemma obeys_runJoin (q : Preparation) {g : SSHHost} (hj : σ.MayJoin nc h q.profile)
    (hg : g.key = h.key) :
    ObeysLaunch X Settles σ (runJoin X q g) := by
  have hset : σ.Settled := by
    rcases hj with rfl | ⟨rfl, _⟩ <;> trivial
  have hmint : Prog.Abides (fun e r => faithful e r = true) Steady (fun _ => True)
      (Cluster.request .createToken) :=
    ⟨trivial, fun _ _ => trivial⟩
  refine ObeysLaunch.steady hmint hset fun a _ => ?_
  cases a with
  | error e => exact hset
  | ok tok =>
    dsimp only
    split
    · exact ObeysLaunch.steady (steady_deleteToken g tok) hset fun _ _ => hset
    · refine ObeysLaunch.steady (key_setStatus (.bootstrapTokenID tok.id) (fun _ => nofun)
        (fun _ => trivial) g) hset
        fun r hr => ?_
      obtain ⟨g', e⟩ := r
      cases e with
      | some e => exact ObeysLaunch.steady (steady_deleteToken g' tok) hset fun _ _ => hset
      | none =>
        refine (obeys_joinScript hj (hr.trans hg) (dials_runPhase _ g' q.profile .join _ _)).bind
          fun a τ hτ => ?_
        cases a with
        | error e => exact ObeysLaunch.steady (steady_deleteToken g' tok) hτ fun _ _ => hτ
        | ok x => exact hτ

lemma obeys_join (nodeClass : SSHNodeClass X) :
    ObeysLaunch X Settles (.held nc h) (join X nodeClass nc h) := by
  refine (obeys_prepare nodeClass).bind fun a τ ha => ?_
  obtain ⟨hs, ha⟩ := ha
  cases a with
  | error e => exact hs
  | ok q =>
    rw [ha q rfl]
    refine (obeys_runInstall q).bind fun r τ' hr => ?_
    obtain ⟨g, e⟩ := r
    obtain ⟨hs', hr⟩ := hr
    cases e with
    | some e => exact hs'
    | none =>
      obtain ⟨hg, hj⟩ := hr rfl
      exact obeys_runJoin q hj hg

lemma obeys_releaseHost (hσ : σ.Settled) (g : SSHHost) (healthy : Bool) (reason : String) :
    ObeysLaunch X Settles σ (releaseHost g healthy reason) := by
  refine ObeysLaunch.steady (asks_deleteBootstrapToken (fun _ => trivial) g).given hσ fun _ _ => ?_
  refine Monitor.ObeysGiven.bind (Q := Settles) ?_ fun _ τ hτ => hτ
  refine ObeysLaunch.step hσ fun a _ => ?_
  have hn : (σ.next (.patchStatus g (.release healthy reason)) a).Settled := by
    cases σ with
    | looking nc => exact hσ.elim
    | bystander => trivial
    | _ =>
      simp only [Launching.next, Launching.released]
      split_ifs <;> trivial
  cases a with
  | ok v => exact hn
  | error e => exact hn

lemma obeys_launch (nodeClass : SSHNodeClass X) :
    ObeysLaunch X (fun _ _ => True) (.held nc h) (launch X nodeClass nc h) := by
  refine (obeys_join nodeClass).bind fun r τ hτ => ?_
  obtain ⟨g, e⟩ := r
  cases e with
  | some e => exact (obeys_releaseHost hτ g _ _).bind fun _ _ _ => trivial
  | none =>
    have hadopt : Prog.Abides (fun e r => faithful e r = true) Steady (fun _ => True)
        (if nodeClass.adoptsProviderID then adoptProviderID g else pure (.ok (providerID g))) := by
      split_ifs
      · exact (asks_adoptProviderID (fun _ => trivial) trivial g).given
      · trivial
    refine ObeysLaunch.steady hadopt hτ fun a _ => ?_
    cases a with
    | error e => exact (obeys_releaseHost hτ g _ _).bind fun _ _ _ => trivial
    | ok id =>
      refine ObeysLaunch.steady
        (key_setStatus (.providerID id) (fun _ => nofun) (fun _ => trivial) g) hτ
        fun r _ => ?_
      obtain ⟨g', e⟩ := r
      cases e with
      | some e => trivial
      | none =>
        exact ObeysLaunch.steady (key_setStatus .markInUse (fun _ => nofun)
          (fun _ => trivial) g') hτ
          fun _ _ => trivial

def Chooses (nc : NodeClaim) (a : Except Err (Option SSHHost)) (τ : Launching) : Prop :=
  (∀ h, a = .ok (some h) → τ = .held nc h) ∧ (a = .ok none → τ = .choosing nc)

lemma chooses_error (e : Err) (τ : Launching) : Chooses nc (.error e) τ :=
  ⟨fun _ he => (nomatch he), fun he => nomatch he⟩

lemma chooses_none : Chooses nc (.ok none) (.choosing nc) :=
  ⟨fun _ he => (nomatch he), fun _ => rfl⟩

lemma chooses_some (h : SSHHost) : Chooses nc (.ok (some h)) (.held nc h) := by
  refine ⟨?_, fun he => nomatch he⟩
  rintro _ ⟨⟩
  rfl

lemma obeys_byClaim : ObeysLaunch X (Chooses nc) (.looking nc) (byClaim X nc) := by
  refine ObeysLaunch.step trivial fun a _ => ?_
  cases a with
  | error e => exact chooses_error e _
  | ok os =>
    simp only [Launching.next, Launching.listed]
    cases os.find? (fun h => claimHeldBy h nc) with
    | some h => exact chooses_some h
    | none => exact chooses_none

lemma obeys_claim (c : SSHHost) : ObeysLaunch X (fun a τ => (a.2 = .ok true → τ = .held nc a.1) ∧
    (a.2 = .ok false → τ = .choosing nc)) (.choosing nc) (claim c nc) := by
  refine ObeysLaunch.step ⟨nc, rfl⟩ fun a _ => ?_
  cases a with
  | ok h => exact ⟨fun _ => rfl, fun he => nomatch he⟩
  | error e =>
    refine ⟨fun he => ?_, fun _ => rfl⟩
    dsimp only at he
    split_ifs at he
    cases he

lemma obeys_claimFirst (cs : List SSHHost) :
    ObeysLaunch X (Chooses nc) (.choosing nc) (claimFirst nc cs) := by
  induction cs with
  | nil => exact chooses_none
  | cons c cs ih =>
    refine (obeys_claim c).bind fun a τ ha => ?_
    obtain ⟨hwon, hlost⟩ := ha
    match a with
    | (h, .error e) => exact chooses_error e _
    | (h, .ok true) =>
      rw [hwon rfl]
      exact chooses_some h
    | (h, .ok false) =>
      rw [hlost rfl]
      exact ih

lemma obeys_claimCheapest (nodeClass : SSHNodeClass X) (its : List InstanceType) :
    ObeysLaunch X (Chooses nc) (.choosing nc) (claimCheapest X nodeClass nc its) := by
  induction its with
  | nil => exact chooses_none
  | cons it its ih =>
    have hlist : ObeysLaunch X (fun _ τ => τ = .choosing nc) (.choosing nc)
        (available X nodeClass.hostSelector it.name) := by
      refine (Monitor.obeysGiven_of_abides
        (asks_available (P := fun e => ∃ ns, e = .listHosts ns) (fun ns => ⟨ns, rfl⟩) _ _).given
          ?_).conseq fun _ _ hτ => hτ.1
      rintro _ ⟨ns, rfl⟩
      exact ⟨trivial, fun _ => rfl⟩
    refine hlist.bind fun a τ hτ => ?_
    subst hτ
    cases a with
    | error e => exact chooses_error e _
    | ok cs =>
      refine (obeys_claimFirst cs).bind fun b τ hb => ?_
      obtain ⟨hsome, hnone⟩ := hb
      match b with
      | .error e => exact chooses_error e _
      | .ok (some h) =>
        rw [hsome h rfl]
        exact chooses_some h
      | .ok none =>
        rw [hnone rfl]
        exact ih

lemma obeys_create (nodeClass : SSHNodeClass X) (its : List InstanceType) :
    ObeysLaunch X (fun _ _ => True) (.looking nc) (create X nodeClass nc its) := by
  refine obeys_byClaim.bind fun a τ ha => ?_
  obtain ⟨hfound, hnone⟩ := ha
  match a with
  | .error e => trivial
  | .ok (some h) =>
    rw [hfound h rfl]
    exact obeys_launch nodeClass
  | .ok none =>
    rw [hnone rfl]
    refine (obeys_claimCheapest nodeClass (sortByPrice its)).bind fun b τ hb => ?_
    match b with
    | .error e | .ok none => trivial
    | .ok (some h) =>
      rw [hb.1 h rfl]
      exact obeys_launch nodeClass

def Elsewhere (e : Eff) : Prop := RoundRequest e ∨ TeardownRequest e

lemma Elsewhere.permits {e : Eff} (he : Elsewhere e) : Launching.Permits .bystander e := by
  have hs : Launching.Settled .bystander := trivial
  rcases he with he | he
  · cases he with
    | profile => exact .inl rfl
    | start h | wait h => rcases h with rfl | rfl <;> exact hs
    | _ => exact hs
  · cases he with
    | profile => exact .inl rfl
    | list => trivial
    | start h | wait h => rcases h with rfl | rfl <;> exact hs
    | _ => exact hs

lemma Elsewhere.next_eq {e : Eff} (he : Elsewhere e) (r : Res e) :
    Launching.next .bystander e r = .bystander := by
  rcases he with he | he
  · cases he with
    | start h | wait h => rcases h with rfl | rfl <;> rfl
    | _ => rfl
  · cases he with
    | start h | wait h => rcases h with rfl | rfl <;> rfl
    | _ => rfl

lemma obeys_bystander {q : Cluster.Prog α} (hq : Asks Elsewhere q) :
    ObeysLaunch X (fun _ _ => True) .bystander (q >>= fun _ => pure ()) :=
  (Monitor.obeysGiven_of_abides hq.given fun _ he => ⟨he.permits, he.next_eq⟩).bind
      fun _ _ _ => trivial

end Obeys

theorem launches_respected (X : Externals) :
    (launches X).RespectedGiven (fun e r => faithful e r = true) := by
  intro j σ hj
  cases j with
  | create nodeClass nc its =>
    cases hj
    exact (obeys_create nodeClass its).bind fun _ _ _ => trivial
  | delete nc =>
    cases hj
    exact obeys_bystander (asks_delete.mono fun _ => .inr)
  | reboot nc =>
    cases hj
    exact obeys_bystander (asks_reboot.mono fun _ => .inr)
  | reconcile k =>
    cases hj
    exact obeys_bystander ((asks_reconcile k).mono fun _ => .inl)

lemma faithful_answer {w w' : World} {ph ph' : Phases} {t : ℕ} {e : Eff} {r : Res e} (hv : w.Valid)
    (hf : ∀ t φ, ph t = some φ → φ.Facts w) (hm : Moves (X := X) w ph (.call t e r) w' ph') :
    faithful e r = true := by
  have hwrite {o o' : SSHHost} {wr : StatusWrite} {obs : Observed X} (hm : Moves w ph obs w' ph')
      (hobs : WriteSeen obs t o wr (.ok o')) : o'.key = o.key := by
    obtain ⟨φ, s, _, hfφ, hw, ha⟩ := Moves.answered hv hf hm hobs
    exact (landed_mem ha.of_ok).1.trans (hw.drifts hfφ.sound).key.symm
  cases e with
  | getHost k =>
    obtain ⟨_, _, _, _, _, hh, _⟩ := Moves.handled hm
    obtain ⟨o, rfl, _, _, hk⟩ | ⟨_, e, rfl, _⟩ := World.getHost_answer hv hh
    · exact decide_eq_true hk
    · rfl
  | patchStatus o wr =>
    cases r with
    | ok o' => exact decide_eq_true (hwrite hm (.inr rfl))
    | error e => rfl
  | updateStatus o wr =>
    cases r with
    | ok o' => exact decide_eq_true (hwrite hm (.inl rfl))
    | error e => rfl
  | _ => rfl

end KarpenterProviderSsh.Runs
