import KarpenterProviderSsh.Runs.Installs
import KarpenterProviderSsh.Runs.Registrations

/-! The install cache: what the stored marker of a host says of the install script that was started
on it last. -/

namespace KarpenterProviderSsh.Runs

open Api Cluster Scripts Providers Controllers Interleaving Config

variable {X : Externals}

section Histories

def runsInstall : (e : Eff) → Res e → Bool
  | .sshStart _ .install _ _, .ok _ => true
  | .sshWait _ .install, .ok _ => true
  | _, _ => false

def turnsLaunch : (e : Eff) → Res e → Bool
  | .getProfile _, .ok _ => true
  | .patchStatus _ (.set (.installed _)), a => carriedOut a
  | .patchStatus _ (.release _ _), a => carriedOut a
  | _, _ => false

def profileOf : List (Reply (machine X)) → Option SSHJoinProfile
  | [] => none
  | ⟨_, .getProfile _, .ok p⟩ :: _ => some p
  | _ :: s => profileOf s

def pendingInstall : List (Reply (machine X)) → Option NamespacedName
  | [] => none
  | ⟨_, .sshStart k .install _ _, .ok _⟩ :: _ => some k
  | ⟨_, .patchStatus _ (.set (.installed _)), a⟩ :: s =>
    if carriedOut a then none else pendingInstall s
  | ⟨_, .patchStatus _ (.release _ _), a⟩ :: s => if carriedOut a then none else pendingInstall s
  | _ :: s => pendingInstall s

structure Attempt where
  thread : ℕ
  marker : String
  succeeded : Bool
deriving DecidableEq

/-- The install script started last on a host. -/
def lastInstall (k : NamespacedName) : Log (machine X) → Option Attempt
  | [] => none
  | ⟨_, .call t (.sshStart j .install _ _) (.ok _)⟩ :: l =>
    if j = k then (profileOf (Log.own t l)).map fun p => ⟨t, installedMarker p, false⟩
    else lastInstall k l
  | ⟨_, .call t (.sshWait j .install) (.ok _)⟩ :: l =>
    if j = k then (lastInstall k l).map fun a => if a.thread = t then { a with succeeded := true }
    else a
    else lastInstall k l
  | _ :: l => lastInstall k l

variable {l : Log (machine X)} {w : World} {s : List (Reply (machine X))} {t : ℕ}
  {e : Eff} {r : Res e}

lemma profileOf_cons (hr : turnsLaunch e r = false) : profileOf (⟨w, e, r⟩ :: s) = profileOf s := by
  cases e with
  | getProfile name =>
    cases r with
    | ok p => cases hr
    | error e => rfl
  | _ => rfl

lemma pendingInstall_cons (hi : runsInstall e r = false) (hr : turnsLaunch e r = false) :
    pendingInstall (⟨w, e, r⟩ :: s) = pendingInstall s := by
  cases e with
  | sshStart k phase a b =>
    cases phase with
    | install =>
      cases r with
      | ok u => cases hi
      | error e => rfl
    | _ => rfl
  | patchStatus o wr =>
    cases wr with
    | set x =>
      cases x with
      | installed m =>
        have hc : carriedOut r = false := hr
        simp [pendingInstall, hc]
      | _ => rfl
    | release b s =>
      have hc : carriedOut r = false := hr
      simp [pendingInstall, hc]
    | _ => rfl
  | _ => rfl

lemma lastInstall_quiet (k : NamespacedName) (hi : runsInstall e r = false) :
    lastInstall k (⟨w, .call t e r⟩ :: l) = lastInstall k l := by
  cases e with
  | sshStart j phase a b =>
    cases phase with
    | install =>
      cases r with
      | ok u => cases hi
      | error e => rfl
    | _ => rfl
  | sshWait j phase =>
    cases phase with
    | install =>
      cases r with
      | ok x => cases hi
      | error e => rfl
    | _ => rfl
  | _ => rfl

lemma lastInstall_step {k : NamespacedName} {a : Attempt} (obs : Observed X)
    (h : lastInstall k l = some a) :
    (∃ u x y, obs = .call u (.sshStart k .install x y) (.ok ())) ∨
      (∃ x, obs = .call a.thread (.sshWait k .install) (.ok x) ∧
        lastInstall k (⟨w, obs⟩ :: l) = some { a with succeeded := true }) ∨
      lastInstall k (⟨w, obs⟩ :: l) = some a := by
  cases obs with
  | call u e r =>
    cases hi : runsInstall e r with
    | false => exact .inr (.inr ((lastInstall_quiet k hi).trans h))
    | true =>
      cases e with
      | sshStart j phase x y =>
        cases phase with
        | install =>
          cases r with
          | ok v =>
            by_cases hj : j = k
            · exact .inl ⟨u, x, y, by rw [hj]⟩
            · exact .inr (.inr (by simp [lastInstall, hj, h]))
          | error e => cases hi
        | _ => cases hi
      | sshWait j phase =>
        cases phase with
        | install =>
          cases r with
          | ok x =>
            by_cases hj : j = k
            · by_cases hu : a.thread = u
              · exact .inr (.inl ⟨x, by rw [hj, hu], by simp [lastInstall, hj, h, hu]⟩)
              · exact .inr (.inr (by simp [lastInstall, hj, h, hu]))
            · exact .inr (.inr (by simp [lastInstall, hj, h]))
          | error e => cases hi
        | _ => cases hi
      | _ => cases hi
  | _ => exact .inr (.inr h)

end Histories

section Promises

/-- A Create that resumes is shown its host as it is stored, as far as claim and install go. -/
def resumesCurrent (l : Log (machine X)) (w : World) : Observed X → Bool
  | .call t (.listHosts _) (.ok os) =>
    decide ((l.own t).isEmpty = true → ∀ a ∈ w.threads t, ∀ nc ∈ a.owner.launching, ∀ o ∈ os,
      claimHeldBy o nc = true → ∃ c ∈ w.current o.key, c.status.claimRef = o.status.claimRef ∧
        (o.status.installedProfile = "" ∨ o.status.installedProfile = c.status.installedProfile))
  | _ => true

/-- No claim is taken from a Create in flight. -/
def sparesLaunches (w : World) : Observed X → Bool
  | .call _ (.patchStatus o (.probe .releaseStale _)) a =>
    decide (carriedOut a = true → ∀ u ∈ w.running,
      ∀ b ∈ w.threads u, ∀ nc ∈ b.owner.launching, o.status.claimRef ≠ some nc.ref)
  | _ => true

/-- Whether an operation may leave its install unrecorded: only where no install is recorded. -/
def mayForget (s : List (Reply (machine X))) (w : World) : Bool :=
  (pendingInstall s).all fun k => (w.current k).all fun c => c.status.installedProfile = ""

/-- An install that was started over a recorded one is itself recorded before its Create ends or
gives the host back. -/
def recordsInstalls (l : Log (machine X)) (w : World) : Observed X → Bool
  | .finish t | .crash t => mayForget (l.own t) w
  | .call t (.patchStatus _ (.release _ _)) a => !carriedOut a || mayForget (l.own t) w
  | _ => true

def installsSafely (l : Log (machine X)) (w : World) (obs : Observed X) : Bool :=
  namesClaims obs && serialises w obs && resumesCurrent l w obs && sparesLaunches w obs &&
    recordsInstalls l w obs

end Promises

namespace Launching

def claim : Launching → Option NodeClaim
  | .looking nc | .choosing nc | .held nc _ | .prepared nc _ _ | .installing nc _ _
    | .installed nc _ _
  | .ready nc _ _ => some nc
  | _ => none

def holds : Launching → Option (NodeClaim × SSHHost)
  | .held nc h | .prepared nc h _ | .installing nc h _ | .installed nc h _ | .ready nc h _ =>
    some (nc, h)
  | _ => none

def profile : Launching → Option SSHJoinProfile
  | .prepared _ _ p | .installing _ _ p | .installed _ _ p | .ready _ _ p => some p
  | _ => none

def pending : Launching → Option NamespacedName
  | .installing _ h _ | .installed _ h _ => some h.key
  | _ => none

def undecided : Launching → Bool
  | .held _ _ | .prepared _ _ _ => true
  | _ => false

def attempt (t : ℕ) : Launching → Option (NamespacedName × Attempt)
  | .installing _ h p => some (h.key, ⟨t, installedMarker p, false⟩)
  | .installed _ h p | .ready _ h p => some (h.key, ⟨t, installedMarker p, true⟩)
  | _ => none

end Launching

inductive Advance : Launching → (e : Eff) → Res e → Launching → Prop
  | stay {σ e r} : σ.Settled → runsInstall e r = false →
      (σ.holds ≠ none → turnsLaunch e r = false) → Advance σ e r σ
  | resume {nc ns os h} : h ∈ os → claimHeldBy h nc = true →
      Advance (.looking nc) (.listHosts ns) (.ok os) (.held nc h)
  | search {nc ns os} : Advance (.looking nc) (.listHosts ns) (.ok os) (.choosing nc)
  | lost {nc ns e} : Advance (.looking nc) (.listHosts ns) (.error e) .over
  | claim {nc o wr h} : Advance (.choosing nc) (.updateStatus o wr) (.ok h) (.held nc h)
  | read {nc h name p} : Advance (.held nc h) (.getProfile name) (.ok p) (.prepared nc h p)
  | start {nc h p a b} : Advance (.prepared nc h p) (.sshStart h.key .install a b) (.ok ())
      (.installing nc h p)
  | exit {nc h p x} :
      Advance (.installing nc h p) (.sshWait h.key .install) (.ok x) (.installed nc h p)
  | record {nc h p o a} : carriedOut a = true →
      Advance (.installed nc h p) (.patchStatus o (.set (.installed (installedMarker p))))
        a (.ready nc h p)
  | giveBack {σ o b s a} : carriedOut a = true → Advance σ (.patchStatus o (.release b s)) a .over

lemma Advance.claim_eq {σ τ : Launching} {e : Eff} {r : Res e}
    (h : Advance σ e r τ) {nc : NodeClaim} (hc : τ.claim = some nc) : σ.claim = some nc := by
  cases h with
  | stay => exact hc
  | _ =>
    cases hc
    try rfl

lemma advance_release {σ : Launching} (hσ : σ.Settled) (o : SSHHost) (b : Bool) (s : String)
    (a : Except Err SSHHost) :
    Advance σ (.patchStatus o (.release b s)) a (σ.next (.patchStatus o (.release b s)) a) := by
  have hkeep (hn : σ.holds ≠ none → carriedOut a = false) :
      Advance σ (.patchStatus o (.release b s)) a σ :=
    .stay hσ rfl hn
  cases hc : carriedOut a with
  | true =>
    cases σ with
    | looking nc => exact hσ.elim
    | bystander => exact hkeep fun hn => absurd rfl hn
    | _ =>
      simp only [Launching.next, Launching.released, hc, if_true]
      exact .giveBack hc
  | false =>
    have hn : σ.next (.patchStatus o (.release b s)) a = σ := by
      cases σ <;> simp [Launching.next, Launching.released, hc]
    rw [hn]
    exact hkeep fun _ => hc

lemma advance_steady {σ : Launching} {e : Eff} (he : Steady e) (hσ : σ.Settled) (r : Res e) :
    Advance σ e r (σ.next e r) := by
  rw [he.next_eq r]
  refine .stay hσ ?_ fun _ => ?_
  · cases e with
    | sshStart k phase a b =>
      cases phase with
      | install => exact absurd rfl he.1
      | _ => rfl
    | sshWait k phase =>
      cases phase with
      | install => exact absurd rfl he
      | _ => rfl
    | _ => rfl
  · cases e with
    | patchStatus o wr =>
      cases wr with
      | set x =>
        cases x with
        | installed m => exact absurd rfl (he m)
        | _ => rfl
      | release => exact he.elim
      | _ => rfl
    | getProfile => exact he.elim
    | _ => rfl

lemma advance_next {σ : Launching} {e : Eff} (hp : σ.Permits e) (r : Res e) :
    Advance σ e r (σ.next e r) := by
  cases e with
  | listHosts ns =>
    cases σ with
    | looking nc =>
      cases r with
      | error e => exact .lost
      | ok os =>
        simp only [Launching.next, Launching.listed]
        cases hf : os.find? (fun h => claimHeldBy h nc) with
        | none => exact .search
        | some h => exact .resume (List.mem_of_find?_eq_some hf) (by simpa using List.find?_some hf)
    | _ => exact .stay trivial rfl fun _ => rfl
  | updateStatus o wr =>
    obtain ⟨nc, rfl⟩ := hp
    cases r with
    | ok h => exact .claim
    | error e => exact .stay trivial rfl fun _ => rfl
  | getProfile name =>
    rcases hp with rfl | ⟨nc, h, rfl⟩
    · exact .stay trivial rfl fun hn => absurd rfl hn
    · cases r with
      | ok p => exact .read
      | error e => exact .stay trivial rfl fun _ => rfl
  | sshStart k phase a b =>
    cases phase with
    | install =>
      obtain ⟨nc, h, p, rfl, rfl⟩ := hp
      cases r with
      | ok u => exact .start
      | error e => exact .stay trivial rfl fun _ => rfl
    | join =>
      obtain ⟨nc, h, p, rfl | ⟨rfl, _⟩, _⟩ := hp <;> exact .stay trivial rfl fun _ => rfl
    | _ => exact advance_steady (by simp [Steady]) hp r
  | sshWait k phase =>
    cases phase with
    | install =>
      obtain ⟨nc, h, p, rfl, rfl⟩ := hp
      cases r with
      | ok x => exact .exit
      | error e => exact .stay trivial rfl fun _ => rfl
    | _ => exact advance_steady (by simp [Steady]) hp r
  | patchStatus o wr =>
    cases wr with
    | set x =>
      cases x with
      | installed m =>
        obtain ⟨nc, h, p, rfl, _, rfl⟩ := hp
        cases hc : carriedOut r with
        | true =>
          simp only [Launching.next, Launching.recorded, hc, if_true]
          exact .record hc
        | false =>
          simp only [Launching.next, Launching.recorded, hc]
          exact .stay trivial rfl fun _ => hc
      | _ => exact advance_steady (by simp [Steady]) hp r
    | release b s => exact advance_release hp o b s r
    | claim ref =>
      exact .stay hp rfl fun _ => rfl
    | probe => exact advance_steady (by simp [Steady]) hp r
  | _ => exact advance_steady (by simp [Steady]) hp r

section Answers

variable {w w' : World} {ph ph' : Phases} {t : ℕ} {e : Eff} {r : Res e}

lemma Writes.installedProfile {φ : Phase} {o s : SSHHost} {wr : StatusWrite}
    (h : Writes φ o s wr) (hs : φ.Sound) :
    (outcome o s wr).installedProfile = s.status.installedProfile ∨
      ∃ m, wr = .set (.installed m) ∧ (outcome o s wr).installedProfile = m := by
  have he : (outcome o s wr).installedProfile = (wr.apply s.status).installedProfile := by
    rcases h.outcome_cases hs with he | ⟨_, _, _, _, _, _, _, _, _, _, _, he⟩ <;> rw [he]
  rw [he]
  cases h with
  | claim | clear | release | teardown => exact .inl rfl
  | @set _ _ _ _ x =>
    cases x with
    | installed m => exact .inr ⟨m, rfl, rfl⟩
    | _ => exact .inl rfl
  | probe ready hp =>
    obtain ⟨conds, he⟩ := apply_probe _ ready _
    rw [he]
    cases hp <;> exact .inl rfl

lemma Writes.clears {φ : Phase} {o s : SSHHost} {wr : StatusWrite}
    (h : Writes φ o s wr) (hs : φ.Sound) (hsome : s.status.claimRef.isSome = true)
    (hnone : (outcome o s wr).claimRef = none) :
    (∃ healthy reason nc, wr = .release healthy reason ∧ φ.owner.nodeClaim = some nc ∧
      claimHeldBy s nc = true) ∨ ∃ ready, wr = .probe .releaseStale ready ∧ o = s := by
  have hc : (wr.apply s.status).claimRef = none := by
    rcases h.outcome_cases hs with he | ⟨_, _, _, _, _, _, _, _, _, _, _, he⟩ <;>
      rw [he] at hnone <;> exact hnone
  have hkept (he : (wr.apply s.status).claimRef = s.status.claimRef) : False := by
    rw [hc] at he
    rw [← he] at hsome
    cases hsome
  cases h with
  | claim => cases hc
  | @set _ _ _ _ x => cases x <;> exact (hkept rfl).elim
  | clear => exact (hkept rfl).elim
  | release reason hcl =>
    exact .inl ⟨_, reason, _, rfl, by rw [(Phase.close_objects hcl).2]; rfl,
      (Phase.close_sound hcl hs).1.1⟩
  | teardown reason => exact .inl ⟨_, reason, _, rfl, rfl, hs⟩
  | @probe _ _ p ready hp =>
    have he :
        ((StatusWrite.probe p ready).apply o.status).claimRef = (p.apply o.status).claimRef := by
      cases ready <;> rfl
    rw [he] at hkept
    cases hp with
    | release => exact .inr ⟨ready, rfl, rfl⟩
    | _ => exact (hkept rfl).elim

def Records (obs : Observed X) (k : NamespacedName) (u : ℕ) (m : String) : Prop :=
  ∃ o a, obs = .call u (.patchStatus o (.set (.installed m))) a ∧ o.key = k ∧ carriedOut a = true

lemma Moves.installedProfile {obs : Observed X} (hv : w.Valid)
    (hf : ∀ t φ, ph t = some φ → φ.Facts w) (hm : Moves w ph obs w' ph') {k : NamespacedName}
    {c' : SSHHost} (hc : w'.current k = some c') :
    (∃ u m, Records obs k u m ∧ c'.status.installedProfile = m) ∨
      (∃ c, w.current k = some c ∧ c'.status.installedProfile = c.status.installedProfile) ∧
      ∀ u m, ¬ Records obs k u m := by
  by_cases hrec : ∃ u m, Records obs k u m
  · obtain ⟨u, m, o, a, rfl, rfl, hdone⟩ := hrec
    obtain ⟨φ, s, _, hfφ, hw, ha⟩ := Moves.answered hv hf hm (.inr rfl)
    refine .inl ⟨u, m, ⟨o, a, rfl, rfl, hdone⟩, ?_⟩
    cases ha with
    | landed o' hl _ =>
      rw [(hw.drifts hfφ.sound).key, hl.current] at hc
      cases hc
      rw [hl.status]
      cases hw with
      | set => rw [outcome_self]; rfl
    | refused e _ he hr =>
      subst he
      rcases hr with ⟨rfl, _⟩ | rfl | ⟨m, rfl⟩ <;> cases hdone
  · push Not at hrec
    refine .inr ⟨?_, hrec⟩
    cases (Moves.change hv hf hm).at k with
    | same hcur _ => exact ⟨c', hcur ▸ hc, rfl⟩
    | edited c o' hb hp hst =>
      rw [hp.current] at hc
      cases hc
      exact ⟨c, hb, by rw [hst]⟩
    | written u φ o s wr a o' hφ hfφ hw hobs ha hk hl =>
      rw [hl.current] at hc
      cases hc
      rw [hl.status]
      rcases hw.installedProfile hfφ.sound with he | ⟨m, rfl, _⟩
      · exact ⟨s, hl.before, he⟩
      · exact absurd ⟨o, a, hobs.patched hm (by simp), hk, carriedOut_of ha⟩ (hrec u m)

end Answers

section Kept

variable {l : Log (machine X)} {w w' : World} {ph ph' : Phases} {obs : Observed X}
  {t : ℕ} {σ : Launching}

structure Underway (l : Log (machine X)) (w : World) (t : ℕ) (σ : Launching) : Prop where
  first : ∀ nc, σ = .looking nc → l.own t = []
  profile : ∀ p, σ.profile = some p → profileOf (l.own t) = some p
  pending : ∀ k, σ.pending = some k → pendingInstall (l.own t) = some k
  holds : ∀ nc h, σ.holds = some (nc, h) → ∃ c, w.current h.key = some c ∧
    c.status.claimRef = some nc.ref ∧ (σ.undecided = true → h.status.installedProfile = "" ∨
      h.status.installedProfile = c.status.installedProfile)
  last : ∀ k a, σ.attempt t = some (k, a) → lastInstall k l = some a

lemma Underway.of_none (hs : σ.Settled) (hh : σ.holds = none) : Underway l w t σ := by
  refine ⟨fun nc hn => (hn ▸ hs :).elim, ?_, ?_, by simp [hh], ?_⟩
  all_goals
    cases σ with
    | held | prepared | installing | installed | ready => cases hh
    | _ => simp [Launching.profile, Launching.pending, Launching.attempt]

lemma Underway.of_held {nc : NodeClaim} {h : SSHHost} (hc : ∃ c, w.current h.key = some c ∧
    c.status.claimRef = some nc.ref ∧
      (h.status.installedProfile = "" ∨ h.status.installedProfile = c.status.installedProfile)) :
    Underway l w t (.held nc h) := by
  refine ⟨by simp, by simp [Launching.profile], by simp [Launching.pending],
    ?_, by simp [Launching.attempt]⟩
  rintro _ _ ⟨⟩
  obtain ⟨c, hcur, hcr, hi⟩ := hc
  exact ⟨c, hcur, hcr, fun _ => hi⟩

def Backing (l : Log (machine X)) (k : NamespacedName) (m : String) : Prop :=
  m = "" ∨ (∃ u, lastInstall k l = some ⟨u, m, true⟩) ∨ ∃ u σ, (launches X).watch u l = some σ ∧
    σ.pending = some k

structure CacheInv (l : Log (machine X)) (w : World) (ph : Phases) : Prop where
  registered : Registered w ph
  serial : Serial w
  named : Named w
  watched : ∀ t φ, ph t = some φ → ∃ σ, (launches X).watch t l = some σ
  placed : ∀ t σ, (launches X).watch t l = some σ → ∃ φ, ph t = some φ ∧ ∀ nc, σ.claim = some nc →
    φ.owner = .create nc
  underway : ∀ t σ, (launches X).watch t l = some σ → Underway l w t σ
  stored : ∀ k c, w.current k = some c → Backing l k c.status.installedProfile

lemma Launching.claim_of_holds {nc : NodeClaim} {h : SSHHost} (hh : σ.holds = some (nc, h)) :
    σ.claim = some nc := by
  cases σ <;> cases hh <;> rfl

lemma CacheInv.owner (hI : CacheInv l w ph) (hσ : (launches X).watch t l = some σ) {nc : NodeClaim}
    (hc : σ.claim = some nc) : ∃ φ, ph t = some φ ∧ φ.owner = .create nc := by
  obtain ⟨φ, hφ, ho⟩ := hI.placed t σ hσ
  exact ⟨φ, hφ, ho nc hc⟩

lemma CacheInv.same_holder (hI : CacheInv l w ph) {u : ℕ} {τ : Launching}
    {nc nc' : NodeClaim} {h h' : SSHHost} (hσ : (launches X).watch t l = some σ)
    (hτ : (launches X).watch u l = some τ) (hh : σ.holds = some (nc, h))
    (hh' : τ.holds = some (nc', h')) (hk : h.key = h'.key) : t = u := by
  obtain ⟨c, hc, hcr, _⟩ := (hI.underway t σ hσ).holds nc h hh
  obtain ⟨c', hc', hcr', _⟩ := (hI.underway u τ hτ).holds nc' h' hh'
  rw [hk, hc'] at hc
  cases hc
  obtain ⟨φ, hφ, ho⟩ := hI.owner hσ (Launching.claim_of_holds hh)
  obtain ⟨χ, hχ, ho'⟩ := hI.owner hτ (Launching.claim_of_holds hh')
  refine hI.serial.holder_eq hI.registered hφ hχ (by rw [ho]; rfl) (by rw [ho']; rfl) ?_ hcr
  simp only [claimHeldBy, hcr']
  exact heldBy_ref nc'

lemma CacheInv.acts (hI : CacheInv l w ph) {e : Eff} {r : Res e}
    (hadm : (launches X).Admits l (.call t e r)) (hm : Moves (X := X) w ph (.call t e r) w' ph') :
    ∃ σ τ, (launches X).watch t l = some σ ∧ (launches X).watch t (⟨w, .call t e r⟩ :: l) = some τ ∧
    σ.Permits e ∧
      Advance σ e r τ := by
  obtain ⟨φ, _, _, hφ, _⟩ := Moves.handled hm
  obtain ⟨σ, hσ⟩ := hI.watched t φ hφ
  have hp : σ.Permits e := hadm σ hσ
  exact ⟨σ, σ.next e r, hσ, (Monitor.watch_call e r).trans (congrArg (Option.map _) hσ), hp,
    advance_next hp r⟩

lemma CacheInv.claim_stays (hv : w.Valid) (hf : ∀ t φ, ph t = some φ → φ.Facts w)
    (hI : CacheInv l w ph) (hA : sparesLaunches w obs = true) (hm : Moves w ph obs w' ph')
    (hσ : (launches X).watch t l = some σ) {nc : NodeClaim} {h : SSHHost}
    (hh : σ.holds = some (nc, h))
    (hback : ∀ o b s a, obs = .call t (.patchStatus o (.release b s)) a → carriedOut a = false) :
    ∃ c, w'.current h.key = some c ∧ c.status.claimRef = some nc.ref := by
  obtain ⟨c, hc, hcr, _⟩ := (hI.underway t σ hσ).holds nc h hh
  obtain ⟨φ, hφ, ho⟩ := hI.owner hσ (Launching.claim_of_holds hh)
  cases (Moves.change hv hf hm).from hc with
  | same hcur => exact ⟨c, hcur, hcr⟩
  | edited o' hp hst => exact ⟨o', hp.current, by rw [hst, hcr]⟩
  | written u χ o wr a o' hχ hfχ hw hobs ha hk hl =>
    rcases hw.claimRef_cases hfχ.sound with he | ⟨hnone, hsome, _⟩ | ⟨_, _, _, _, _, hcl, _⟩
    · exact ⟨o', hl.current, by rw [hl.status, he, hcr]⟩
    · exfalso
      have hdone := carriedOut_of ha
      rcases hw.clears hfχ.sound hsome hnone with ⟨b, reason, nc', rfl, hnc', hheld⟩ |
        ⟨ready, rfl, rfl⟩
      · -- only the Create itself, and it has not
        obtain rfl := hI.serial.holder_eq hI.registered hφ hχ (by rw [ho]; rfl) hnc' hheld hcr
        rw [hback o b reason a (hobs.patched hm (by simp))] at hdone
        cases hdone
      · obtain ⟨b, hb, hbo, _⟩ := hI.registered.record t φ hφ
        obtain rfl := hobs.patched hm (by simp)
        simp only [sparesLaunches, decide_eq_true_eq] at hA
        exact hA hdone t (hI.registered.running t b hb).1 b hb nc (by rw [hbo, ho]; rfl) hcr
    · simp [claimable, hcr] at hcl

lemma CacheInv.marker_stays (hv : w.Valid) (hf : ∀ t φ, ph t = some φ → φ.Facts w)
    (hI : CacheInv l w ph) (hadm : (launches X).Admits l obs) (hm : Moves w ph obs w' ph')
    (hσ : (launches X).watch t l = some σ) {nc : NodeClaim} {h : SSHHost}
    (hh : σ.holds = some (nc, h)) (hund : σ.undecided = true) {c c' : SSHHost}
    (hc : w.current h.key = some c) (hc' : w'.current h.key = some c') :
    c'.status.installedProfile = c.status.installedProfile := by
  rcases Moves.installedProfile hv hf hm hc' with ⟨u, m, ⟨o, a, rfl, hk, _⟩, _⟩ | ⟨⟨d, hd, he⟩, _⟩
  · obtain ⟨τ, _, hτ, _, ⟨nc', h', p, rfl, hk', _⟩, _⟩ := hI.acts hadm hm
    obtain rfl := hI.same_holder hσ hτ hh rfl (hk.symm.trans hk')
    rw [hσ] at hτ
    cases hτ
    cases hund
  · rw [hc] at hd
    cases hd
    exact he

lemma CacheInv.holds_on (hv : w.Valid) (hf : ∀ t φ, ph t = some φ → φ.Facts w)
    (hI : CacheInv l w ph) (hA : sparesLaunches w obs = true) (hadm : (launches X).Admits l obs)
    (hm : Moves w ph obs w' ph') (hσ : (launches X).watch t l = some σ) {nc : NodeClaim}
    {h : SSHHost} (hh : σ.holds = some (nc, h)) {u : Bool} (hu : u = true → σ.undecided = true)
    (hback : ∀ o b s a, obs = .call t (.patchStatus o (.release b s)) a → carriedOut a = false) :
    ∃ c, w'.current h.key = some c ∧ c.status.claimRef = some nc.ref ∧
      (u = true → h.status.installedProfile = "" ∨
        h.status.installedProfile = c.status.installedProfile) := by
  obtain ⟨c', hc', hcr'⟩ := hI.claim_stays hv hf hA hm hσ hh hback
  obtain ⟨c, hc, _, hi⟩ := (hI.underway t σ hσ).holds nc h hh
  refine ⟨c', hc', hcr', fun hu' => ?_⟩
  rw [hI.marker_stays hv hf hadm hm hσ hh (hu hu') hc hc']
  exact hi (hu hu')

lemma Underway.other (hv : w.Valid) (hf : ∀ t φ, ph t = some φ → φ.Facts w) (hI : CacheInv l w ph)
    (hA : sparesLaunches w obs = true) (hadm : (launches X).Admits l obs)
    (hm : Moves w ph obs w' ph') (hσ : (launches X).watch t l = some σ)
    (hact : obs.actor ≠ some t) : Underway (⟨w, obs⟩ :: l) w' t σ := by
  have hU := hI.underway t σ hσ
  have hown : Log.own t (⟨w, obs⟩ :: l) = l.own t := Log.own_other hact
  refine ⟨fun nc hn => hown.trans (hU.first nc hn), fun p hp => hown ▸ hU.profile p hp,
    fun k hk => hown ▸ hU.pending k hk, fun nc h hh => ?_, fun k a ha => ?_⟩
  · refine hI.holds_on hv hf hA hadm hm hσ hh id ?_
    rintro o b s a rfl
    exact absurd rfl hact
  · have hlast := hU.last k a ha
    obtain ⟨nc, h, hh, hk, ht⟩ : ∃ nc h, σ.holds = some (nc, h) ∧ h.key = k ∧ a.thread = t := by
      cases σ <;> cases ha <;> exact ⟨_, _, rfl, rfl, rfl⟩
    rcases lastInstall_step (w := w) obs hlast with ⟨u, x, y, rfl⟩ | ⟨x, rfl, _⟩ | hsame
    · -- nobody else holds the host
      obtain ⟨τ, _, hτ, _, ⟨nc', h', p, rfl, hk'⟩, _⟩ := hI.acts hadm hm
      exact absurd (congrArg some (hI.same_holder hσ hτ hh rfl (hk.trans hk'.symm)).symm) hact
    · exact absurd (congrArg some ht) hact
    · exact hsame

lemma holds_resumed (hv : w.Valid) (hI : CacheInv l w ph) {nc : NodeClaim} {ns : String}
    {os : List SSHHost} (hA : resumesCurrent (X := X) l w (.call t (.listHosts ns) (.ok os)) = true)
    (hm : Moves (X := X) w ph (.call t (.listHosts ns) (.ok os)) w' ph')
    (hσ : (launches X).watch t l = some (.looking nc)) {h : SSHHost} (hmem : h ∈ os)
    (hh : claimHeldBy h nc = true) :
    ∃ c, w'.current h.key = some c ∧ c.status.claimRef = some nc.ref ∧
      (h.status.installedProfile = "" ∨ h.status.installedProfile = c.status.installedProfile) := by
  obtain ⟨φ, hφ, ho⟩ := hI.owner hσ rfl
  obtain ⟨b, hb, hbo, _⟩ := hI.registered.record t φ hφ
  obtain ⟨_, _, _, _, _, hhandle, _⟩ := Moves.handled hm
  have hown := (hI.underway t _ hσ).first nc rfl
  simp only [resumesCurrent, hown, List.isEmpty_nil, true_implies, decide_eq_true_eq] at hA
  obtain ⟨c, hc, hcr, hi⟩ := hA b hb nc (by rw [hbo, ho]; rfl) h hmem hh
  obtain ⟨os', he, _, hstored⟩ | ⟨_, _, he⟩ := World.listHosts_answer hv hhandle <;> cases he
  refine ⟨c, ?_, ?_, hi⟩
  · rw [((World.handle_frame hhandle).store (by simp) (by simp)).current]
    exact hc
  · rw [hcr]
    exact claimRef_of_heldBy hI.named (hstored h hmem) hh
      (hI.named.creates t b nc hb (hbo.trans ho))

lemma holds_claimed (hv : w.Valid) (hf : ∀ t φ, ph t = some φ → φ.Facts w)
    (hI : CacheInv l w ph) {nc : NodeClaim} {o h : SSHHost} {wr : StatusWrite}
    (hm : Moves (X := X) w ph (.call t (.updateStatus o wr) (.ok h)) w' ph')
    (hσ : (launches X).watch t l = some (.choosing nc)) :
    w'.current h.key = some h ∧ h.status.claimRef = some nc.ref := by
  obtain ⟨ref, rfl⟩ := Moves.update_claim hm
  obtain ⟨φ, s, hφ, hfφ, hw, ha⟩ := Moves.answered hv hf hm (.inl rfl)
  obtain ⟨χ, hχ, ho⟩ := hI.owner hσ rfl
  rw [hφ] at hχ
  cases hχ
  have hl := ha.of_ok
  refine ⟨by rw [(landed_mem hl).1]; exact hl.current, ?_⟩
  cases hw with
  | claim =>
    cases ho
    rw [hl.status, outcome_self]
    rfl

lemma Underway.act (hv : w.Valid) (hf : ∀ t φ, ph t = some φ → φ.Facts w) (hI : CacheInv l w ph)
    {e : Eff} {r : Res e} {τ : Launching} (hA : installsSafely (X := X) l w (.call t e r) = true)
    (hadm : (launches X).Admits l (.call t e r)) (hm : Moves (X := X) w ph (.call t e r) w' ph')
    (hσ : (launches X).watch t l = some σ) (hp : σ.Permits e) (ha : Advance σ e r τ) :
    Underway (⟨w, .call t e r⟩ :: l) w' t τ := by
  simp only [installsSafely, Bool.and_eq_true] at hA
  obtain ⟨⟨⟨_, hres⟩, hspare⟩, _⟩ := hA
  have hU := hI.underway t σ hσ
  have hown : Log.own t (⟨w, .call t e r⟩ :: l) = ⟨w, e, r⟩ :: l.own t := Log.own_call e r
  have hhold {nc : NodeClaim} {h : SSHHost} {u : Bool} (hh : σ.holds = some (nc, h))
      (hu : u = true → σ.undecided = true)
      (hback : turnsLaunch e r = false ∨ ∀ o b s, e ≠ .patchStatus o (.release b s)) := by
    refine hI.holds_on hv hf hspare hadm hm hσ hh hu ?_
    rintro o b s a ⟨⟩
    exact hback.elim id fun h => absurd rfl (h o b s)
  cases ha with
  | stay hs hi ht =>
    refine ⟨fun nc hn => (hn ▸ hs :).elim, fun p hp => ?_, fun k hk => ?_, fun nc h hh => ?_,
      fun k a ha => ?_⟩
    · rw [hown, profileOf_cons (ht (by cases σ <;> cases hp <;> exact nofun))]
      exact hU.profile p hp
    · rw [hown, pendingInstall_cons hi (ht (by cases σ <;> cases hk <;> exact nofun))]
      exact hU.pending k hk
    · exact hhold hh id (.inl (ht (by rw [hh]; exact nofun)))
    · exact (lastInstall_quiet k hi).trans (hU.last k a ha)
  | resume hmem hh =>
    exact .of_held (holds_resumed hv hI hres hm hσ hmem hh)
  | @claim nc o wr h =>
    obtain ⟨hc, hcr⟩ := holds_claimed hv hf hI hm hσ
    exact .of_held ⟨h, hc, hcr, .inr rfl⟩
  | search | lost | giveBack => exact .of_none trivial rfl
  | read =>
    refine ⟨by simp, ?_, by simp [Launching.pending], ?_, by simp [Launching.attempt]⟩
    · rintro _ ⟨⟩
      rw [hown]
      rfl
    · rintro _ _ ⟨⟩
      exact hhold rfl (fun _ => rfl) (.inr (by simp))
  | @start nc h p x y =>
    have hprof := hU.profile p rfl
    refine ⟨by simp, ?_, ?_, ?_, ?_⟩
    · rintro _ ⟨⟩
      rw [hown, profileOf_cons rfl]
      exact hprof
    · rintro _ ⟨⟩
      rw [hown]
      rfl
    · rintro _ _ ⟨⟩
      exact hhold rfl (by simp [Launching.undecided]) (.inr (by simp))
    · rintro _ _ ⟨⟩
      simp [lastInstall, hprof]
  | @exit nc h p x =>
    have hlast := hU.last _ _ rfl
    refine ⟨by simp, ?_, ?_, ?_, ?_⟩
    · rintro _ ⟨⟩
      rw [hown, profileOf_cons rfl]
      exact hU.profile p rfl
    · rintro _ ⟨⟩
      rw [hown]
      exact hU.pending h.key rfl
    · rintro _ _ ⟨⟩
      exact hhold rfl (by simp [Launching.undecided]) (.inr (by simp))
    · rintro _ _ ⟨⟩
      simp [lastInstall, hlast]
  | @record nc h p o a hdone =>
    refine ⟨by simp, ?_, by simp [Launching.pending], ?_, ?_⟩
    · rintro _ ⟨⟩
      rw [hown]
      exact hU.profile p rfl
    · rintro _ _ ⟨⟩
      exact hhold rfl (by simp [Launching.undecided]) (.inr (by simp))
    · rintro _ _ ⟨⟩
      exact (lastInstall_quiet _ rfl).trans (hU.last _ _ rfl)

lemma Backing.step (hv : w.Valid) (hf : ∀ t φ, ph t = some φ → φ.Facts w) (hI : CacheInv l w ph)
    (hA : recordsInstalls l w obs = true) (hadm : (launches X).Admits l obs)
    (hm : Moves w ph obs w' ph') {k : NamespacedName} {c' : SSHHost}
    (hc' : w'.current k = some c') :
    Backing (⟨w, obs⟩ :: l) k c'.status.installedProfile := by
  rcases Moves.installedProfile hv hf hm hc' with ⟨u, m, ⟨o, a, rfl, rfl, _⟩, hi⟩ |
    ⟨⟨c, hc, hi⟩, hnot⟩
  · -- the marker is recorded by the Create whose install has come through
    obtain ⟨τ, _, hτ, _, ⟨nc, h, p, rfl, hk, rfl⟩, _⟩ := hI.acts hadm hm
    rw [hi, hk]
    exact .inr (.inl ⟨u, (hI.underway u _ hτ).last _ _ rfl⟩)
  · rw [hi]
    have hforget (s : List (Reply (machine X))) (hs : pendingInstall s = some k)
        (hmay : mayForget s w = true) :
        Backing (⟨w, obs⟩ :: l) k c.status.installedProfile := by
      simp only [mayForget, hs, Option.all_some, hc, decide_eq_true_eq] at hmay
      exact .inl hmay
    rcases hI.stored k c hc with hnone | ⟨u, hlast⟩ | ⟨u, σ, hσ, hpend⟩
    · exact .inl hnone
    · rcases lastInstall_step (w := w) obs hlast with ⟨v, x, y, rfl⟩ | ⟨x, _, hnew⟩ | hnew
      · obtain ⟨σ, τ, _, hτ, _, hadv⟩ := hI.acts hadm hm
        cases hadv with
        | stay _ hi => cases hi
        | start => exact .inr (.inr ⟨v, _, hτ, rfl⟩)
      · exact .inr (.inl ⟨u, hnew⟩)
      · exact .inr (.inl ⟨u, hnew⟩)
    · by_cases hact : obs.actor = some u
      · have hown := (hI.underway u σ hσ).pending k hpend
        obtain ⟨φ, hφ, _⟩ := hI.placed u σ hσ
        cases obs with
        | spawn v j =>
          cases hact
          rcases hm with @⟨_, _, hn⟩ | _
          rw [hφ] at hn
          cases hn
        | finish v | crash v =>
          cases hact
          exact hforget _ hown hA
        | outside x => cases hact
        | call v e r =>
          cases hact
          obtain ⟨σ', τ, hσ', hτ, hp, hadv⟩ := hI.acts hadm hm
          rw [hσ] at hσ'
          cases hσ'
          cases hadv with
          | stay => exact .inr (.inr ⟨u, σ, hτ, hpend⟩)
          | exit =>
            refine .inr (.inr ⟨u, _, hτ, ?_⟩)
            exact hpend
          | @record nc h p o a hdone =>
            obtain ⟨_, _, _, he, hk, _⟩ := hp
            cases he
            cases hpend
            exact absurd ⟨o, a, rfl, hk, hdone⟩ (hnot u _)
          | giveBack hdone =>
            simp only [recordsInstalls, hdone, Bool.not_true, Bool.false_or] at hA
            exact hforget _ hown hA
          | _ => cases hpend
      · exact .inr (.inr ⟨u, σ, (Monitor.watch_other hact).trans hσ, hpend⟩)

theorem kept_cacheInv (hv : w.Valid) (hf : ∀ t φ, ph t = some φ → φ.Facts w) (hI : CacheInv l w ph)
    (hA : installsSafely l w obs = true) (hadm : (launches X).Admits l obs)
    (hm : Moves w ph obs w' ph') :
    CacheInv (⟨w, obs⟩ :: l) w' ph' := by
  have hall := hA
  simp only [installsSafely, Bool.and_eq_true] at hall
  obtain ⟨⟨⟨⟨hnames, hserial⟩, _⟩, hspare⟩, hrec⟩ := hall
  refine ⟨kept_registered (fun _ _ => True) _ _ _ _ _ hv hf hI.registered trivial hm,
    serial_step hv hI.registered hI.serial hserial hm,
    named_step hv hf hI.registered hI.named hnames hm, ?_, ?_, ?_,
    fun k c hc => Backing.step hv hf hI hrec hadm hm hc⟩
  · refine Protocol.Moves.watched (fun j => ?_) hI.watched hm
    cases j <;> exact ⟨_, rfl⟩
  · intro t σ hσ
    rcases Monitor.watch_cases hσ with ⟨hact, hw⟩ | ⟨j, rfl, hj⟩ | ⟨e, r, τ, rfl, hτ, rfl⟩
    · obtain ⟨φ, hφ, ho⟩ := hI.placed t σ hw
      exact ⟨φ, (Moves.phase_of_other hm hact).trans hφ, ho⟩
    · rcases hm with @⟨_, _, hn⟩ | _
      refine ⟨_, Function.update_self .., fun nc hnc => ?_⟩
      cases j <;> cases hj <;> cases hnc
      rfl
    · obtain ⟨φ, ψ, ch, hφ, hact, hh, hψ⟩ := Moves.handled hm
      obtain ⟨χ, hχ, hown⟩ := hI.placed t τ hτ
      rw [hφ] at hχ
      cases hχ
      refine ⟨ψ, hψ, fun nc hnc => ?_⟩
      rw [owner_act hv (hf t φ hφ) hact hh]
      obtain ⟨σ', τ', hσ', hτ', _, hadv⟩ := hI.acts hadm hm
      rw [hτ] at hσ'
      cases hσ'
      rw [hσ] at hτ'
      cases hτ'
      exact hown nc (hadv.claim_eq hnc)
  · intro t σ hσ
    rcases Monitor.watch_cases hσ with ⟨hact, hw⟩ | ⟨j, rfl, hj⟩ | ⟨e, r, τ, rfl, hτ, rfl⟩
    · exact Underway.other hv hf hI hspare hadm hm hw hact
    · cases j <;> cases hj
      · exact ⟨fun _ _ => by simp [Log.own], by simp [Launching.profile],
          by simp [Launching.pending], by simp [Launching.holds], by simp [Launching.attempt]⟩
      all_goals exact .of_none trivial rfl
    · obtain ⟨σ', τ', hσ', hτ', hp, hadv⟩ := hI.acts hadm hm
      rw [hσ] at hτ'
      cases hτ'
      exact Underway.act hv hf hI hA hadm hm hσ' hp hadv

lemma cacheInv_start (hosts : List SSHHost) :
    CacheInv (X := X) [] (World.start hosts) (fun _ => none) := by
  refine ⟨registered_start hosts, alone_start _ hosts,
    named_start hosts, by simp, by simp [Monitor.watch], by simp [Monitor.watch],
    fun k c hc => .inl ?_⟩
  rw [status_start (World.current_mem hc)]
  rfl

lemma CacheInv.cached (hI : CacheInv l w ph) {nc : NodeClaim} {h : SSHHost}
    (hσ : (launches X).watch t l = some σ) (hh : σ.holds = some (nc, h)) (hund : σ.undecided = true)
    (hi : h.status.installedProfile ≠ "") :
    ∃ u, lastInstall h.key l = some ⟨u, h.status.installedProfile, true⟩ := by
  obtain ⟨c, hc, _, hm⟩ := (hI.underway t σ hσ).holds nc h hh
  have he := (hm hund).resolve_left hi
  rw [he] at hi ⊢
  rcases hI.stored h.key c hc with hnone | hlast | ⟨u, τ, hτ, hpend⟩
  · exact absurd hnone hi
  · exact hlast
  · -- only the holder can have an install pending, and it has not started one
    obtain ⟨nc', h', hh', hk⟩ : ∃ nc' h', τ.holds = some (nc', h') ∧ h.key = h'.key := by
      cases τ <;> simp_all [Launching.pending, Launching.holds]
    obtain rfl := hI.same_holder hσ hτ hh hh' hk
    rw [hσ] at hτ
    cases hτ
    cases σ <;> first | cases hpend | cases hund

end Kept

lemma installedMarker_ne (p : SSHJoinProfile) : installedMarker p ≠ "" := by
  intro h
  have := congrArg String.length h
  simp [installedMarker] at this

lemma launches_admits {A : Log (machine X) → World → Observed X → Prop} {hosts : List SSHHost}
    {l : Log (machine X)} {c d : Run X} {ev : Event X} {obs : Observed X}
    (hr : Logged A (idle X hosts) l c) (hs : c.step ev = some (obs, d)) :
    (launches X).Admits l obs :=
  (launches_respected X).admits hr (Protocol.meets_run (conforms X)
    (fun _ _ _ _ _ _ _ hv hf hm => faithful_answer hv hf hm) (valid_start hosts) hr).1 hs

/-- A join script is started only on a host where the install script of the same profile was the
last to be started, and has exited successfully. -/
theorem join_follows_install {hosts : List SSHHost} {l : Log (machine X)} {c d : Run X}
    {ev : Event X} {t : ℕ} {k : NamespacedName} {target : Target} {payload : Payload}
    (hr : Logged (fun l w obs => installsSafely l w obs = true) (idle X hosts) l c)
    (hs : c.step ev = some (.call t (.sshStart k .join target payload) (.ok ()), d)) :
    ∃ p u, profileOf (l.own t) = some p ∧ lastInstall k l = some ⟨u, installedMarker p, true⟩ := by
  obtain ⟨ph, ht, hI⟩ := Protocol.run_admitted (conforms X) (fun _ _ _ _ _ => launches_admits)
    (fun l w ph o w' ph' hv hf hI hA hadm hm => kept_cacheInv hv hf hI hA hadm hm)
      (valid_start hosts)
    (cacheInv_start hosts) hr
  obtain ⟨ph', hm, _⟩ := ht.step (conforms X) hs
  obtain ⟨σ, _, hσ, _, ⟨nc, h, p, hjoin, rfl⟩, _⟩ :=
    hI.acts (launches_admits hr hs) hm
  have hU := hI.underway t σ hσ
  rcases hjoin with rfl | ⟨rfl, hskip⟩
  · exact ⟨p, t, hU.profile p rfl, hU.last _ _ rfl⟩
  · obtain ⟨u, hlast⟩ := hI.cached hσ rfl rfl (hskip ▸ installedMarker_ne p)
    exact ⟨p, u, hU.profile p rfl, hskip ▸ hlast⟩

section Sample

open Sample

def Sample.parked : Script := failedJoin ++ [.call 1 .ok, .call 1 .ok, .finish 1] ++
    admitting 2 k1 5000

theorem join_follows_install_cached :
    ∃ (l : Log (machine externals)) (c d : Run externals) (k : NamespacedName) (target : Target)
      (payload : Payload), Logged (fun l w obs => installsSafely l w obs = true)
        (idle externals hosts) l c ∧
      c.step (.call 3 .ok) = some (.call 3 (.sshStart k .join target payload) (.ok ()), d) ∧
      ∃ p u, profileOf (l.own 3) = some p ∧
      lastInstall k l = some ⟨u, installedMarker p, true⟩ := by
  obtain ⟨l, c, obs, d, hr, hs, hq⟩ :=
    exists_logged_step (p := installsSafely) (c := idle externals hosts)
    (q := parked ++ claiming 3 claimB k1 ++ preparing 3 ++
      [.call 3 (.token ⟨"id2", "secret"⟩), .call 3 .ok])
    (v := .call 3 .ok)
    (Q := fun _ _ o _ => dialsJoin 3 k1 o) (by decide +kernel)
  obtain ⟨target, payload, rfl⟩ := of_dialsJoin hq
  exact ⟨l, c, d, _, _, _, hr, hs, join_follows_install hr hs⟩

def Sample.otherProfile : SSHJoinProfile := { profile with name := "q" }
def Sample.otherClass : SSHNodeClass externals := { nodeClass with joinProfileRef := "q" }

def Sample.halfInstalled : Script :=
  [.spawn 3 (.create otherClass claimB [⟨"default", []⟩]), .call 3 (.listing [(k1, 0)]),
      .call 3 (.listing [(k1, 0)]),
    .call 3 .ok, .call 3 (.profile otherProfile), .call 3 (.data [("privateKey", "pk")]),
    .call 3 (.clusterInfo ⟨"e", "c"⟩), .call 3 .ok,
    .call 3 (.scriptFailed "install failed" (some 1)), .call 3 .ok, .finish 3] ++
    admitting 4 k1 6000

/-- The marker of the first profile outlives the failed install of the second, and the next Create
of the first profile starts its join script on top of it. -/
theorem join_on_half_finished_install :
    ∃ (l : Log (machine externals)) (c d : Run externals) (target : Target) (payload : Payload),
      Logged (fun l w obs => (namesClaims obs && serialises w obs && resumesCurrent l w obs &&
        sparesLaunches w obs) = true)
        (idle externals hosts) l c ∧
      c.step (.call 5 .ok) = some (.call 5 (.sshStart k1 .join target payload) (.ok ()), d) ∧
      profileOf (l.own 5) = some profile ∧ installedMarker profile = "p@1" ∧
      lastInstall k1 l = some ⟨3, "q@1", false⟩ := by
  obtain ⟨l, c, obs, d, hr, hs, hq⟩ := exists_logged_step
    (p := fun l w obs => namesClaims obs && serialises w obs && resumesCurrent l w obs &&
      sparesLaunches w obs)
    (c := idle externals hosts)
    (q := parked ++ halfInstalled ++ claiming 5 claimA k1 ++ preparing 5 ++
      [.call 5 (.token ⟨"id2", "secret"⟩), .call 5 .ok])
    (v := .call 5 .ok)
    (Q := fun l _ o _ => dialsJoin 5 k1 o && decide (profileOf (l.own 5) = some profile) &&
      decide (lastInstall k1 l = some ⟨3, "q@1", false⟩))
    (by decide +kernel)
  simp only [Bool.and_eq_true, decide_eq_true_eq] at hq
  obtain ⟨⟨hjoin, hprof⟩, hlast⟩ := hq
  obtain ⟨target, payload, rfl⟩ := of_dialsJoin hjoin
  exact ⟨l, c, d, _, _, hr, hs, hprof, by decide +kernel, hlast⟩

end Sample

end KarpenterProviderSsh.Runs
