import KarpenterProviderSsh.Runs.Readmissions

/-! How often a host is probed. A reconcile reads the clock, asks whether the object it was served
is due, and stamps the outcome with a later reading; the patch lands only on the version that was
asked. -/

namespace KarpenterProviderSsh.Runs

open Api Cluster Scripts Providers Controllers Interleaving Config

variable {X : Externals}

def stampOf : ProbeWrite → Option (ℕ × ℕ)
  | .probeFailed g n _ | .probeFacts g n _ | .probeOk g n _ => some (g, n)
  | _ => none

inductive Pace
  | opened
  | served (h : SSHHost)
  | timed (h : SSHHost) (started : ℕ) (later : List ℕ)

namespace Pace

def see : Pace → (e : Eff) → Res e → Pace
  | .opened, .getHost _, .ok h => .served h
  | .served h, .now, n => .timed h n []
  | .timed h s ns, .now, n => .timed h s (n :: ns)
  | σ, _, _ => σ

def Writes (σ : Pace) (o : SSHHost) (p : ProbeWrite) : Prop :=
  ∀ g n, stampOf p = some (g, n) →
    ∃ s ns, σ = .timed o s ns ∧ probeDue o s = none ∧ n ∈ ns ∧ g = o.generation

def Allows (σ : Pace) : Eff → Prop
  | .patchStatus o (.probe p _) => σ.Writes o p
  | _ => True

end Pace

def paces (X : Externals) : Monitor (machine X) where
  State := Pace
  init
    | .reconcile _ => some .opened
    | _ => none
  see := Pace.see
  Allows := Pace.Allows

section Obeys

variable {α : Type} {h : SSHHost} {σ : Pace}

def Unstamped : Eff → Prop
  | .patchStatus _ (.probe p _) => stampOf p = none
  | _ => True

lemma Unstamped.allowed {e : Eff} (he : Unstamped e) (σ : Pace) : σ.Allows e := by
  unfold Pace.Allows
  split
  · intro g n hp
    cases he.symm.trans hp
  · trivial

abbrev ObeysPace (X : Externals) (Q : α → Pace → Prop) (σ : Pace) (p : Cluster.Prog α) : Prop :=
  (paces X).Obeys Q σ p

lemma obeysPace_of_unstamped {p : Cluster.Prog α} (hp : Asks Unstamped p) :
    ObeysPace X (fun _ _ => True) σ p :=
  Monitor.obeys_of_allowed hp fun _ he σ => he.allowed σ

lemma unstamped_patchStatus {p : ProbeWrite} (hp : stampOf p = none) (result : Result) :
    Asks Unstamped (patchStatus h p result) := by
  refine .step trivial fun now _ => ?_
  dsimp only
  split_ifs
  · trivial
  · refine .step hp fun a _ => ?_
    cases a <;> trivial

lemma unstamped_nodeByInternalIP (ip : String) : Asks Unstamped (nodeByInternalIP ip) := by
  refine .step trivial fun a _ => ?_
  cases a <;> trivial

lemma unstamped_leaveZombie (n : Option Node) : Asks Unstamped (leaveZombie X h n) := by
  have hl : Asks Unstamped (leaveHost X h) :=
    asks_runInstalledPhase (fun _ => trivial) (fun _ => trivial) (fun _ _ => trivial) trivial
  refine hl.bind fun a _ => ?_
  cases a with
  | error e => exact unstamped_patchStatus rfl _
  | ok u =>
    cases n with
    | none => exact unstamped_patchStatus rfl _
    | some n =>
      refine .step trivial fun a _ => ?_
      cases a with
      | ok u => exact unstamped_patchStatus rfl _
      | error e =>
        dsimp only
        split_ifs
        · exact unstamped_patchStatus rfl _
        · trivial

lemma unstamped_handleZombie : Asks Unstamped (handleZombie X h) := by
  unfold handleZombie
  split_ifs
  · trivial
  · refine (unstamped_nodeByInternalIP _).bind fun a _ => ?_
    cases a with
    | error e => trivial
    | ok n =>
      dsimp only
      split_ifs
      · exact unstamped_patchStatus rfl _
      · refine .step rfl fun a _ => ?_
        cases a with
        | error e => trivial
        | ok h' => exact unstamped_leaveZombie n

lemma unstamped_reconcileToken : Asks Unstamped (reconcileToken h) := by
  unfold reconcileToken
  split_ifs
  · exact unstamped_patchStatus rfl _
  · refine (unstamped_nodeByInternalIP _).bind fun a _ => ?_
    match a with
    | .error e => trivial
    | .ok none => exact unstamped_patchStatus rfl _
    | .ok (some n) =>
      refine (asks_deleteTokenByID (fun _ => trivial) _).bind fun a _ => ?_
      cases a with
      | error e => trivial
      | ok u => exact unstamped_patchStatus rfl _

lemma unstamped_reconcileClaimed : Asks Unstamped (reconcileClaimed h) := by
  unfold reconcileClaimed
  split
  · exact unstamped_reconcileToken
  · refine (asks_staleClaim (fun _ => trivial) _).bind fun a _ => ?_
    match a with
    | .error e => trivial
    | .ok true =>
      exact (asks_deleteBootstrapToken (fun _ => trivial) h).bind
        fun _ _ => unstamped_patchStatus rfl _
    | .ok false => exact unstamped_reconcileToken

def Probing : Eff → Prop
  | .getSecret _ | .sshStart _ _ _ _ | .sshWait _ _ => True
  | _ => False

lemma probing_pace {e : Eff} (he : Probing e) (σ : Pace) : σ.Allows e ∧ ∀ r, σ.see e r = σ := by
  cases e <;> first | exact he.elim | exact ⟨trivial, fun r => by cases σ <;> rfl⟩

lemma probing_probe : Asks Probing (probe X h) := by
  refine (asks_readSSHCredentials (fun _ => trivial) h).bind fun a _ => ?_
  cases a with
  | error e => trivial
  | ok creds =>
    have hrun : Dials h.key .probe (if h.spec.execMode = .verified then
        runShim h.key { sshTarget h creds with shimCommand := h.spec.shimCommand }
          ⟨.probe, "", "", []⟩
        else run h.key .probe (sshTarget h creds) probeScript []) := by
      split_ifs
      · exact dials_runShim _ _ ⟨.probe, "", "", []⟩
      · exact dials_run _ _ _ _ _
    refine (hrun.asks (fun _ _ => trivial) trivial).bind fun a _ => ?_
    cases a <;> trivial

lemma Pace.Writes.now {p : ProbeWrite} (hw : σ.Writes h p) (n : ℕ) : (σ.see .now n).Writes h p := by
  intro g m hp
  obtain ⟨s, ns, rfl, hdue, hm, hg⟩ := hw g m hp
  exact ⟨s, n :: ns, rfl, hdue, .tail _ hm, hg⟩

lemma obeysPace_patchStatus {p : ProbeWrite} {result : Result} (hw : σ.Writes h p) :
    ObeysPace X (fun _ _ => True) σ (patchStatus h p result) := by
  refine .step trivial fun now => ?_
  dsimp only
  split_ifs
  · trivial
  · refine .step (hw.now now) fun a => ?_
    cases a <;> trivial

lemma obeysPace_reconcileUnclaimed :
    ObeysPace X (fun _ _ => True) (.served h) (reconcileUnclaimed X h) := by
  refine .step trivial fun started => ?_
  change ObeysPace X _ (.timed h started []) _
  split
  · trivial
  · rename_i hdue
    refine (Monitor.obeys_of_abides probing_probe fun _ he => probing_pace he _).bind
      fun a τ hτ => ?_
    obtain ⟨rfl, _⟩ := hτ
    refine .step trivial fun now => ?_
    have hstamp (p : ProbeWrite) (hp : stampOf p = some (h.generation, now)) :
        (Pace.timed h started [now]).Writes h p := by
      intro g n hgn
      cases hp.symm.trans hgn
      exact ⟨started, [now], rfl, hdue, .head _, rfl⟩
    change ObeysPace X _ (.timed h started [now]) _
    cases a with
    | error e => exact obeysPace_patchStatus (hstamp _ rfl)
    | ok res =>
      dsimp only
      split_ifs
      · refine .step (hstamp _ rfl) fun a => ?_
        cases a with
        | error e => trivial
        | ok h' => exact obeysPace_of_unstamped unstamped_handleZombie
      · exact obeysPace_patchStatus (hstamp _ rfl)

lemma obeysPace_reconcile (k : NamespacedName) :
    ObeysPace X (fun _ _ => True) .opened (reconcile X k) := by
  refine .step trivial fun a => ?_
  cases a with
  | error e => trivial
  | ok h =>
    dsimp only
    split_ifs
    · exact obeysPace_of_unstamped (unstamped_patchStatus rfl _)
    · split
      · exact obeysPace_of_unstamped unstamped_reconcileClaimed
      · exact obeysPace_of_unstamped unstamped_reconcileClaimed
      · exact obeysPace_reconcileUnclaimed

theorem paces_respected (X : Externals) : (paces X).Respected := by
  intro j σ hj
  cases j with
  | reconcile k =>
    cases hj
    exact (obeysPace_reconcile k).bind fun _ _ _ => trivial
  | create | delete | reboot => cases hj

end Obeys

section Clock

def reading : Observed X → Option ℕ
  | .call _ .now n => some n
  | _ => none

def readings (l : Log (machine X)) : List ℕ := l.filterMap fun y => reading y.obs

/-- The clock never goes back. -/
def Ticks (l : Log (machine X)) (_ : World) (obs : Observed X) : Prop :=
  ∀ n ∈ reading obs, ∀ m ∈ readings l, m ≤ n

instance (l : Log (machine X)) (w : World) (obs : Observed X) : Decidable (Ticks l w obs) :=
  inferInstanceAs (Decidable (∀ n ∈ reading obs, ∀ m ∈ readings l, m ≤ n))

def Pace.Ordered (l : Log (machine X)) : Pace → Prop
  | .timed _ s ns => s ∈ readings l ∧ ∀ n ∈ ns, s ≤ n
  | _ => True

variable {l : Log (machine X)} {w : World} {obs : Observed X} {σ : Pace}

lemma mem_readings_cons {n : ℕ} (hn : n ∈ readings l) : n ∈ readings (⟨w, obs⟩ :: l) :=
  (List.sublist_cons_self (⟨w, obs⟩ : Entry (machine X)) l).filterMap _ |>.mem hn

lemma mem_readings_now {t n : ℕ} : n ∈ readings (⟨w, .call t .now n⟩ :: l : Log (machine X)) :=
  .head _

lemma Pace.Ordered.cons (h : σ.Ordered l) : σ.Ordered (⟨w, obs⟩ :: l) := by
  cases σ with
  | opened | served => trivial
  | timed h' s ns => exact ⟨mem_readings_cons h.1, h.2⟩

lemma Pace.Ordered.see {t : ℕ} {e : Eff} {r : Res e} (h : σ.Ordered l)
    (ht : Ticks l w (.call t e r)) :
    (σ.see e r).Ordered (⟨w, .call t e r⟩ :: l) := by
  unfold Pace.see
  split
  · trivial
  · exact ⟨mem_readings_now, by simp⟩
  · rename_i n
    exact ⟨mem_readings_cons h.1, List.forall_mem_cons.mpr ⟨ht n rfl _ h.1, h.2⟩⟩
  · exact h.cons

end Clock

section Versions

variable {a b c : SSHHost}

structure Paced (a b : SSHHost) : Prop where
  generation : a.generation ≤ b.generation
  kept : b.generation = a.generation → a.status.observedGeneration = a.generation →
    b.status.observedGeneration = b.generation
  spaced : b.generation = a.generation → a.status.observedGeneration = a.generation →
    ∀ s ∈ a.status.lastProbeTime, ∃ n ∈ b.status.lastProbeTime, n = s ∨ s + probeInterval ≤ n

lemma Paced.of_same (hg : a.generation ≤ b.generation)
    (ho : b.status.observedGeneration = a.status.observedGeneration)
    (hl : b.status.lastProbeTime = a.status.lastProbeTime) : Paced a b where
  generation := hg
  kept hb ha := ho.trans (ha.trans hb.symm)
  spaced _ _ s hs := ⟨s, hl ▸ hs, .inl rfl⟩

lemma Paced.refl (a : SSHHost) : Paced a a := .of_same le_rfl rfl rfl

lemma Paced.trans (hab : Paced a b) (hbc : Paced b c) : Paced a c where
  generation := hab.generation.trans hbc.generation
  kept hc ha := by
    have hb : b.generation = a.generation := le_antisymm (hc ▸ hbc.generation) hab.generation
    exact hbc.kept (hc.trans hb.symm) (hab.kept hb ha)
  spaced hc ha s hs := by
    have hb : b.generation = a.generation := le_antisymm (hc ▸ hbc.generation) hab.generation
    obtain ⟨m, hm, hsm⟩ := hab.spaced hb ha s hs
    obtain ⟨n, hn, hmn⟩ := hbc.spaced (hc.trans hb.symm) (hab.kept hb ha) m hm
    exact ⟨n, hn, by omega⟩

lemma due_of_probeDue {h : SSHHost} {now s : ℕ} (hd : probeDue h now = none)
    (hg : h.status.observedGeneration = h.generation) (hs : s ∈ h.status.lastProbeTime) :
    s + probeInterval ≤ now := by
  simp only [Option.mem_def] at hs
  simp only [probeDue, hs, hg, true_and] at hd
  split_ifs at hd
  omega

lemma Writes.unstamped {φ : Phase} {o s : SSHHost} {wr : StatusWrite}
    (h : Writes φ o s wr) (hs : φ.Sound) (hw : ∀ p ready, wr = .probe p ready → stampOf p = none) :
    (outcome o s wr).observedGeneration = s.status.observedGeneration ∧
      (outcome o s wr).lastProbeTime = s.status.lastProbeTime := by
  have hap : (wr.apply s.status).observedGeneration = s.status.observedGeneration ∧
      (wr.apply s.status).lastProbeTime = s.status.lastProbeTime := by
    cases wr with
    | claim | release => exact ⟨rfl, rfl⟩
    | set x => cases x <;> exact ⟨rfl, rfl⟩
    | probe p ready =>
      obtain ⟨conds, he⟩ := apply_probe p ready s.status
      rw [he]
      have hp := hw p ready rfl
      cases p <;> first | exact ⟨rfl, rfl⟩ | cases hp
  rcases h.outcome_cases hs with he | ⟨_, _, _, _, _, _, _, _, _, _, _, he⟩
  · rwa [he]
  · rw [he]
    exact hap

lemma apply_stamped {p : ProbeWrite} {g n : ℕ} (hp : stampOf p = some (g, n)) (ready : Option Stamp)
    (st : SSHHostStatus) :
    ((StatusWrite.probe p ready).apply st).observedGeneration = g ∧
      ((StatusWrite.probe p ready).apply st).lastProbeTime = some n := by
  obtain ⟨conds, he⟩ := apply_probe p ready st
  rw [he]
  cases p <;> cases hp <;> exact ⟨rfl, rfl⟩

lemma landed_generation {w w' : World} {k : NamespacedName} {c o' : SSHHost} {st : SSHHostStatus}
    (h : w.Landed w' k c st o') : o'.generation = c.generation := by
  rw [h.rest]

lemma edited_paced {w w' : World} {x : Outer} {k : NamespacedName} (hx : w.outside x = some w')
    (ha : w.current k = some a) (hb : w'.current k = some b) : Paced a b := by
  have hsame (hw : w'.current k = w.current k) : Paced a b := by
    obtain rfl := Option.some.inj (hb.symm.trans (hw.trans ha))
    exact .refl b
  cases x with
  | edit j labels annotations spec =>
    simp only [World.outside] at hx
    split at hx
    · rename_i h hs
      split at hx
      · cases hx
        by_cases hk : k = j
        · subst hk
          obtain rfl := Option.some.inj ((World.current_of_store hs).symm.trans ha)
          obtain rfl := Option.some.inj ((World.pushed_commit hs _).current.symm.trans hb)
          exact .of_same (Nat.le_add_right _ _) rfl rfl
        · exact hsame ((World.pushed_commit hs _).current_of_ne hk)
      · cases hx
    · cases hx
  | kubeletUp j =>
    simp only [World.outside] at hx
    split_ifs at hx
    cases hx
    exact hsame rfl
  | addNode | dropNode =>
    cases hx
    exact hsame rfl

end Versions

section Kept

variable {w w' : World} {ph ph' : Phases} {l : Log (machine X)} {obs : Observed X}

lemma stamped_paced {a b : SSHHost} {p : ProbeWrite} {g n : ℕ} {ready : Option Stamp} {σ : Pace}
    (hp : stampOf p = some (g, n)) (hw : σ.Writes a p) (ho : σ.Ordered l)
    (hg : b.generation = a.generation)
    (hb : b.status = (StatusWrite.probe p ready).apply a.status) : Paced a b := by
  obtain ⟨s, ns, rfl, hdue, hn, rfl⟩ := hw g n hp
  obtain ⟨hobs, hlast⟩ := apply_stamped hp ready a.status
  refine ⟨hg.ge, fun _ _ => ?_, fun _ hobs' m hm => ⟨n, ?_, .inr ?_⟩⟩
  · rw [hb, hobs, hg]
  · rw [hb, hlast]
    rfl
  · exact (due_of_probeDue hdue hobs' hm).trans (ho.2 n hn)

lemma Moves.paced (hv : w.Valid) (hf : ∀ t φ, ph t = some φ → φ.Facts w)
    (hwatch : Watched (paces X) l ph)
    (hord : ∀ t σ, (paces X).watch t l = some σ → Pace.Ordered l σ) (hadm : (paces X).Admits l obs)
    (hm : Moves w ph obs w' ph') :
    w.SameStore w' ∨ ∃ k a b, w.current k = some a ∧ w.Pushed w' k b ∧ Paced a b := by
  cases Moves.change hv hf hm with
  | none hs => exact .inl hs
  | edited k c o' hc hp _ _ hx =>
    obtain ⟨x, rfl⟩ := hx
    rcases hm with _ | _ | _ | _ | hx
    exact .inr ⟨k, c, o', hc, hp, edited_paced hx hc hp.current⟩
  | written t φ o s wr r o' hφ hfφ hw hobs _ hl =>
    rcases hl.after with ⟨_, hp⟩ | ⟨_, _, hs⟩
    · refine .inr ⟨s.key, s, o', hl.before, hp, ?_⟩
      have hgen := landed_generation hl
      by_cases hst : ∀ p ready, wr = .probe p ready → stampOf p = none
      · obtain ⟨ho, ht⟩ := hw.unstamped hfφ.sound hst
        exact .of_same hgen.ge (by rw [hl.status, ho]) (by rw [hl.status, ht])
      · push Not at hst
        obtain ⟨p, ready, rfl, hne⟩ := hst
        obtain ⟨⟨g, n⟩, hgn⟩ := Option.ne_none_iff_exists'.mp hne
        obtain rfl := hobs.patched hm (by simp)
        have hstat := hl.status
        cases hw with
        | probe _ hpr =>
          have howner : ∃ k, φ.owner = .reconcile k := by
            cases hpr <;> exact ⟨_, rfl⟩
          obtain ⟨k, hk⟩ := howner
          obtain ⟨σ, hσ⟩ := hwatch t φ hφ k hk
          rw [outcome_self] at hstat
          exact stamped_paced hgn (hadm σ hσ) (hord t σ hσ) hgen hstat
    · exact .inl hs

structure Chained (w : World) : Prop where
  newest : ∀ k c, w.current k = some c → ∀ v ∈ w.versions k, Paced v c
  between : ∀ k, ∀ v ∈ w.versions k, ∀ v' ∈ w.versions k, Paced v v' ∨ Paced v' v

lemma Chained.same (h : Chained w) (hs : w.SameStore w') : Chained w' where
  newest k c hc v hv := h.newest k c (hs.current k ▸ hc) v (hs.versions k ▸ hv)
  between k v hv v' hv' := h.between k v (hs.versions k ▸ hv) v' (hs.versions k ▸ hv')

lemma Chained.pushed (h : Chained w) {k : NamespacedName} {a b : SSHHost}
    (ha : w.current k = some a) (hp : w.Pushed w' k b) (hab : Paced a b) : Chained w' := by
  have hnew (v : SSHHost) (hv : v ∈ w.versions k) : Paced v b := (h.newest k a ha v hv).trans hab
  constructor
  · intro j c hc v hv
    by_cases hj : j = k
    · subst hj
      obtain rfl := Option.some.inj (hp.current.symm.trans hc)
      rcases (hp.versions v).mp hv with rfl | hv
      · exact .refl v
      · exact hnew v hv
    · exact h.newest j c (hp.current_of_ne hj ▸ hc) v (hp.versions_of_ne hj ▸ hv)
  · intro j v hv v' hv'
    by_cases hj : j = k
    · subst hj
      rcases (hp.versions v).mp hv with rfl | hv <;> rcases (hp.versions v').mp hv' with rfl | hv'
      · exact .inl (.refl _)
      · exact .inr (hnew v' hv')
      · exact .inl (hnew v hv)
      · exact h.between j v hv v' hv'
    · exact h.between j v (hp.versions_of_ne hj ▸ hv) v' (hp.versions_of_ne hj ▸ hv')

lemma current_start {hosts : List SSHHost} {k : NamespacedName} {v : SSHHost}
    (hv : v ∈ (World.start hosts).versions k) : (World.start hosts).current k = some v := by
  cases hf : hosts.find? (·.key = k) with
  | none => simp [World.versions, World.start, hf] at hv
  | some h =>
    simp only [World.versions, World.start, hf, Option.map_some, Store.History.versions_single,
      List.mem_singleton] at hv
    rw [hv]
    simp only [World.current, World.start, hf, Option.map_some]
    rfl

lemma chained_start (hosts : List SSHHost) : Chained (World.start hosts) where
  newest k c hc v hv := by
    obtain rfl := Option.some.inj ((current_start hv).symm.trans hc)
    exact .refl v
  between k v hv v' hv' := by
    obtain rfl := Option.some.inj ((current_start hv).symm.trans (current_start hv'))
    exact .inl (.refl v)

structure PaceInv (l : Log (machine X)) (w : World) (ph : Phases) : Prop where
  watched : Watched (paces X) l ph
  ordered : ∀ t σ, (paces X).watch t l = some σ → Pace.Ordered l σ
  chained : Chained w

lemma ordered_cons (hord : ∀ t σ, (paces X).watch t l = some σ → Pace.Ordered l σ)
    (ht : Ticks l w obs) :
    ∀ t σ, (paces X).watch t (⟨w, obs⟩ :: l) = some σ → Pace.Ordered (⟨w, obs⟩ :: l) σ := by
  intro t σ hσ
  rcases Monitor.watch_cases hσ with ⟨_, hw⟩ | ⟨j, rfl, hj⟩ | ⟨e, r, τ, rfl, hτ, rfl⟩
  · exact (hord t σ hw).cons
  · cases j with
    | reconcile =>
      cases hj
      trivial
    | create | delete | reboot => cases hj
  · exact (hord t τ hτ).see ht

lemma kept_paceInv (hv : w.Valid) (hf : ∀ t φ, ph t = some φ → φ.Facts w) (hI : PaceInv l w ph)
    (ht : Ticks l w obs) (hadm : (paces X).Admits l obs) (hm : Moves w ph obs w' ph') :
    PaceInv (⟨w, obs⟩ :: l) w' ph' where
  watched := hI.watched.step (fun _ => ⟨Pace.opened, rfl⟩) hv hf hm
  ordered := ordered_cons hI.ordered ht
  chained := by
    rcases hm.paced hv hf hI.watched hI.ordered hadm with hs | ⟨k, a, b, ha, hp, hab⟩
    · exact hI.chained.same hs
    · exact hI.chained.pushed ha hp hab

end Kept

/-- However the operations interleave and fail, two probes that are recorded of one generation of a
host are an interval apart, as long as the clock does not go back. -/
theorem probes_an_interval_apart {hosts : List SSHHost} {l : Log (machine X)} {c : Run X}
    {k : NamespacedName} {v v' : SSHHost} {s n : ℕ} (hr : Logged Ticks (idle X hosts) l c)
    (hv : v ∈ World.versions c.world k) (hv' : v' ∈ World.versions c.world k)
    (hg : v.generation = v'.generation) (ho : v.status.observedGeneration = v.generation)
    (ho' : v'.status.observedGeneration = v'.generation) (hs : v.status.lastProbeTime = some s)
    (hn : v'.status.lastProbeTime = some n) :
    s = n ∨ s + probeInterval ≤ n ∨ n + probeInterval ≤ s := by
  obtain ⟨ph, _, hI⟩ := Protocol.run_logged (conforms X) (paces_respected X)
    (fun l w ph o w' ph' hv hf hI ht hadm hm => kept_paceInv hv hf hI ht hadm hm)
      (valid_start hosts)
    ⟨by simp [Watched], by simp [Monitor.watch], chained_start hosts⟩ hr
  rcases hI.chained.between k v hv v' hv' with hp | hp
  · obtain ⟨m, hm, hsm⟩ := hp.spaced hg.symm ho s hs
    obtain rfl := Option.some.inj (hm.symm.trans hn)
    tauto
  · obtain ⟨m, hm, hsm⟩ := hp.spaced hg ho' n hn
    obtain rfl := Option.some.inj (hm.symm.trans hs)
    tauto

section Sample

open Sample

theorem probes_an_interval_apart_twice :
    ∃ (l : Log (machine externals)) (c : Run externals) (v v' : SSHHost) (s n : ℕ),
      Logged Ticks (idle externals hosts) l c ∧ v ∈ World.versions c.world k1 ∧
      v' ∈ World.versions c.world k1 ∧ v.status.lastProbeTime = some s ∧
      v'.status.lastProbeTime = some n ∧ s ≠ n ∧
      (s = n ∨ s + probeInterval ≤ n ∨ n + probeInterval ≤ s) := by
  obtain ⟨l, c, hr, hq⟩ := exists_logged (p := fun l (w : World) o => decide (Ticks l w o))
    (c := idle externals hosts)
    (q := admitting 0 k1 1000 ++
      [.spawn 0 (.reconcile k1), .call 0 (.version 0), .call 0 (.time 1060), .finish 0] ++
      admitting 0 k1 1120)
    (Q := fun _ c => (World.versions c.world k1).any
      fun v => (World.versions c.world k1).any fun v' => v.generation = v'.generation &&
      v.status.observedGeneration = v.generation &&
        v'.status.observedGeneration = v'.generation && v.status.lastProbeTime = some 1000 &&
        v'.status.lastProbeTime = some 1120) (by decide +kernel)
  simp only [List.any_eq_true, Bool.and_eq_true, decide_eq_true_eq] at hq
  obtain ⟨v, hv, v', hv', ⟨⟨⟨hg, ho⟩, ho'⟩, hs⟩, hn⟩ := hq
  have hr' := hr.weaken (B := Ticks) fun _ _ _ ht => by simpa using ht
  exact ⟨l, c, v, v', 1000, 1120, hr', hv, hv', hs, hn, by decide,
    probes_an_interval_apart hr' hv hv' hg ho ho' hs hn⟩

end Sample

end KarpenterProviderSsh.Runs
