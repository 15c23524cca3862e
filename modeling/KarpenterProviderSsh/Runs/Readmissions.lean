import KarpenterProviderSsh.Runs.Rounds
import KarpenterProviderSsh.Runs.HostStates
import KarpenterProviderSsh.Runs.Registrations

/-! How a host comes back to Available: through a probe of its own reconcile, or through the leave
of the guard that stored Leaving. -/

namespace KarpenterProviderSsh.Runs

open Api Cluster Scripts Providers Controllers Interleaving Config

variable {X : Externals}

section Histories

variable {s : List (Reply (machine X))} {h : SSHHost} {x : ExecResult} {y : Reply (machine X)}

def DialledProbe (s : List (Reply (machine X))) (h : SSHHost) : Prop :=
  ∃ s₁ s₂ w target payload,
    s = s₁ ++ ⟨w, .sshStart h.key .probe target payload, .ok ()⟩ :: s₂ ∧ h ∈ World.versions w h.key

/-- The operation has run a probe, begun when this version was already stored. -/
def RanProbe (s : List (Reply (machine X))) (h : SSHHost) (x : ExecResult) : Prop :=
  ∃ s₁ s₂ w, s = s₁ ++ ⟨w, .sshWait h.key .probe, .ok x⟩ :: s₂ ∧ DialledProbe s₂ h

def StoredLeaving (s : List (Reply (machine X))) (h : SSHHost) : Prop :=
  ∃ s₁ s₂ w o ready, s = s₁ ++ ⟨w, .patchStatus o (.probe .enterLeaving ready), .ok h⟩ :: s₂

/-- The operation's own patch to Leaving was answered with this version, and after that its leave
script succeeded. -/
def RanLeave (s : List (Reply (machine X))) (h : SSHHost) : Prop :=
  ∃ s₁ s₂ w x, s = s₁ ++ ⟨w, .sshWait h.key .leave, .ok x⟩ :: s₂ ∧ StoredLeaving s₂ h

lemma DialledProbe.cons (hs : DialledProbe s h) : DialledProbe (y :: s) h := by
  obtain ⟨s₁, s₂, w, target, payload, rfl, hm⟩ := hs
  exact ⟨y :: s₁, s₂, w, target, payload, rfl, hm⟩

lemma RanProbe.cons (hs : RanProbe s h x) : RanProbe (y :: s) h x := by
  obtain ⟨s₁, s₂, w, rfl, hd⟩ := hs
  exact ⟨y :: s₁, s₂, w, rfl, hd⟩

lemma StoredLeaving.cons (hs : StoredLeaving s h) : StoredLeaving (y :: s) h := by
  obtain ⟨s₁, s₂, w, o, ready, rfl⟩ := hs
  exact ⟨y :: s₁, s₂, w, o, ready, rfl⟩

lemma RanLeave.cons (hs : RanLeave s h) : RanLeave (y :: s) h := by
  obtain ⟨s₁, s₂, w, x, rfl, hd⟩ := hs
  exact ⟨y :: s₁, s₂, w, x, rfl, hd⟩

def Backed (s : List (Reply (machine X))) (w : World) : Round → Prop
  | .opened _ => True
  | .served h => h ∈ w.versions h.key
  | .dialled h => DialledProbe s h
  | .probed h x => RanProbe s h x
  | .noted h | .looked h _ => h.maintenance = false
  | .fenced h _ | .forcing h _ => h.maintenance = false ∧ StoredLeaving s h
  | .left h _ | .dropped h _ => h.maintenance = false ∧ RanLeave s h

lemma Backed.later {w w' : World} {σ : Round} (hb : Backed s w σ) (hl : w.Later w') :
    Backed s w' σ := by
  cases σ with
  | served h => exact hl.versions _ _ hb
  | _ => exact hb

lemma Backed.cons {w : World} {σ : Round} (hb : Backed s w σ) : Backed (y :: s) w σ := by
  cases σ with
  | opened => trivial
  | served | noted | looked => exact hb
  | dialled => exact DialledProbe.cons hb
  | probed => exact RanProbe.cons hb
  | fenced | forcing => exact ⟨hb.1, hb.2.cons⟩
  | left | dropped => exact ⟨hb.1, hb.2.cons⟩

end Histories

section Kept

variable {w w' : World} {ph ph' : Phases} {t : ℕ} {e : Eff} {r : Res e} {σ : Round}
  {l : Log (machine X)}

lemma landed_maintenance {k : NamespacedName} {c o' : SSHHost} {st : SSHHostStatus}
    (h : w.Landed w' k c st o') :
    o'.maintenance = c.maintenance := by
  rw [h.rest]
  rfl

lemma InService.maintenance {h : SSHHost} (hs : InService h) (hn : h.status.claimRef = none) :
    h.maintenance = false := by
  simpa [InService, hn] using hs

lemma probe_landed (hv : w.Valid) (hf : ∀ t φ, ph t = some φ → φ.Facts w)
    {o o' : SSHHost} {p : ProbeWrite} {ready : Option Stamp}
    (hm : Moves (X := X) w ph (.call t (.patchStatus o (.probe p ready)) (.ok o')) w' ph') :
    ∃ φ, ph t = some φ ∧ φ.Facts w ∧ Probes φ o p ∧ o ∈ w.versions o.key ∧
      w.Landed w' o.key o ((StatusWrite.probe p ready).apply o.status) o' := by
  obtain ⟨φ, s, hφ, hfφ, hw, ha⟩ := Moves.answered hv hf hm (.inr rfl)
  have hl := ha.of_ok
  cases hw with
  | probe _ hp =>
    rw [outcome_self] at hl
    exact ⟨φ, hφ, hfφ, hp, World.current_mem hl.before, hl⟩

lemma backed_see (hv : w.Valid) (hf : ∀ t φ, ph t = some φ → φ.Facts w) (hag : AllAgree w)
    (hm : Moves (X := X) w ph (.call t e r) w' ph') (ha : σ.Allows e) {s : List (Reply (machine X))}
    (hb : Backed s w σ) : Backed (⟨w, e, r⟩ :: s) w' (σ.see e r) := by
  have hl : w.Later w' := Protocol.Moves.later hm hv
  unfold Round.see
  split
  · -- a host that is served was stored
    obtain ⟨_, _, _, _, _, hh, _⟩ := Moves.handled hm
    obtain ⟨o, ho, _, hmem, _⟩ | ⟨_, e, he, _⟩ := World.getHost_answer hv hh
    · cases ho
      exact hl.versions _ _ hmem
    · cases he
  · obtain ⟨_, hσ, rfl⟩ := ha
    cases hσ
    exact ⟨[], s, w, _, _, rfl, hb⟩
  · obtain ⟨_, hσ, rfl⟩ := ha
    cases hσ
    exact ⟨[], s, w, rfl, hb⟩
  · obtain ⟨_, hσ, hserv, _⟩ := ha
    obtain ⟨φ, _, hfφ, hp, hmem, hland⟩ := probe_landed hv hf hm
    cases hp with
    | facts =>
      have hn := ((hag _ _ hmem).unclaimed hfφ.sound).1
      exact (landed_maintenance hland).trans (hserv.maintenance hn)
  · exact hb
  · obtain ⟨_, hσ⟩ := ha
    cases hσ
    obtain ⟨_, _, _, _, _, hland⟩ := probe_landed hv hf hm
    exact ⟨(landed_maintenance hland).trans hb, [], s, w, _, _, rfl⟩
  · exact ⟨hb.1, hb.2.cons⟩
  · obtain ⟨_, _, hσ, rfl⟩ := ha
    cases hσ
    exact ⟨hb.1, [], s, w, _, rfl, hb.2⟩
  · exact ⟨hb.1, hb.2.cons⟩
  · split_ifs
    · exact ⟨hb.1, hb.2.cons⟩
    · exact ⟨hb.1, hb.2.cons⟩
  · exact (hb.later hl).cons

def Watched (S : Monitor (machine X)) (l : Log (machine X)) (ph : Phases) : Prop :=
  ∀ t φ, ph t = some φ → ∀ k, φ.owner = .reconcile k → ∃ σ, S.watch t l = some σ

lemma Watched.step {S : Monitor (machine X)}
    (hS : ∀ k, ∃ σ, S.init (.reconcile k) = some σ) (hv : w.Valid)
    (hf : ∀ t φ, ph t = some φ → φ.Facts w) {obs : Observed X} (h : Watched S l ph)
    (hm : Moves w ph obs w' ph') :
    Watched S (⟨w, obs⟩ :: l) ph' := by
  refine Protocol.Moves.each hm h ?_ ?_ ?_
  · rintro t j _ rfl _ k hk
    cases j with
    | reconcile k =>
      obtain ⟨σ, hσ⟩ := hS k
      exact ⟨σ, (Monitor.watch_spawn _).trans hσ⟩
    | create | delete | reboot => cases hk
  · rintro t φ e r ψ ch hφ hact hh rfl hT k hk
    rw [owner_act hv (hf t φ hφ) hact hh] at hk
    obtain ⟨σ, hσ⟩ := hT k hk
    exact ⟨S.see σ e r, (Monitor.watch_call e r).trans (congrArg (Option.map _) hσ)⟩
  · intro t φ _ hact hT k hk
    obtain ⟨σ, hσ⟩ := hT k hk
    exact ⟨σ, (Monitor.watch_other hact).trans hσ⟩

structure RoundInv (l : Log (machine X)) (w : World) (ph : Phases) : Prop where
  agree : AllAgree w
  registered : Registered w ph
  watched : Watched (rounds X) l ph
  backed : ∀ t σ s, (rounds X).watch t l = some σ → l.own t = s → Backed s w σ

theorem kept_roundInv {obs : Observed X} (hv : w.Valid) (hf : ∀ t φ, ph t = some φ → φ.Facts w)
    (hI : RoundInv l w ph) (hadm : (rounds X).Admits l obs) (hm : Moves w ph obs w' ph') :
    RoundInv (⟨w, obs⟩ :: l) w' ph' := by
  refine ⟨kept_allAgree (fun _ _ => True) _ _ _ _ _ hv hf hI.agree trivial hm,
    kept_registered (fun _ _ => True) _ _ _ _ _ hv hf hI.registered trivial hm,
    hI.watched.step (fun k => ⟨Round.opened k, rfl⟩) hv hf hm, ?_⟩
  intro t σ s hσ hs
  rcases Monitor.watch_cases hσ with ⟨hact, hw⟩ | ⟨j, rfl, hj⟩ | ⟨e, r, τ, rfl, hτ, rfl⟩
  · have hown := hs.symm.trans (Log.own_other hact)
    exact (hI.backed t σ s hw hown.symm).later (Protocol.Moves.later hm hv)
  · cases j with
    | reconcile =>
      cases hj
      trivial
    | create | delete | reboot => cases hj
  · have hown := hs.symm.trans (Log.own_call e r)
    subst hown
    exact backed_see hv hf hI.agree hm (hadm τ hτ) (hI.backed t τ _ hτ rfl)

lemma roundInv_start (hosts : List SSHHost) :
    RoundInv (X := X) [] (World.start hosts) (fun _ => none) :=
  ⟨allAgree_start hosts, registered_start hosts, by simp [Watched], by simp [Monitor.watch]⟩

end Kept

inductive Readmits (l : Log (machine X)) (w : World) (a : SSHHost) : Observed X → Prop
  | probe {t act s x g now ready r} : w.threads t = some act → act.owner = .reconcile a.key →
      l.own t = s → RanProbe s a x → (probeResult x).kubeletActive = false →
      Readmits l w a (.call t (.patchStatus a (.probe (.probeOk g now (probeResult x)) ready)) r)
  | leave {t act s ready r} : w.threads t = some act → act.owner = .reconcile a.key → l.own t = s →
      RanLeave s a → a.status.state = .leaving →
      Readmits l w a (.call t (.patchStatus a (.probe .leaveOk ready)) r)

lemma Writes.readmits {φ : Phase} {o s : SSHHost} {wr : StatusWrite}
    (h : Writes φ o s wr) (hs : φ.Sound) (hav : s.status.state ≠ .available)
    (ho : (outcome o s wr).state = .available) :
    (s.status.claimRef.isSome = true ∧ ∀ k, φ.owner ≠ .reconcile k) ∨
      ∃ p ready, wr = .probe p ready ∧ o = s ∧ φ.owner = .reconcile s.key ∧ ¬ Phase.InClaim s ∧
        ((∃ g now res, p = .probeOk g now res) ∨ (p = .leaveOk ∧ s.status.state = .leaving)) := by
  have hst : (wr.apply s.status).state = .available := by
    rcases h.outcome_cases hs with he | ⟨_, _, _, _, _, _, _, _, _, _, _, he⟩
    · rw [← he]
      exact ho
    · rw [he] at ho
      exact ho
  cases h with
  | claim => cases hst
  | @set _ _ _ _ x =>
    cases x with
    | markInUse => cases hst
    | installed | providerID | bootstrapTokenID => exact absurd hst hav
  | clear => exact absurd hst hav
  | release _ hc =>
    refine .inl ⟨isSome_of_heldBy (Phase.close_sound hc hs).1.1, fun k hk => ?_⟩
    rw [(Phase.close_objects hc).2] at hk
    cases hk
  | teardown => exact .inl ⟨isSome_of_heldBy hs, nofun⟩
  | probe ready hp =>
    obtain ⟨conds, he⟩ := apply_probe _ ready _
    rw [he] at hst
    cases hp with
    | recheck | collect => exact absurd hst hav
    | maintenance | release | failed | park | fence | leaveFailed => cases hst
    | facts =>
      simp only [ProbeWrite.apply, recordFacts] at hst
      split_ifs at hst
      exact absurd hst hav
    | ok _ g now res => exact .inr ⟨_, ready, rfl, rfl, rfl, hs, .inl ⟨g, now, res, rfl⟩⟩
    | leaveOk =>
      refine .inr ⟨_, ready, rfl, rfl, rfl, ?_, .inr ⟨rfl, hs.1⟩⟩
      simp [Phase.InClaim, hs.1]

/-- A host that has no claim becomes Available only by a reconcile that has probed it since, or by
the guard that stored Leaving and whose leave script succeeded; and no reconcile makes a host
Available that is to be in maintenance. -/
theorem readmitted_by_probe {hosts : List SSHHost} {l : Log (machine X)}
    {c d : Run X} {ev : Event X} {obs : Observed X} {k : NamespacedName} {a b : SSHHost}
    (hr : Logged (fun _ _ _ => True) (idle X hosts) l c) (hs : c.step ev = some (obs, d))
    (ha : World.current c.world k = some a) (hb : World.current d.world k = some b)
    (hav : a.status.state ≠ .available) (hbv : b.status.state = .available) :
    (a.status.state ≠ .claimed ∧ a.status.state ≠ .inUse → Readmits l c.world a obs) ∧
      ∀ t act j, obs.actor = some t → World.threads c.world t = some act →
      act.owner = .reconcile j →
        a.maintenance = false := by
  obtain ⟨ph, ht, hI⟩ := Protocol.run_logged (conforms X) (rounds_respected X)
    (fun l w ph o w' ph' hv hf hI _ hadm hm => kept_roundInv hv hf hI hadm hm) (valid_start hosts)
    (roundInv_start hosts) hr
  have hadm := (rounds_respected X).admits hr hs
  obtain ⟨ph', hm, _⟩ := ht.step (conforms X) hs
  cases (Moves.change ht.valid ht.facts hm).from ha with
  | same hcur =>
    rw [hcur] at hb
    cases hb
    exact absurd hbv hav
  | edited o' hp hst =>
    rw [hp.current] at hb
    cases hb
    exact absurd (hst ▸ hbv) hav
  | written t φ o wr ra o' hφ hfφ hw hobs hra hk hland =>
    obtain rfl := Option.some.inj (hland.current.symm.trans hb)
    obtain ⟨act, hact, hown, _⟩ := hI.registered.record t φ hφ
    have hactor := hobs.actor
    rw [hland.status] at hbv
    rcases hw.readmits hfφ.sound hav hbv with ⟨hsome, hnot⟩ | ⟨p, ready, rfl, rfl, hrec, hfree, hp⟩
    · refine ⟨fun hn => ?_, fun u act' j hu hact' hj => ?_⟩
      · have := (hI.agree k a (World.current_mem ha)).1.mp hsome
        tauto
      · rw [hactor] at hu
        cases hu
        rw [hact] at hact'
        cases hact'
        exact absurd (hown.symm.trans hj) (hnot j)
    · rw [hrec] at hown
      obtain rfl := hobs.patched hm (by simp)
      obtain ⟨σ, hσ⟩ := hI.watched t φ hφ _ hrec
      have hb := hI.backed t σ _ hσ rfl
      have hallow : σ.Writes o p := hadm σ hσ
      have hnone := ((hI.agree k o (World.current_mem ha)).unclaimed hfree).1
      rcases hp with ⟨g, now, res, rfl⟩ | ⟨rfl, hlv⟩
      · obtain ⟨x, rfl, hserv, rfl, hcold⟩ := hallow
        exact ⟨fun _ => .probe hact hown rfl hb hcold, fun _ _ _ _ _ _ => hserv.maintenance hnone⟩
      · have hleft : o.maintenance = false ∧ RanLeave (l.own t) o := by
          rcases hallow with rfl | ⟨n, rfl⟩
          · exact hb
          · exact hb
        exact ⟨fun _ => .leave hact hown rfl hleft.2 hlv, fun _ _ _ _ _ _ => hleft.1⟩

section Sample

open Sample

theorem readmitted_by_probe_guard :
    ∃ (l : Log (machine externals)) (c d : Run externals) (obs : Observed externals) (a : SSHHost),
      Logged (fun _ _ _ => True) (idle externals hosts) l c ∧ c.step (.call 2 .ok) = some (obs, d) ∧
      a.status.state = .leaving ∧ Readmits l c.world a obs := by
  obtain ⟨l, c, obs, d, hr, hs, hq⟩ :=
    exists_logged_step (p := fun _ _ _ => true) (c := idle externals hosts)
    (q := failedJoin ++ [.call 1 .ok, .call 1 .ok, .finish 1] ++ probing 2 k1 5000 "active" ++
      guarding 2 ++ [.call 2 done, .call 2 (.time 5060)]) (v := .call 2 .ok)
    (Q := fun _ c _ d => (World.current c.world k1).any (fun a => a.status.state = .leaving) &&
      (World.current d.world k1).any (fun b => b.status.state = .available)) (by decide +kernel)
  simp only [Bool.and_eq_true, Option.any_eq_true, decide_eq_true_eq] at hq
  obtain ⟨⟨a, ha, hlv⟩, b, hb, hbv⟩ := hq
  have hr' := hr.weaken (B := fun _ _ _ => True) fun _ _ _ _ => trivial
  refine ⟨l, c, d, obs, a, hr', hs, hlv, ?_⟩
  exact (readmitted_by_probe hr' hs ha hb (by simp [hlv]) hbv).1 (by simp [hlv])

end Sample

end KarpenterProviderSsh.Runs
