import KarpenterProviderSsh.Runs.Registrations

/-! The zombie guard: nobody touches a host between the patch to Leaving and the guard's next write,
and a Claim that comes first keeps the guard off. -/

namespace KarpenterProviderSsh.Runs

open Api Cluster Scripts Providers Controllers Interleaving Config

variable {X : Externals}

def Guarded (w : World) (k : NamespacedName) : Prop :=
  ∃ h, w.current k = some h ∧ h.status.state = .leaving ∧ h.status.claimRef = none

def guardWrites (k : NamespacedName) (w : World) : Observed X → Bool
  | .call t (.patchStatus o _) r =>
    o.key = k && carriedOut r && (w.threads t).any (fun a => a.owner = .reconcile k)
  | _ => false

section Guarded

variable {w w' : World} {ph ph' : Phases} {obs : Observed X} {k : NamespacedName}

lemma Writes.of_guarded {φ : Phase} {o s : SSHHost} {wr : StatusWrite}
    (h : Writes φ o s wr) (hs : φ.Sound) (hl : s.status.state = .leaving)
    (hn : s.status.claimRef = none) :
    ∃ p ready, wr = .probe p ready ∧ φ.owner = .reconcile s.key := by
  -- only a reconcile can write a host that is Leaving and free: every other writer has seen a
  -- claim on the version it writes, or means to claim an Available one
  have hheld {nc : NodeClaim} (hh : claimHeldBy s nc = true) : False := by
    have := isSome_of_heldBy hh
    simp [hn] at this
  cases h with
  | claim ho =>
    have := (claimable_iff.mp (hs _ ho)).1
    rw [hl] at this
    cases this
  | set => exact (hheld hs.1.1).elim
  | clear hc | release _ hc => exact (hheld (Phase.close_sound hc hs).1.1).elim
  | teardown => exact (hheld hs).elim
  | probe ready hp => exact ⟨_, ready, rfl, by cases hp <;> rfl⟩

lemma Guarded.step (hreg : Registered w ph) (hm : Moves w ph obs w' ph') (hch : Change w ph obs w')
    (h : Guarded w k) (hA : guardWrites k w obs = false) : Guarded w' k := by
  obtain ⟨c, hc, hl, hn⟩ := h
  cases hch.from hc with
  | same hcur => exact ⟨c, hcur, hl, hn⟩
  | edited o' hp hst => exact ⟨o', hp.current, by rw [hst, hl], by rw [hst, hn]⟩
  | written t φ o wr a o' hφ hf hw hobs ha hk hland =>
    exfalso
    obtain ⟨p, ready, rfl, hown⟩ := hw.of_guarded hf.sound hl hn
    obtain ⟨b, hb, hbo, _⟩ := hreg.record t φ hφ
    rw [hown, hland.key] at hbo
    obtain rfl := hobs.patched hm (by simp)
    simp [guardWrites, hk, carriedOut_of ha, hb, hbo] at hA

lemma guarded_of_patch (hv : w.Valid) (hf : ∀ t φ, ph t = some φ → φ.Facts w)
    {t : ℕ} {o o' : SSHHost} {ready : Option Stamp}
    (hm : Moves (X := X) w ph (.call t (.patchStatus o (.probe .enterLeaving ready))
      (.ok o')) w' ph') :
    Guarded w' o.key := by
  obtain ⟨φ, s, hφ, hfφ, hw, ha⟩ := Moves.answered hv hf hm (.inr rfl)
  have hl := ha.of_ok
  cases hw with
  | probe _ hp =>
    cases hp with
    | fence _ hn =>
      have hst := hl.status
      rw [outcome_self] at hst
      obtain ⟨conds, he⟩ := apply_probe .enterLeaving ready o.status
      rw [he] at hst
      exact ⟨o', hl.current, by rw [hst]; rfl, by rw [hst]; exact hn⟩

end Guarded

section Fenced

def Phase.guards : Phase → Option NamespacedName
  | .fenced h | .forcing h => some h.key
  | _ => none

lemma Phase.owner_of_guards {φ : Phase} {k : NamespacedName} (h : φ.guards = some k) :
    φ.owner = .reconcile k := by
  unfold Phase.guards at h
  split at h <;> cases h <;> rfl

def FenceHeld (w : World) (φ : Phase) : Prop := ∀ k, φ.guards = some k → Guarded w k

def ReadOnce (w : World) (t : ℕ) (φ : Phase) : Prop :=
  φ.isReading = true → ∀ a, w.threads t = some a → a.reads = []

structure GuardInv (w : World) (ph : Phases) : Prop where
  registered : Registered w ph
  queued : Queued w
  held : ∀ t φ, ph t = some φ → FenceHeld w φ
  reads : ∀ t φ, ph t = some φ → ReadOnce w t φ

variable {w w' : World} {ph ph' : Phases} {obs : Observed X} {t : ℕ} {φ ψ : Phase} {e : Eff}
  {r : Res e} {ch : Choice}

lemma FenceHeld.other (hI : GuardInv w ph) (hm : Moves w ph obs w' ph') (hch : Change w ph obs w')
    (hφ : ph t = some φ) (hact : obs.actor ≠ some t) (h : FenceHeld w φ) : FenceHeld w' φ := by
  intro k hk
  refine (h k hk).step hI.registered hm hch ?_
  by_contra hg
  obtain ⟨a, ha, hao, _⟩ := hI.registered.record t φ hφ
  rw [Phase.owner_of_guards hk] at hao
  unfold guardWrites at hg
  split at hg
  · rename_i u o _ _
    simp only [Bool.not_eq_false, Bool.and_eq_true, Option.any_eq_true, decide_eq_true_eq] at hg
    obtain ⟨_, b, hb, hbo⟩ := hg
    exact hact (by rw [hI.queued t u a b ha hb ⟨k, hao, hbo⟩]; rfl)
  · exact hg rfl

lemma fenceHeld_act (hv : w.Valid) (hf : φ.Facts w) (hI : GuardInv w ph) (hφ : ph t = some φ)
    (ha : Act φ e r ψ) (hh : w.handle t e ch = some (r, w'))
    (hm : Moves (X := X) w ph (.call t e r) w' ph') (hch : Change (X := X) w ph (.call t e r) w') :
    FenceHeld w' ψ := by
  have hnone (hn : ψ.guards = none) : FenceHeld w' ψ := by
    intro k hk
    rw [hn] at hk
    cases hk
  have hkeep (hg : ψ.guards = φ.guards) (hn : ∀ k, guardWrites (X := X) k w (.call t e r) = false) :
      FenceHeld w' ψ := by
    intro k hk
    exact (hI.held t φ hφ k (hg ▸ hk)).step hI.registered hm hch (hn k)
  cases ha with
  | @silent _ e _ hsil =>
    refine hkeep rfl fun k => ?_
    cases e <;> first | rfl | cases hsil
  | look | list | quietStart | quietWait | startFailed | forceStart | forceErr =>
    exact hkeep rfl fun _ => rfl
  | update _ hψ => cases hψ <;> exact hnone rfl
  | patch hw _ hψ =>
    cases hψ with
    | fenceOk =>
      have hl := (answered_patch hv hf hw hh).of_ok
      have hs := (facts_act hv hf (.patch hw (by simp) .fenceOk) hh).sound
      intro k hk
      cases hk
      refine ⟨_, ?_, hs⟩
      rw [(landed_mem hl).1]
      exact hl.current
    | setLost | claimLost => exact hnone rfl
    | _ => exact hnone rfl
  | _ => exact hnone rfl

lemma readOnce_act (hv : w.Valid) (hR : ReadOnce w t φ) (ha : Act φ e r ψ)
    (hh : w.handle t e ch = some (r, w')) : ReadOnce w' t ψ := by
  have hkeep (hs : World.served e r = []) : ReadOnce w' t φ := by
    intro hr a' ha'
    rw [World.handle_threads hv hh, Function.update_self, Option.map_eq_some_iff] at ha'
    obtain ⟨a, ha, rfl⟩ := ha'
    rw [World.noted_reads, hs, hR hr a ha]
    rfl
  have hnone (hn : ψ.isReading = false) : ReadOnce w' t ψ := by
    intro hr
    rw [hn] at hr
    cases hr
  cases ha with
  | @silent _ e _ hsil =>
    refine hkeep ?_
    cases e <;> first | rfl | cases hsil
  | look h =>
    rcases h with h | ⟨e, rfl⟩
    · exact hnone h
    · exact hkeep rfl
  | list h => exact hnone h
  | quietStart | quietWait | startFailed => exact hkeep rfl
  | update _ hψ => cases hψ <;> exact hnone rfl
  | patch hw _ hψ => cases hψ <;> exact hnone rfl
  | _ => exact hnone rfl

theorem kept_guardInv : (protocol X).Kept (Passes queuesHosts) GuardInv := by
  intro w ph obs w' ph' hv hf hI ha hm
  have hch := Moves.change hv hf hm
  refine ⟨kept_registered _ w ph obs w' ph' hv hf hI.registered ha hm,
    queued_step hv hI.registered hI.queued ha hm, ?_, ?_⟩
  · refine Moves.threads (T := fun w _ φ => FenceHeld w φ) hm hI.held ?_ ?_ ?_
    · rintro t j _ _ _ k hk
      cases j <;> cases hk
    · rintro t φ e r ψ ch hφ hact hh rfl _
      exact fenceHeld_act hv (hf t φ hφ) hI hφ hact hh hm hch
    · intro t φ hφ hact hT
      exact hT.other hI hm hch hφ hact
  · refine Moves.threads (T := ReadOnce) hm hI.reads ?_ ?_ ?_
    · rintro t j _ _ rfl _ a ha
      simp only [World.enter, Function.update_self, Option.some.injEq] at ha
      rw [← ha]
    · rintro t φ e r ψ ch hφ hact hh _ hT
      exact readOnce_act hv hT hact hh
    · intro t φ hφ hact hT hr a ha
      obtain ⟨b, hb, _⟩ := hI.registered.record t φ hφ
      rw [Moves.record_of_other hm hact hb] at ha
      cases ha
      exact hT hr _ hb

end Fenced

section Beaten

def Phase.probes : Phase → Option SSHHost
  | .unclaimed h | .probed h _ | .guarding h => some h
  | _ => none

lemma Phase.mem_of_probes {φ : Phase} {h : SSHHost} (hp : φ.probes = some h) : h ∈ φ.objects := by
  unfold Phase.probes at hp
  split at hp <;> cases hp <;> simp [Phase.objects]

lemma Phase.owner_of_probes {φ : Phase} {h : SSHHost} (hp : φ.probes = some h) :
    φ.owner = .reconcile h.key := by
  unfold Phase.probes at hp
  split at hp <;> cases hp <;> rfl

structure Beaten (w : World) (φ : Phase) : Prop where
  guards : φ.guards = none
  probes : ∀ h, φ.probes = some h → w.current h.key ≠ some h

def spawns (u : ℕ) : Observed X → Bool
  | .spawn t _ => t = u
  | _ => false

/-- The operation is served a version newer than this one. -/
def catchesUp (u : ℕ) (o : SSHHost) : Observed X → Bool
  | .call t (.getHost _) (.ok h) => t = u && o.resourceVersion < h.resourceVersion
  | _ => false

variable {w w' : World} {ph ph' : Phases} {obs : Observed X} {t u : ℕ} {φ ψ : Phase}
  {e : Eff} {r : Res e} {ch : Choice} {o : SSHHost}

lemma Beaten.other (hv : w.Valid) (hf : φ.Facts w) (hch : Change w ph obs w') (h : Beaten w φ) :
    Beaten w' φ :=
  ⟨h.guards, fun o ho => hch.superseded hv (hf.stored o (Phase.mem_of_probes ho)) (h.probes o ho)⟩

lemma beaten_act (hv : w.Valid) (hf : φ.Facts w) (h : Beaten w φ) (ha : Act φ e r ψ)
    (hh : w.handle t e ch = some (r, w')) (hkeep : Beaten w' φ)
    (hread : φ.isReading = true → ∀ h, ψ.probes = some h → w'.current h.key ≠ some h) :
    Beaten w' ψ := by
  have hnone (hg : ψ.guards = none) (hp : ψ.probes = none) : Beaten w' ψ :=
    ⟨hg, fun o ho => by rw [hp] at ho; cases ho⟩
  cases ha with
  | silent | look | list | quietStart | quietWait | startFailed => exact hkeep
  | update _ hψ => cases hψ <;> exact hnone rfl rfl
  | patch hw _ hψ =>
    cases hψ with
    | factsOk =>
      -- a patch from a superseded version does not go through
      have hl := (answered_patch hv hf hw hh).of_ok
      cases hw with
      | probe => exact absurd hl.before (h.probes _ rfl)
    | fenceOk =>
      have hl := (answered_patch hv hf hw hh).of_ok
      cases hw with
      | probe => exact absurd hl.before (h.probes _ rfl)
    | setLost | claimLost => exact hkeep
    | _ => exact hnone rfl rfl
  | probed => exact ⟨rfl, fun o ho => hkeep.probes o ho⟩
  | readUnclaimed => exact ⟨rfl, hread rfl⟩
  | forceStart | forceErr => exact absurd h.guards (by simp [Phase.guards])
  | _ => exact hnone rfl rfl

lemma isReading_act (h : φ.isReading = false) (ha : Act φ e r ψ) : ψ.isReading = false := by
  cases ha with
  | silent | look | list | quietStart | quietWait | startFailed => exact h
  | update _ hψ => cases hψ <;> rfl
  | patch hw _ hψ => cases hψ <;> rfl
  | _ => rfl

lemma kept_beaten (u : ℕ) : (protocol X).Kept (Passes fun _ obs => !spawns u obs)
    (fun w ph => Registered w ph ∧
      ∀ φ, ph u = some φ → (∃ k, φ.owner = .reconcile k) ∧ φ.isReading = false ∧ Beaten w φ) := by
  refine (kept_registered _).and ?_
  intro w ph obs w' ph' hv hf _ hB hA hm
  have hch := Moves.change hv hf hm
  have hT := Moves.threads
    (T := fun w t φ => t = u → (∃ k, φ.owner = .reconcile k) ∧ φ.isReading = false ∧ Beaten w φ)
    hm (fun t φ hφ ht => hB φ (ht ▸ hφ)) ?_ ?_ ?_
  · exact fun φ hφ => hT u φ hφ rfl
  · rintro t j _ rfl _ rfl
    simp [Passes, spawns] at hA
  · rintro t φ e r ψ ch hφ hact hh rfl hT ht
    obtain ⟨hown, hr, hB⟩ := hT ht
    refine ⟨(owner_act hv (hf t φ hφ) hact hh).symm ▸ hown, isReading_act hr hact, ?_⟩
    refine beaten_act hv (hf t φ hφ) hB hact hh (hB.other hv (hf t φ hφ) hch) fun hr' => ?_
    rw [hr] at hr'
    cases hr'
  · intro t φ hφ _ hT ht
    obtain ⟨hown, hr, hB⟩ := hT ht
    exact ⟨hown, hr, hB.other hv (hf t φ hφ) hch⟩

lemma served_of_reading {h : SSHHost} (hr : φ.isReading = true) (ha : Act φ e r ψ)
    (hp : ψ.probes = some h) (hold : catchesUp (X := X) t o (.call t e r) = false) :
    h.resourceVersion ≤ o.resourceVersion := by
  cases φ with
  | reading k =>
    cases ha with
    | readUnclaimed =>
      cases hp
      simpa [catchesUp] using hold
    | readMaintained | readClaimed => cases hp
    | silent | look | list | quietStart | quietWait | startFailed => cases hp
    | update _ hψ => cases hψ
    | patch hw _ hψ => cases hψ <;> cases hp
    | discard hc | free hc => cases hc
  | _ => cases hr

lemma kept_outdated (u : ℕ) (o : SSHHost) :
    (protocol X).Kept (Passes fun _ obs => !catchesUp u o obs)
      (fun w ph => Registered w ph ∧ Superseded w o ∧
        ∀ φ, ph u = some φ → φ.owner = .reconcile o.key → Beaten w φ) := by
  refine (kept_registered _).and ?_
  rintro w ph obs w' ph' hv hf _ ⟨hs, hB⟩ hA hm
  have hch := Moves.change hv hf hm
  have hs' := hs.later (Protocol.Moves.later hm hv)
  have hT := Moves.threads (T := fun w t φ => t = u → φ.owner = .reconcile o.key → Beaten w φ)
    hm (fun t φ hφ ht => hB φ (ht ▸ hφ)) ?_ ?_ ?_
  · exact ⟨hs', fun φ hφ => hT u φ hφ rfl⟩
  · rintro t j _ _ _ _ _
    exact ⟨by cases j <;> rfl, fun h hp => by cases j <;> cases hp⟩
  · rintro t φ e r ψ ch hφ hact hh rfl hT rfl hψ
    have hown := owner_act hv (hf t φ hφ) hact hh
    have hBφ := hT rfl (hown.symm.trans hψ)
    refine beaten_act hv (hf t φ hφ) hBφ hact hh (hBφ.other hv (hf t φ hφ) hch) fun hr h hp => ?_
    have hk : ψ.owner = .reconcile h.key := Phase.owner_of_probes hp
    exact hs'.ne_current (Owner.reconcile.inj (hk.symm.trans hψ))
      (served_of_reading hr hact hp (by simpa [Passes] using hA))
  · intro t φ hφ _ hT ht hown
    exact (hT ht hown).other hv (hf t φ hφ) hch

lemma Moves.phase_of_claim (hv : w.Valid) (hf : ∀ t φ, ph t = some φ → φ.Facts w)
    {ref : ClaimReference} {a : Except Err SSHHost}
    (hm : Moves (X := X) w ph (.call t (.updateStatus o (.claim ref)) a) w' ph')
    {k : NamespacedName} (hown : φ.owner = .reconcile k) : ph' u = some φ ↔ ph u = some φ := by
  by_cases hu : t = u
  · subst hu
    obtain ⟨χ, ψ, ch, hχ, hact, hh, hψ⟩ := Moves.handled hm
    have hcreate : ∃ nc, χ.owner = .create nc := by
      cases hact with
      | silent hs => cases hs
      | update hw =>
        cases hw
        exact ⟨_, rfl⟩
    obtain ⟨nc, hnc⟩ := hcreate
    have hnc' := (owner_act hv (hf t χ hχ) hact hh).trans hnc
    constructor
    · intro hφ
      cases hψ.symm.trans hφ
      cases hnc'.symm.trans hown
    · intro hφ
      cases hχ.symm.trans hφ
      cases hnc.symm.trans hown
  · rw [Moves.phase_of_other hm (by simpa [Obs.actor] using hu)]

lemma claim_supersedes (hv : w.Valid) (hf : ∀ t φ, ph t = some φ → φ.Facts w) {ref : ClaimReference}
    {a : Except Err SSHHost}
    (hm : Moves (X := X) w ph (.call t (.updateStatus o (.claim ref)) a) w' ph')
    (hdone : carriedOut a = true) :
    w.current o.key = some o ∧ o.status.state ≠ .leaving ∧
      ∃ o', w.Pushed w' o.key o' := by
  obtain ⟨χ, s, hχ, hfχ, hw, ha⟩ := Moves.answered hv hf hm (.inl rfl)
  cases hw with
  | @claim nc os _ ho =>
    have hcl := claimable_iff.mp (hfχ.sound o ho)
    cases ha with
    | refused e _ he hr =>
      subst he
      rcases hr with ⟨rfl, _⟩ | rfl | ⟨m, rfl⟩ <;> cases hdone
    | landed o' hl _ =>
      refine ⟨hl.before, by simp [hcl.1], ?_⟩
      rcases hl.after with ⟨_, hp⟩ | ⟨he, _, _⟩
      · exact ⟨o', hp⟩
      · have hn := congrArg SSHHostStatus.claimRef he
        rw [outcome_self, hcl.2.1] at hn
        cases hn

lemma beaten_of_claim (hv : w.Valid) (hf : ∀ t φ, ph t = some φ → φ.Facts w) (hI : GuardInv w ph)
    {ref : ClaimReference} {a : Except Err SSHHost}
    (hm : Moves (X := X) w ph (.call t (.updateStatus o (.claim ref)) a) w' ph')
    (hdone : carriedOut a = true) (hu : ph u = some φ) (hown : φ.owner = .reconcile o.key) :
    Beaten w' φ := by
  obtain ⟨hbefore, hstate, o', hpush⟩ := claim_supersedes hv hf hm hdone
  refine ⟨?_, fun h hp hcur => ?_⟩
  · cases hg : φ.guards with
    | none => rfl
    | some k =>
      have hk := Phase.owner_of_guards hg
      rw [hown] at hk
      cases hk
      obtain ⟨c, hc, hlv, _⟩ := hI.held u φ hu _ hg
      rw [hbefore] at hc
      cases hc
      exact absurd hlv hstate
  · have hk := Owner.reconcile.inj ((Phase.owner_of_probes hp).symm.trans hown)
    rw [hk, hpush.current] at hcur
    cases hcur
    have := hv.rev_of_mem ((hf u φ hu).stored _ (Phase.mem_of_probes hp))
    have := hpush.newer
    omega

lemma Registered.guards_of_leave (hreg : Registered w ph) {s : Session} (hs : s ∈ w.sessions)
    (hp : s.phase = .leave) :
    ∃ φ, ph s.thread = some φ ∧ ∀ k, φ.owner = .reconcile k → φ.guards = some s.host := by
  obtain ⟨φ, hφ, hsc⟩ := hreg.session hs (.inr hp)
  refine ⟨φ, hφ, fun k hk => ?_⟩
  rcases Phase.script_cases hsc with ⟨hj, _⟩ | ⟨_, ⟨nc, h, rfl, _⟩ | ⟨h, rfl, hkey⟩⟩
  · rw [hp] at hj
    cases hj
  · cases hk
  · exact congrArg some hkey

end Beaten

/-- What the zombie guard can rely on. From its patch to Leaving until a reconcile writes the host
again the stored host stays Leaving and free; it is so whenever a guard runs its leave script; and a
reconcile that has read the host before a Claim landed never comes to run one, nor does any
reconcile of the host that is served no version newer than the one the Claim replaced. -/
structure GuardFence (c : Run X) : Prop where
  kept : ∀ t o ready o' ev d e,
    c.step ev = some (.call t (.patchStatus o (.probe .enterLeaving ready)) (.ok o'), d) →
    Reaches (Passes fun w obs => !guardWrites o.key w obs) d e → Guarded e.world o.key
  alone : ∀ s ∈ c.world.sessions, s.phase = .leave → ∀ a k, c.world.threads s.thread = some a →
    a.owner = .reconcile k → Guarded c.world s.host
  beaten : ∀ u b t o ref a ev d e,
    c.world.threads u = some b → b.owner = .reconcile o.key → b.reads ≠ [] →
    c.step ev = some (.call t (.updateStatus o (.claim ref)) a, d) → carriedOut a = true →
    Reaches (Passes fun _ obs => !spawns u obs) d e →
    ∀ s ∈ e.world.sessions, s.thread = u → s.phase ≠ .leave
  outdated : ∀ u t o ref a ev d e,
    c.step ev = some (.call t (.updateStatus o (.claim ref)) a, d) → carriedOut a = true →
    Reaches (Passes fun _ obs => !catchesUp u o obs) d e → ∀ b, e.world.threads u = some b →
    b.owner = .reconcile o.key → ∀ s ∈ e.world.sessions, s.thread = u → s.phase ≠ .leave

theorem zombie_guard_fence {hosts : List SSHHost} {c : Run X}
    (hr : Reaches (Passes queuesHosts) (idle X hosts) c) : GuardFence c := by
  obtain ⟨ph, ht, hI⟩ := reached kept_guardInv
    ⟨registered_start hosts, alone_start _ hosts, by simp, by simp⟩ hr
  have hreg {obs : Observed X} {w' : World} {ph' : Phases} (hm : Moves c.world ph obs w' ph') :
      Registered w' ph' :=
    kept_registered (fun _ _ => True) _ _ _ _ _ ht.valid ht.facts hI.registered trivial hm
  refine ⟨?_, ?_, ?_, ?_⟩
  · intro t o ready o' ev d e hs hr'
    obtain ⟨ph', hm, ht'⟩ := ht.step (conforms X) hs
    have hg := guarded_of_patch ht.valid ht.facts hm
    have hk : (protocol X).Kept (Passes fun w obs => !guardWrites o.key w obs)
        (fun w ph => Registered w ph ∧ Guarded w o.key) := by
      refine (kept_registered _).and ?_
      intro w ph obs w' ph' hv hf hreg hg hA hm
      exact hg.step hreg hm (Moves.change hv hf hm) (by simpa [Passes] using hA)
    obtain ⟨_, _, _, hge⟩ := ht'.run (conforms X) hk ⟨hreg hm, hg⟩ hr'
    exact hge
  · intro s hs hp a k ha hao
    obtain ⟨φ, hφ, hg⟩ := hI.registered.guards_of_leave hs hp
    exact hI.held _ _ hφ _ (hg k ((hI.registered.owner_eq hφ ha).symm.trans hao))
  · intro u b t o ref a ev d e hb hbo hread hs hdone hr' s hse hsu hp
    obtain ⟨ph', hm, ht'⟩ := ht.step (conforms X) hs
    obtain ⟨φ, hu⟩ := (hI.registered.running u b hb).2
    have hown := (hI.registered.owner_eq hu hb).symm.trans hbo
    have hsame := (Moves.phase_of_claim ht.valid ht.facts hm hown).mpr hu
    have hnot : φ.isReading = false := by
      by_contra hr
      exact hread (hI.reads u φ hu (by simpa using hr) b hb)
    obtain ⟨ph'', _, hreg'', hB''⟩ := ht'.run (conforms X) (kept_beaten u)
      ⟨hreg hm, fun ψ hψ => by
        cases hsame.symm.trans hψ
        exact ⟨⟨_, hown⟩, hnot, beaten_of_claim ht.valid ht.facts hI hm hdone hu hown⟩⟩ hr'
    obtain ⟨ψ, hψ, hg⟩ := hreg''.guards_of_leave hse hp
    obtain ⟨⟨k, hk⟩, _, hB⟩ := hB'' ψ (hsu ▸ hψ)
    cases hB.guards.symm.trans (hg k hk)
  · intro u t o ref a ev d e hs hdone hr' b hb hbo s hse hsu hp
    obtain ⟨ph', hm, ht'⟩ := ht.step (conforms X) hs
    obtain ⟨hbefore, _, o', hpush⟩ := claim_supersedes ht.valid ht.facts hm hdone
    have hsup := Superseded.of_pushed ht.valid (World.current_mem hbefore) hpush
    obtain ⟨ph'', _, hreg'', _, hB''⟩ := ht'.run (conforms X) (kept_outdated u o)
      ⟨hreg hm, hsup, fun ψ hψ hown => by
        have hu := (Moves.phase_of_claim ht.valid ht.facts hm hown).mp hψ
        exact beaten_of_claim ht.valid ht.facts hI hm hdone hu hown⟩ hr'
    obtain ⟨ψ, hψ, hg⟩ := hreg''.guards_of_leave hse hp
    rw [hsu] at hψ
    have hown := (hreg''.owner_eq hψ hb).symm.trans hbo
    cases (hB'' ψ hψ hown).guards.symm.trans (hg _ hown)

section Sample

open Sample

theorem zombie_guard_fence_leaving :
    ∃ c : Run externals, Reaches (Passes queuesHosts) (idle externals hosts) c ∧
      ⟨2, k1, .leave⟩ ∈ c.world.sessions ∧ c.world.kubelet k1 = true ∧ GuardFence c := by
  obtain ⟨c, hr, hq⟩ := exists_of_replay (p := queuesHosts) (c := idle externals hosts)
    (l := failedJoin ++ [.call 1 .ok, .call 1 .ok, .finish 1] ++ probing 2 k1 5000 "active" ++
      guarding 2)
    (Q := fun c => decide (Session.mk 2 k1 .leave ∈ c.world.sessions) && c.world.kubelet k1)
      (by decide +kernel)
  simp only [Bool.and_eq_true, decide_eq_true_eq] at hq
  exact ⟨c, hr, hq.1, hq.2, zombie_guard_fence hr⟩

end Sample

end KarpenterProviderSsh.Runs
