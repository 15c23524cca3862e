import KarpenterProviderSsh.Runs.Changes

/-! Who is at work. The records of running operations and their SSH sessions agree with the phases
the operations are in. -/

namespace KarpenterProviderSsh.Runs

open Api Cluster Scripts Providers Controllers Interleaving Config

variable {X : Externals}

def Phase.script : Phase → Option (NamespacedName × ScriptPhase)
  | .launch _ _ h (.joining _) => some (h.key, .join)
  | .tearing _ h | .forcing h => some (h.key, .leave)
  | _ => none

lemma Phase.script_cases {φ : Phase} {k : NamespacedName} {p : ScriptPhase}
    (h : φ.script = some (k, p)) :
    (p = .join ∧ ∃ nc r h id, φ = .launch nc r h (.joining id) ∧ h.key = k) ∨
      (p = .leave ∧ ((∃ nc h, φ = .tearing nc h ∧ h.key = k) ∨ ∃ h, φ = .forcing h ∧
        h.key = k)) := by
  unfold Phase.script at h
  split at h <;> cases h
  · exact .inl ⟨rfl, _, _, _, _, rfl, rfl⟩
  · exact .inr ⟨rfl, .inl ⟨_, _, rfl, rfl⟩⟩
  · exact .inr ⟨rfl, .inr ⟨_, rfl, rfl⟩⟩

lemma Phase.script_of_close {φ : Phase} {nc : NodeClaim} {r : Bool} {cl : Closing}
    (hc : φ.close = some (nc, r, cl)) : φ.script = none := by
  unfold Phase.close at hc
  split at hc <;> cases hc <;> rfl

lemma Writes.script {φ : Phase} {o s : SSHHost} {wr : StatusWrite} (h : Writes φ o s wr) :
    φ.script = none := by
  cases h with
  | claim | teardown => rfl
  | set hs => cases hs <;> rfl
  | clear hc | release _ hc => exact Phase.script_of_close hc
  | probe _ hp => cases hp <;> rfl

section Steps

variable {w w' : World} {t : ℕ} {φ ψ : Phase} {ch : Choice}

lemma opening_owner (j : Job X) : (opening j).owner = j.owner := by
  cases j <;> rfl

lemma owner_after {o s : SSHHost} {wr : StatusWrite} {a : Except Err SSHHost}
    (ha : Answered w o s wr a w') (hψ : After φ o s wr a ψ) : ψ.owner = φ.owner := by
  cases hψ with
  | clearOk hc | clearLost hc | clearErr hc => exact (Phase.close_objects hc).2.symm
  | factsOk | fenceOk =>
    have hk := (landed_mem ha.of_ok).1
    simp [Phase.owner, hk]
  | _ => rfl

lemma owner_act {e : Eff} {r : Res e} (hv : w.Valid) (hf : φ.Facts w) (ha : Act φ e r ψ)
    (hh : w.handle t e ch = some (r, w')) : ψ.owner = φ.owner := by
  cases ha with
  | update hw hψ => exact owner_after (answered_update hv hf hw hh) hψ
  | patch hw _ hψ => exact owner_after (answered_patch hv hf hw hh) hψ
  | discard hc | free hc => exact (Phase.close_objects hc).2.symm
  | readMaintained hk | readClaimed hk | readUnclaimed hk => simp [Phase.owner, hk]
  | _ => rfl

def Scripted (w : World) (t : ℕ) (φ : Phase) : Prop :=
  ∀ s ∈ w.sessions, s.thread = t → s.phase = .join ∨ s.phase = .leave →
    φ.script = some (s.host, s.phase)

lemma Scripted.same (h : Scripted w t φ) (hs : w'.sessions = w.sessions)
    (hψ : φ.script = none ∨ ψ = φ) :
    Scripted w' t ψ := by
  intro s hm ht hp
  have hφ := h s (hs ▸ hm) ht hp
  rcases hψ with hn | rfl
  · rw [hn] at hφ
    cases hφ
  · exact hφ

lemma Scripted.start {k : NamespacedName} {p : ScriptPhase} {a : Target} {b : Payload}
    (h : Scripted w t φ) (hn : φ.script = none) (hψ : ψ.script = some (k, p))
    (hh : w.handle t (.sshStart k p a b) ch = some (.ok (), w')) : Scripted w' t ψ := by
  intro s hm ht hp
  rcases World.sshStart_cases hh with ⟨_, rfl⟩ | ⟨_, _, he⟩
  · rcases List.mem_cons.mp hm with rfl | hm
    · exact hψ
    · have hφ := h s hm ht hp
      rw [hn] at hφ
      cases hφ
  · cases he

lemma Scripted.quiet {k : NamespacedName} {p : ScriptPhase} {a : Target} {b : Payload}
    {r : Except Err Unit} (h : Scripted w t φ) (hj : p ≠ .join) (hl : p ≠ .leave)
    (hh : w.handle t (.sshStart k p a b) ch = some (r, w')) : Scripted w' t φ := by
  intro s hm ht hp
  rcases World.sshStart_cases hh with ⟨_, rfl⟩ | ⟨rfl, _⟩
  · rcases List.mem_cons.mp hm with rfl | hm
    · exact absurd hp (by simp [hj, hl])
    · exact h s hm ht hp
  · exact h s hm ht hp

lemma Scripted.stop {k : NamespacedName} {p : ScriptPhase} {r : Except Err ExecResult}
    (h : Scripted w t φ) (hφ : φ.script = some (k, p))
    (hh : w.handle t (.sshWait k p) ch = some (r, w')) : Scripted w' t ψ := by
  intro s hm ht hp
  rw [(World.sshWait_cases hh).1, List.mem_filter, decide_eq_true_eq] at hm
  have hs := h s hm.1 ht hp
  rw [hφ] at hs
  cases hs
  exact absurd (by rw [← ht]) hm.2

lemma scripted_act {e : Eff} {r : Res e} (h : Scripted w t φ) (ha : Act φ e r ψ)
    (hh : w.handle t e ch = some (r, w')) : Scripted w' t ψ := by
  have hs := (World.handle_frame hh).sessions
  cases ha with
  | @silent _ e _ hsil =>
    refine h.same (hs ?_ ?_) (.inr rfl)
    · rintro k p a b rfl
      cases hsil
    · rintro k p rfl
      cases hsil
  | look | list => exact h.same (hs (by simp) (by simp)) (.inr rfl)
  | quietStart hj hl => exact h.quiet hj hl hh
  | startFailed =>
    rcases World.sshStart_cases hh with ⟨he, _⟩ | ⟨rfl, _⟩
    · cases he
    · exact h
  | quietWait hj hl =>
    intro s hm ht hp
    rw [(World.sshWait_cases hh).1, List.mem_filter] at hm
    exact h s hm.1 ht hp
  | update hw | patch hw => exact h.same (hs (by simp) (by simp)) (.inl hw.script)
  | joinStart => exact h.start rfl rfl hh
  | leaveStart => exact h.start rfl rfl hh
  | forceStart => exact h.start rfl rfl hh
  | joinOk | joinErr | leaveOk | leaveErr | forceOk | forceErr => exact h.stop rfl hh
  | probed =>
    intro s hm ht hp
    rw [(World.sshWait_cases hh).1, List.mem_filter] at hm
    have hφ := h s hm.1 ht hp
    cases hφ
  | refetch hst | abandon hst =>
    refine h.same (hs (by simp) (by simp)) (.inl ?_)
    cases hst <;> rfl
  | discard hc | free hc => exact h.same (hs (by simp) (by simp)) (.inl (Phase.script_of_close hc))
  | _ => exact h.same (hs (by simp) (by simp)) (.inl rfl)

end Steps

structure Registered (w : World) (ph : Phases) : Prop where
  record : ∀ t φ, ph t = some φ → ∃ a, w.threads t = some a ∧ a.owner = φ.owner ∧ a.since ≤ w.rev
  running : ∀ t a, w.threads t = some a → t ∈ w.running ∧ ∃ φ, ph t = some φ
  live : ∀ s ∈ w.sessions, ∃ φ, ph s.thread = some φ
  script : ∀ t φ, ph t = some φ → Scripted w t φ

lemma registered_start (hosts : List SSHHost) : Registered (World.start hosts) (fun _ => none) :=
  ⟨by simp, by simp [World.start], by simp [World.start], by simp⟩

lemma Registered.owner_eq {w : World} {ph : Phases} (h : Registered w ph) {t : ℕ} {φ : Phase}
    {a : Activity} (hφ : ph t = some φ) (ha : w.threads t = some a) : a.owner = φ.owner := by
  obtain ⟨b, hb, hbo, _⟩ := h.record t φ hφ
  rw [ha] at hb
  cases hb
  exact hbo

lemma Registered.session {w : World} {ph : Phases} (h : Registered w ph) {s : Session}
    (hs : s ∈ w.sessions) (hp : s.phase = .join ∨ s.phase = .leave) :
    ∃ φ, ph s.thread = some φ ∧ φ.script = some (s.host, s.phase) := by
  obtain ⟨φ, hφ⟩ := h.live s hs
  exact ⟨φ, hφ, h.script _ φ hφ s hs rfl hp⟩

section Kept

variable {w w' : World} {ph : Phases} {t : ℕ}

lemma Registered.enter (h : Registered w ph) (hn : ph t = none) (j : Job X) :
    Registered (w.enter t j.owner) (Function.update ph t (some (opening j))) := by
  have hne {u : ℕ} {φ : Phase} (hu : ph u = some φ) : u ≠ t := by
    rintro rfl
    rw [hn] at hu
    cases hu
  refine ⟨fun u φ hu => ?_, fun u a hu => ?_, fun s hs => ?_, fun u φ hu s hs hst hp => ?_⟩
  · by_cases hut : u = t
    · subst hut
      simp only [Function.update_self, Option.some.injEq] at hu
      exact ⟨_, by simp [World.enter]; rfl, by simp [← hu, opening_owner], le_rfl⟩
    · rw [Function.update_of_ne hut] at hu
      obtain ⟨a, ha, ho⟩ := h.record u φ hu
      exact ⟨a, by simp [World.enter, hut, ha], ho⟩
  · by_cases hut : u = t
    · subst hut
      exact ⟨by simp [World.enter], opening j, by simp⟩
    · simp only [World.enter, Function.update_of_ne hut] at hu
      obtain ⟨hr, φ, hφ⟩ := h.running u a hu
      exact ⟨List.mem_cons_of_mem _ hr, φ, by rw [Function.update_of_ne hut, hφ]⟩
  · obtain ⟨φ, hφ⟩ := h.live s hs
    exact ⟨φ, by rw [Function.update_of_ne (hne hφ), hφ]⟩
  · obtain ⟨χ, hχ⟩ := h.live s hs
    have hut : u ≠ t := hst ▸ hne hχ
    rw [Function.update_of_ne hut] at hu
    exact h.script u φ hu s hs hst hp

lemma Registered.act {φ ψ : Phase} {e : Eff} {r : Res e} {ch : Choice}
    (h : Registered w ph) (hv : w.Valid) (hf : φ.Facts w) (hφ : ph t = some φ) (ha : Act φ e r ψ)
    (hh : w.handle t e ch = some (r, w')) :
    Registered w' (Function.update ph t (some ψ)) := by
  have hfr := World.handle_frame hh
  have hl := (World.handle_later hv hh).2
  have ht := World.handle_threads hv hh
  refine ⟨fun u χ hu => ?_, fun u a hu => ?_, fun s hs => ?_, fun u χ hu => ?_⟩
  · by_cases hut : u = t
    · subst hut
      simp only [Function.update_self, Option.some.injEq] at hu
      obtain ⟨a, hth, ho, hsi⟩ := h.record u φ hφ
      obtain ⟨hno, hns⟩ := World.noted_owner e r a
      refine ⟨World.noted e r a, by simp [ht, hth], ?_, ?_⟩
      · rw [hno, ho, ← hu, owner_act hv hf ha hh]
      · rw [hns]
        exact hsi.trans hl.rev
    · rw [Function.update_of_ne hut] at hu
      obtain ⟨a, hth, ho, hsi⟩ := h.record u χ hu
      exact ⟨a, by rw [hfr.others u hut, hth], ho, hsi.trans hl.rev⟩
  · rw [hfr.running]
    by_cases hut : u = t
    · subst hut
      obtain ⟨b, hb, _⟩ := h.record u φ hφ
      exact ⟨(h.running u b hb).1, ψ, by simp⟩
    · rw [hfr.others u hut] at hu
      obtain ⟨hr, χ, hχ⟩ := h.running u a hu
      exact ⟨hr, χ, by rw [Function.update_of_ne hut, hχ]⟩
  · by_cases hut : s.thread = t
    · exact ⟨ψ, by simp [hut]⟩
    · obtain ⟨χ, hχ⟩ := h.live s (World.other_session hh hs hut)
      exact ⟨χ, by rw [Function.update_of_ne hut, hχ]⟩
  · by_cases hut : u = t
    · subst hut
      simp only [Function.update_self, Option.some.injEq] at hu
      exact hu ▸ scripted_act (h.script u φ hφ) ha hh
    · rw [Function.update_of_ne hut] at hu
      intro s hs hst hp
      exact h.script u χ hu s (World.other_session hh hs (hst ▸ hut)) hst hp

lemma Registered.leave (h : Registered w ph) (t : ℕ) :
    Registered (w.leave t) (Function.update ph t none) := by
  have hne {u : ℕ} {φ : Phase} (hu : Function.update ph t none u = some φ) :
      u ≠ t ∧ ph u = some φ := by
    by_cases hut : u = t
    · simp [hut] at hu
    · rw [Function.update_of_ne hut] at hu
      exact ⟨hut, hu⟩
  refine ⟨fun u φ hu => ?_, fun u a hu => ?_, fun s hs => ?_, fun u φ hu s hs hst hp => ?_⟩
  · obtain ⟨hut, hu⟩ := hne hu
    obtain ⟨a, ha, ho⟩ := h.record u φ hu
    exact ⟨a, by simp [World.leave, hut, ha], ho⟩
  · by_cases hut : u = t
    · simp [World.leave, hut] at hu
    · simp only [World.leave, Function.update_of_ne hut] at hu
      obtain ⟨hr, φ, hφ⟩ := h.running u a hu
      exact ⟨by simp [World.leave, hr, hut], φ, by rw [Function.update_of_ne hut, hφ]⟩
  · simp only [World.leave, List.mem_filter, decide_eq_true_eq] at hs
    obtain ⟨φ, hφ⟩ := h.live s hs.1
    exact ⟨φ, by rw [Function.update_of_ne hs.2, hφ]⟩
  · simp only [World.leave, List.mem_filter, decide_eq_true_eq] at hs
    exact h.script u φ (hne hu).2 s hs.1 hst hp

lemma Registered.outside {x : Outer} (h : Registered w ph) (hv : w.Valid)
    (hx : w.outside x = some w') :
    Registered w' ph := by
  obtain ⟨hr, ht, _, _, hs⟩ := World.outside_frame hx
  have hl := (World.outside_later hv hx).2
  refine ⟨fun u φ hu => ?_, ?_, ?_, ?_⟩
  · obtain ⟨a, ha, ho, hsi⟩ := h.record u φ hu
    exact ⟨a, by rw [ht, ha], ho, hsi.trans hl.rev⟩
  · rw [hr, ht]
    exact h.running
  · rw [hs]
    exact h.live
  · intro u φ hu
    exact (h.script u φ hu).same hs (.inr rfl)

end Kept

theorem kept_registered (A : World → Observed X → Prop) : (protocol X).Kept A Registered := by
  intro w ph obs w' ph' hv hf h _ hm
  rcases hm with ⟨t, j, hn⟩ | @⟨t, φ, e, r, ψ, ch, _, hφ, ha, hh⟩ | @⟨t, φ, _⟩ | @⟨t, φ, _⟩ | hx
  · exact h.enter hn j
  · exact h.act hv (hf t φ hφ) hφ ha hh
  · exact h.leave t
  · exact h.leave t
  · exact h.outside hv hx

section Records

variable {w w' : World} {ph ph' : Phases} {obs : Observed X}

lemma Moves.record (hv : w.Valid) (hm : Moves w ph obs w' ph') {u : ℕ} {a' : Activity}
    (hu : w'.threads u = some a') :
    (∃ a, w.threads u = some a ∧ a'.owner = a.owner ∧ a'.since = a.since) ∨
      ∃ j : Job X, obs = .spawn u j ∧ a'.owner = j.owner ∧ a'.since = w.rev := by
  rcases hm with ⟨t, j, hn⟩ | @⟨t, φ, e, r, ψ, ch, _, hφ, ha, hh⟩ | @⟨t, φ, _⟩ | @⟨t, φ, _⟩ | hx
  · by_cases hut : u = t
    · subst hut
      simp only [machine, World.enter, Function.update_self, Option.some.injEq] at hu
      exact .inr ⟨j, rfl, by rw [← hu], by rw [← hu]⟩
    · simp only [machine, World.enter, Function.update_of_ne hut] at hu
      exact .inl ⟨a', hu, rfl, rfl⟩
  · rw [World.handle_threads hv hh] at hu
    by_cases hut : u = t
    · subst hut
      simp only [Function.update_self, Option.map_eq_some_iff] at hu
      obtain ⟨a, ha, rfl⟩ := hu
      exact .inl ⟨a, ha, World.noted_owner e r a⟩
    · rw [Function.update_of_ne hut] at hu
      exact .inl ⟨a', hu, rfl, rfl⟩
  · by_cases hut : u = t
    · simp [machine, World.leave, hut] at hu
    · simp only [machine, World.leave, Function.update_of_ne hut] at hu
      exact .inl ⟨a', hu, rfl, rfl⟩
  · by_cases hut : u = t
    · simp [machine, World.leave, hut] at hu
    · simp only [machine, World.leave, Function.update_of_ne hut] at hu
      exact .inl ⟨a', hu, rfl, rfl⟩
  · rw [(World.outside_frame hx).2.1] at hu
    exact .inl ⟨a', hu, rfl, rfl⟩

lemma Moves.record_of_other (hm : Moves w ph obs w' ph') {t : ℕ} {a : Activity}
    (ht : obs.actor ≠ some t) (ha : w.threads t = some a) : w'.threads t = some a := by
  rcases hm with ⟨u, j, hn⟩ | @⟨u, φ, e, r, ψ, ch, _, hφ, hact, hh⟩ | @⟨u, φ, _⟩ | @⟨u, φ, _⟩ | hx
  · have hut : t ≠ u := fun h => ht (by rw [h]; rfl)
    simp [machine, World.enter, hut, ha]
  · have hut : t ≠ u := fun h => ht (by rw [h]; rfl)
    exact ((World.handle_frame hh).others t hut).trans ha
  · have hut : t ≠ u := fun h => ht (by rw [h]; rfl)
    simp [machine, World.leave, hut, ha]
  · have hut : t ≠ u := fun h => ht (by rw [h]; rfl)
    simp [machine, World.leave, hut, ha]
  · exact (World.outside_frame hx).2.1 ▸ ha

end Records

section Promises

/-- Every NodeClaim a Create is run for has a UID. -/
def namesClaims : Observed X → Bool
  | .spawn _ (.create _ nc _) => nc.uid ≠ ""
  | _ => true

/-- Core runs at most one Create or Delete per NodeClaim at a time. -/
def serialises (w : World) : Observed X → Bool
  | .spawn _ j => decide (∀ nc ∈ j.owner.nodeClaim, ∀ u ∈ w.running, ∀ a ∈ w.threads u,
      ∀ nc' ∈ a.owner.nodeClaim, nc.ref.heldBy nc' = false)
  | _ => true

/-- A NodeClaim with a Create in flight is found under its UID, unless the lookup itself fails. -/
def keepsClaims (w : World) : Observed X → Bool
  | .call _ (.getNodeClaim name) r => decide (∀ u ∈ w.running, ∀ a ∈ w.threads u,
      ∀ nc ∈ a.owner.launching, nc.name = name → showsStale nc.ref r = false)
  | _ => true

/-- All host reads go through one cache that never goes backwards. -/
def cacheAdvances (w : World) : Observed X → Bool
  | .call _ (.listHosts _) (.ok os) => decide (∀ o ∈ os, w.seen o.key ≤ o.resourceVersion)
  | .call _ (.getHost _) (.ok o) => decide (w.seen o.key ≤ o.resourceVersion)
  | _ => true

/-- Reconciles of one host are serialised. -/
def queuesHosts (w : World) : Observed X → Bool
  | .spawn _ (.reconcile k) => decide (∀ u ∈ w.running, ∀ a ∈ w.threads u, a.owner ≠ .reconcile k)
  | _ => true

def orderly (w : World) (obs : Observed X) : Bool := namesClaims obs && serialises w obs &&
    keepsClaims w obs

def Alone (R : Owner → Owner → Prop) (w : World) : Prop :=
  ∀ t u a b, w.threads t = some a → w.threads u = some b → R a.owner b.owner → t = u

lemma alone_step {R : Owner → Owner → Prop} {w w' : World} {ph ph' : Phases}
    {obs : Observed X} (hv : w.Valid) (hreg : Registered w ph) (hsymm : ∀ o o', R o o' → R o' o)
    (hnew : ∀ t j, obs = .spawn t j → ∀ u ∈ w.running, ∀ b, w.threads u = some b →
      ¬ R j.owner b.owner) (h : Alone R w) (hm : Moves w ph obs w' ph') : Alone R w' := by
  intro t u a' b' ht hu hR
  rcases Moves.record hv hm ht with ⟨a, ha, hao, _⟩ | ⟨j, hobs, hao, _⟩
  · rcases Moves.record hv hm hu with ⟨b, hb, hbo, _⟩ | ⟨j, hobs, hbo, _⟩
    · exact h t u a b ha hb (hao ▸ hbo ▸ hR)
    · exact absurd (hsymm _ _ (hao ▸ hbo ▸ hR)) (hnew u j hobs t (hreg.running t a ha).1 a ha)
  · rcases Moves.record hv hm hu with ⟨b, hb, hbo, _⟩ | ⟨j', hobs', _⟩
    · exact absurd (hao ▸ hbo ▸ hR) (hnew t j hobs u (hreg.running u b hb).1 b hb)
    · rw [hobs] at hobs'
      cases hobs'
      rfl

def SameClaim (o o' : Owner) : Prop :=
  ∃ nc nc', o.nodeClaim = some nc ∧ o'.nodeClaim = some nc' ∧ nc.ref.heldBy nc' = true

lemma heldBy_comm (nc nc' : NodeClaim) : nc.ref.heldBy nc' = nc'.ref.heldBy nc := by
  simp only [ClaimReference.heldBy, NodeClaim.ref, Bool.beq_comm (a := nc.name), bne,
    Bool.beq_comm (a := nc.uid)]
  grind

abbrev Serial (w : World) : Prop := Alone SameClaim w

lemma serial_step {w w' : World} {ph ph' : Phases} {obs : Observed X} (hv : w.Valid)
    (hreg : Registered w ph) (h : Serial w) (hA : serialises w obs = true)
    (hm : Moves w ph obs w' ph') : Serial w' := by
  refine alone_step hv hreg ?_ ?_ h hm
  · rintro o o' ⟨nc, nc', ho, ho', hh⟩
    exact ⟨nc', nc, ho', ho, heldBy_comm nc nc' ▸ hh⟩
  · rintro t j rfl u hu b hb ⟨nc, nc', hj, hbo, hh⟩
    simp only [serialises, decide_eq_true_eq] at hA
    rw [hA nc hj u hu b hb nc' hbo] at hh
    cases hh

lemma Serial.holder_eq {w : World} {ph : Phases} (h : Serial w) (hreg : Registered w ph)
    {t u : ℕ} {φ χ : Phase} {nc nc' : NodeClaim} {s : SSHHost} (hφ : ph t = some φ)
    (hχ : ph u = some χ) (ho : φ.owner.nodeClaim = some nc) (ho' : χ.owner.nodeClaim = some nc')
    (hh : claimHeldBy s nc' = true) (hs : s.status.claimRef = some nc.ref) :
    t = u := by
  obtain ⟨a, ha, hao, _⟩ := hreg.record t φ hφ
  obtain ⟨b, hb, hbo, _⟩ := hreg.record u χ hχ
  refine h t u a b ha hb ⟨nc, nc', hao ▸ ho, hbo ▸ ho', ?_⟩
  simpa [claimHeldBy, hs] using hh

abbrev Queued (w : World) : Prop := Alone (fun o o' => ∃ k, o = .reconcile k ∧ o' = .reconcile k) w

lemma queued_step {w w' : World} {ph ph' : Phases} {obs : Observed X} (hv : w.Valid)
    (hreg : Registered w ph) (h : Queued w) (hA : queuesHosts w obs = true)
    (hm : Moves w ph obs w' ph') : Queued w' := by
  refine alone_step hv hreg ?_ ?_ h hm
  · rintro o o' ⟨k, ho, ho'⟩
    exact ⟨k, ho', ho⟩
  · rintro t j rfl u hu b hb ⟨k, hj, hbo⟩
    cases j <;> cases hj
    simp only [queuesHosts, decide_eq_true_eq] at hA
    exact hA u hu b hb hbo

lemma alone_start (R : Owner → Owner → Prop) (hosts : List SSHHost) :
    Alone R (World.start hosts) := by
  intro t u a b ht
  cases ht

structure Named (w : World) : Prop where
  creates : ∀ t a nc, w.threads t = some a → a.owner = .create nc → nc.uid ≠ ""
  claims : ∀ k, ∀ v ∈ w.versions k, ∀ ref, v.status.claimRef = some ref → ref.uid ≠ ""

lemma named_start (hosts : List SSHHost) : Named (World.start hosts) := by
  refine ⟨by simp [World.start], fun k v hv ref hr => ?_⟩
  rw [status_start hv] at hr
  cases hr

lemma named_step {w w' : World} {ph ph' : Phases} {obs : Observed X} (hv : w.Valid)
    (hf : ∀ t φ, ph t = some φ → φ.Facts w) (hreg : Registered w ph) (h : Named w)
    (hA : namesClaims obs = true) (hm : Moves w ph obs w' ph') : Named w' := by
  refine ⟨fun t a' nc ht ho => ?_, ?_⟩
  · rcases Moves.record hv hm ht with ⟨a, ha, hao, _⟩ | ⟨j, rfl, hao, _⟩
    · exact h.creates t a nc ha (hao ▸ ho)
    · rw [hao] at ho
      cases j <;> cases ho
      simpa [namesClaims] using hA
  · refine (Moves.change hv hf hm).versions (Q := fun st => ∀ ref, st.claimRef = some ref →
      ref.uid ≠ "")
      h.claims ?_
    intro t φ o s wr a hφ hfφ _ hw _ hQ ref href
    rcases hw.claimRef_cases hfφ.sound with he | ⟨he, _⟩ | ⟨nc, os, rfl, _, rfl, _, he⟩
    · exact hQ ref (he ▸ href)
    · rw [he] at href
      cases href
    · rw [he] at href
      cases href
      obtain ⟨b, hb, hbo, _⟩ := hreg.record t _ hφ
      exact h.creates t b nc hb hbo

lemma ref_of_heldBy {ref : ClaimReference} {nc : NodeClaim} (hh : ref.heldBy nc = true)
    (hr : ref.uid ≠ "") (hn : nc.uid ≠ "") : ref = nc.ref := by
  obtain ⟨name, uid⟩ := ref
  simp_all [ClaimReference.heldBy, NodeClaim.ref]

lemma claimRef_of_heldBy {w : World} {h : SSHHost} {nc : NodeClaim}
    {k : NamespacedName} (hN : Named w) (hm : h ∈ w.versions k) (hh : claimHeldBy h nc = true)
    (hn : nc.uid ≠ "") :
    h.status.claimRef = some nc.ref := by
  unfold claimHeldBy at hh
  split at hh
  · cases hh
  · rename_i ref hr
    rw [hr, ref_of_heldBy hh (hN.claims k h hm ref hr) hn]

end Promises

end KarpenterProviderSsh.Runs
