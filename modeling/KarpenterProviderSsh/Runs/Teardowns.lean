import KarpenterProviderSsh.Runs.Registrations

/-! The fence of Delete: whose claim a host carries while a Delete tears it down. -/

namespace KarpenterProviderSsh.Runs

open Api Cluster Scripts Providers Controllers Interleaving Config

variable {X : Externals}

section Cache

def Overtaken (w : World) : Prop :=
  ∀ k v c a b, v ∈ w.versions k → w.current k = some c → v.status.claimRef = some a →
    c.status.claimRef = some b → a ≠ b → v.resourceVersion < w.seen k

lemma overtaken_start (hosts : List SSHHost) : Overtaken (World.start hosts) := by
  intro k v c a b hv _ ha
  rw [status_start hv] at ha
  cases ha

lemma overtaken_step {w w' : World} {ph ph' : Phases} {obs : Observed X} (hv : w.Valid)
    (hf : ∀ t φ, ph t = some φ → φ.Facts w) (h : Overtaken w) (hm : Moves w ph obs w' ph') :
    Overtaken w' := by
  have hl : w.Later w' := hm.later hv
  intro k v c a b hvm hc ha hb hne
  cases (Moves.change hv hf hm).at k with
  | same hcur hvs => exact (h k v c a b (hvs ▸ hvm) (hcur ▸ hc) ha hb hne).trans_le (hl.seen k)
  | edited d o' hd hp hst =>
    rw [hp.current] at hc
    cases hc
    rcases (hp.versions v).mp hvm with rfl | hvm
    · rw [ha] at hb
      exact absurd (Option.some.inj hb) hne
    · exact (h k v d a b hvm hd ha (hst ▸ hb) hne).trans_le (hl.seen k)
  | written t φ o s wr r o' hφ hfφ hw _ _ _ hland =>
    rw [hland.current] at hc
    cases hc
    have hvs : v = c ∨ v ∈ w.versions k := by
      rcases hland.after with ⟨_, hp⟩ | ⟨_, _, hs⟩
      · exact (hp.versions v).mp hvm
      · exact .inr (hs.versions k ▸ hvm)
    rcases hvs with rfl | hvm
    · rw [ha] at hb
      exact absurd (Option.some.inj hb) hne
    rw [hland.status] at hb
    rcases hw.claimRef_cases hfφ.sound with he | ⟨he, _⟩ | ⟨nc, os, rfl, hos, _, hcl, he⟩
    · exact (h k v s a b hvm hland.before ha (he ▸ hb) hne).trans_le (hl.seen k)
    · rw [he] at hb
      cases hb
    · -- the claim was made on a version the cache had shown
      have hseen := hfφ.served s hos
      rw [hland.key] at hseen
      have hle := World.rev_le_current hvm hland.before
      have hlt : v.resourceVersion ≠ s.resourceVersion := by
        intro heq
        rw [World.eq_current hvm hland.before heq, (claimable_iff.mp hcl).2.1] at ha
        cases ha
      have := hl.seen k
      omega

end Cache

section Fence

/-- No Claim lands on a host of which a Delete in flight was served a version held by its
NodeClaim. -/
def sparesDeletes (w : World) : Observed X → Bool
  | .call _ (.updateStatus o _) r =>
    decide (carriedOut r = true → ∀ u ∈ w.running, ∀ a ∈ w.threads u,
      ∀ nc ∈ a.owner.deleting, ∀ v ∈ a.reads, v.key = o.key → claimHeldBy v nc = false)
  | _ => true

def fences (w : World) (obs : Observed X) : Bool :=
  namesClaims obs && cacheAdvances w obs && sparesDeletes w obs

def Phase.resolved : Phase → Option (NodeClaim × SSHHost)
  | .teardown nc h _ _ | .tearing nc h => some (nc, h)
  | _ => none

def DeleteHeld (w : World) (t : ℕ) (φ : Phase) : Prop :=
  ∀ nc h, φ.resolved = some (nc, h) → (∃ a, w.threads t = some a ∧ h ∈ a.reads) ∧
    ∃ c, w.current h.key = some c ∧
    (c.status.claimRef = none ∨ c.status.claimRef = h.status.claimRef)

section Steps

variable {w w' : World} {ph ph' : Phases} {obs : Observed X}

lemma DeleteHeld.other (hreg : Registered w ph) (hA : sparesDeletes w obs = true)
    (hm : Moves w ph obs w' ph') (hch : Change w ph obs w') {t : ℕ} {φ : Phase}
    (hφ : ph t = some φ) (hf : φ.Facts w)
    (hth : ∀ a, w.threads t = some a → ∃ a', w'.threads t = some a' ∧ ∀ v ∈ a.reads, v ∈ a'.reads)
    (h : DeleteHeld w t φ) : DeleteHeld w' t φ := by
  intro nc h₀ hres
  obtain ⟨⟨a, ha, hread⟩, c, hc, hcr⟩ := h nc h₀ hres
  obtain ⟨a', ha', hsub⟩ := hth a ha
  refine ⟨⟨a', ha', hsub _ hread⟩, ?_⟩
  have hown : a.owner = .delete nc ∧ claimHeldBy h₀ nc = true := by
    have hbo := hreg.owner_eq hφ ha
    have hs := hf.sound
    unfold Phase.resolved at hres
    split at hres <;> cases hres <;> exact ⟨hbo, hs⟩
  cases hch.from hc with
  | same hcur => exact ⟨c, hcur, hcr⟩
  | edited o' hp hst => exact ⟨o', hp.current, by rwa [hst]⟩
  | written u χ o wr r o' hχ hfχ hw hobs hans hk hl =>
    refine ⟨o', hl.current, ?_⟩
    rw [hl.status]
    rcases hw.claimRef_cases hfχ.sound with he | ⟨he, _⟩ | ⟨nc', os, rfl, _, rfl, _, _⟩
    · rwa [he]
    · exact .inl he
    · exfalso
      have hn : claimHeldBy h₀ nc = false := by
        rw [Moves.claim_update hm hobs] at hA
        simp only [sparesDeletes, decide_eq_true_eq] at hA
        exact hA (carriedOut_of hans) t (hreg.running t a ha).1 a ha nc
          (by rw [hown.1]; rfl) h₀ hread hk.symm
      rw [hown.2] at hn
      cases hn

lemma held_of_read (hO : Overtaken w) {o : SSHHost} (hm : o ∈ w.versions o.key)
    (hsome : o.status.claimRef.isSome = true) (hseen : w.seen o.key ≤ o.resourceVersion) :
    ∃ c, w.current o.key = some c ∧
    (c.status.claimRef = none ∨ c.status.claimRef = o.status.claimRef) := by
  -- a version that the cache still shows is not overtaken
  obtain ⟨c, hc⟩ := World.current_of_mem hm
  refine ⟨c, hc, ?_⟩
  obtain ⟨a, ha⟩ := Option.isSome_iff_exists.mp hsome
  cases hb : c.status.claimRef with
  | none => exact .inl rfl
  | some b =>
    refine .inr ?_
    rw [ha]
    by_contra hne
    have := hO o.key o c a b hm hc ha hb (fun h => hne (by rw [h]))
    omega

lemma deleteHeld_act {t : ℕ} {φ ψ : Phase} {e : Eff} {r : Res e} {ch : Choice}
    (hv : w.Valid) (hf : φ.Facts w) (hreg : Registered w ph) (hO : Overtaken w)
    (hA : cacheAdvances (X := X) w (.call t e r) = true) (hφ : ph t = some φ) (ha : Act φ e r ψ)
    (hh : w.handle t e ch = some (r, w')) (hkeep : DeleteHeld w' t φ) : DeleteHeld w' t ψ := by
  obtain ⟨b, hb, _⟩ := hreg.record t φ hφ
  have hth : w'.threads t = some (World.noted e r b) := by simp [World.handle_threads hv hh, hb]
  have hs := (World.handle_frame hh).store
  have hnone (hn : ψ.resolved = none) : DeleteHeld w' t ψ := by
    intro nc h hres
    rw [hn] at hres
    cases hres
  cases ha with
  | silent | look | list | quietStart | quietWait | startFailed => exact hkeep
  | leaveStart | leaveOk | leaveErr | freeLeft => exact hkeep
  | update _ hψ => cases hψ <;> exact hnone rfl
  | patch hw _ hψ =>
    cases hψ with
    | setLost => exact hkeep
    | _ => exact hnone rfl
  | @resolve nc k o hc =>
    intro nc' h hres
    cases hres
    refine ⟨⟨_, hth, by simp [World.noted]⟩, ?_⟩
    rcases World.getHost_answer hv hh with ⟨_, he, rfl, hm, _⟩ | ⟨_, _, he, _⟩ <;> cases he
    simp only [cacheAdvances, decide_eq_true_eq] at hA
    rw [(hs (by simp) (by simp)).current]
    exact held_of_read hO hm (isSome_of_heldBy hc) hA
  | @resolveListed nc ns os o ho hc =>
    intro nc' h hres
    cases hres
    refine ⟨⟨_, hth, by simp [World.noted, ho]⟩, ?_⟩
    rcases World.listHosts_answer hv hh with ⟨_, he, rfl, hm⟩ | ⟨_, _, he⟩ <;> cases he
    simp only [cacheAdvances, decide_eq_true_eq] at hA
    rw [(hs (by simp) (by simp)).current]
    exact held_of_read hO (hm o ho) (isSome_of_heldBy hc) (hA o ho)
  | _ => exact hnone rfl

end Steps

structure FenceInv (w : World) (ph : Phases) : Prop where
  registered : Registered w ph
  named : Named w
  overtaken : Overtaken w
  held : ∀ t φ, ph t = some φ → DeleteHeld w t φ

theorem kept_fenceInv : (protocol X).Kept (Passes fences) FenceInv := by
  intro w ph obs w' ph' hv hf hI ha hm
  have ho : fences w obs = true := ha
  simp only [fences, Bool.and_eq_true] at ho
  have hch := Moves.change hv hf hm
  refine ⟨kept_registered _ w ph obs w' ph' hv hf hI.registered ha hm,
    named_step hv hf hI.registered hI.named ho.1.1 hm, overtaken_step hv hf hI.overtaken hm, ?_⟩
  refine Moves.threads (T := DeleteHeld) hm hI.held ?_ ?_ ?_
  · rintro t j _ _ _ nc h hres
    cases j <;> cases hres
  · rintro t φ e r ψ ch hφ hact hh rfl hT
    refine deleteHeld_act hv (hf t φ hφ) hI.registered hI.overtaken ho.1.2 hφ hact hh ?_
    refine hT.other hI.registered ho.2 hm hch hφ (hf t φ hφ) fun a hta => ?_
    exact ⟨World.noted e r a, by simp [World.handle_threads hv hh, hta], fun v hvr => by
      rw [World.noted_reads]
      exact List.mem_append_right _ hvr⟩
  · intro t φ hφ hact hT
    refine hT.other hI.registered ho.2 hm hch hφ (hf t φ hφ) fun a hta => ?_
    exact ⟨a, Moves.record_of_other hm hact hta, fun v hvr => hvr⟩

/-- In every run in which no Claim lands on a host under a Delete that has seen its own claim there,
a Delete never has a leave script running on a host that another NodeClaim holds. -/
theorem leave_spares_successor {hosts : List SSHHost} {c : Run X}
    (hr : Reaches (Passes fences) (idle X hosts) c) {s : Session} (hs : s ∈ c.world.sessions)
    (hp : s.phase = .leave) {a : Activity} {A B : NodeClaim}
    (ha : c.world.threads s.thread = some a) (hao : a.owner = .delete A) (hA : A.uid ≠ "")
    (hB : B.uid ≠ "") (hne : A.uid ≠ B.uid) {h : SSHHost} (hh : c.world.current s.host = some h) :
    claimHeldBy h B = false := by
  obtain ⟨ph, ht, hI⟩ := reached kept_fenceInv
    ⟨registered_start hosts, named_start hosts, overtaken_start hosts, by simp⟩ hr
  obtain ⟨φ, hφ, hsc⟩ := hI.registered.session hs (.inr hp)
  have hbo := hI.registered.owner_eq hφ ha
  have hfφ : φ.Facts c.world := ht.facts _ _ hφ
  rw [hao] at hbo
  rcases Phase.script_cases hsc with ⟨hj, _⟩ | ⟨_, ⟨nc, h₀, rfl, hk⟩ | ⟨h₀, rfl, _⟩⟩
  · rw [hp] at hj
    cases hj
  · cases hbo
    obtain ⟨_, d, hd, hcr⟩ := hI.held _ _ hφ A h₀ rfl
    rw [hk, hh] at hd
    cases hd
    by_contra hheld
    have hB' := claimRef_of_heldBy hI.named (World.current_mem hh) (by simpa using hheld) hB
    have hA' := claimRef_of_heldBy hI.named (hfφ.stored h₀ (by simp [Phase.objects])) hfφ.sound hA
    rw [hB', hA'] at hcr
    rcases hcr with hcr | hcr
    · cases hcr
    · exact hne (congrArg ClaimReference.uid (Option.some.inj hcr)).symm
  · cases hbo

section Sample

open Sample

theorem leave_spares_successor_first :
    ∃ (c : Run externals) (h : SSHHost), Reaches (Passes fences) (idle externals hosts) c ∧
      ⟨2, k1, .leave⟩ ∈ c.world.sessions ∧ c.world.current k1 = some h ∧
      h.status.claimRef = some claimA.ref ∧ claimHeldBy h claimB = false := by
  obtain ⟨c, hr, hq⟩ := exists_of_replay (p := fences) (c := idle externals hosts)
    (l := admitting 0 k1 1000 ++ claiming 1 claimA k1 ++ preparing 1 ++ installing 1 ++
      joining 1 "id1" ++ joined 1 ++ leaving 2 claimA 0)
    (Q := fun c => decide (Session.mk 2 k1 .leave ∈ c.world.sessions) &&
      (c.world.threads 2).any (fun a => a.owner = .delete claimA) &&
      (c.world.current k1).any (fun h => h.status.claimRef = some claimA.ref)) (by decide +kernel)
  simp only [Bool.and_eq_true, decide_eq_true_eq] at hq
  obtain ⟨⟨hs, hq⟩, hq'⟩ := hq
  obtain ⟨a, ha, hao⟩ := (Option.any_eq_true _ _).mp hq
  obtain ⟨h, hh, hcr⟩ := (Option.any_eq_true _ _).mp hq'
  exact ⟨c, h, hr, hs, hh, by simpa using hcr, leave_spares_successor (A := claimA) hr hs rfl ha
    (by simpa using hao) (by decide) (by decide) (by decide) hh⟩

/-- Core repeats a Delete that came through; the cache still shows the claim that was given back,
the leave script is dialled once more, and meanwhile another Create is shown the free host and
claims it. -/
theorem repeated_delete_hits_successor :
    ∃ (c : Run externals) (h : SSHHost),
      Reaches (Passes fun w o => orderly w o && cacheAdvances w o) (idle externals hosts) c ∧
      ⟨3, k1, .leave⟩ ∈ c.world.sessions ∧
      (∃ a, c.world.threads 3 = some a ∧ a.owner = .delete claimA) ∧ c.world.current k1 = some h ∧
      claimHeldBy h claimB = true := by
  obtain ⟨c, hr, hq⟩ := exists_of_replay (p := fun w o => orderly w o && cacheAdvances w o)
    (c := idle externals hosts)
    (l := admitting 0 k1 1000 ++ claiming 1 claimA k1 ++ preparing 1 ++ installing 1 ++
      joining 1 "id1" ++ joined 1 ++ leaving 2 claimA 0 ++ left 2 ++ leaving 3 claimA 1 ++
      claiming 4 claimB k1)
    (Q := fun c => decide (Session.mk 3 k1 .leave ∈ c.world.sessions) &&
      (c.world.threads 3).any (fun a => a.owner = .delete claimA) &&
      (c.world.current k1).any (fun h => claimHeldBy h claimB)) (by decide +kernel)
  simp only [Bool.and_eq_true, decide_eq_true_eq] at hq
  obtain ⟨⟨hs, hq⟩, hq'⟩ := hq
  obtain ⟨a, ha, hao⟩ := (Option.any_eq_true _ _).mp hq
  obtain ⟨h, hh, hcr⟩ := (Option.any_eq_true _ _).mp hq'
  exact ⟨c, h, hr, hs, ⟨a, ha, by simpa using hao⟩, hh, hcr⟩

end Sample

end Fence

end KarpenterProviderSsh.Runs
