import KarpenterProviderSsh.Runs.Registrations

/-! Retried Creates: one NodeClaim, one host. -/

namespace KarpenterProviderSsh.Runs

open Api Cluster Scripts Providers Controllers Interleaving Config

variable {X : Externals}

/-- A Create whose NodeClaim is stored on some host is shown that it holds one. -/
def showsOwnClaim (w : World) : Observed X → Bool
  | .call t (.listHosts _) (.ok os) => decide (∀ a ∈ w.threads t, ∀ nc ∈ a.owner.launching,
      (∃ k ∈ w.keys, ∃ c ∈ w.current k, c.status.claimRef = some nc.ref) →
      ∃ o ∈ os, claimHeldBy o nc = true)
  | _ => true

def retriesSafely (w : World) (obs : Observed X) : Bool := serialises w obs && showsOwnClaim w obs

def Unique (w : World) : Prop :=
  ∀ k k' c c' ref, w.current k = some c → w.current k' = some c' → c.status.claimRef = some ref →
    c'.status.claimRef = some ref → k = k'

def PicksFirst (w : World) (φ : Phase) : Prop :=
  ∀ nc os, φ = .picking nc os → ∀ k c, w.current k = some c → c.status.claimRef ≠ some nc.ref

section Steps

variable {w w' : World} {ph ph' : Phases} {obs : Observed X}

lemma unique_step (hch : Change w ph obs w')
    (hP : ∀ t φ, ph t = some φ → PicksFirst w φ) (h : Unique w) :
    Unique w' := by
  intro k k' c c' ref hc hc' hr hr'
  rcases hch.claimed hc hr with ⟨d, hd, hdr⟩ | ⟨t, nc, os, o, a, hφ, hnc, hk, hobs, _⟩
  · rcases hch.claimed hc' hr' with ⟨d', hd', hdr'⟩ | ⟨t, nc, os, o, a, hφ, hnc, _⟩
    · exact h k k' d d' ref hd hd' hdr hdr'
    · exact absurd (hnc ▸ hdr) (hP t _ hφ nc os rfl k d hd)
  · rcases hch.claimed hc' hr' with ⟨d', hd', hdr'⟩ | ⟨u, _, _, o', a', _, _, hk', hobs', _⟩
    · exact absurd (hnc ▸ hdr') (hP t _ hφ nc os rfl k' d' hd')
    · -- one event makes one claim
      rw [← hk, ← hk']
      rcases hobs with rfl | rfl <;> rcases hobs' with ho | ho <;> cases ho <;> rfl

lemma PicksFirst.other (hreg : Registered w ph) (hser : Serial w) (hch : Change w ph obs w')
    {t : ℕ} {φ : Phase} (hφ : ph t = some φ)
    (hact : ∀ o ref a, WriteSeen obs t o (.claim ref) a → carriedOut a = false)
    (h : PicksFirst w φ) : PicksFirst w' φ := by
  rintro nc os rfl k c hc hr
  rcases hch.claimed hc hr with ⟨d, hd, hdr⟩ | ⟨u, nc', os', o, a, hu, hnc, _, hobs, hdone⟩
  · exact h nc os rfl k d hd hdr
  · obtain ⟨b, hb, hbo, _⟩ := hreg.record t _ hφ
    obtain ⟨b', hb', hbo', _⟩ := hreg.record u _ hu
    have htu : t = u := by
      refine hser t u b b' hb hb' ⟨nc, nc', by rw [hbo]; rfl, by rw [hbo']; rfl, ?_⟩
      rw [← hnc]
      exact heldBy_ref nc'
    subst htu
    rw [hact o _ a hobs] at hdone
    cases hdone

lemma picksFirst_act {t : ℕ} {φ ψ : Phase} {e : Eff} {r : Res e} {ch : Choice} (hv : w.Valid)
    (hreg : Registered w ph) (hA : showsOwnClaim (X := X) w (.call t e r) = true)
    (hφ : ph t = some φ) (ha : Act φ e r ψ) (hh : w.handle t e ch = some (r, w'))
    (hkeep :
      (∀ o ref a, WriteSeen (X := X) (.call t e r) t o (.claim ref) a → carriedOut a = false) →
      PicksFirst w' φ) : PicksFirst w' ψ := by
  have hnone (hn : ∀ nc os, ψ ≠ .picking nc os) :
      PicksFirst w' ψ := fun nc os he => absurd he (hn nc os)
  have hquiet (hu : ∀ o wr, e ≠ .updateStatus o wr) (hp : ∀ o wr, e ≠ .patchStatus o wr) :
      PicksFirst w' φ := by
    refine hkeep fun o ref a hobs => ?_
    rcases hobs with h | h <;> cases h
    · exact absurd rfl (hu _ _)
    · exact absurd rfl (hp _ _)
  cases ha with
  | @silent _ e _ hsil =>
    refine hquiet ?_ ?_ <;> rintro o wr rfl <;> cases hsil
  | look | list | quietStart | quietWait | startFailed => exact hquiet (by simp) (by simp)
  | update hw hψ =>
    cases hψ with
    | claimLost hcf =>
      refine hkeep fun o ref a hobs => ?_
      rcases hobs with h | h <;> cases h
      unfold Err.isConflict at hcf
      simp_all [carriedOut]
    | claimOk | claimErr => exact hnone (by simp)
  | patch hw hn hψ =>
    cases hψ with
    | claimLost => exact absurd rfl (hn _)
    | setLost => exact hnone (by simp)
    | _ => exact hnone (by simp)
  | @none nc ns os hos =>
    intro nc' os' he k c hc hr
    cases he
    obtain ⟨b, hb, hbo, _⟩ := hreg.record t _ hφ
    have hc' : w.current k = some c := by
      rw [← ((World.handle_frame hh).store (by simp) (by simp)).current]
      exact hc
    simp only [showsOwnClaim, decide_eq_true_eq] at hA
    obtain ⟨o, ho, hheld⟩ := hA b hb nc (by rw [hbo]; rfl) ⟨k, hv.keys k c hc', c, hc', hr⟩
    rw [hos o ho] at hheld
    cases hheld
  | pick =>
    intro nc' os' he
    cases he
    exact hquiet (by simp) (by simp) _ _ rfl
  | _ => exact hnone (by simp)

end Steps

structure RetryInv (w : World) (ph : Phases) : Prop where
  registered : Registered w ph
  serial : Serial w
  unique : Unique w
  picks : ∀ t φ, ph t = some φ → PicksFirst w φ

lemma retryInv_start (hosts : List SSHHost) : RetryInv (World.start hosts) (fun _ => none) := by
  refine ⟨registered_start hosts, alone_start _ hosts, ?_, by simp⟩
  intro k k' c c' ref hc _ hr
  rw [status_start (World.current_mem hc)] at hr
  cases hr

theorem kept_retryInv : (protocol X).Kept (Passes retriesSafely) RetryInv := by
  intro w ph obs w' ph' hv hf hI ha hm
  have ho : retriesSafely w obs = true := ha
  simp only [retriesSafely, Bool.and_eq_true] at ho
  have hch := Moves.change hv hf hm
  refine ⟨kept_registered _ w ph obs w' ph' hv hf hI.registered ha hm,
    serial_step hv hI.registered hI.serial ho.1 hm, unique_step hch hI.picks hI.unique, ?_⟩
  refine Moves.threads (T := fun w _ φ => PicksFirst w φ) hm hI.picks ?_ ?_ ?_
  · rintro t j _ _ _ nc os he
    cases j <;> cases he
  · rintro t φ e r ψ ch hφ hact hh rfl hT
    exact picksFirst_act hv hI.registered ho.2 hφ hact hh
      fun hw => hT.other hI.registered hI.serial hch hφ hw
  · intro t φ hφ hact hT
    exact hT.other hI.registered hI.serial hch hφ fun o ref a hobs => absurd hobs.actor hact

/-- In every run in which a Create is shown the host its NodeClaim already has, no two hosts are
stored with the same claim. -/
theorem one_host_per_claim {hosts : List SSHHost} {c : Run X}
    (hr : Reaches (Passes retriesSafely) (idle X hosts) c) {k k' : NamespacedName} {h h' : SSHHost}
    (hk : c.world.current k = some h) (hk' : c.world.current k' = some h') {ref : ClaimReference}
    (hc : h.status.claimRef = some ref) (hc' : h'.status.claimRef = some ref) : k = k' := by
  obtain ⟨ph, _, hI⟩ := reached kept_retryInv (retryInv_start hosts) hr
  exact hI.unique k k' h h' ref hk hk' hc hc'

section Sample

open Sample

def crashed : Script := admitting 0 k1 1000 ++ admitting 1 k2 1000 ++
    claiming 2 claimA k1 ++ [.crash 2]

theorem one_host_per_claim_resumed :
    ∃ (c : Run externals) (h : SSHHost), Reaches (Passes retriesSafely) (idle externals hosts) c ∧
      c.world.current k1 = some h ∧ h.status.claimRef = some claimA.ref ∧
      ∀ k' h', c.world.current k' = some h' → h'.status.claimRef = some claimA.ref → k1 = k' := by
  obtain ⟨c, hr, hq⟩ := exists_of_replay (p := retriesSafely) (c := idle externals hosts)
    (l := crashed ++ resuming 3 claimA k1 ++ preparing 3 ++ installing 3)
    (Q := fun c => (c.world.current k1).any (fun h => h.status.claimRef = some claimA.ref))
      (by decide +kernel)
  obtain ⟨h, hh, hcr⟩ := (Option.any_eq_true _ _).mp hq
  have hcr : h.status.claimRef = some claimA.ref := by simpa using hcr
  exact ⟨c, h, hr, hh, hcr, fun k' h' hk' hc' => one_host_per_claim hr hh hk' hcr hc'⟩

/-- The cache still shows the first host without the claim: the retry loses the race for it against
itself and takes the second host. -/
theorem retry_claims_second_host :
    ∃ (c : Run externals) (h h' : SSHHost),
      Reaches (Passes fun w o => orderly w o && cacheAdvances w o) (idle externals hosts) c ∧
      c.world.current k1 = some h ∧ c.world.current k2 = some h' ∧
      h.status.claimRef = some claimA.ref ∧ h'.status.claimRef = some claimA.ref := by
  obtain ⟨c, hr, hq⟩ := exists_of_replay (p := fun w o => orderly w o && cacheAdvances w o)
    (c := idle externals hosts)
    (l :=
      crashed ++ [.spawn 3 (.create nodeClass claimA [⟨"default", []⟩]),
        .call 3 (.listing [(k1, 1), (k2, 0)]),
      .call 3 (.listing [(k1, 1), (k2, 0)]), .call 3 .conflict, .call 3 .ok])
    (Q := fun c => (c.world.current k1).any (fun h => h.status.claimRef = some claimA.ref) &&
      (c.world.current k2).any (fun h => h.status.claimRef = some claimA.ref)) (by decide +kernel)
  simp only [Bool.and_eq_true] at hq
  obtain ⟨h, hh, hcr⟩ := (Option.any_eq_true _ _).mp hq.1
  obtain ⟨h', hh', hcr'⟩ := (Option.any_eq_true _ _).mp hq.2
  exact ⟨c, h, h', hr, hh, hh', by simpa using hcr, by simpa using hcr'⟩

end Sample

end KarpenterProviderSsh.Runs
