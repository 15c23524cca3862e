import KarpenterProviderSsh.Runs.Launching

/-! Delete, Reboot and the probe reconciler follow the protocol, and with them every job. -/

namespace KarpenterProviderSsh.Runs

open Api Cluster Scripts Providers Controllers Interleaving

variable {X : Externals} {t : ℕ} {φ : Phase} {w : World} {nc : NodeClaim} {h : SSHHost}

section Delete

lemma follows_teardown (hf : (Phase.teardown nc h false false).Facts w) :
    Follows X t Ended (.teardown nc h false false) (teardown X h) w := by
  have hrel {f : Option Err → Cluster.Prog (Except CloudError Unit)} (hret : ∀ a, ∃ r, f a = .ret r)
      (left freed : Bool) (w' : World) (hf' : (Phase.teardown nc h left freed).Facts w')
      (ht : h.status.bootstrapTokenID = "" ∨ freed = true) :
      Follows X t Ended (.teardown nc h left freed)
        (release h left "leave phase did not complete cleanly" >>= f) w' := by
    unfold release
    rw [Prog.bind_assoc]
    refine .step hf' fun _ _ a _ _ _ _ => ?_
    refine ⟨_, .patch (.teardown _ ht) (by simp) .released, fun hf'' => ?_⟩
    cases a with
    | ok o =>
      obtain ⟨r, hr⟩ := hret none
      change Follows X t Ended _ (f none) _
      exact hr ▸ .ret hf'' rfl
    | error e =>
      obtain ⟨r, hr⟩ := hret (some e)
      change Follows X t Ended _ (f (some e)) _
      exact hr ▸ .ret hf'' rfl
  have hfree {f : Option Err → Cluster.Prog (Except CloudError Unit)}
      (hret : ∀ a, ∃ r, f a = .ret r) (left : Bool)
      (w' : World) (hf' : (Phase.teardown nc h left false).Facts w') :
      Follows X t Ended (.teardown nc h left false) (do
        deleteBootstrapToken h
        release h left "leave phase did not complete cleanly" >>= f) w' := by
    unfold deleteBootstrapToken
    split_ifs with hn
    · exact hrel hret left false w' hf' (.inl hn)
    · unfold deleteTokenByID
      rw [if_neg hn, Prog.bind_assoc, Prog.bind_assoc]
      refine .step hf' fun _ _ a _ _ _ _ => ⟨_, .freeLeft hn, fun hf'' => ?_⟩
      cases a <;> exact hrel hret left true _ hf'' (.inr rfl)
  unfold teardown leaveInstalled
  split_ifs
  · exact hfree (fun a => by cases a <;> exact ⟨_, rfl⟩) false w hf
  · rw [Prog.bind_assoc]
    refine (follows_leaveHost hf (fun _ _ => .leaveStart) (fun _ => .leaveOk)
      (fun _ => .leaveErr)).bind
      fun a ψ w' hf' hp => ?_
    cases a with
    | error e =>
      obtain rfl := hp.2 e rfl
      exact hfree (fun a => by cases a <;> exact ⟨_, rfl⟩) false w' hf'
    | ok u =>
      obtain rfl := hp.1 rfl
      exact hfree (fun a => by cases a <;> exact ⟨_, rfl⟩) true w' hf'

lemma follows_byProviderID {α : Type} {id : String} {f : Except Err SSHHost → Cluster.Prog α}
    {post : α → Phase → Prop} (hf : φ.Facts w) (hr : φ.isReading = false)
    (herr : ∀ e w', φ.Facts w' → Follows X t post φ (f (.error e)) w')
    (hget : ∀ k o, ∃ ψ, Act φ (.getHost k) (.ok o) ψ ∧ ∀ w', ψ.Facts w' →
      Follows X t post ψ (f (.ok o)) w') (hlist : ∀ ns os o, o ∈ os →
      ∃ ψ, Act φ (.listHosts ns) (.ok os) ψ ∧ ∀ w', ψ.Facts w' →
      Follows X t post ψ (f (.ok o)) w') :
    Follows X t post φ (byProviderID X id >>= f) w := by
  unfold byProviderID
  split_ifs
  · exact herr _ _ hf
  split
  · split
    · exact herr _ _ hf
    · refine .step hf fun _ _ a _ _ _ _ => ?_
      cases a with
      | error e => exact ⟨_, .look (.inl hr), herr e _⟩
      | ok o =>
        obtain ⟨ψ, ha, hk⟩ := hget _ o
        exact ⟨ψ, ha, hk _⟩
  · unfold list
    rw [Prog.bind_assoc]
    refine .step hf fun _ _ a _ _ _ _ => ?_
    cases a with
    | error e => exact ⟨_, .list hr, herr e _⟩
    | ok os =>
      cases hfind : os.find? (fun h => h.status.providerID == id) with
      | none =>
        refine ⟨_, .list hr, fun hf' => ?_⟩
        dsimp only
        rw [hfind]
        exact herr _ _ hf'
      | some o =>
        obtain ⟨ψ, ha, hk⟩ := hlist _ os o (List.mem_of_find?_eq_some hfind)
        refine ⟨ψ, ha, fun hf' => ?_⟩
        dsimp only
        rw [hfind]
        exact hk _ hf'

lemma follows_deleteHost (hc : claimHeldBy h nc = true)
    (hf : (Phase.teardown nc h false false).Facts w) :
    Follows X t Ended (.teardown nc h false false) (deleteHost X nc h) w := by
  unfold deleteHost
  cases href : h.status.claimRef with
  | none => simp [claimHeldBy, href] at hc
  | some ref =>
    have hheld : ref.heldBy nc = true := by simpa [claimHeldBy, href] using hc
    simp only [hheld, if_true]
    exact follows_teardown hf

lemma follows_deleteHost_refused (hc : ¬ claimHeldBy h nc = true)
    (hf : (Phase.resolving nc).Facts w) :
    Follows X t Ended (.resolving nc) (deleteHost X nc h) w := by
  unfold deleteHost
  cases href : h.status.claimRef with
  | none => exact .ret hf rfl
  | some ref =>
    have hheld : ref.heldBy nc = false := by simpa [claimHeldBy, href] using hc
    simp only [hheld, Bool.false_eq_true, if_false]
    exact .ret hf rfl

theorem follows_delete (hf : (Phase.resolving nc).Facts w) :
    Follows X t Ended (.resolving nc) (delete X nc) w := by
  unfold delete
  refine follows_byProviderID hf rfl (fun e w' hf' => .ret hf' rfl) (fun k o => ?_)
    (fun ns os o ho => ?_)
  · by_cases hc : claimHeldBy o nc = true
    · exact ⟨_, .resolve hc, fun _ hf' => follows_deleteHost hc hf'⟩
    · exact ⟨_, .look (.inl rfl), fun _ hf' => follows_deleteHost_refused hc hf'⟩
  · by_cases hc : claimHeldBy o nc = true
    · exact ⟨_, .resolveListed ho hc, fun _ hf' => follows_deleteHost hc hf'⟩
    · exact ⟨_, .list rfl, fun _ hf' => follows_deleteHost_refused hc hf'⟩

lemma quiet_runInstalledPhase (h : SSHHost) : Quiet (runInstalledPhase X h .reboot) := by
  unfold runInstalledPhase
  split_ifs
  · trivial
  refine (quiet_request rfl).bind fun a => ?_
  cases a with
  | error e => trivial
  | ok prof =>
    dsimp only
    split_ifs
    · trivial
    refine (quiet_readSSHCredentials h).bind fun a => ?_
    cases a with
    | error e => trivial
    | ok creds =>
      dsimp only
      split
      · trivial
      refine ((dials_runPhase _ h prof .reboot _ _).quiet (by simp) (by simp)).bind fun a => ?_
      cases a <;> trivial

lemma quiet_rebootHost : Quiet (rebootHost X nc h) := by
  unfold rebootHost
  split_ifs
  · refine (quiet_runInstalledPhase h).bind fun a => ?_
    cases a with
    | ok u => trivial
    | error e =>
      dsimp only
      split_ifs <;> trivial
  · trivial

theorem follows_reboot (hf : (Phase.rebooting nc).Facts w) :
    Follows X t Ended (.rebooting nc) (reboot X nc) w := by
  have hq (o : SSHHost) (w' : World) (hf' : (Phase.rebooting nc).Facts w') :
      Follows X t Ended (.rebooting nc) (rebootHost X nc o) w' :=
    (quiet_rebootHost.follows hf').conseq fun _ ψ hψ => by rw [hψ]; rfl
  unfold reboot
  exact follows_byProviderID hf rfl (fun e w' hf' => .ret hf' rfl)
    (fun k o => ⟨_, .look (.inl rfl), hq o⟩)
    (fun ns os o _ => ⟨_, .list rfl, hq o⟩)

end Delete

section Reconcile

lemma follows_patchStatus {p : ProbeWrite} {result : Result} (hp : Probes φ h p) (hf : φ.Facts w) :
    Follows X t Ended φ (patchStatus h p result) w := by
  unfold patchStatus
  refine .quiet (quiet_request rfl) hf fun now w₁ hf₁ => ?_
  dsimp only
  split_ifs
  · exact .ret hf₁ (by cases hp <;> rfl)
  · refine .step hf₁ fun _ _ a _ _ _ _ => ?_
    refine ⟨_, .patch (.probe _ hp) (by simp) .probeEnd, fun hf₂ => ?_⟩
    cases a <;> exact .ret hf₂ rfl

lemma follows_leaveZombie {node : Option Node} (hf : (Phase.fenced h).Facts w) :
    Follows X t Ended (.fenced h) (leaveZombie X h node) w := by
  unfold leaveZombie
  refine (follows_leaveHost hf (fun _ _ => .forceStart) (fun _ => .forceOk)
    (fun _ => .forceErr)).bind
    fun a ψ w₁ hf₁ hp => ?_
  cases a with
  | error e =>
    obtain rfl := hp.2 e rfl
    exact follows_patchStatus (.leaveFailed h e.message) hf₁
  | ok u =>
    obtain rfl := hp.1 rfl
    cases node with
    | none => exact follows_patchStatus (.leaveOk h) hf₁
    | some n =>
      refine .quiet (quiet_request rfl) hf₁ fun a w₂ hf₂ => ?_
      cases a with
      | ok u => exact follows_patchStatus (.leaveOk h) hf₂
      | error e =>
        dsimp only
        split_ifs
        · exact follows_patchStatus (.leaveOk h) hf₂
        · exact .ret hf₂ rfl

lemma follows_handleZombie (hf : (Phase.guarding h).Facts w) :
    Follows X t Ended (.guarding h) (handleZombie X h) w := by
  unfold handleZombie
  split_ifs with hc
  · exact .ret hf rfl
  refine .quiet (quiet_nodeByInternalIP _) hf fun a w₁ hf₁ => ?_
  cases a with
  | error e => exact .ret hf₁ rfl
  | ok node =>
    dsimp only
    split_ifs
    · exact follows_patchStatus (.park h) hf₁
    · have hn : h.status.claimRef = none := by simpa using hc
      refine .step hf₁ fun _ _ a _ _ _ _ => ?_
      cases a with
      | error e =>
        exact ⟨_, .patch (.probe _ (.fence h hn)) (by simp) .probeEnd, fun hf₂ => .ret hf₂ rfl⟩
      | ok h' =>
        exact ⟨_, .patch (.probe _ (.fence h hn)) (by simp) .fenceOk,
          fun hf₂ => follows_leaveZombie hf₂⟩

lemma follows_reconcileToken (hf : (Phase.claimed h).Facts w) :
    Follows X t Ended (.claimed h) (reconcileToken h) w := by
  unfold reconcileToken
  split_ifs with hn
  · exact follows_patchStatus (.recheck h) hf
  push Not at hn
  refine .quiet (quiet_nodeByInternalIP _) hf fun a w₁ hf₁ => ?_
  rcases a with e | _ | node
  · exact .ret hf₁ rfl
  · exact follows_patchStatus (.recheck h) hf₁
  · unfold deleteTokenByID
    dsimp only
    rw [if_neg hn.1, Prog.bind_assoc]
    refine .step hf₁ fun _ _ a _ _ _ _ => ?_
    cases a with
    | ok u =>
      exact ⟨_, .collect hn.1 hn.2 (by simp), fun hf₂ => follows_patchStatus (.collect h) hf₂⟩
    | error e =>
      by_cases he : e.isNotFound = true
      · refine ⟨_, .collect hn.1 hn.2 (by simp [he]), fun hf₂ => ?_⟩
        dsimp only
        rw [if_pos he]
        exact follows_patchStatus (.collect h) hf₂
      · refine ⟨_, .collectFailed hn.1 hn.2, fun hf₂ => ?_⟩
        dsimp only
        rw [if_neg he]
        exact .ret hf₂ rfl

lemma follows_releaseStale (hf : (Phase.stale h false).Facts w) :
    Follows X t Ended (.stale h false)
      (do deleteBootstrapToken h; patchStatus h .releaseStale ⟨conflictRetry⟩) w := by
  unfold deleteBootstrapToken
  split_ifs with hn
  · exact follows_patchStatus (.release h false (.inl hn)) hf
  · unfold deleteTokenByID
    rw [if_neg hn, Prog.bind_assoc, Prog.bind_assoc]
    refine .step hf fun _ _ a _ _ _ _ => ⟨_, .freeStale hn, fun hf' => ?_⟩
    cases a <;> exact follows_patchStatus (.release h true (.inr rfl)) hf'

lemma follows_reconcileClaimed (hf : (Phase.claimed h).Facts w) :
    Follows X t Ended (.claimed h) (reconcileClaimed h) w := by
  unfold reconcileClaimed
  split
  · exact follows_reconcileToken hf
  · rename_i ref href
    unfold staleClaim
    rw [Prog.bind_assoc]
    refine .step hf fun _ _ a _ _ _ _ => ?_
    by_cases hs : showsStale ref a = true
    · refine ⟨_, .stale href hs, fun hf' => ?_⟩
      cases a with
      | error e =>
        have he : e.isNotFound = true := hs
        dsimp only
        rw [if_pos he]
        exact follows_releaseStale hf'
      | ok uid =>
        have he : (ref.uid != "" && uid != "" && ref.uid != uid) = true := hs
        dsimp only
        rw [he]
        exact follows_releaseStale hf'
    · refine ⟨_, .alive, fun hf' => ?_⟩
      cases a with
      | error e =>
        have he : ¬ e.isNotFound = true := hs
        dsimp only
        rw [if_neg he]
        exact .ret hf' rfl
      | ok uid =>
        have he : (ref.uid != "" && uid != "" && ref.uid != uid) = false := by
          simpa [showsStale] using hs
        dsimp only
        rw [he]
        exact follows_reconcileToken hf'

lemma follows_probe (hf : (Phase.unclaimed h).Facts w) :
    Follows X t (fun a ψ => (∀ e, a = .error e → ψ = .unclaimed h) ∧
      ∀ res, a = .ok res → ψ = .probed h res.kubeletActive) (.unclaimed h) (probe X h) w := by
  unfold probe
  refine .quiet (quiet_readSSHCredentials h) hf fun a w₁ hf₁ => ?_
  cases a with
  | error e => exact .ret hf₁ ⟨fun _ _ => rfl, by simp⟩
  | ok creds =>
    dsimp only
    have hd : Dials h.key .probe (if h.spec.execMode = .verified then
        runShim h.key { sshTarget h creds with shimCommand := h.spec.shimCommand }
          ⟨.probe, "", "", []⟩
      else run h.key .probe (sshTarget h creds) probeScript []) := by
      split_ifs
      · exact dials_runShim _ _ _
      · exact dials_run _ _ _ _ _
    rcases hd with ⟨e, he⟩ | ⟨tg, pl, he⟩
    · rw [he]
      exact .ret hf₁ ⟨fun _ _ => rfl, by simp⟩
    · rw [he]
      refine .request hf₁ fun _ _ a _ _ _ _ => ?_
      cases a with
      | error e => exact ⟨_, .startFailed, fun hf₂ => .ret hf₂ ⟨fun _ _ => rfl, by simp⟩⟩
      | ok u =>
        refine ⟨_, .quietStart (by simp) (by simp), fun hf₂ => .request hf₂ fun _ _ a _ _ _ _ => ?_⟩
        cases a with
        | error e =>
          exact ⟨_, .quietWait (by simp) (by simp), fun hf₃ => .ret hf₃ ⟨fun _ _ => rfl, by simp⟩⟩
        | ok x =>
          refine ⟨_, .probed, fun hf₃ => .ret hf₃ ⟨by simp, ?_⟩⟩
          rintro res hres
          cases hres
          rfl

lemma follows_reconcileUnclaimed (hf : (Phase.unclaimed h).Facts w) :
    Follows X t Ended (.unclaimed h) (reconcileUnclaimed X h) w := by
  unfold reconcileUnclaimed
  refine .quiet (quiet_request rfl) hf fun started w₁ hf₁ => ?_
  split
  · exact .ret hf₁ rfl
  refine (follows_probe hf₁).bind fun res ψ w₂ hf₂ hp => ?_
  refine .quiet (quiet_request rfl) hf₂ fun now w₃ hf₃ => ?_
  cases res with
  | error e =>
    obtain rfl := hp.1 e rfl
    exact follows_patchStatus (.failed h _ _ _) hf₃
  | ok res =>
    obtain rfl := hp.2 res rfl
    dsimp only
    cases hk : res.kubeletActive with
    | false =>
      rw [hk] at hf₃
      exact follows_patchStatus (.ok h _ _ _) hf₃
    | true =>
      rw [hk] at hf₃
      refine .step hf₃ fun _ _ a _ _ _ _ => ?_
      cases a with
      | error e =>
        exact ⟨_, .patch (.probe _ (.facts h _ _ _)) (by simp) .probeEnd, fun hf₄ => .ret hf₄ rfl⟩
      | ok h' =>
        exact ⟨_, .patch (.probe _ (.facts h _ _ _)) (by simp) .factsOk,
          fun hf₄ => follows_handleZombie hf₄⟩

theorem follows_reconcile {k : NamespacedName} (hf : (Phase.reading k).Facts w) :
    Follows X t Ended (.reading k) (reconcile X k) w := by
  unfold reconcile
  refine .step hf fun _ _ a _ hv _ hh => ?_
  rcases World.getHost_answer hv hh with ⟨h, rfl, _, _, hk⟩ | ⟨_, e, rfl, _⟩
  · by_cases hm : (h.maintenance && (h.status.claimRef.isNone || h.status.state == .maintenance)) =
      true
    · have hm' : h.maintenance = true ∧
          (h.status.claimRef = none ∨ h.status.state = .maintenance) := by
        simpa using hm
      refine ⟨_, .readMaintained hk hm'.1 hm'.2, fun hf' => ?_⟩
      dsimp only
      rw [if_pos hm]
      exact follows_patchStatus (.maintenance h) hf'
    · by_cases hs : h.status.state = .claimed ∨ h.status.state = .inUse
      · refine ⟨_, .readClaimed hk hs, fun hf' => ?_⟩
        dsimp only
        rw [if_neg hm]
        rcases hs with hs | hs <;> rw [hs] <;> exact follows_reconcileClaimed hf'
      · push Not at hs
        refine ⟨_, .readUnclaimed hk hs.1 hs.2, fun hf' => ?_⟩
        dsimp only
        rw [if_neg hm]
        split
        · exact absurd ‹_› hs.1
        · exact absurd ‹_› hs.2
        · exact follows_reconcileUnclaimed hf'
  · exact ⟨_, .look (.inr ⟨e, rfl⟩), fun hf' => .ret hf' rfl⟩

end Reconcile

theorem conforms (X : Externals) : (protocol X).Conforms := by
  intro t j w _
  cases j with
  | create nodeClass nc its =>
    exact (follows_create (.of (by simp [Phase.objects]) trivial rfl rfl)).drop
  | delete nc =>
    exact (follows_delete (.of (by simp [Phase.objects]) trivial rfl rfl)).drop
  | reboot nc =>
    exact (follows_reboot (.of (by simp [Phase.objects]) trivial rfl rfl)).drop
  | reconcile k =>
    exact (follows_reconcile (.of (by simp [Phase.objects]) trivial rfl rfl)).drop

end KarpenterProviderSsh.Runs
