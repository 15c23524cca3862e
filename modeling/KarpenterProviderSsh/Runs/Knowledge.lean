import KarpenterProviderSsh.Runs.Phases

/-! What an operation knows in each phase: that the objects it works from are stored versions, and
what it has checked on them. Nothing another operation does can take this away. -/

namespace KarpenterProviderSsh.Runs

open Api Cluster Scripts Providers Controllers Interleaving

def Drifts (s o : SSHHost) : Prop :=
  o = { s with status := { s.status with
    installedProfile := o.status.installedProfile
    bootstrapTokenID := o.status.bootstrapTokenID } }

lemma Drifts.refl (s : SSHHost) : Drifts s s := rfl

lemma Drifts.installed (s : SSHHost) (marker : String) : Drifts s (withSet s (.installed marker)) :=
  rfl

lemma Drifts.token {s o : SSHHost} (h : Drifts s o) (id : String) :
    Drifts s (withSet o (.bootstrapTokenID id)) := by
  rw [h]
  rfl

lemma Drifts.key {s o : SSHHost} (h : Drifts s o) : o.key = s.key := by
  rw [h]

lemma Drifts.rev {s o : SSHHost} (h : Drifts s o) : o.resourceVersion = s.resourceVersion := by
  rw [h]

lemma Drifts.claimRef {s o : SSHHost} (h : Drifts s o) : o.status.claimRef = s.status.claimRef := by
  rw [h]

namespace Phase

def objects : Phase → List SSHHost
  | .picking _ os => os
  | .launch _ _ h _ | .teardown _ h _ _ | .tearing _ h | .maintained h | .claimed h | .stale h _
  | .spent h | .unclaimed h | .probed h _ | .guarding h | .fenced h | .forcing h | .cleared h => [h]
  | .closing _ _ cl => [cl.stored]
  | _ => []

def Holds (nc : NodeClaim) (resumed : Bool) (h : SSHHost) : Prop :=
  claimHeldBy h nc = true ∧ (resumed = false → h.status.claimRef = some nc.ref)

def InClaim (h : SSHHost) : Prop := h.status.state = .claimed ∨ h.status.state = .inUse

def Sound : Phase → Prop
  | .picking _ os => ∀ o ∈ os, claimable o = true
  | .launch nc r h st => Holds nc r h ∧ st.own ≠ some ""
  | .closing nc r cl => Holds nc r cl.stored ∧ Drifts cl.stored cl.held ∧ cl.own ≠ some ""
  | .teardown nc h _ _ | .tearing nc h => claimHeldBy h nc = true
  | .maintained h => h.status.claimRef = none ∨ h.status.state = .maintenance
  | .claimed h => InClaim h
  | .stale h _ => InClaim h ∧ h.status.claimRef.isSome = true
  | .spent h => InClaim h ∧ h.status.bootstrapTokenID ≠ "" ∧ h.status.providerID ≠ ""
  | .unclaimed h | .probed h _ | .guarding h => ¬ InClaim h
  | .fenced h | .forcing h | .cleared h => h.status.state = .leaving ∧ h.status.claimRef = none
  | _ => True

def candidates : Phase → List SSHHost
  | .picking _ os => os
  | _ => []

def outdated : Phase → List SSHHost
  | .closing _ _ cl => if cl.lost then [cl.stored] else []
  | _ => []

structure Facts (w : World) (φ : Phase) : Prop where
  stored : ∀ o ∈ φ.objects, o ∈ w.versions o.key
  sound : φ.Sound
  served : ∀ o ∈ φ.candidates, o.resourceVersion ≤ w.seen o.key
  superseded : ∀ o ∈ φ.outdated, ∃ v ∈ w.versions o.key, o.resourceVersion < v.resourceVersion

lemma Facts.later {w w' : World} {φ : Phase} (hl : w.Later w') (h : φ.Facts w) : φ.Facts w' where
  stored o ho := hl.versions _ _ (h.stored o ho)
  sound := h.sound
  served o ho := (h.served o ho).trans (hl.seen _)
  superseded o ho := by
    obtain ⟨v, hv, hr⟩ := h.superseded o ho
    exact ⟨v, hl.versions _ _ hv, hr⟩

lemma Facts.of {w : World} {φ : Phase} (h : ∀ o ∈ φ.objects, o ∈ w.versions o.key) (hs : φ.Sound)
    (hc : φ.candidates = []) (ho : φ.outdated = []) : φ.Facts w :=
  ⟨h, hs, by simp [hc], by simp [ho]⟩

lemma superseded_of_not_current {w : World} {s : SSHHost} (hm : s ∈ w.versions s.key)
    (hn : w.current s.key ≠ some s) :
    ∃ v ∈ w.versions s.key, s.resourceVersion < v.resourceVersion := by
  obtain ⟨c, hc⟩ := World.current_of_mem hm
  refine ⟨c, World.current_mem hc, lt_of_le_of_ne (World.rev_le_current hm hc) fun he => ?_⟩
  exact hn (World.eq_current hm hc he ▸ hc)

lemma not_current_of_superseded {w : World} {s v : SSHHost} {k : NamespacedName}
    (hv : v ∈ w.versions k) (hr : s.resourceVersion < v.resourceVersion) :
    w.current k ≠ some s := by
  intro hc
  have := World.rev_le_current hv hc
  omega

lemma close_sound {φ : Phase} {nc : NodeClaim} {r : Bool} {cl : Closing}
    (hc : φ.close = some (nc, r, cl)) (hs : φ.Sound) :
    Holds nc r cl.stored ∧ Drifts cl.stored cl.held ∧ cl.own ≠ some "" := by
  unfold close at hc
  split at hc <;> cases hc
  · exact ⟨hs.1, rfl, hs.2⟩
  · exact ⟨hs.1, rfl, hs.2⟩
  · exact ⟨hs.1, rfl, hs.2⟩
  · exact ⟨hs.1, rfl, hs.2⟩
  · exact hs

lemma close_objects {φ : Phase} {nc : NodeClaim} {r : Bool} {cl : Closing}
    (hc : φ.close = some (nc, r, cl)) : φ.objects = [cl.stored] ∧ φ.owner = .create nc := by
  unfold close at hc
  split at hc <;> cases hc <;> exact ⟨rfl, rfl⟩

lemma close_stored {w : World} {φ : Phase} {nc : NodeClaim} {r : Bool} {cl : Closing}
    (hc : φ.close = some (nc, r, cl)) (hf : φ.Facts w) : cl.stored ∈ w.versions cl.stored.key :=
  hf.stored _ (by simp [(close_objects hc).1])

lemma close_outdated {φ : Phase} {nc : NodeClaim} {r : Bool} {cl : Closing}
    (hc : φ.close = some (nc, r, cl)) : φ.outdated = if cl.lost then [cl.stored] else [] := by
  unfold close at hc
  split at hc <;> cases hc <;> rfl

end Phase

lemma claimable_iff {h : SSHHost} : claimable h = true ↔
    h.status.state = .available ∧ h.status.claimRef = none ∧ h.maintenance = false := by
  simp [claimable, and_assoc]

lemma isSome_of_heldBy {h : SSHHost} {nc : NodeClaim} (hh : claimHeldBy h nc = true) :
    h.status.claimRef.isSome = true := by
  unfold claimHeldBy at hh
  split at hh
  · cases hh
  · simp [*]

lemma apply_probe (p : ProbeWrite) (ready : Option Stamp) (st : SSHHostStatus) :
    ∃ conds, (StatusWrite.probe p ready).apply st = { p.apply st with conditions := conds } := by
  cases ready with
  | none => exact ⟨(p.apply st).conditions, rfl⟩
  | some stamp => exact ⟨_, rfl⟩

/-- The status a write ends in when it lands on the version it is based on. -/
def outcome (o s : SSHHost) (wr : StatusWrite) : SSHHostStatus :=
  mergePatch o.status (wr.apply o.status) s.status

lemma Probes.objects {φ : Phase} {h : SSHHost} {p : ProbeWrite} (hp : Probes φ h p) :
    φ.objects = [h] := by
  cases hp <;> rfl

namespace Writes

variable {φ : Phase} {o s : SSHHost} {wr : StatusWrite}

lemma stored_mem (h : Writes φ o s wr) : s ∈ φ.objects := by
  cases h with
  | claim ho => exact ho
  | set | teardown => simp [Phase.objects]
  | clear hc | release _ hc => simp [(Phase.close_objects hc).1]
  | probe _ hp => simp [hp.objects]

lemma drifts (h : Writes φ o s wr) (hs : φ.Sound) : Drifts s o := by
  cases h with
  | claim | set | teardown | probe => exact rfl
  | clear hc | release _ hc => exact (Phase.close_sound hc hs).2.1

end Writes

section Outcomes

variable {o s : SSHHost}

lemma outcome_self (s : SSHHost) (wr : StatusWrite) : outcome s s wr = wr.apply s.status :=
  mergePatch_stored _ _

lemma outcome_clear (hd : Drifts s o) (ht : o.status.bootstrapTokenID ≠ "") :
    outcome o s (.set (.bootstrapTokenID "")) = { s.status with bootstrapTokenID := "" } := by
  rw [hd] at ht ⊢
  simp [outcome, mergePatch, StatusWrite.apply, Setter.apply, mergeField, Ne.symm ht]

lemma outcome_release (hd : Drifts s o) (healthy : Bool) (reason : String) :
    outcome o s (.release healthy reason) =
      { (StatusWrite.release healthy reason).apply s.status with
        bootstrapTokenID := if o.status.bootstrapTokenID = ""
          then s.status.bootstrapTokenID else "" } := by
  rw [hd]
  have ht : mergeField o.status.bootstrapTokenID "" s.status.bootstrapTokenID =
      if o.status.bootstrapTokenID = "" then s.status.bootstrapTokenID else "" := by
    by_cases h : o.status.bootstrapTokenID = ""
    · simp [h]
    · simp [mergeField, h, Ne.symm h]
  simp only [outcome, mergePatch, StatusWrite.apply, mergeField_same, mergeField_stored, ht]

end Outcomes

/-- Every write but one ends in the stored status with the change the writer means: a release by a
holder that has forgotten the token record leaves that record behind. -/
lemma Writes.outcome_cases {φ : Phase} {o s : SSHHost} {wr : StatusWrite} (h : Writes φ o s wr)
    (hs : φ.Sound) :
    outcome o s wr = wr.apply s.status ∨
      ∃ nc r started freed lost healthy reason, φ.close = some
        (nc, r, ⟨s, o, started, none, freed, lost⟩) ∧ wr = .release healthy reason ∧
        o.status.bootstrapTokenID = "" ∧ s.status.bootstrapTokenID ≠ "" ∧
        outcome o s wr =
        { wr.apply s.status with bootstrapTokenID := s.status.bootstrapTokenID } := by
  cases h with
  | claim | set | teardown | probe => exact .inl (outcome_self _ _)
  | clear hc ht =>
    rcases ht with ht | rfl
    · exact .inl (outcome_clear (Phase.close_sound hc hs).2.1 ht)
    · exact .inl (outcome_self _ _)
  | @release φ nc r s o started freed lost healthy reason hc _ _ =>
    have ho := outcome_release (Phase.close_sound hc hs).2.1 healthy reason
    by_cases ht : o.status.bootstrapTokenID = "" ∧ s.status.bootstrapTokenID ≠ ""
    · refine .inr ⟨nc, r, started, freed, lost, healthy, reason, hc, rfl, ht.1, ht.2, ?_⟩
      rw [ho, if_pos ht.1]
    · refine .inl ?_
      rw [ho]
      by_cases hh : o.status.bootstrapTokenID = ""
      · have hst : s.status.bootstrapTokenID = "" := not_not.mp fun hn => ht ⟨hh, hn⟩
        simp [hh, hst, StatusWrite.apply]
      · simp [hh, StatusWrite.apply]

def GivesBack (φ : Phase) (s : SSHHost) : Prop :=
  (∃ nc, φ.owner.nodeClaim = some nc ∧ claimHeldBy s nc = true) ∨ ∃ freed, φ = .stale s freed

lemma Writes.claimRef_cases {φ : Phase} {o s : SSHHost} {wr : StatusWrite} (h : Writes φ o s wr)
    (hs : φ.Sound) :
    (outcome o s wr).claimRef = s.status.claimRef ∨
      ((outcome o s wr).claimRef = none ∧ s.status.claimRef.isSome = true ∧ GivesBack φ s) ∨
      ∃ nc os, φ = .picking nc os ∧ s ∈ os ∧ wr = .claim nc.ref ∧ claimable s = true ∧
        (outcome o s wr).claimRef = some nc.ref := by
  have hc : (outcome o s wr).claimRef = (wr.apply s.status).claimRef := by
    rcases h.outcome_cases hs with he | ⟨_, _, _, _, _, _, _, _, _, _, _, he⟩ <;> rw [he]
  rw [hc]
  cases h with
  | @claim nc os _ ho => exact .inr (.inr ⟨nc, os, rfl, ho, rfl, hs _ ho, rfl⟩)
  | @set _ _ _ _ x =>
    cases x <;> exact .inl rfl
  | clear => exact .inl rfl
  | release _ hcl =>
    have hh := (Phase.close_sound hcl hs).1.1
    exact .inr (.inl ⟨rfl, isSome_of_heldBy hh,
      .inl ⟨_, by rw [(Phase.close_objects hcl).2]; rfl, hh⟩⟩)
  | teardown => exact .inr (.inl ⟨rfl, isSome_of_heldBy hs, .inl ⟨_, rfl, hs⟩⟩)
  | probe ready hp =>
    obtain ⟨conds, he⟩ := apply_probe _ ready _
    rw [he]
    cases hp with
    | release => exact .inr (.inl ⟨rfl, hs.2, .inr ⟨_, rfl⟩⟩)
    | _ => exact .inl rfl

lemma Writes.providerID_cases {φ : Phase} {o s : SSHHost} {wr : StatusWrite}
    (h : Writes φ o s wr) (hs : φ.Sound) :
    (outcome o s wr).providerID = s.status.providerID ∨
      ((outcome o s wr).providerID = "" ∧ (outcome o s wr).claimRef = none) ∨
      ∃ nc r id, φ = .launch nc r s .joined ∧ wr = .set (.providerID id) ∧
      (outcome o s wr).providerID = id := by
  have he : (outcome o s wr).providerID = (wr.apply s.status).providerID ∧
      (outcome o s wr).claimRef = (wr.apply s.status).claimRef := by
    rcases h.outcome_cases hs with he | ⟨_, _, _, _, _, _, _, _, _, _, _, he⟩ <;>
      rw [he] <;> exact ⟨rfl, rfl⟩
  rw [he.1, he.2]
  cases h with
  | set hst =>
    cases hst with
    | providerID id => exact .inr (.inr ⟨_, _, id, rfl, rfl, rfl⟩)
    | _ => exact .inl rfl
  | claim | clear => exact .inl rfl
  | release | teardown => exact .inr (.inl ⟨rfl, rfl⟩)
  | probe ready hp =>
    obtain ⟨conds, hap⟩ := apply_probe _ ready _
    rw [hap]
    cases hp with
    | release => exact .inr (.inl ⟨rfl, rfl⟩)
    | _ => exact .inl rfl

section Answers

variable {w w' : World} {t : ℕ} {φ : Phase} {o s : SSHHost} {wr : StatusWrite} {ch : Choice}
  {a : Except Err SSHHost}

inductive Answered (w : World) (o s : SSHHost) (wr : StatusWrite) (a : Except Err SSHHost)
    (w' : World) : Prop
  | landed (o' : SSHHost) : w.Landed w' s.key s (outcome o s wr) o' →
      (a = .ok o' ∨ ∃ m, a = .error (World.otherErr true m)) → Answered w o s wr a w'
  | refused (e : Err) : w' = w → a = .error e →
      ((e = World.conflictErr ∧ w.current s.key ≠ some s) ∨ e = World.notFoundErr ∨
        ∃ m, e = World.otherErr false m) → Answered w o s wr a w'

lemma Answered.of_ok {o' : SSHHost} (h : Answered w o s wr (.ok o') w') :
    w.Landed w' s.key s (outcome o s wr) o' := by
  cases h with
  | landed o'' hl ha =>
    rcases ha with ha | ⟨m, ha⟩ <;> cases ha
    exact hl
  | refused e _ ha => cases ha

lemma answered_of_write {st : SSHHostStatus → SSHHostStatus} {mark won : Activity → Activity}
    (hv : w.Valid) (hf : φ.Facts w) (hw : Writes φ o s wr)
    (hst : st s.status = outcome o s wr) (hh : w.write t o st mark won ch = some (a, w')) :
    Answered w o s wr a w' := by
  have hk := (hw.drifts hf.sound).key
  have hr := (hw.drifts hf.sound).rev
  have hm := hf.stored s hw.stored_mem
  rcases World.write_answer hv hh with ⟨c, o', hc, hl, ha⟩ | ⟨hw', e, ha, he⟩
  · have hcs : s = c := by
      refine World.eq_current hm (hk ▸ hl.before) ?_
      omega
    subst hcs
    rw [hst, hk] at hl
    exact .landed o' hl (ha.imp And.left And.left)
  · refine .refused e hw' ha (he.imp ?_ id)
    rintro ⟨hcf, hne⟩
    refine ⟨hcf, fun hcur => ?_⟩
    exact hne s (hk ▸ hcur) hr

lemma answered_patch (hv : w.Valid) (hf : φ.Facts w) (hw : Writes φ o s wr)
    (hh : w.handle t (.patchStatus o wr) ch = some (a, w')) : Answered w o s wr a w' := by
  simp only [World.handle] at hh
  exact answered_of_write hv hf hw rfl hh

lemma answered_update {ref : ClaimReference} (hv : w.Valid) (hf : φ.Facts w)
    (hw : Writes φ o o (.claim ref))
    (hh : w.handle t (.updateStatus o (.claim ref)) ch = some (a, w')) :
    Answered w o o (.claim ref) a w' := by
  simp only [World.handle] at hh
  exact answered_of_write hv hf hw (outcome_self _ _).symm hh

end Answers

section Steps

variable {w w' : World} {t : ℕ} {φ ψ : Phase} {ch : Choice}

lemma landed_mem {k : NamespacedName} {c o' : SSHHost} {st : SSHHostStatus}
    (h : w.Landed w' k c st o') : o'.key = k ∧ o' ∈ w'.versions o'.key := by
  have hk : o'.key = k := by rw [h.rest, h.key]
  exact ⟨hk, hk ▸ World.current_mem h.current⟩

lemma outcome_set_claimRef {o s : SSHHost} (hd : Drifts s o) (x : Setter) :
    (outcome o s (.set x)).claimRef = s.status.claimRef := by
  rw [hd]
  cases x <;> simp [outcome, mergePatch, StatusWrite.apply, Setter.apply]

lemma holds_of_claimRef {nc : NodeClaim} {r : Bool} {h h' : SSHHost}
    (he : h'.status.claimRef = h.status.claimRef) (hh : Phase.Holds nc r h) :
    Phase.Holds nc r h' := by
  simpa [Phase.Holds, claimHeldBy, he] using hh

lemma heldBy_ref (nc : NodeClaim) : nc.ref.heldBy nc = true := by
  simp [ClaimReference.heldBy, NodeClaim.ref]

lemma facts_after {o s : SSHHost} {wr : StatusWrite} {a : Except Err SSHHost} (hf : φ.Facts w)
    (hl : w.Later w') (hw : Writes φ o s wr) (ha : Answered w o s wr a w')
    (hψ : After φ o s wr a ψ) :
    ψ.Facts w' := by
  have hd := hw.drifts hf.sound
  have hf' := hf.later hl
  cases hψ with
  | claimOk =>
    have hland := ha.of_ok
    refine .of ?_ ?_ rfl rfl
    · simpa [Phase.objects] using (landed_mem hland).2
    · cases hw
      have hst := hland.status
      rw [outcome_self] at hst
      simp [Phase.Sound, Phase.Holds, claimHeldBy, hst, StatusWrite.apply, heldBy_ref, Stage.own]
  | claimLost | setLost => exact hf'
  | claimErr | lastErr | released | probeEnd => exact .of (by simp [Phase.objects]) trivial rfl rfl
  | setOk hs =>
    have hland := ha.of_ok
    refine .of ?_ ⟨holds_of_claimRef ?_ hf.sound.1, ?_⟩ rfl rfl
    · simpa [Phase.objects] using (landed_mem hland).2
    · rw [hland.status, outcome_set_claimRef hd]
    · have hn := hf.sound.2
      cases hs <;> exact hn
  | setErr hs hj =>
    refine .of hf'.stored ⟨hf.sound.1, ?_, hf.sound.2⟩ rfl rfl
    cases hs with
    | installed marker => exact .installed _ _
    | token id => exact (Drifts.refl _).token id
    | providerID | inUse => exact absurd rfl hj
  | clearOk hc =>
    have hland := ha.of_ok
    refine .of ?_ ⟨holds_of_claimRef ?_ (Phase.close_sound hc hf.sound).1, rfl, by simp⟩ rfl rfl
    · simpa [Phase.objects] using (landed_mem hland).2
    · rw [hland.status, outcome_set_claimRef hd]
  | clearLost hc hcf =>
    have hm := Phase.close_stored hc hf'
    obtain ⟨hh, hdr, _⟩ := Phase.close_sound hc hf.sound
    refine ⟨by simpa [Phase.objects] using hm, ⟨hh, hdr, by simp⟩, by simp [Phase.candidates], ?_⟩
    have hn : w'.current s.key ≠ some s := by
      cases ha with
      | landed _ _ hr =>
        rcases hr with hr | ⟨m, hr⟩ <;> cases hr
        cases hcf
      | refused e hw' hr he =>
        cases hr
        rcases he with ⟨_, hn⟩ | rfl | ⟨m, rfl⟩
        · exact hw' ▸ hn
        · cases hcf
        · cases hcf
    simpa [Phase.outdated] using Phase.superseded_of_not_current hm hn
  | clearErr hc =>
    obtain ⟨hh, hdr, _⟩ := Phase.close_sound hc hf.sound
    refine ⟨?_, ⟨hh, hdr.token "", by simp⟩, by simp [Phase.candidates], ?_⟩
    · simpa [Phase.objects] using Phase.close_stored hc hf'
    · have hs := hf'.superseded
      rw [Phase.close_outdated hc] at hs
      exact hs
  | factsOk =>
    have hland := ha.of_ok
    refine .of ?_ ?_ rfl rfl
    · simpa [Phase.objects] using (landed_mem hland).2
    · have hst := hland.status
      rw [outcome_self] at hst
      have hn : ¬ Phase.InClaim o := hf.sound
      simp only [Phase.Sound, Phase.InClaim, hst, StatusWrite.apply, ProbeWrite.apply, recordFacts]
      split_ifs
      · simp
      · exact hn
  | fenceOk =>
    have hland := ha.of_ok
    refine .of ?_ ?_ rfl rfl
    · simpa [Phase.objects] using (landed_mem hland).2
    · have hst := hland.status
      rw [outcome_self] at hst
      cases hw with
      | probe _ hp =>
        cases hp with
        | fence _ hn => simp [Phase.Sound, hst, StatusWrite.apply, ProbeWrite.apply, hn]

theorem facts_act {e : Eff} {r : Res e} (hv : w.Valid) (hf : φ.Facts w) (ha : Act φ e r ψ)
    (hh : w.handle t e ch = some (r, w')) : ψ.Facts w' := by
  have hl := (World.handle_later hv hh).2
  have hf' := hf.later hl
  cases ha with
  | silent | look | list | quietStart | quietWait | startFailed | mintFailed | alive => exact hf'
  | update hw hψ => exact facts_after hf hl hw (answered_update hv hf hw hh) hψ
  | patch hw _ hψ => exact facts_after hf hl hw (answered_patch hv hf hw hh) hψ
  | @found nc ns os o ho hc =>
    rcases World.listHosts_answer hv hh with ⟨_, he, rfl, hm⟩ | ⟨_, _, he⟩ <;> cases he
    refine .of ?_ ⟨⟨hc, by simp⟩, by simp [Stage.own]⟩ rfl rfl
    simpa [Phase.objects] using hl.versions _ _ (hm o ho)
  | none => exact .of (by simp [Phase.objects]) (by simp [Phase.Sound]) rfl rfl
  | @pick nc ns os cs ds hd =>
    rcases World.listHosts_answer hv hh with ⟨_, he, rfl, hm⟩ | ⟨_, _, he⟩ <;> cases he
    refine ⟨fun o ho => hl.versions _ _ (hm o (hd o ho).1), fun o ho => (hd o ho).2, fun o ho => ?_,
      by simp [Phase.outdated]⟩
    exact World.seen_serve (hd o ho).1
  | mint =>
    refine .of hf'.stored ⟨hf.sound.1, ?_⟩ rfl rfl
    simpa [Stage.own] using World.createToken_id hh
  | joinStart => exact .of hf'.stored hf'.sound rfl rfl
  | joinOk => exact .of hf'.stored ⟨hf.sound.1, by simp [Stage.own]⟩ rfl rfl
  | refetch hs hc =>
    rcases World.getHost_answer hv hh with ⟨_, he, rfl, hm, _⟩ | ⟨_, _, he, _⟩ <;> cases he
    refine .of ?_ ⟨holds_of_claimRef hc hf.sound.1, hf.sound.2⟩ rfl rfl
    simpa [Phase.objects] using hl.versions _ _ hm
  | abandon hs hj =>
    refine .of hf'.stored ⟨hf.sound.1, ?_, hf.sound.2⟩ rfl rfl
    cases hs with
    | installed marker => exact .installed _ _
    | token id => exact (Drifts.refl _).token id
    | providerID | inUse => exact absurd rfl hj
  | refetchClosing hc =>
    rcases World.getHost_answer hv hh with ⟨_, he, rfl, hm, _⟩ | ⟨_, _, he, _⟩ <;> cases he
    refine .of ?_ ⟨holds_of_claimRef hc hf.sound.1, rfl, by simp⟩ rfl rfl
    simpa [Phase.objects] using hl.versions _ _ hm
  | abandonClosing =>
    exact ⟨hf'.stored, ⟨hf.sound.1, hf.sound.2.1.token "", by simp⟩, hf'.served, hf'.superseded⟩
  | discard hc | free hc =>
    obtain ⟨hh, hd, _⟩ := Phase.close_sound hc hf.sound
    refine ⟨?_, ⟨hh, hd, by simp⟩, by simp [Phase.candidates], ?_⟩
    · simpa [Phase.objects] using Phase.close_stored hc hf'
    · have hs := hf'.superseded
      rw [Phase.close_outdated hc] at hs
      exact hs
  | joinErr => exact .of hf'.stored ⟨hf.sound.1, rfl, hf.sound.2⟩ rfl rfl
  | resolve hc =>
    rcases World.getHost_answer hv hh with ⟨_, he, rfl, hm, _⟩ | ⟨_, _, he, _⟩ <;> cases he
    refine .of ?_ hc rfl rfl
    simpa [Phase.objects] using hl.versions _ _ hm
  | resolveListed ho hc =>
    rcases World.listHosts_answer hv hh with ⟨_, he, rfl, hm⟩ | ⟨_, _, he⟩ <;> cases he
    refine .of ?_ hc rfl rfl
    simpa [Phase.objects] using hl.versions _ _ (hm _ ho)
  | leaveStart | leaveOk | leaveErr | freeLeft | freeStale | forceStart | forceOk
    | forceErr | probed =>
    exact .of hf'.stored hf'.sound rfl rfl
  | readMaintained _ _ hc | readClaimed _ hc =>
    rcases World.getHost_answer hv hh with ⟨_, he, rfl, hm, _⟩ | ⟨_, _, he, _⟩ <;> cases he
    refine .of ?_ hc rfl rfl
    simpa [Phase.objects] using hl.versions _ _ hm
  | readUnclaimed _ hc hi =>
    rcases World.getHost_answer hv hh with ⟨_, he, rfl, hm, _⟩ | ⟨_, _, he, _⟩ <;> cases he
    refine .of ?_ (by simp [Phase.Sound, Phase.InClaim, hc, hi]) rfl rfl
    simpa [Phase.objects] using hl.versions _ _ hm
  | stale hc => exact .of hf'.stored ⟨hf.sound, by simp [hc]⟩ rfl rfl
  | collect ht hp => exact .of hf'.stored ⟨hf.sound, ht, hp⟩ rfl rfl
  | collectFailed => exact .of (by simp [Phase.objects]) trivial rfl rfl

end Steps

section Protocol

variable {X : Externals}

def opening : Job X → Phase
  | .create _ nc _ => .lookup nc
  | .delete nc => .resolving nc
  | .reboot nc => .rebooting nc
  | .reconcile k => .reading k

def protocol (X : Externals) : Protocol (machine X) where
  Phase := Phase
  opening := opening
  Final φ := φ.own = none
  Act := Act
  Valid := World.Valid
  Later := World.Later
  Facts w φ := φ.Facts w
  later_refl := .refl
  later_trans := .trans
  facts_later := Phase.Facts.later
  enter_later t j hv :=
    ⟨(World.enter_sameStore _ t j.owner).valid hv, (World.enter_sameStore _ t j.owner).later⟩
  handle_later := World.handle_later
  leave_later t hv := ⟨(World.leave_sameStore _ t).valid hv, (World.leave_sameStore _ t).later⟩
  outside_later := World.outside_later

end Protocol

end KarpenterProviderSsh.Runs
