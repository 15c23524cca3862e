import KarpenterProviderSsh.Runs.Readmissions

/-! The Ready condition and the state it is derived from: `patchStatus` of the reconciler refreshes
it, every other writer leaves it as it is. -/

namespace KarpenterProviderSsh.Runs

open Api Cluster Scripts Providers Controllers Interleaving Config

variable {X : Externals}

section Conditions

variable {st st' : SSHHostStatus} {c cond : Condition} {l : List Condition}

def Mirrors (st : SSHHostStatus) : Prop :=
  ∀ c ∈ st.conditions, c.type = hostConditionReady → ∀ generation,
    c.status = (readyCondition generation st).status ∧
    c.reason = (readyCondition generation st).reason

def readiness : HostState → ConditionStatus × String
  | .unhealthy => (.false, "ProbeFailed")
  | .maintenance => (.false, "Maintenance")
  | .pending | .unset => (.unknown, "AwaitingProbe")
  | .available | .claimed | .inUse | .leaving => (.true, "ProbeSucceeded")

lemma readyCondition_readiness (generation : ℕ) (st : SSHHostStatus) :
    ((readyCondition generation st).status, (readyCondition generation st).reason) =
    readiness st.state := by
  unfold readyCondition
  cases st.state <;> rfl

lemma mirrors_iff : Mirrors st ↔
    ∀ c ∈ st.conditions, c.type = hostConditionReady →
    (c.status, c.reason) = readiness st.state := by
  constructor
  · intro h c hc ht
    rw [← readyCondition_readiness 0]
    exact Prod.ext (h c hc ht 0).1 (h c hc ht 0).2
  · intro h c hc ht generation
    have he := h c hc ht
    rw [← readyCondition_readiness generation] at he
    exact Prod.mk.inj he

def Mirrored (st : SSHHostStatus) : Prop := (st.conditions.map Condition.type).Nodup ∧ Mirrors st

lemma types_setStatusCondition (now : ℕ) (cond : Condition) (l : List Condition) :
    (setStatusCondition now cond l).map Condition.type =
      if cond.type ∈ l.map Condition.type then l.map Condition.type else l.map Condition.type ++
      [cond.type] := by
  induction l with
  | nil => simp [setStatusCondition]
  | cons d l ih =>
    by_cases hd : d.type = cond.type
    · simp [setStatusCondition, hd]
    · simp only [setStatusCondition, hd, if_false, List.map_cons, ih, List.mem_cons,
        Ne.symm hd, false_or]
      split_ifs <;> simp

lemma setStatusCondition_type (now : ℕ) (hn : (l.map Condition.type).Nodup)
    (hc : c ∈ setStatusCondition now cond l) (ht : c.type = cond.type) : c.status = cond.status ∧
    c.reason = cond.reason := by
  induction l with
  | nil =>
    obtain rfl := List.mem_singleton.mp hc
    exact ⟨rfl, rfl⟩
  | cons d l ih =>
    simp only [List.map_cons, List.nodup_cons] at hn
    by_cases hd : d.type = cond.type
    · simp only [setStatusCondition, hd, if_true] at hc
      rcases List.mem_cons.mp hc with rfl | hc
      · exact ⟨rfl, rfl⟩
      · exact absurd (List.mem_map.mpr ⟨c, hc, ht.trans hd.symm⟩) hn.1
    · simp only [setStatusCondition, hd, if_false] at hc
      rcases List.mem_cons.mp hc with rfl | hc
      · exact absurd ht hd
      · exact ih hn.2 hc

lemma mirrored_setReadyCondition (generation now : ℕ)
    (hn : (st.conditions.map Condition.type).Nodup) :
    Mirrored (setReadyCondition generation now st) := by
  constructor
  · simp only [setReadyCondition, types_setStatusCondition]
    split_ifs with h
    · exact hn
    · exact List.nodup_append.mpr ⟨hn, List.nodup_singleton _,
        fun a ha b hb hab => h (List.mem_singleton.mp hb ▸ hab ▸ ha)⟩
  · rw [mirrors_iff]
    intro c hc ht
    have hty : (readyCondition generation st).type = hostConditionReady := by
      unfold readyCondition
      cases st.state <;> rfl
    obtain ⟨hs, hr⟩ := setStatusCondition_type now hn hc (ht.trans hty.symm)
    rw [hs, hr]
    exact readyCondition_readiness generation st

lemma Mirrored.same (h : Mirrored st) (hc : st'.conditions = st.conditions)
    (hs : st.conditions.any (·.type = hostConditionReady) = true →
      readiness st'.state = readiness st.state) :
    Mirrored st' := by
  refine ⟨hc ▸ h.1, mirrors_iff.mpr ?_⟩
  intro c hm ht
  rw [hc] at hm
  rw [hs (List.any_eq_true.mpr ⟨c, hm, by simpa using ht⟩)]
  exact mirrors_iff.mp h.2 c hm ht

end Conditions

section Stamps

def Stamped : Eff → Prop
  | .patchStatus _ (.probe p none) => (∃ n now res, p = .probeFacts n now res) ∨ p = .enterLeaving
  | _ => True

lemma stamped_of_round {e : Eff} (he : RoundRequest e) : Stamped e := by
  cases he with
  | facts => exact .inl ⟨_, _, _, rfl⟩
  | fence => exact .inr rfl
  | _ => trivial

def stamps (X : Externals) : Monitor (machine X) where
  State := Unit
  init
    | .reconcile _ => some ()
    | _ => none
  see _ _ _ := ()
  Allows _ := Stamped

theorem stamps_respected (X : Externals) : (stamps X).Respected := by
  intro j σ hj
  cases j with
  | reconcile k =>
    have ho : (stamps X).Obeys (fun _ _ => True) σ (reconcile X k) :=
      (Monitor.obeys_of_abides (asks_reconcile k)
          fun e he => ⟨stamped_of_round he, fun _ => rfl⟩).conseq fun _ _ _ => trivial
    exact ho.bind fun _ _ _ => trivial
  | create | delete | reboot => cases hj

end Stamps

section Runs

/-- A host that has a Ready condition is not parked by a release, not stored Leaving unless it was
Available or Leaving, and its probe facts are not recorded apart while it is in Maintenance. -/
def keepsReady (_ : World) : Observed X → Bool
  | .call _ (.patchStatus o (.release healthy _)) a =>
    healthy || !o.status.conditions.any (·.type = hostConditionReady) || !carriedOut a
  | .call _ (.patchStatus o (.probe .enterLeaving none)) a =>
    o.status.state = .available || o.status.state = .leaving ||
      !o.status.conditions.any (·.type = hostConditionReady) || !carriedOut a
  | .call _ (.patchStatus o (.probe (.probeFacts _ _ _) none)) a =>
    o.status.state ≠ .maintenance || !o.status.conditions.any (·.type = hostConditionReady) ||
      !carriedOut a
  | _ => true

lemma Drifts.conditions {s o : SSHHost} (h : Drifts s o) :
    o.status.conditions = s.status.conditions := by
  rw [h]

lemma readiness_of_claim {st : SSHHostStatus} (ha : Agrees st) (hc : st.claimRef.isSome = true) :
    readiness st.state = (.true, "ProbeSucceeded") := by
  rcases ha.1.mp hc with hs | hs <;> rw [hs] <;> rfl

variable {w w' : World} {ph : Phases} {obs : Observed X} {φ : Phase} {o s : SSHHost}
  {wr : StatusWrite} {t : ℕ} {a : Except Err SSHHost}

lemma Writes.mirrored (hw : Writes φ o s wr) (hs : φ.Sound) (hag : Agrees s.status)
    (hm : Mirrored s.status) (hk : keepsReady (X := X) w (.call t (.patchStatus o wr) a) = true)
    (hd : carriedOut a = true) (hst : ∀ k, φ.owner = .reconcile k → Stamped (.patchStatus o wr)) :
    Mirrored (outcome o s wr) := by
  have hrel {healthy : Bool} {reason : String} (hc : s.status.claimRef.isSome = true)
      (hcond : o.status.conditions = s.status.conditions)
      (hk : keepsReady (X := X) w (.call t (.patchStatus o (.release healthy reason)) a) = true) :
      s.status.conditions.any (·.type = hostConditionReady) = true →
        readiness ((StatusWrite.release healthy reason).apply s.status).state =
        readiness s.status.state := by
    intro hready
    rw [readiness_of_claim hag hc]
    simp only [keepsReady, hcond, hready, hd, Bool.not_true, Bool.or_false] at hk
    rw [hk]
    rfl
  have happ : Mirrored (wr.apply s.status) := by
    cases hw with
    | claim ho =>
      refine hm.same rfl fun _ => ?_
      rw [(claimable_iff.mp (hs _ ho)).1]
      rfl
    | @set _ _ _ _ x hx =>
      cases x with
      | markInUse =>
        refine hm.same rfl fun _ => ?_
        rw [readiness_of_claim hag (isSome_of_heldBy hs.1.1)]
        rfl
      | installed | providerID | bootstrapTokenID => exact hm.same rfl fun _ => rfl
    | clear => exact hm.same rfl fun _ => rfl
    | release reason hc =>
      obtain ⟨hh, hdr, _⟩ := Phase.close_sound hc hs
      exact hm.same rfl (hrel (isSome_of_heldBy hh.1) hdr.conditions hk)
    | teardown => exact hm.same rfl (hrel (isSome_of_heldBy hs) rfl hk)
    | @probe _ _ p ready hp =>
      cases ready with
      | some stamp => exact mirrored_setReadyCondition _ _ (by cases p <;> exact hm.1)
      | none =>
        have hrec : ∃ k, φ.owner = .reconcile k := by
          cases hp <;> exact ⟨_, rfl⟩
        obtain ⟨k, hrec⟩ := hrec
        rcases hst k hrec with ⟨n, now, res, rfl⟩ | rfl
        · refine hm.same rfl fun hready => ?_
          simp only [keepsReady, hready, hd, Bool.not_true, Bool.or_false, decide_eq_true_eq] at hk
          simp [StatusWrite.apply, ProbeWrite.apply, recordFacts, hk]
        · refine hm.same rfl fun hready => ?_
          simp only [keepsReady, hready, hd, Bool.not_true, Bool.or_false, Bool.or_eq_true,
            decide_eq_true_eq] at hk
          rcases hk with hk | hk <;> rw [hk] <;> rfl
  rcases hw.outcome_cases hs with he | ⟨_, _, _, _, _, _, _, _, _, _, _, he⟩
  · exact he ▸ happ
  · exact he ▸ happ

structure ReadyInv (l : Log (machine X)) (w : World) (ph : Phases) : Prop where
  agree : AllAgree w
  watched : Watched (stamps X) l ph
  mirrored : ∀ k, ∀ v ∈ w.versions k, Mirrored v.status

lemma kept_readyInv {l : Log (machine X)} {ph' : Phases} (hv : w.Valid)
    (hf : ∀ t φ, ph t = some φ → φ.Facts w) (hI : ReadyInv l w ph) (hk : keepsReady w obs = true)
    (hadm : (stamps X).Admits l obs) (hm : Moves w ph obs w' ph') :
    ReadyInv (⟨w, obs⟩ :: l) w' ph' := by
  refine ⟨kept_allAgree (fun _ _ => True) _ _ _ _ _ hv hf hI.agree trivial hm,
    hI.watched.step (fun k => ⟨(), rfl⟩) hv hf hm, ?_⟩
  intro k v hmem
  cases (Moves.change hv hf hm).at k with
  | same _ hvs => exact hI.mirrored k v (hvs ▸ hmem)
  | edited c o' hc hp hst =>
    rcases (hp.versions v).mp hmem with rfl | hmem
    · exact hst ▸ hI.mirrored k c (World.current_mem hc)
    · exact hI.mirrored k v hmem
  | written t φ o s wr a o' hφ hfφ hw hobs ha _ hl =>
    rcases hl.after with ⟨_, hp⟩ | ⟨_, _, hsame⟩
    · rcases (hp.versions v).mp hmem with rfl | hmem
      · have hs := World.current_mem hl.before
        rw [hl.status]
        -- a claim is the one write that is an update, and it has no condition to meet
        have hk' : keepsReady (X := X) w (.call t (.patchStatus o wr) a) = true := by
          rcases hobs with rfl | rfl
          · obtain ⟨ref, rfl⟩ := Moves.update_claim hm
            rfl
          · exact hk
        refine hw.mirrored hfφ.sound (hI.agree _ _ hs) (hI.mirrored _ _ hs) hk'
          (carriedOut_of ha) fun j hj => ?_
        obtain ⟨σ, hσ⟩ := hI.watched t φ hφ j hj
        rcases hobs with rfl | rfl
        · obtain ⟨ref, rfl⟩ := Moves.update_claim hm
          trivial
        · exact hadm σ hσ
      · exact hI.mirrored k v hmem
    · exact hI.mirrored k v (hsame.versions k ▸ hmem)

/-- In every stored version the Ready condition, if there is one, is the one the state asks for. -/
theorem ready_mirrors_state {hosts : List SSHHost} {c : Run X}
    (hr : Reaches (Passes keepsReady) (idle X hosts) c) :
    ∀ k, ∀ v ∈ World.versions c.world k, Mirrors v.status := by
  obtain ⟨l, hl⟩ := hr.logged
  obtain ⟨ph, _, hI⟩ := Protocol.run_logged (conforms X) (stamps_respected X)
    (fun l w ph o w' ph' hv hf hI hA hadm hm => kept_readyInv hv hf hI hA hadm hm)
      (valid_start hosts)
    ⟨allAgree_start hosts, by simp [Watched], fun k v hv => by
      rw [status_start hv]
      exact ⟨List.nodup_nil, by simp [Mirrors, SSHHostStatus.empty]⟩⟩ hl
  exact fun k v hv => (hI.mirrored k v hv).2

end Runs

section Sample

open Sample

theorem ready_mirrors_state_released :
    ∃ c : Run externals, Reaches (Passes keepsReady) (idle externals hosts) c ∧
      (∃ v, World.current c.world k1 = some v ∧ v.status.conditions ≠ [] ∧
        v.status.state = .available) ∧
      ∀ k, ∀ v ∈ World.versions c.world k, Mirrors v.status := by
  obtain ⟨c, hr, hq⟩ := exists_of_replay (p := keepsReady) (c := idle externals hosts)
    (l := admitting 0 k1 1000 ++ claiming 1 claimA k1 ++ preparing 1 ++ installing 1 ++
      joining 1 "id1" ++ joined 1 ++ leaving 2 claimA 0 ++ left 2)
    (Q := fun c => (World.current c.world k1).any fun v => v.status.conditions ≠ [] &&
      v.status.state = .available)
    (by decide +kernel)
  simp only [Option.any_eq_true, Bool.and_eq_true, decide_eq_true_eq] at hq
  exact ⟨c, hr, hq, ready_mirrors_state hr⟩

/-- A launch fails and its host is parked; Ready stays True. -/
theorem parked_host_stays_ready :
    ∃ c : Run externals, Reaches (fun _ _ => True) (idle externals hosts) c ∧
      ∃ v, World.current c.world k1 = some v ∧ v.status.state = .unhealthy ∧
      ¬ Mirrors v.status := by
  obtain ⟨c, hr, hq⟩ := exists_of_replay (p := fun _ _ => true) (c := idle externals hosts)
    (l := failedJoin ++ [.call 1 .ok, .call 1 .ok, .finish 1])
    (Q := fun c => (World.current c.world k1).any fun v => v.status.state = .unhealthy &&
      v.status.conditions.any fun d => d.type = hostConditionReady && d.status = .true)
        (by decide +kernel)
  simp only [Option.any_eq_true, Bool.and_eq_true, decide_eq_true_eq, List.any_eq_true] at hq
  obtain ⟨v, hv, hs, d, hd, ht, hst⟩ := hq
  refine ⟨c, hr.weaken fun _ _ _ => trivial, v, hv, hs, fun hm => ?_⟩
  have he := mirrors_iff.mp hm d hd ht
  rw [hst, hs] at he
  cases he

end Sample

end KarpenterProviderSsh.Runs
