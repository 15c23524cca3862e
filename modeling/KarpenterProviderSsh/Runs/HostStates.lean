import KarpenterProviderSsh.Runs.Changes

/-! Every status write is exact, and the state of a host agrees with its claim. -/

namespace KarpenterProviderSsh.Runs

open Api Cluster Scripts Providers Controllers Interleaving Config

variable {X : Externals}

section Agreement

/-- A host has a claim exactly in the claimed states, and a providerID only with a claim. -/
def Agrees (st : SSHHostStatus) : Prop :=
  (st.claimRef.isSome = true ↔ st.state = .claimed ∨ st.state = .inUse) ∧
    (st.providerID ≠ "" → st.claimRef.isSome = true)

lemma Agrees.unclaimed {st : SSHHostStatus} (h : Agrees st)
    (hs : ¬ (st.state = .claimed ∨ st.state = .inUse)) :
    st.claimRef = none ∧ st.providerID = "" := by
  have hn : st.claimRef.isSome = false := by
    simpa using mt h.1.mp hs
  refine ⟨by simpa using hn, ?_⟩
  by_contra hp
  simp [h.2 hp] at hn

lemma agrees_probe {φ : Phase} {h : SSHHost} {p : ProbeWrite} (hp : Probes φ h p) (hs : φ.Sound)
    (ha : Agrees h.status) : Agrees (p.apply h.status) := by
  cases hp with
  | maintenance =>
    have hn : ¬ (h.status.state = .claimed ∨ h.status.state = .inUse) := by
      rcases hs with hs | hs
      · rw [← ha.1]
        simp [hs]
      · simp [hs]
    obtain ⟨hc, hpid⟩ := ha.unclaimed hn
    simp [Agrees, ProbeWrite.apply, hc, hpid]
  | recheck => exact ha
  | collect => exact ha
  | release => simp [Agrees, ProbeWrite.apply]
  | failed | park =>
    obtain ⟨hc, hpid⟩ := ha.unclaimed hs
    simp [Agrees, ProbeWrite.apply, hc, hpid]
  | ok =>
    obtain ⟨hc, hpid⟩ := ha.unclaimed hs
    simp [Agrees, ProbeWrite.apply, recordFacts, hc, hpid]
  | facts =>
    obtain ⟨hc, hpid⟩ := ha.unclaimed hs
    have hst : ¬ (h.status.state = .claimed ∨ h.status.state = .inUse) := hs
    push Not at hst
    simp only [Agrees, ProbeWrite.apply, recordFacts, hc, hpid]
    split_ifs <;> simp [hst.1, hst.2]
  | fence | leaveFailed | leaveOk =>
    have hn : ¬ (h.status.state = .claimed ∨ h.status.state = .inUse) := by
      first
      | exact hs
      | simp [hs.1]
    obtain ⟨hc, hpid⟩ := ha.unclaimed hn
    simp [Agrees, ProbeWrite.apply, hc, hpid]

lemma agrees_set {st : SSHHostStatus} (s : Setter) (hc : st.claimRef.isSome = true)
    (ha : Agrees st) :
    Agrees (s.apply st) := by
  cases s with
  | markInUse => simp [Agrees, Setter.apply, hc]
  | installed | bootstrapTokenID => exact ha
  | providerID id => exact ⟨ha.1, fun _ => hc⟩

lemma Writes.agrees {φ : Phase} {o s : SSHHost} {wr : StatusWrite}
    (hw : Writes φ o s wr) (hs : φ.Sound) (ha : Agrees s.status) : Agrees (outcome o s wr) := by
  have happ : Agrees (wr.apply s.status) := by
    cases hw with
    | claim => simp [Agrees, StatusWrite.apply]
    | set => exact agrees_set _ (isSome_of_heldBy hs.1.1) ha
    | clear => exact ha
    | release | teardown =>
      simp only [Agrees, StatusWrite.apply]
      split_ifs <;> simp
    | probe ready hp =>
      obtain ⟨conds, he⟩ := apply_probe _ ready _
      rw [he]
      exact agrees_probe hp hs ha
  rcases hw.outcome_cases hs with he |
    ⟨nc, r, started, freed, lost, healthy, reason, _, _, _, _, he⟩
  · exact he ▸ happ
  · exact he ▸ happ

def AllAgree (w : World) : Prop := ∀ k, ∀ v ∈ w.versions k, Agrees v.status

lemma allAgree_start (hosts : List SSHHost) : AllAgree (World.start hosts) := by
  intro k v hv
  rw [status_start hv]
  simp [Agrees, SSHHostStatus.empty]

lemma kept_allAgree (A : World → Observed X → Prop) :
    (protocol X).Kept A (fun w _ => AllAgree w) := by
  intro w ph obs w' ph' hv hf hI _ hm
  exact (Moves.change hv hf hm).versions hI fun t φ o s wr a _ hφ _ hw _ ha => hw.agrees hφ.sound ha

end Agreement

section Exactness

/-- No write that clears a token record fails, unapplied and without a conflict, while the version
it was computed from is the stored one and still records a token. -/
def clearsTokens (w : World) : Observed X → Bool
  | .call _ (.patchStatus o (.set (.bootstrapTokenID id))) (.error e) =>
    decide (id = "" → e.isConflict = false → e.reason ≠ some (.other true) →
      ∀ c ∈ w.current o.key, c.resourceVersion = o.resourceVersion → c.status.bootstrapTokenID = "")
  | _ => true

def Remembers (w : World) (φ : Phase) : Prop :=
  ∀ nc r cl, φ.close = some (nc, r, cl) → cl.held.status.bootstrapTokenID = "" →
    cl.stored.status.bootstrapTokenID ≠ "" → w.current cl.stored.key ≠ some cl.stored

lemma remembers_same {w : World} {φ : Phase} (h : ∀ nc r cl, φ.close = some (nc, r, cl) →
    cl.held.status.bootstrapTokenID = cl.stored.status.bootstrapTokenID) : Remembers w φ := by
  intro nc r cl hc hh hs
  exact absurd (h nc r cl hc ▸ hh) hs

lemma remembers_launch {w : World} {nc : NodeClaim} {r : Bool} {h : SSHHost} {st : Stage} :
    Remembers w (.launch nc r h st) := by
  refine remembers_same fun nc' r' cl hc => ?_
  cases st <;> cases hc <;> rfl

lemma remembers_not_closing {w : World} {φ : Phase} (h : φ.close = none) : Remembers w φ :=
  remembers_same fun nc r cl hc => by simp [h] at hc

lemma Remembers.other {w w' : World} {ph : Phases} {obs : Observed X} {φ : Phase} (hv : w.Valid)
    (hch : Change w ph obs w') (hf : φ.Facts w) (h : Remembers w φ) : Remembers w' φ := by
  intro nc r cl hc hh hs
  exact hch.superseded hv (Phase.close_stored hc hf) (h nc r cl hc hh hs)

lemma remembers_after {w w' : World} {t : ℕ} {φ ψ : Phase} {o s : SSHHost} {wr : StatusWrite}
    {a : Except Err SSHHost} (hv : w.Valid) (hf : φ.Facts w) (hw : Writes φ o s wr)
    (ha : Answered w o s wr a w') (hψ : After φ o s wr a ψ) (hR' : Remembers w' φ)
    (hA : clearsTokens (X := X) w (.call t (.patchStatus o wr) a) = true) : Remembers w' ψ := by
  cases hψ with
  | claimOk | setOk => exact remembers_launch
  | claimLost | setLost => exact hR'
  | claimErr | lastErr | released | factsOk | fenceOk | probeEnd => exact remembers_not_closing rfl
  | setErr hs hj =>
    intro nc r cl hc hh hst
    cases hc
    have hown := hf.sound.2
    cases hs with
    | installed marker => exact absurd hh hst
    | token id =>
      exact absurd hh (by simpa [withSet, StatusWrite.applyTo, StatusWrite.apply, Setter.apply,
        Stage.own] using hown)
    | providerID | inUse => exact absurd rfl hj
  | clearOk => exact remembers_same fun _ _ _ hc => by cases hc; rfl
  | clearLost hc =>
    intro nc r cl hc' hh hst
    cases hc'
    have hn := hR' _ _ _ hc hh hst
    exact hn
  | clearErr hc hcf =>
    intro nc r cl hc' _ hst
    cases hc'
    have hdr := (Phase.close_sound hc hf.sound).2.1
    cases ha with
    | landed o' hl hr =>
      -- the write went through: the stored record is empty now
      rw [hl.current]
      rintro he
      cases he
      rcases hw.outcome_cases hf.sound with ho | ⟨_, _, _, _, _, _, _, _, hwr, _⟩
      · have hst' := hl.status
        rw [ho] at hst'
        exact hst (by rw [hst']; rfl)
      · cases hwr
    | refused e hw' hr he =>
      subst hw'
      cases hr
      intro hcur
      refine hst ?_
      simp only [clearsTokens, decide_eq_true_eq, true_implies] at hA
      refine hA hcf ?_ s ?_ hdr.rev.symm
      · rcases he with ⟨rfl, _⟩ | rfl | ⟨m, rfl⟩
        · cases hcf
        · simp [World.notFoundErr]
        · simp [World.otherErr]
      · rw [hdr.key]
        exact hcur

lemma kept_remembers : (protocol X).Kept (Passes clearsTokens)
    (fun w ph => AllAgree w ∧ ∀ t φ, ph t = some φ → Remembers w φ) := by
  refine (kept_allAgree _).and ?_
  intro w ph obs w' ph' hv hf _ hR hA hm
  have hch := Moves.change hv hf hm
  refine Moves.threads (T := fun w _ φ => Remembers w φ) hm hR ?_ ?_ ?_
  · rintro t j _ _ _
    cases j <;> exact remembers_not_closing rfl
  · rintro t φ e r ψ ch hφ ha hh rfl hRφ
    have hfφ := hf t φ hφ
    have hl := (World.handle_later hv hh).2
    have hR' := Remembers.other hv hch hfφ hRφ
    cases ha with
    | silent | look | list | quietStart | quietWait | startFailed => exact hR'
    | update hw hψ =>
      cases hψ with
      | claimOk => exact remembers_launch
      | claimLost => exact hR'
      | claimErr => exact remembers_not_closing rfl
    | patch hw _ hψ => exact remembers_after hv hfφ hw (answered_patch hv hfφ hw hh) hψ hR' hA
    | found | mint | mintFailed | refetch | joinStart | joinOk => exact remembers_launch
    | abandon hs hj =>
      intro nc r cl hc hh hst
      cases hc
      have hown := hfφ.sound.2
      cases hs with
      | installed marker => exact absurd hh hst
      | token id =>
        exact absurd hh (by simpa [withSet, StatusWrite.applyTo, StatusWrite.apply, Setter.apply,
          Stage.own] using hown)
      | providerID | inUse => exact absurd rfl hj
    | refetchClosing => exact remembers_same fun _ _ _ hc => by cases hc; rfl
    | abandonClosing =>
      intro nc r cl hc _ _
      cases hc
      obtain ⟨v, hvm, hvr⟩ := hfφ.superseded _ (List.mem_singleton.mpr rfl)
      exact Phase.not_current_of_superseded (hl.versions _ _ hvm) hvr
    | discard hc | free hc =>
      intro nc' r' cl hc' hh' hst
      cases hc'
      have hn := hR' _ _ _ hc hh' hst
      exact hn
    | joinErr => exact remembers_same fun _ _ _ hc => by cases hc; rfl
    | _ => exact remembers_not_closing rfl
  · intro t φ hφ _ hRφ
    exact Remembers.other hv hch (hf t φ hφ) hRφ

/-- What a step does to stored statuses: an answered write is the writer's own change of what was
stored, nothing else changes a status, and a claim is only taken up or given back. -/
structure ExactStep (w : World) (obs : Observed X) (w' : World) : Prop where
  answered : ∀ t o wr o', WriteSeen obs t o wr (.ok o') → ∃ b, w.current o.key = some b ∧
    w'.current o.key = some o' ∧
    o' = { b with status := wr.apply b.status, resourceVersion := o'.resourceVersion }
  changed : ∀ k b a, w.current k = some b → w'.current k = some a → a.status ≠ b.status →
    ∃ t o wr r, WriteSeen obs t o wr r ∧ o.key = k ∧ a.status = wr.apply b.status
  claimed : ∀ k b a, w.current k = some b → w'.current k = some a →
    a.status.claimRef ≠ b.status.claimRef →
    (b.status.claimRef.isSome = true ∧ a.status.claimRef = none) ∨
      (b.status.claimRef = none ∧ b.status.state = .available ∧ b.maintenance = false ∧
        ∃ t o ref r, WriteSeen obs t o (.claim ref) r ∧ o.key = k ∧ a.status.claimRef = some ref)

lemma Writes.exact {w : World} {φ : Phase} {o s : SSHHost} {wr : StatusWrite} (hw : Writes φ o s wr)
    (hs : φ.Sound) (hR : Remembers w φ) (hc : w.current s.key = some s) :
    outcome o s wr = wr.apply s.status := by
  rcases hw.outcome_cases hs with he | ⟨nc, r, started, freed, lost, _, _, hcl, _, ho, hst, _⟩
  · exact he
  · exact absurd hc (hR _ _ _ hcl ho hst)

theorem Moves.exact {w w' : World} {ph ph' : Phases} {obs : Observed X} (hv : w.Valid)
    (hf : ∀ t φ, ph t = some φ → φ.Facts w) (hR : ∀ t φ, ph t = some φ → Remembers w φ)
    (hm : Moves w ph obs w' ph') : ExactStep w obs w' := by
  have hch := Moves.change hv hf hm
  refine ⟨?_, ?_, ?_⟩
  · intro t o wr o' hobs
    obtain ⟨φ, s, hφ, hfφ, hw, ha⟩ := Moves.answered hv hf hm hobs
    have hk := (hw.drifts hfφ.sound).key
    cases ha with
    | landed o'' hl ha =>
      rcases ha with ha | ⟨m, ha⟩ <;> cases ha
      rw [hw.exact hfφ.sound (hR t φ hφ) hl.before] at hl
      refine ⟨s, hk ▸ hl.before, hk ▸ hl.current, ?_⟩
      rw [← hl.status]
      exact hl.rest
    | refused e _ ha => cases ha
  · intro k b a hb ha hne
    cases hch.from hb with
    | same hc =>
      rw [hc] at ha
      cases ha
      exact absurd rfl hne
    | edited o' hp hst =>
      rw [hp.current] at ha
      cases ha
      exact absurd hst hne
    | written t φ o wr r o' hφ hfφ hw hobs _ hk hl =>
      rw [hl.current] at ha
      cases ha
      refine ⟨t, o, wr, r, hobs, hk, hl.status.trans ?_⟩
      exact hw.exact hfφ.sound (hR t φ hφ) (hl.key ▸ hl.before)
  · intro k b a hb ha hne
    cases hch.from hb with
    | same hc =>
      rw [hc] at ha
      cases ha
      exact absurd rfl hne
    | edited o' hp hst =>
      rw [hp.current] at ha
      cases ha
      exact absurd (by rw [hst]) hne
    | written t φ o wr r o' hφ hfφ hw hobs _ hk hl =>
      rw [hl.current] at ha
      cases ha
      rw [hl.status] at hne ⊢
      rcases hw.claimRef_cases hfφ.sound with he | ⟨hn, hsome, _⟩ | ⟨nc, os, rfl, _, rfl, hcl, href⟩
      · exact absurd he hne
      · exact .inl ⟨hsome, hn⟩
      · obtain ⟨hav, hnone, hmt⟩ := claimable_iff.mp hcl
        exact .inr ⟨hnone, hav, hmt, t, o, nc.ref, r, hobs, hk, href⟩

/-- In every run in which no token-clearing write is lost, every status write is exact. -/
theorem status_writes_exact {hosts : List SSHHost} {c d : Run X} {ev : Event X} {obs : Observed X}
    (hr : Reaches (Passes clearsTokens) (idle X hosts) c)
    (hs : c.step ev = some (obs, d)) : ExactStep c.world obs d.world := by
  obtain ⟨ph, ph', ht, hI, hm, _⟩ := reached_step kept_remembers
    ⟨allAgree_start hosts, by simp⟩ hr hs
  exact Moves.exact ht.valid ht.facts hI.2 hm

section Sample

open Sample

theorem status_writes_exact_failed_join :
    ∃ c d : Run externals, ∃ ev obs,
      Reaches (Passes clearsTokens) (idle externals hosts) c ∧
        c.step ev = some (obs, d) ∧ ExactStep c.world obs d.world ∧
        (d.world.current k1).any (fun h => h.status.state = .unhealthy ∧ h.status.claimRef = none) =
        true := by
  obtain ⟨c, obs, d, hr, hs, hq⟩ := exists_step_of_replay
    (p := clearsTokens) (c := idle externals hosts)
    (l := failedJoin ++ [.call 1 .ok]) (v := .call 1 .ok) (Q := fun p => (p.2.world.current k1).any
      (fun h => h.status.state = .unhealthy ∧ h.status.claimRef = none)) (by decide +kernel)
  exact ⟨c, d, _, obs, hr, hs, status_writes_exact hr hs, hq⟩

def Sample.keepsRecord : Observed externals → Bool
  | .call _ (.patchStatus _ (.release _ _)) (.ok o) => o.status.bootstrapTokenID != ""
  | _ => false

lemma Sample.of_keepsRecord {obs : Observed externals} (h : keepsRecord obs = true) :
    ∃ t o healthy reason o', obs = .call t (.patchStatus o (.release healthy reason)) (.ok o') ∧
      o'.status.bootstrapTokenID ≠ "" := by
  unfold keepsRecord at h
  split at h
  · exact ⟨_, _, _, _, _, rfl, by simpa using h⟩
  · cases h

/-- The API server refuses to clear the record; the release that follows succeeds and keeps it. -/
theorem release_keeps_token_record :
    ∃ c d : Run externals, ∃ ev obs, Reaches (fun _ _ => True) (idle externals hosts) c ∧
      c.step ev = some (obs, d) ∧ ¬ ExactStep c.world obs d.world := by
  obtain ⟨c, obs, d, hr, hs, hq⟩ := exists_step_of_replay
    (p := fun _ _ => true) (c := idle externals hosts)
    (l := failedJoin ++ [.call 1 (.fail false "timeout")]) (v := .call 1 .ok)
    (Q := fun p => keepsRecord p.1) (by decide +kernel)
  refine ⟨c, d, _, obs, hr.weaken fun _ _ _ => trivial, hs, fun hx => ?_⟩
  obtain ⟨t, o, healthy, reason, o', rfl, hne⟩ := of_keepsRecord hq
  obtain ⟨b, _, _, he⟩ := hx.answered t o (.release healthy reason) o' (.inr rfl)
  exact hne (by rw [he]; rfl)

end Sample

end Exactness

section Tokens

def TokenClaimed (st : SSHHostStatus) : Prop := st.bootstrapTokenID ≠ "" → st.claimRef.isSome = true

lemma Writes.tokenClaimed {w : World} {φ : Phase} {o s : SSHHost} {wr : StatusWrite}
    (hw : Writes φ o s wr) (hs : φ.Sound) (hR : Remembers w φ) (hc : w.current s.key = some s)
    (ht : TokenClaimed s.status) :
    TokenClaimed (outcome o s wr) := by
  rw [hw.exact hs hR hc]
  cases hw with
  | claim => simp [TokenClaimed, StatusWrite.apply]
  | @set _ _ _ _ x =>
    have hsome := isSome_of_heldBy hs.1.1
    cases x <;> exact fun _ => hsome
  | clear => simp [TokenClaimed, StatusWrite.apply, Setter.apply]
  | release | teardown => simp [TokenClaimed, StatusWrite.apply]
  | probe ready hp =>
    obtain ⟨conds, he⟩ := apply_probe _ ready _
    rw [he]
    cases hp with
    | collect | release => simp [TokenClaimed, ProbeWrite.apply]
    | _ => exact ht

/-- In every run in which no token-clearing write is lost, state and claim agree in every stored
version, and so do providerID, token and claim. -/
theorem states_and_claims_agree {hosts : List SSHHost} {c : Run X}
    (hr : Reaches (Passes clearsTokens) (idle X hosts) c)
    {k : NamespacedName} {v : SSHHost} (hv : v ∈ c.world.versions k) :
    (v.status.claimRef.isSome = true ↔ v.status.state = .claimed ∨ v.status.state = .inUse) ∧
      (v.status.providerID ≠ "" ∨ v.status.bootstrapTokenID ≠ "" →
        v.status.claimRef.isSome = true) := by
  have hk : (protocol X).Kept (Passes clearsTokens) (fun w ph =>
      (AllAgree w ∧ ∀ t φ, ph t = some φ → Remembers w φ) ∧
      ∀ k, ∀ v ∈ w.versions k, TokenClaimed v.status) := by
    refine kept_remembers.and ?_
    rintro w ph obs w' ph' hv hf ⟨_, hR⟩ hT _ hm
    refine (Moves.change hv hf hm).versions hT fun t φ o s wr a hφ hfφ _ hw hc hts => ?_
    exact hw.tokenClaimed hfφ.sound (hR t φ hφ) hc hts
  obtain ⟨ph, _, ⟨hag, _⟩, hT⟩ := reached hk ⟨⟨allAgree_start hosts, by simp⟩, fun k v hv => by
    rw [status_start hv]
    simp [TokenClaimed, SSHHostStatus.empty]⟩ hr
  exact ⟨(hag k v hv).1, fun h => h.elim (hag k v hv).2 (hT k v hv)⟩

section Sample

open Sample

theorem states_and_claims_agree_joining :
    ∃ (c : Run externals) (v : SSHHost), Reaches (Passes clearsTokens) (idle externals hosts) c ∧
      v ∈ c.world.versions k1 ∧ v.status.bootstrapTokenID = "id1" ∧
      (v.status.claimRef.isSome = true ↔ v.status.state = .claimed ∨ v.status.state = .inUse) ∧
      (v.status.providerID ≠ "" ∨ v.status.bootstrapTokenID ≠ "" →
        v.status.claimRef.isSome = true) := by
  obtain ⟨c, hr, hq⟩ := exists_of_replay (p := clearsTokens) (c := idle externals hosts)
    (l := admitting 0 k1 1000 ++ claiming 1 claimA k1 ++ preparing 1 ++
      installing 1 ++ joining 1 "id1")
    (Q := fun c => (c.world.current k1).any (fun h => h.status.bootstrapTokenID = "id1"))
      (by decide +kernel)
  obtain ⟨v, hv, ht⟩ := (Option.any_eq_true _ _).mp hq
  have hm := World.current_mem hv
  exact ⟨c, v, hr, hm, by simpa using ht, states_and_claims_agree hr hm⟩

/-- The API server refuses to clear the record; the release then leaves a token without a claim. -/
theorem token_without_claim :
    ∃ (c : Run externals) (v : SSHHost), Reaches (fun _ _ => True) (idle externals hosts) c ∧
      c.world.current k1 = some v ∧ v.status.bootstrapTokenID ≠ "" ∧ v.status.claimRef = none := by
  obtain ⟨c, hr, hq⟩ := exists_of_replay (p := fun _ _ => true) (c := idle externals hosts)
    (l := failedJoin ++ [.call 1 (.fail false "timeout"), .call 1 .ok])
    (Q := fun c => (c.world.current k1).any
      (fun h => h.status.bootstrapTokenID ≠ "" ∧ h.status.claimRef = none)) (by decide +kernel)
  obtain ⟨v, hv, ht⟩ := (Option.any_eq_true _ _).mp hq
  exact ⟨c, v, hr.weaken fun _ _ _ => trivial, hv, by simpa using ht⟩

end Sample

end Tokens

end KarpenterProviderSsh.Runs
