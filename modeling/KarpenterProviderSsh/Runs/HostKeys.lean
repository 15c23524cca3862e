import KarpenterProviderSsh.Runs.Dispatches
import KarpenterProviderSsh.Runs.HostStates

/-! Host keys: trusted on first use by the probe, pinned from then on. -/

namespace KarpenterProviderSsh.Runs

open Api Cluster Scripts Providers Controllers Interleaving Config

variable {X : Externals}

/-- A probe that succeeds returns the key it saw in the handshake. -/
def observesKeys (_ : World) : Observed X → Bool
  | .call _ (.sshWait _ .probe) (.ok r) => r.hostKeyFingerprint != ""
  | _ => true

def scriptStates : List HostState := [.available, .claimed, .inUse, .leaving]

def KeyKnown (st : SSHHostStatus) : Prop := st.state ∈ scriptStates → st.hostKeyFingerprint ≠ ""

lemma KeyKnown.claimed {st : SSHHostStatus} (h : KeyKnown st) (ha : Agrees st)
    (hc : st.claimRef.isSome = true) :
    st.hostKeyFingerprint ≠ "" := by
  rcases ha.1.mp hc with hs | hs <;> exact h (by simp [hs, scriptStates])

section Writes

variable {φ : Phase} {o s : SSHHost} {wr : StatusWrite}

lemma Writes.fingerprint_eq (hw : Writes φ o s wr) (hs : φ.Sound) :
    (outcome o s wr).hostKeyFingerprint = (wr.apply s.status).hostKeyFingerprint := by
  rcases hw.outcome_cases hs with he | ⟨_, _, _, _, _, _, _, _, _, _, _, he⟩ <;> rw [he]

lemma probe_fingerprint (p : ProbeWrite) (ready : Option Stamp) (st : SSHHostStatus) :
    ((StatusWrite.probe p ready).apply st).hostKeyFingerprint =
    (p.apply st).hostKeyFingerprint := by
  cases ready <;> rfl

lemma Writes.fingerprint (hw : Writes φ o s wr) (hs : φ.Sound)
    (hne : s.status.hostKeyFingerprint ≠ "") :
    (outcome o s wr).hostKeyFingerprint = s.status.hostKeyFingerprint := by
  rw [hw.fingerprint_eq hs]
  cases hw with
  | claim | clear | release | teardown => rfl
  | @set _ _ _ _ x => cases x <;> rfl
  | probe ready hp =>
    rw [probe_fingerprint]
    cases hp with
    | ok | facts => simp [ProbeWrite.apply, recordFacts, hne]
    | _ => rfl

def Keyed (o : SSHHost) : StatusWrite → Prop
  | .probe (.probeFacts _ _ res) _ => res.fingerprint ≠ ""
  | .probe (.probeOk _ _ res) _ => res.fingerprint ≠ ""
  | .probe .enterLeaving _ => o.status.hostKeyFingerprint ≠ ""
  | _ => True

lemma recordFacts_fingerprint (n now : ℕ) {res : ProbeResult} {st : SSHHostStatus}
    (h : res.fingerprint ≠ "") :
    (recordFacts n now res st).hostKeyFingerprint ≠ "" := by
  unfold recordFacts
  dsimp only
  split_ifs with he
  · exact h
  · exact he

lemma keyKnown_probe {h : SSHHost} {p : ProbeWrite} {ready : Option Stamp}
    (hp : Probes φ h p) (hs : φ.Sound) (hk : KeyKnown h.status) (hw : Keyed h (.probe p ready)) :
    KeyKnown (p.apply h.status) := by
  cases hp with
  | maintenance | release | failed | park | leaveFailed =>
    simp [KeyKnown, ProbeWrite.apply, scriptStates]
  | recheck | collect => exact hk
  | ok h n now res => exact fun _ => recordFacts_fingerprint n now hw
  | facts h n now res => exact fun _ => recordFacts_fingerprint n now hw
  | fence => exact fun _ => hw
  | leaveOk => exact fun _ => hk (by rw [hs.1]; decide)

lemma Writes.keyKnown (hw : Writes φ o s wr) (hs : φ.Sound) (ha : Agrees s.status)
    (hk : KeyKnown s.status) (hr : Keyed o wr) : KeyKnown (outcome o s wr) := by
  have happ : KeyKnown (wr.apply s.status) := by
    cases hw with
    | claim ho =>
      have hav := (claimable_iff.mp (hs _ ho)).1
      exact fun _ => hk (by rw [hav]; decide)
    | @set _ _ _ _ x =>
      have hne := hk.claimed ha (isSome_of_heldBy hs.1.1)
      cases x <;> exact fun _ => hne
    | clear hc =>
      have hne := hk.claimed ha (isSome_of_heldBy (Phase.close_sound hc hs).1.1)
      exact fun _ => hne
    | release _ hc =>
      have hne := hk.claimed ha (isSome_of_heldBy (Phase.close_sound hc hs).1.1)
      exact fun _ => hne
    | teardown =>
      have hne := hk.claimed ha (isSome_of_heldBy hs)
      exact fun _ => hne
    | probe ready hp =>
      obtain ⟨conds, he⟩ := apply_probe _ ready _
      rw [he]
      exact keyKnown_probe hp hs hk hr
  rcases hw.outcome_cases hs with he | ⟨_, _, _, _, _, _, _, _, _, _, _, he⟩
  · exact he ▸ happ
  · exact he ▸ happ

end Writes

def Trusted : Answers
  | .sshWait _ .probe, .ok x => x.hostKeyFingerprint ≠ ""
  | .listHosts _, .ok os =>
    ∀ o ∈ os, o.status.claimRef.isSome = true → o.status.hostKeyFingerprint ≠ ""
  | .getHost _, .ok o => o.status.claimRef.isSome = true → o.status.hostKeyFingerprint ≠ ""
  | .updateStatus _ (.claim _), .ok o => o.status.hostKeyFingerprint ≠ ""
  | .patchStatus _ (.probe (.probeFacts _ _ _) _), .ok o => o.status.hostKeyFingerprint ≠ ""
  | .patchStatus _ (.probe .enterLeaving _), .ok o => o.status.hostKeyFingerprint ≠ ""
  | _, _ => True

lemma Engaged.trusted {h : SSHHost} (he : Engaged Trusted h) :
    h.status.hostKeyFingerprint ≠ "" := by
  cases he with
  | found hg hm hc => exact hg h hm (isSome_of_heldBy hc)
  | claimed hg => exact hg
  | resolved hg hc => exact hg (isSome_of_heldBy hc)
  | fenced hg => exact hg

lemma keyed_of_contract {o : SSHHost} {wr : StatusWrite}
    (hc : Contract X Trusted (.patchStatus o wr)) : Keyed o wr := by
  unfold Keyed
  split
  · obtain ⟨x, hx, hres⟩ := hc
    rw [hres, parseProbeOutput]
    split <;> exact hx
  · obtain ⟨x, hx, hres⟩ := hc
    rw [hres, parseProbeOutput]
    split <;> exact hx
  · obtain ⟨_, _, _, _, hg⟩ := hc
    exact hg
  · trivial

def AllKnown (w : World) : Prop := AllAgree w ∧ ∀ k, ∀ v ∈ w.versions k, KeyKnown v.status

lemma kept_allKnown {A : World → Observed X → Prop} :
    (protocol X).Kept (fun w o => A w o ∧ Protocol.Meets (Contract X Trusted) o)
      (fun w _ => AllKnown w) := by
  refine (kept_allAgree _).and ?_
  rintro w ph obs w' ph' hv hf hag hk ⟨_, hmeets⟩ hm
  refine (Moves.change hv hf hm).versions hk fun t φ o s wr a hφ hfφ hobs hw hc hks => ?_
  refine hw.keyKnown hfφ.sound (hag _ s (World.current_mem hc)) hks ?_
  rcases hobs with rfl | rfl
  · obtain ⟨ref, rfl⟩ := Moves.update_claim hm
    trivial
  · exact keyed_of_contract hmeets

lemma AllKnown.claimed {w : World} (h : AllKnown w) {k : NamespacedName} {v : SSHHost}
    (hv : v ∈ w.versions k) (hc : v.status.claimRef.isSome = true) :
    v.status.hostKeyFingerprint ≠ "" :=
  (h.2 k v hv).claimed (h.1 k v hv) hc

lemma Moves.answered_ok {w w' : World} {ph ph' : Phases} {obs : Observed X} (hv : w.Valid)
    (hf : ∀ t φ, ph t = some φ → φ.Facts w) (hm : Moves w ph obs w' ph') {t : ℕ} {o o' : SSHHost}
    {wr : StatusWrite} (hobs : WriteSeen obs t o wr (.ok o')) :
    ∃ φ s, Writes φ o s wr ∧ φ.Sound ∧ o'.status = outcome o s wr ∧ o' ∈ w'.versions o'.key := by
  obtain ⟨φ, s, _, hfφ, hw, ha⟩ := Moves.answered hv hf hm hobs
  exact ⟨φ, s, hw, hfφ.sound, ha.of_ok.status, (landed_mem ha.of_ok).2⟩

lemma trusted_answer {w w' : World} {ph ph' : Phases} {t : ℕ} {e : Eff} {r : Res e} (hv : w.Valid)
    (hf : ∀ t φ, ph t = some φ → φ.Facts w) (hk : AllKnown w')
    (ho : observesKeys (X := X) w (.call t e r) = true) (hc : Contract X Trusted e)
    (hm : Moves (X := X) w ph (.call t e r) w' ph') : Trusted e r := by
  have hread : ∃ ch, w.handle t e ch = some (r, w') := by
    rcases hm with _ | @⟨_, _, _, _, _, ch, _, _, _, hh⟩
    exact ⟨ch, hh⟩
  obtain ⟨ch, hh⟩ := hread
  have hl := (World.handle_later hv hh).2
  unfold Trusted
  split
  · simpa [observesKeys] using ho
  · intro o hin hcl
    obtain ⟨os', he, _, hmem⟩ | ⟨_, e, he⟩ := World.listHosts_answer hv hh <;> cases he
    exact hk.claimed (hl.versions _ _ (hmem o hin)) hcl
  · intro hcl
    obtain ⟨o', he, _, hmem, _⟩ | ⟨_, e, he, _⟩ := World.getHost_answer hv hh <;> cases he
    exact hk.claimed (hl.versions _ _ hmem) hcl
  · obtain ⟨φ, s, hw, hs, hst, hmem⟩ := Moves.answered_ok hv hf hm (.inl rfl)
    refine hk.2 _ _ hmem ?_
    cases hw
    rw [hst, outcome_self]
    simp [StatusWrite.apply, scriptStates]
  · obtain ⟨φ, s, hw, hs, hst, _⟩ := Moves.answered_ok hv hf hm (.inr rfl)
    rw [hst, hw.fingerprint_eq hs, probe_fingerprint]
    exact recordFacts_fingerprint _ _ (keyed_of_contract hc)
  · obtain ⟨φ, s, hw, hs, hst, _⟩ := Moves.answered_ok hv hf hm (.inr rfl)
    rw [hst, hw.fingerprint_eq hs, probe_fingerprint]
    cases hw
    exact keyed_of_contract hc
  · trivial

section Runs

variable {hosts : List SSHHost} {c d : Run X}

lemma keys_known (hr : Reaches (Passes observesKeys) (idle X hosts) c) :
    ∃ ph : Phases, (protocol X).Tracks c ph ∧ AllKnown c.world ∧
      ∀ t p, c.pool t = some p → Keeps X Trusted (fun _ => True) p := by
  refine Protocol.run_abiding (conforms X) (keeps_job X Trusted) kept_allKnown ?_
    (valid_start hosts) ?_ hr
  · intro w ph t e r w' ph' hv hf hk ho hc hm
    exact trusted_answer hv hf hk ho hc hm
  · refine ⟨allAgree_start hosts, fun k v hv => ?_⟩
    rw [status_start hv]
    simp [KeyKnown, SSHHostStatus.empty, scriptStates]

lemma kept_fingerprint (A : World → Observed X → Prop) (k : NamespacedName) {fp : String}
    (hfp : fp ≠ "") :
    (protocol X).Kept A (fun w _ => ∃ a, w.current k = some a ∧
      a.status.hostKeyFingerprint = fp) := by
  rintro w ph obs w' ph' hv hf ⟨a, ha, hkey⟩ _ hm
  cases (Moves.change hv hf hm).from ha with
  | same hc => exact ⟨a, hc, hkey⟩
  | edited o' hp hst => exact ⟨o', hp.current, by rw [hst, hkey]⟩
  | written t φ o wr r o' _ hfφ hw _ _ _ hl =>
    exact ⟨o', hl.current, by rw [hl.status, hw.fingerprint hfφ.sound (hkey ▸ hfp), hkey]⟩

theorem host_keys_pinned (hr : Reaches (Passes observesKeys) (idle X hosts) c) :
    (∀ k b d, c.world.current k = some b → b.status.hostKeyFingerprint ≠ "" →
      Reaches (Passes observesKeys) c d → ∃ a, d.world.current k = some a ∧
      a.status.hostKeyFingerprint = b.status.hostKeyFingerprint) ∧
    (∀ k, ∀ v ∈ c.world.versions k, v.status.state ∈ scriptStates →
      v.status.hostKeyFingerprint ≠ "") ∧
    ∀ ev t k phase target payload r d, c.step ev = some
      (.call t (.sshStart k phase target payload) r, d) → phase ≠ .probe →
      target.pinnedHostKey ≠ "" := by
  obtain ⟨ph, ht, hk, hab⟩ := keys_known hr
  refine ⟨fun k b d hb hne hd => ?_, hk.2, fun ev t k phase target payload r d hs hp => ?_⟩
  · obtain ⟨_, _, ha⟩ := ht.run (conforms X) (kept_fingerprint _ k hne) ⟨b, hb, rfl⟩ hd
    exact ha
  · obtain ⟨cont, hpool⟩ := Config.step_call hs
    obtain ⟨h, creds, he, hpin⟩ := (hab t _ hpool).1.pinned hp
    rw [hpin, SSHCredentials.effectivePin]
    split_ifs with hc
    · exact hc
    · exact he.trusted

end Runs

section Sample

open Sample

theorem host_keys_pinned_joining :
    ∃ c d : Run externals, ∃ ev t target payload r, Reaches (Passes observesKeys)
      (idle externals hosts) c ∧ c.step ev = some (.call t (.sshStart k1 .join target payload) r,
        d) ∧ target.pinnedHostKey ≠ "" := by
  obtain ⟨c, obs, d, hr, hs, hq⟩ :=
    exists_step_of_replay (p := observesKeys) (c := idle externals hosts)
    (l := admitting 0 k1 1000 ++ claiming 1 claimA k1 ++ preparing 1 ++ installing 1 ++
      [.call 1 (.token ⟨"id1", "secret"⟩), .call 1 .ok]) (v := .call 1 .ok)
    (Q := fun p => dialsJoin 1 k1 p.1) (by decide +kernel)
  obtain ⟨target, payload, rfl⟩ := of_dialsJoin hq
  exact ⟨c, d, _, 1, target, payload, _, hr, hs,
    (host_keys_pinned hr).2.2 _ _ _ _ _ _ _ _ hs (by decide)⟩

end Sample

end KarpenterProviderSsh.Runs
