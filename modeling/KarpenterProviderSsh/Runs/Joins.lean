import KarpenterProviderSsh.Runs.Registrations
import KarpenterProviderSsh.Runs.TokenIds

/-! Join scripts exclude each other: the write that records the token is made on the version the
claim was seen on, and nobody can give the claim back from then on. -/

namespace KarpenterProviderSsh.Runs

open Api Cluster Scripts Providers Controllers Interleaving Config

variable {X : Externals}

def StaleBefore (w : World) (φ : Phase) : Prop :=
  ∀ h freed, φ = .stale h freed → ∀ t a nc, w.threads t = some a → a.owner = .create nc →
    h.status.claimRef = some nc.ref → h.resourceVersion ≤ a.since

def Phase.joins : Phase → Option (NodeClaim × NamespacedName)
  | .launch nc _ h (.recorded _) | .launch nc _ h (.joining _) => some (nc, h.key)
  | _ => none

lemma Phase.joins_of_close {φ : Phase} {nc : NodeClaim} {r : Bool} {s o : SSHHost}
    {started freed lost : Bool} (hc : φ.close = some (nc, r, ⟨s, o, started, none, freed, lost⟩)) :
    φ.joins = none := by
  unfold Phase.close at hc
  split at hc <;> cases hc <;> rfl

lemma Phase.owner_of_joins {φ : Phase} {nc : NodeClaim} {k : NamespacedName}
    (h : φ.joins = some (nc, k)) :
    φ.owner = .create nc := by
  unfold Phase.joins at h
  split at h <;> cases h <;> rfl

def JoinHeld (w : World) (t : ℕ) (φ : Phase) : Prop :=
  ∀ nc k, φ.joins = some (nc, k) → ∃ c a, w.current k = some c ∧ c.status.claimRef = some nc.ref ∧
    w.threads t = some a ∧ a.since < c.resourceVersion

section Steps

variable {w w' : World} {ph ph' : Phases} {obs : Observed X}

lemma staleBefore_step (hv : w.Valid) (hf : ∀ t φ, ph t = some φ → φ.Facts w)
    (hreg : Registered w ph) (h : ∀ t φ, ph t = some φ → StaleBefore w φ)
    (hA : keepsClaims w obs = true) (hm : Moves w ph obs w' ph') :
    ∀ t φ, ph' t = some φ → StaleBefore w' φ := by
  have hkeep {φ : Phase} (hfφ : φ.Facts w) (hT : StaleBefore w φ) : StaleBefore w' φ := by
    rintro o freed rfl t a' nc ha' hao ho
    rcases Moves.record hv hm ha' with ⟨a, ha, hown, hsi⟩ | ⟨j, _, _, hsi⟩
    · rw [hsi]
      exact hT o freed rfl t a nc ha (hown ▸ hao) ho
    · rw [hsi]
      exact hv.rev_of_mem (hfφ.stored o (by simp [Phase.objects]))
  refine Moves.threads (T := fun w _ φ => StaleBefore w φ) hm h ?_ ?_ ?_
  · rintro t j _ _ _ o freed hφ
    cases j <;> cases hφ
  · rintro t φ e r ψ ch hφ ha hh hobs hT
    have hfφ := hf t φ hφ
    have hsame {o : SSHHost} {freed freed' : Bool} (he : φ = .stale o freed) :
        StaleBefore w' (.stale o freed') := by
      rintro o' _ hφ'
      cases hφ'
      exact hkeep hfφ hT o freed he
    cases ha with
    | silent | look | list | quietStart | quietWait | startFailed => exact hkeep hfφ hT
    | freeStale => exact hsame rfl
    | @stale o ref r href hst =>
      rintro o' freed hφ' u a' nc ha' hao ho
      cases hφ'
      rcases Moves.record hv hm ha' with ⟨a, ha, hown, _⟩ | ⟨j, hsp, _⟩
      · -- the NodeClaim of a Create in flight does not look stale
        rw [ho] at href
        cases href
        subst hobs
        simp only [keepsClaims, decide_eq_true_eq] at hA
        have hn := hA u (hreg.running u a ha).1 a ha nc (by rw [← hown, hao]; rfl) rfl
        rw [hst] at hn
        cases hn
      · rw [hobs] at hsp
        cases hsp
    | update _ hψ => cases hψ <;> rintro o freed hφ' <;> cases hφ'
    | patch hw _ hψ =>
      cases hψ with
      | setLost | claimLost => exact hkeep hfφ hT
      | _ =>
        rintro o freed hφ'
        cases hφ'
    | _ =>
      rintro o freed hφ'
      cases hφ'
  · intro t φ hφ _ hT
    exact hkeep (hf t φ hφ) hT

lemma JoinHeld.other (hv : w.Valid) (hreg : Registered w ph) (hser : Serial w)
    (hst : ∀ t φ, ph t = some φ → StaleBefore w φ) (hm : Moves w ph obs w' ph')
    (hch : Change w ph obs w') {t : ℕ} {φ : Phase} (hφ : ph t = some φ) (hact : obs.actor ≠ some t)
    (h : JoinHeld w t φ) :
    JoinHeld w' t φ := by
  intro nc k hj
  obtain ⟨c, a, hc, hcr, ha, hsi⟩ := h nc k hj
  have hown : a.owner = .create nc := (hreg.owner_eq hφ ha).trans (Phase.owner_of_joins hj)
  have ha' := Moves.record_of_other hm hact ha
  have hrev := hv.rev k c hc
  cases hch.from hc with
  | same hcur => exact ⟨c, a, hcur, hcr, ha', hsi⟩
  | edited o' hp hst =>
    have := hp.newer
    exact ⟨o', a, hp.current, by rw [hst, hcr], ha', by omega⟩
  | written u χ o wr r o' hχ hfχ hw hobs _ _ hl =>
    have hrev' : a.since < o'.resourceVersion := by
      rcases hl.after with ⟨_, hp⟩ | ⟨_, rfl, _⟩
      · have := hp.newer
        omega
      · exact hsi
    rcases hw.claimRef_cases hfχ.sound with he | ⟨_, _, hg⟩ | ⟨_, _, _, _, _, hcl, _⟩
    · exact ⟨o', a, hl.current, by rw [hl.status, he, hcr], ha', hrev'⟩
    · exfalso
      rcases hg with ⟨nc', hnc', hh⟩ | ⟨freed, rfl⟩
      · have htu := hser.holder_eq hreg hφ hχ (by rw [Phase.owner_of_joins hj]; rfl) hnc' hh hcr
        exact hact (htu ▸ hobs.actor)
      · have := hst u _ hχ c freed rfl t a nc ha hown hcr
        omega
    · simp [claimable, hcr] at hcl

lemma JoinHeld.recorded {t : ℕ} {nc : NodeClaim} {r : Bool} {h o' : SSHHost} {id : String}
    (hreg : Registered w ph) (htok : TokensKnown w ph)
    (hφ : ph t = some (.launch nc r h (.minted id))) (hcr : h.status.claimRef = some nc.ref)
    (hl : w.Landed w' h.key h (outcome h h (.set (.bootstrapTokenID id))) o')
    (hth : ∀ a, w.threads t = some a → ∃ a', w'.threads t = some a' ∧ a'.since = a.since) :
    JoinHeld w' t (.launch nc r o' (.recorded id)) := by
  intro nc' k hj
  cases hj
  obtain ⟨a, ha, _, hle⟩ := hreg.record t _ hφ
  obtain ⟨a', ha', hsi⟩ := hth a ha
  have hst := hl.status
  rw [outcome_self] at hst
  refine ⟨o', a', ?_, ?_, ha', ?_⟩
  · rw [(landed_mem hl).1]
    exact hl.current
  · rw [hst]
    exact hcr
  · rcases hl.after with ⟨_, hp⟩ | ⟨he, _, _⟩
    · have := hp.newer
      omega
    · -- the stored version does not show the id yet
      refine absurd ?_ (htok.unrecorded t _ hφ id rfl h.key h (World.current_mem hl.before))
      rw [← he, outcome_self]
      rfl

end Steps

structure JoinInv (w : World) (ph : Phases) : Prop where
  registered : Registered w ph
  tokens : TokensKnown w ph
  serial : Serial w
  named : Named w
  stale : ∀ t φ, ph t = some φ → StaleBefore w φ
  held : ∀ t φ, ph t = some φ → JoinHeld w t φ

lemma joinInv_start (hosts : List SSHHost) : JoinInv (World.start hosts) (fun _ => none) :=
  ⟨registered_start hosts, tokensKnown_start hosts, alone_start _ hosts, named_start hosts, by simp,
    by simp⟩

lemma joinHeld_act {w w' : World} {ph : Phases} {t : ℕ} {φ ψ : Phase} {e : Eff} {r : Res e}
    {ch : Choice} (hv : w.Valid) (hf : φ.Facts w) (hI : JoinInv w ph) (hφ : ph t = some φ)
    (ha : Act φ e r ψ) (hh : w.handle t e ch = some (r, w')) : JoinHeld w' t ψ := by
  have hth (a : Activity) (hth : w.threads t = some a) : ∃ a', w'.threads t = some a' ∧
      a'.since = a.since :=
    ⟨World.noted e r a, by simp [World.handle_threads hv hh, hth], (World.noted_owner e r a).2⟩
  -- a request that writes nothing
  have hread (hs : w.SameStore w') (hj : ψ.joins = φ.joins) : JoinHeld w' t ψ := by
    intro nc k hk
    obtain ⟨c, a, hc, hcr, hta, hsi⟩ := hI.held t φ hφ nc k (hj ▸ hk)
    obtain ⟨a', ha', he⟩ := hth a hta
    exact ⟨c, a', by rw [hs.current, hc], hcr, ha', he ▸ hsi⟩
  have hnone (hj : ψ.joins = none) : JoinHeld w' t ψ := by
    intro nc k hk
    rw [hj] at hk
    cases hk
  have hs := (World.handle_frame hh).store
  cases ha with
  | update _ hψ => cases hψ <;> exact hnone rfl
  | patch hw _ hψ =>
    cases hψ with
    | setOk hst =>
      have hl := (answered_patch hv hf hw hh).of_ok
      cases hst with
      | token id =>
        obtain ⟨a, ha, hao, _⟩ := hI.registered.record t _ hφ
        have hcr : _ = some _ :=
          claimRef_of_heldBy hI.named (hf.stored _ (by simp [Phase.objects])) hf.sound.1.1
            (hI.named.creates t a _ ha hao)
        exact .recorded hI.registered hI.tokens hφ hcr hl hth
      | _ => exact hnone rfl
    | setLost =>
      cases hw with
      | set hst => cases hst <;> exact hnone rfl
      | clear hc => exact hnone (Phase.joins_of_close hc)
    | _ => exact hnone rfl
  | @silent _ e _ hsil =>
    refine hread (hs ?_ ?_) rfl <;> rintro o wr rfl <;> cases hsil
  | refetch hst => cases hst <;> exact hnone rfl
  | look | list | quietStart | quietWait | startFailed | joinStart =>
    exact hread (hs (by simp) (by simp)) rfl
  | _ => exact hnone rfl

theorem kept_joinInv {A : World → Observed X → Prop} (hA : ∀ w o, A w o → orderly w o = true) :
    (protocol X).Kept A JoinInv := by
  intro w ph obs w' ph' hv hf hI ha hm
  have ho := hA w obs ha
  simp only [orderly, Bool.and_eq_true] at ho
  have hch := Moves.change hv hf hm
  refine ⟨kept_registered A w ph obs w' ph' hv hf hI.registered ha hm,
    kept_tokensKnown A w ph obs w' ph' hv hf hI.tokens ha hm,
    serial_step hv hI.registered hI.serial ho.1.2 hm,
    named_step hv hf hI.registered hI.named ho.1.1 hm,
    staleBefore_step hv hf hI.registered hI.stale ho.2 hm, ?_⟩
  refine Moves.threads (T := JoinHeld) hm hI.held ?_ ?_ ?_
  · rintro t j _ _ _ nc k hj
    cases j <;> cases hj
  · intro t φ e r ψ ch hφ hact hh _ _
    exact joinHeld_act hv (hf t φ hφ) hI hφ hact hh
  · intro t φ hφ hact hT
    exact hT.other hv hI.registered hI.serial hI.stale hm hch hφ hact

lemma JoinInv.joining {w : World} {ph : Phases} (hI : JoinInv w ph) {s : Session}
    (hs : s ∈ w.sessions) (hp : s.phase = .join) :
    ∃ nc r h id c, ph s.thread = some (.launch nc r h (.joining id)) ∧
      w.current s.host = some c ∧ c.status.claimRef = some nc.ref := by
  obtain ⟨φ, hφ, hsc⟩ := hI.registered.session hs (.inl hp)
  rcases Phase.script_cases hsc with ⟨_, nc, r, h, id, rfl, hk⟩ | ⟨hl, _⟩
  · obtain ⟨c, a, hc, hcr, _⟩ := hI.held _ _ hφ nc h.key rfl
    exact ⟨nc, r, h, id, c, hφ, hk ▸ hc, hcr⟩
  · rw [hp] at hl
    cases hl

/-- A join script runs only on a host whose stored claim is that of the Create running it, and two
Creates never run one on the same host. -/
theorem join_scripts_exclusive {hosts : List SSHHost} {c : Run X}
    (hr : Reaches (Passes orderly) (idle X hosts) c) :
    (∀ s ∈ c.world.sessions, s.phase = .join → ∃ nc a h, c.world.threads s.thread = some a ∧
      a.owner = .create nc ∧ c.world.current s.host = some h ∧ h.status.claimRef = some nc.ref) ∧
    ∀ s ∈ c.world.sessions, ∀ s' ∈ c.world.sessions, s.phase = .join → s'.phase = .join →
    s.host = s'.host →
      s.thread = s'.thread := by
  obtain ⟨ph, ht, hI⟩ := reached (kept_joinInv fun _ _ h => h) (joinInv_start hosts) hr
  have hjoin (s : Session) (hs : s ∈ c.world.sessions) (hp : s.phase = .join) : ∃ nc a h,
      c.world.threads s.thread = some a ∧ a.owner = .create nc ∧ c.world.current s.host = some h ∧
        h.status.claimRef = some nc.ref := by
    obtain ⟨nc, r, h, id, d, hφ, hd, hcr⟩ := hI.joining hs hp
    obtain ⟨a, ha, hao, _⟩ := hI.registered.record _ _ hφ
    exact ⟨nc, a, d, ha, hao, hd, hcr⟩
  refine ⟨hjoin, fun s hs s' hs' hp hp' hk => ?_⟩
  obtain ⟨nc, a, h, ha, hao, hc, hcr⟩ := hjoin s hs hp
  obtain ⟨nc', b, h', hb, hbo, hc', hcr'⟩ := hjoin s' hs' hp'
  rw [hk, hc'] at hc
  cases hc
  rw [hcr] at hcr'
  refine hI.serial _ _ a b ha hb ⟨nc, nc', by rw [hao]; rfl, by rw [hbo]; rfl, ?_⟩
  rw [Option.some.inj hcr']
  exact heldBy_ref nc'

section Sample

open Sample

theorem join_scripts_exclusive_resumed :
    ∃ c : Run externals, Reaches (Passes orderly) (idle externals hosts) c ∧
      ⟨2, k1, .join⟩ ∈ c.world.sessions ∧
      (∀ s ∈ c.world.sessions, s.phase = .join → ∃ nc a h, c.world.threads s.thread = some a ∧
        a.owner = .create nc ∧ c.world.current s.host = some h ∧ h.status.claimRef = some nc.ref) ∧
      ∀ s ∈ c.world.sessions, ∀ s' ∈ c.world.sessions, s.phase = .join → s'.phase = .join →
      s.host = s'.host →
        s.thread = s'.thread := by
  obtain ⟨c, hr, hq⟩ := exists_of_replay (p := orderly) (c := idle externals hosts)
    (l := admitting 0 k1 1000 ++ claiming 1 claimA k1 ++ preparing 1 ++ installing 1 ++
      joining 1 "id1" ++ [.crash 1] ++ resuming 2 claimA k1 ++ preparing 2 ++ joining 2 "id2")
    (Q := fun c => decide (Session.mk 2 k1 .join ∈ c.world.sessions)) (by decide +kernel)
  exact ⟨c, hr, of_decide_eq_true hq, join_scripts_exclusive hr⟩

end Sample

end KarpenterProviderSsh.Runs
