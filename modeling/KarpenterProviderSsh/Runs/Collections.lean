import KarpenterProviderSsh.Runs.Joins

/-! The token of a running join: who else may delete it. -/

namespace KarpenterProviderSsh.Runs

open Api Cluster Scripts Providers Controllers Interleaving Config

variable {X : Externals}

/-- A token is recorded on a host that has no providerID yet. -/
def recordsFirst (w : World) : Observed X → Bool
  | .call _ (.patchStatus o (.set (.bootstrapTokenID id))) (.ok _) =>
    decide (id ≠ "" → ∀ c ∈ w.current o.key, c.status.providerID = "")
  | _ => true

def TokenHeld (w : World) (t : ℕ) (φ : Phase) : Prop :=
  ∀ nc k id, φ.joins = some (nc, k) → φ.own = some id →
    ∀ j, ∀ v ∈ w.versions j, v.status.bootstrapTokenID = id → j = k ∧
    v.status.claimRef = some nc.ref ∧ v.status.providerID = "" ∧
      ∃ a, w.threads t = some a ∧ a.since < v.resourceVersion

def RecordJoins (w : World) (t : ℕ) (φ : Phase) : Prop :=
  ∀ a id, w.threads t = some a → a.recorded = some id → φ.joins.isSome = true ∧ φ.own = some id

structure CollectInv (w : World) (ph : Phases) : Prop extends JoinInv w ph where
  tokenHeld : ∀ t φ, ph t = some φ → TokenHeld w t φ
  recordJoins : ∀ t φ, ph t = some φ → RecordJoins w t φ

section Steps

variable {w w' : World} {ph ph' : Phases} {obs : Observed X}

lemma TokenHeld.other (hv : w.Valid) (hf : ∀ t φ, ph t = some φ → φ.Facts w) (hI : JoinInv w ph)
    (hm : Moves w ph obs w' ph') (hch : Change w ph obs w') {t : ℕ} {φ : Phase} (hφ : ph t = some φ)
    (hact : obs.actor ≠ some t) (hJ : JoinHeld w' t φ) (h : TokenHeld w t φ) :
    TokenHeld w' t φ := by
  intro nc k id hj ho j v hvm hid
  -- what is known of an old version stays true
  have hold (v : SSHHost) (hvm : v ∈ w.versions j) (hid : v.status.bootstrapTokenID = id) :
      j = k ∧ v.status.claimRef = some nc.ref ∧ v.status.providerID = "" ∧
        ∃ a, w'.threads t = some a ∧ a.since < v.resourceVersion := by
    obtain ⟨hjk, hcr, hp, a, ha, hsi⟩ := h nc k id hj ho j v hvm hid
    exact ⟨hjk, hcr, hp, a, Moves.record_of_other hm hact ha, hsi⟩
  have hnew (s : SSHHost) (hs : w.current j = some s)
      (hid : s.status.bootstrapTokenID = id) (o' : SSHHost)
      (hp : w.Pushed w' j o') : j = k ∧ o'.status.claimRef = some nc.ref ∧
        s.status.providerID = "" ∧ ∃ a, w'.threads t = some a ∧ a.since < o'.resourceVersion := by
    obtain ⟨hjk, _, hpid, a, ha, hsi⟩ := hold s (World.current_mem hs) hid
    obtain ⟨c, _, hc, hcr, _⟩ := hJ nc k hj
    have hcur := hp.current
    rw [hjk, hc] at hcur
    cases hcur
    have := hv.rev j s hs
    have := hp.newer
    exact ⟨hjk, hcr, hpid, a, ha, by omega⟩
  cases hch.at j with
  | same _ hvs => exact hold v (hvs ▸ hvm) hid
  | edited c o' hc hp hst =>
    rcases (hp.versions v).mp hvm with rfl | hvm
    · obtain ⟨hjk, hcr, hpid, ha⟩ := hnew c hc (hst ▸ hid) v hp
      exact ⟨hjk, hcr, by rw [hst, hpid], ha⟩
    · exact hold v hvm hid
  | written u χ o s wr r o' hχ hfχ hw hobs _ _ hl =>
    rcases hl.after with ⟨_, hp⟩ | ⟨_, _, hs⟩
    · rcases (hp.versions v).mp hvm with rfl | hvm
      · have hut : u ≠ t := fun h => hact (h ▸ hobs.actor)
        rw [hl.status] at hid
        have hsid : s.status.bootstrapTokenID = id := by
          rcases hw.token_cases hfχ.sound with he | he | ⟨_, _, id', rfl, _, _, he⟩
          · rw [← he, hid]
          · rw [he] at hid
            exact absurd hid.symm (Phase.own_ne_empty (hf t φ hφ).sound ho)
          · rw [he] at hid
            subst hid
            exact absurd (hI.tokens.distinct u t _ φ _ hχ hφ rfl ho) hut
        obtain ⟨hjk, hcr, hpid, ha⟩ := hnew s hl.before hsid v hp
        refine ⟨hjk, hcr, ?_, ha⟩
        rw [hl.status]
        rcases hw.providerID_cases hfχ.sound with he | ⟨he, _⟩ | ⟨nc', r', _, rfl, _⟩
        · rw [he, hpid]
        · exact he
        · -- only a Create of the same NodeClaim could write one
          obtain ⟨_, hscr, _⟩ := hold s (World.current_mem hl.before) hsid
          exact absurd (hI.serial.holder_eq hI.registered hφ hχ
            (by rw [Phase.owner_of_joins hj]; rfl) rfl hfχ.sound.1.1 hscr).symm hut
      · exact hold v hvm hid
    · exact hold v (hs.versions j ▸ hvm) hid

lemma Writes.joins {φ : Phase} {o s : SSHHost} {wr : StatusWrite} (h : Writes φ o s wr) :
    φ.joins = none := by
  cases h with
  | claim | teardown => rfl
  | set hs => cases hs <;> rfl
  | clear hc | release _ hc => exact Phase.joins_of_close hc
  | probe _ hp => cases hp <;> rfl

variable {t : ℕ} {φ ψ : Phase} {e : Eff} {r : Res e} {ch : Choice}

lemma TokenHeld.recorded {nc : NodeClaim} {b : Bool} {h o' : SSHHost} {id : String}
    (hI : JoinInv w ph) (hφ : ph t = some (.launch nc b h (.minted id)))
    (hpid : h.status.providerID = "")
    (hl : w.Landed w' h.key h (outcome h h (.set (.bootstrapTokenID id))) o')
    (hJ : JoinHeld w' t (.launch nc b o' (.recorded id))) :
    TokenHeld w' t (.launch nc b o' (.recorded id)) := by
  intro nc' k id' hj ho j v hvm hid
  cases hj
  cases ho
  have hk := (landed_mem hl).1
  have hnot := hI.tokens.unrecorded t _ hφ id rfl
  have hst := hl.status
  rw [outcome_self] at hst
  have hv : j = o'.key ∧ v = o' := by
    rcases hl.after with ⟨_, hp⟩ | ⟨_, _, hs⟩
    · by_cases hjk : j = h.key
      · subst hjk
        rcases (hp.versions v).mp hvm with rfl | hvm
        · exact ⟨hk.symm, rfl⟩
        · exact absurd hid (hnot _ v hvm)
      · exact absurd hid (hnot j v (hp.versions_of_ne hjk ▸ hvm))
    · exact absurd hid (hnot j v (hs.versions j ▸ hvm))
  obtain ⟨rfl, rfl⟩ := hv
  obtain ⟨c, a, hc, hcr, ha, hsi⟩ := hJ nc v.key rfl
  rw [hk, hl.current] at hc
  cases hc
  exact ⟨rfl, hcr, by rw [hst]; exact hpid, a, ha, hsi⟩

lemma tokenHeld_act (hv : w.Valid) (hf : φ.Facts w) (hI : CollectInv w ph) (hφ : ph t = some φ)
    (ha : Act φ e r ψ) (hh : w.handle t e ch = some (r, w'))
    (hA : recordsFirst (X := X) w (.call t e r) = true) (hJ : JoinHeld w' t ψ) :
    TokenHeld w' t ψ := by
  have hread (hs : w.SameStore w') (hj : ψ.joins = φ.joins) (ho : ψ.own = φ.own) :
      TokenHeld w' t ψ := by
    intro nc k id hk hid j v hvm ht
    obtain ⟨hjk, hcr, hp, a, hta, hsi⟩ :=
      hI.tokenHeld t φ hφ nc k id (hj ▸ hk) (ho ▸ hid) j v (hs.versions j ▸ hvm) ht
    exact ⟨hjk, hcr, hp, World.noted e r a, by simp [World.handle_threads hv hh, hta],
      (World.noted_owner e r a).2 ▸ hsi⟩
  have hnone (hj : ψ.joins = none) : TokenHeld w' t ψ := by
    intro nc k id hk
    rw [hj] at hk
    cases hk
  have hs := (World.handle_frame hh).store
  cases ha with
  | update _ hψ => cases hψ <;> exact hnone rfl
  | patch hw _ hψ =>
    cases hψ with
    | setOk hst =>
      cases hst with
      | token id =>
        have hl := (answered_patch hv hf hw hh).of_ok
        simp only [recordsFirst, decide_eq_true_eq] at hA
        have hid : id ≠ "" := Phase.own_ne_empty hf.sound rfl
        exact .recorded hI.toJoinInv hφ (hA hid _ hl.before) hl hJ
      | _ => exact hnone rfl
    | setLost => exact hnone hw.joins
    | _ => exact hnone rfl
  | @silent _ e _ hsil =>
    refine hread (hs ?_ ?_) rfl rfl <;> rintro o wr rfl <;> cases hsil
  | refetch hst => cases hst <;> exact hnone rfl
  | look | list | quietStart | quietWait | startFailed | joinStart =>
    exact hread (hs (by simp) (by simp)) rfl rfl
  | _ => exact hnone rfl

lemma recordJoins_act (hv : w.Valid) (h : RecordJoins w t φ) (ha : Act φ e r ψ)
    (hh : w.handle t e ch = some (r, w')) : RecordJoins w' t ψ := by
  intro a' id ha' hrec
  rw [World.handle_threads hv hh, Function.update_self, Option.map_eq_some_iff] at ha'
  obtain ⟨a, hta, rfl⟩ := ha'
  -- an operation that is not joining has nothing on record
  have hnot (hj : φ.joins = none) (hr : a.recorded = some id) : False := by
    have := (h a id hta hr).1
    simp [hj] at this
  cases ha with
  | @silent _ e _ hsil =>
    refine h a id hta (World.recorded_of_noted ?_ ?_ hrec).1 <;> rintro o wr rfl <;> cases hsil
  | look | list | quietStart | quietWait | startFailed | joinStart =>
    exact h a id hta (World.recorded_of_noted (by simp) (by simp) hrec).1
  | update hw hψ =>
    refine (hnot hw.joins ?_).elim
    cases hψ with
    | claimOk => exact hrec
    | claimLost | claimErr =>
      simp only [World.noted] at hrec
      split_ifs at hrec <;> exact hrec
  | patch hw _ hψ =>
    rcases World.recorded_of_patch hrec with hr | ⟨rfl, hid, o', rfl⟩
    · exact (hnot hw.joins hr).elim
    · cases hψ with
      | setOk hst =>
        cases hst
        exact ⟨rfl, rfl⟩
      | clearOk => exact absurd rfl hid
  | joinOk | joinErr => exact absurd rfl ((World.recorded_of_noted (by simp) (by simp) hrec).2.1 _)
  | discard hc =>
    obtain ⟨hr, _, hne⟩ := World.recorded_of_noted (by simp) (by simp) hrec
    have ho := (h a id hta hr).2
    rw [Phase.own_of_close hc] at ho
    cases ho
    exact absurd rfl hne
  | free hc =>
    exact (hnot (Phase.joins_of_close hc) (World.recorded_of_noted (by simp) (by simp) hrec).1).elim
  | refetch hst | abandon hst =>
    refine (hnot ?_ (World.recorded_of_noted (by simp) (by simp) hrec).1).elim
    cases hst <;> rfl
  | _ => exact (hnot rfl (World.recorded_of_noted (by simp) (by simp) hrec).1).elim

end Steps

def joinsFirst (w : World) (obs : Observed X) : Bool := orderly w obs && recordsFirst w obs

lemma collectInv_start (hosts : List SSHHost) : CollectInv (World.start hosts) (fun _ => none) :=
  { joinInv_start hosts with
    tokenHeld := by simp
    recordJoins := by simp }

theorem kept_collectInv : (protocol X).Kept (Passes joinsFirst) CollectInv := by
  intro w ph obs w' ph' hv hf hI ha hm
  have ho : joinsFirst w obs = true := ha
  simp only [joinsFirst, Bool.and_eq_true] at ho
  have hch := Moves.change hv hf hm
  have hJ : JoinInv w' ph' :=
    kept_joinInv (X := X) (A := fun w o => orderly w o = true) (fun _ _ h => h)
    w ph obs w' ph' hv hf hI.toJoinInv ho.1 hm
  refine { hJ with tokenHeld := ?_, recordJoins := ?_ }
  · intro t φ hφ
    refine Moves.threads (T := fun w t φ => JoinHeld w t φ → TokenHeld w t φ) hm
      (fun t φ hφ _ => hI.tokenHeld t φ hφ) ?_ ?_ ?_ t φ hφ (hJ.held t φ hφ)
    · rintro t j _ _ _ _ nc k id hj
      cases j <;> cases hj
    · rintro t φ e r ψ ch hφ hact hh rfl _ hJt
      exact tokenHeld_act hv (hf t φ hφ) hI hφ hact hh ho.2 hJt
    · intro t φ hφ hact _ hJt
      exact (hI.tokenHeld t φ hφ).other hv hf hI.toJoinInv hm hch hφ hact hJt
  · refine Moves.threads (T := RecordJoins) hm hI.recordJoins ?_ ?_ ?_
    · rintro t j _ _ rfl a id ha hr
      simp only [World.enter, Function.update_self, Option.some.injEq] at ha
      rw [← ha] at hr
      cases hr
    · intro t φ e r ψ ch hφ hact hh _ hT
      exact recordJoins_act hv hT hact hh
    · intro t φ hφ hact hT a id ha hr
      obtain ⟨b, hb, _⟩ := hI.registered.record t φ hφ
      rw [Moves.record_of_other hm hact hb] at ha
      cases ha
      exact hT _ id hb hr

/-- In every run in which tokens are recorded on hosts without a providerID, nobody but the joining
Create asks for its token to be deleted. -/
theorem recorded_token_spared {hosts : List SSHHost} {c d : Run X} {ev : Event X}
    {u : ℕ} {id : String} {r : Except Err Unit} (hr : Reaches (Passes joinsFirst) (idle X hosts) c)
    (hs : c.step ev = some (.call u (.deleteToken id) r, d)) {t : ℕ} {a : Activity}
    (ht : c.world.threads t = some a) (ha : a.recorded = some id) : u = t := by
  obtain ⟨ph, ph', htr, hI, hm, _⟩ := reached_step kept_collectInv (collectInv_start hosts) hr hs
  obtain ⟨_, φ, hφ⟩ := hI.registered.running t a ht
  obtain ⟨hj, hown⟩ := hI.recordJoins t φ hφ a id ht ha
  obtain ⟨⟨nc, k⟩, hj⟩ := Option.isSome_iff_exists.mp hj
  have hnc : φ.owner.nodeClaim = some nc := by
    rw [Phase.owner_of_joins hj]
    rfl
  rcases hm with _ | @⟨_, χ, _, _, ψ, ch, _, hχ, hact, hh⟩
  have hfχ : χ.Facts c.world := htr.facts u χ hχ
  -- a version that shows the token, in the hands of another operation
  have hheld {s : SSHHost} (hs : s ∈ χ.objects) (hid : s.status.bootstrapTokenID = id) :=
    hI.tokenHeld t φ hφ nc k id hj hown s.key s (hfχ.stored s hs) hid
  cases hact with
  | silent hsil => cases hsil
  | discard hc =>
    refine hI.tokens.distinct u t χ φ id hχ hφ ?_ hown
    rw [Phase.own_of_close hc]
  | @free _ nc' _ s o _ _ _ _ hc _ he =>
    obtain ⟨_, hcr, _⟩ := hheld (s := s) (by simp [(Phase.close_objects hc).1]) he.symm
    exact (hI.serial.holder_eq hI.registered hφ hχ hnc (by rw [(Phase.close_objects hc).2]; rfl)
      (Phase.close_sound hc hfχ.sound).1.1 hcr).symm
  | freeLeft =>
    obtain ⟨_, hcr, _⟩ := hheld (by simp [Phase.objects]) rfl
    exact (hI.serial.holder_eq hI.registered hφ hχ hnc rfl hfχ.sound hcr).symm
  | freeStale =>
    obtain ⟨_, hcr, _, b, hb, hsi⟩ := hheld (by simp [Phase.objects]) rfl
    have hown := (hI.registered.owner_eq hφ hb).trans (Phase.owner_of_joins hj)
    have := hI.stale u _ hχ _ _ rfl t _ nc hb hown hcr
    omega
  | collect _ hp | collectFailed _ hp =>
    obtain ⟨_, _, hpid, _⟩ := hheld (by simp [Phase.objects]) rfl
    exact absurd hpid hp

section Sample

open Sample

def Sample.hasDeleted (t : ℕ) (id : String) : Observed externals → Bool
  | .call u (.deleteToken id') (.ok _) => u = t && id' = id
  | _ => false

lemma Sample.of_hasDeleted {t : ℕ} {id : String} {obs : Observed externals}
    (h : hasDeleted t id obs = true) :
    obs = .call t (.deleteToken id) (.ok ()) := by
  unfold hasDeleted at h
  split at h
  · simp only [Bool.and_eq_true, decide_eq_true_eq] at h
    obtain ⟨rfl, rfl⟩ := h
    rfl
  · cases h

theorem recorded_token_spared_undialled :
    ∃ (c d : Run externals) (u : ℕ) (r : Except Err Unit) (a : Activity),
      Reaches (Passes joinsFirst) (idle externals hosts) c ∧
      c.step (.call 1 .ok) = some (.call u (.deleteToken "id1") r, d) ∧ c.world.threads 1 = some a ∧
      a.recorded = some "id1" ∧ u = 1 := by
  obtain ⟨c, hr, hq⟩ := exists_of_replay (p := joinsFirst) (c := idle externals hosts)
    (l := admitting 0 k1 1000 ++ claiming 1 claimA k1 ++ preparing 1 ++ installing 1 ++
      [.call 1 (.token ⟨"id1", "secret"⟩), .call 1 .ok,
        .call 1 (.scriptFailed "no route to host" none)])
    (Q := fun c => (c.world.threads 1).any (fun a => a.recorded = some "id1") &&
      (c.step (.call 1 .ok)).any (fun p => hasDeleted 1 "id1" p.1)) (by decide +kernel)
  simp only [Bool.and_eq_true] at hq
  obtain ⟨a, ha, hrec⟩ := (Option.any_eq_true _ _).mp hq.1
  obtain ⟨⟨obs, d⟩, hs, hobs⟩ := (Option.any_eq_true _ _).mp hq.2
  have hrec : a.recorded = some "id1" := by simpa using hrec
  obtain rfl := of_hasDeleted hobs
  exact ⟨c, d, 1, _, a, hr, hs, ha, hrec, recorded_token_spared hr hs ha hrec⟩

/-- A launch crashes after it has written the providerID; the next one mints and records a new token
and dials the join script; the probe sees a providerID and a Node and deletes that token under
it. -/
theorem probe_deletes_joining_token :
    ∃ (c d : Run externals) (a : Activity), Reaches (Passes orderly) (idle externals hosts) c ∧
      c.step (.call 3 .ok) = some (.call 3 (.deleteToken "id2") (.ok ()), d) ∧
      d.world.threads 2 = some a ∧ a.recorded = some "id2" ∧ ⟨2, k1, .join⟩ ∈ d.world.sessions ∧
      "id2" ∉ d.world.tokens := by
  obtain ⟨c, obs, d, hr, hs, hq⟩ := exists_step_of_replay (p := orderly) (c := idle externals hosts)
    (l := admitting 0 k1 1000 ++ claiming 1 claimA k1 ++ preparing 1 ++ installing 1 ++
      joining 1 "id1" ++ [.call 1 done, .outside (.addNode node), .call 1 .ok, .crash 1] ++
      resuming 2 claimA k1 ++ preparing 2 ++ joining 2 "id2" ++
      [.spawn 3 (.reconcile k1), .call 3 (.version 0), .call 3 (.nodeClaim "uid-a"),
        .call 3 (.nodes [node])])
    (v := .call 3 .ok)
    (Q := fun p => hasDeleted 3 "id2" p.1 &&
      (p.2.world.threads 2).any (fun a => a.recorded = some "id2") &&
      decide (Session.mk 2 k1 .join ∈ p.2.world.sessions ∧ "id2" ∉ p.2.world.tokens))
        (by decide +kernel)
  simp only [Bool.and_eq_true] at hq
  obtain ⟨⟨hobs, hq⟩, hs'⟩ := hq
  obtain ⟨a, ha, hrec⟩ := (Option.any_eq_true _ _).mp hq
  obtain rfl := of_hasDeleted hobs
  exact ⟨c, d, a, hr, hs, ha, by simpa using hrec, of_decide_eq_true hs'⟩

end Sample

end KarpenterProviderSsh.Runs
