import KarpenterProviderSsh.Runs.Conforming

/-! What one event can do to the stored hosts. -/

namespace KarpenterProviderSsh.Runs

open Api Cluster Scripts Providers Controllers Interleaving

variable {X : Externals}

abbrev Phases := ℕ → Option Phase

abbrev Event (X : Externals) := Interleaving.Event (machine X)
abbrev Observed (X : Externals) := Obs (machine X)

abbrev Moves (w : World) (ph : Phases) (o : Observed X) (w' : World) (ph' : Phases) : Prop :=
  (protocol X).Moves w ph o w' ph'

lemma Moves.threads {T : World → ℕ → Phase → Prop} {w w' : World} {ph ph' : Phases}
    {obs : Observed X} (hm : Moves w ph obs w' ph') (hT : ∀ t φ, ph t = some φ → T w t φ)
    (hopen : ∀ t (j : Job X), ph t = none → obs = .spawn t j → w' = w.enter t j.owner →
      T w' t (opening j)) (hact : ∀ t φ e (r : Res e) ψ ch, ph t = some φ → Act φ e r ψ →
      w.handle t e ch = some (r, w') → obs = .call t e r → T w t φ → T w' t ψ)
    (hother : ∀ t φ, ph t = some φ → obs.actor ≠ some t → T w t φ → T w' t φ) :
    ∀ t φ, ph' t = some φ → T w' t φ :=
  Protocol.Moves.threads hm hT hopen hact hother

lemma Moves.phase_of_other {w w' : World} {ph ph' : Phases} {obs : Observed X}
    (hm : Moves w ph obs w' ph') {t : ℕ} (ht : obs.actor ≠ some t) : ph' t = ph t := by
  rcases hm with ⟨u, j, _⟩ | @⟨u, _, _, _, _, _, _, _, _, _⟩ | @⟨u, _, _⟩ | @⟨u, _, _⟩ | _
  · exact Function.update_of_ne (fun h => ht (by rw [h]; rfl)) _ _
  · exact Function.update_of_ne (fun h => ht (by rw [h]; rfl)) _ _
  · exact Function.update_of_ne (fun h => ht (by rw [h]; rfl)) _ _
  · exact Function.update_of_ne (fun h => ht (by rw [h]; rfl)) _ _
  · rfl

lemma Moves.handled {w w' : World} {ph ph' : Phases} {t : ℕ} {e : Eff} {r : Res e}
    (hm : Moves (X := X) w ph (.call t e r) w' ph') :
    ∃ φ ψ ch, ph t = some φ ∧ Act φ e r ψ ∧ w.handle t e ch = some (r, w') ∧ ph' t = some ψ := by
  rcases hm with _ | @⟨_, φ, _, _, ψ, ch, _, hφ, ha, hh⟩
  exact ⟨φ, ψ, ch, hφ, ha, hh, Function.update_self ..⟩

def WriteSeen (obs : Observed X) (t : ℕ) (o : SSHHost) (wr : StatusWrite) (a : Except Err SSHHost) :
    Prop :=
  obs = .call t (.updateStatus o wr) a ∨ obs = .call t (.patchStatus o wr) a

lemma WriteSeen.actor {obs : Observed X} {t : ℕ} {o : SSHHost} {wr : StatusWrite}
    {a : Except Err SSHHost} (h : WriteSeen obs t o wr a) : obs.actor = some t := by
  rcases h with rfl | rfl <;> rfl

/-- The answer to a status write that the API server has carried out. -/
def carriedOut : Except Err SSHHost → Bool
  | .ok _ => true
  | .error e => e.reason = some (.other true)

lemma carriedOut_of {a : Except Err SSHHost} {o' : SSHHost}
    (h : a = .ok o' ∨ ∃ m, a = .error (World.otherErr true m)) : carriedOut a = true := by
  rcases h with rfl | ⟨m, rfl⟩ <;> rfl

inductive Change (w : World) (ph : Phases) (obs : Observed X) (w' : World) : Prop
  | none : w.SameStore w' → Change w ph obs w'
  | edited (k : NamespacedName) (c o' : SSHHost) : w.current k = some c → w.Pushed w' k o' →
      o'.status = c.status → o'.key = k → (∃ x, obs = .outside x) → Change w ph obs w'
  | written (t : ℕ) (φ : Phase) (o s : SSHHost) (wr : StatusWrite)
      (a : Except Err SSHHost) (o' : SSHHost) :
      ph t = some φ → φ.Facts w → Writes φ o s wr → WriteSeen obs t o wr a →
      (a = .ok o' ∨ ∃ m, a = .error (World.otherErr true m)) →
      w.Landed w' s.key s (outcome o s wr) o' → Change w ph obs w'

lemma Answered.change {w w' : World} {ph : Phases} {obs : Observed X} {t : ℕ}
    {φ : Phase} {o s : SSHHost} {wr : StatusWrite} {a : Except Err SSHHost}
    (hφ : ph t = some φ) (hf : φ.Facts w) (hw : Writes φ o s wr) (hobs : WriteSeen obs t o wr a)
    (h : Answered w o s wr a w') :
    Change w ph obs w' := by
  cases h with
  | landed o' hl ha => exact .written t φ o s wr a o' hφ hf hw hobs ha hl
  | refused e hw' _ _ => exact .none (hw' ▸ .refl w)

lemma Act.write_or {φ ψ : Phase} {e : Eff} {r : Res e} (h : Act φ e r ψ) :
    ((∀ o wr, e ≠ .updateStatus o wr) ∧ ∀ o wr, e ≠ .patchStatus o wr) ∨
      (∃ o ref, e = .updateStatus o (.claim ref) ∧ Writes φ o o (.claim ref)) ∨
      ∃ o s wr, e = .patchStatus o wr ∧ Writes φ o s wr := by
  cases h with
  | update hw => exact .inr (.inl ⟨_, _, rfl, hw⟩)
  | patch hw => exact .inr (.inr ⟨_, _, _, rfl, hw⟩)
  | @silent φ e r hs =>
    refine .inl ⟨fun o wr he => ?_, fun o wr he => ?_⟩ <;> subst he <;> cases hs
  | _ => exact .inl ⟨by simp, by simp⟩

theorem Moves.change {w w' : World} {ph ph' : Phases} {obs : Observed X} (hv : w.Valid)
    (hf : ∀ t φ, ph t = some φ → φ.Facts w) (hm : Moves w ph obs w' ph') : Change w ph obs w' := by
  rcases hm with ⟨t, j, _⟩ | @⟨t, φ, e, r, ψ, ch, _, hφ, ha, hh⟩ | _ | _ | hx
  · exact .none (World.enter_sameStore w t j.owner)
  · rcases Act.write_or ha with ⟨hu, hp⟩ | ⟨o, ref, rfl, hw⟩ | ⟨o, s, wr, rfl, hw⟩
    · exact .none ((World.handle_frame hh).store hu hp)
    · exact (answered_update hv (hf t φ hφ) hw hh).change hφ (hf t φ hφ) hw (.inl rfl)
    · exact (answered_patch hv (hf t φ hφ) hw hh).change hφ (hf t φ hφ) hw (.inr rfl)
  · exact .none (World.leave_sameStore w _)
  · exact .none (World.leave_sameStore w _)
  · rcases World.outside_cases hv hx with ⟨k, c, o', hc, hp, hs, hk, _⟩ | ⟨hs, _⟩
    · exact .edited k c o' hc hp hs hk ⟨_, rfl⟩
    · exact .none hs

theorem Moves.answered {w w' : World} {ph ph' : Phases} {obs : Observed X} (hv : w.Valid)
    (hf : ∀ t φ, ph t = some φ → φ.Facts w) (hm : Moves w ph obs w' ph') {t : ℕ} {o : SSHHost}
    {wr : StatusWrite} {a : Except Err SSHHost} (hobs : WriteSeen obs t o wr a) :
    ∃ φ s, ph t = some φ ∧ φ.Facts w ∧ Writes φ o s wr ∧ Answered w o s wr a w' := by
  rcases hm with ⟨t, j, _⟩ | @⟨t, φ, e, r, ψ, ch, _, hφ, ha, hh⟩ | _ | _ | hx
  · rcases hobs with h | h <;> cases h
  · have hfφ := hf t φ hφ
    rcases Act.write_or ha with ⟨hu, hp⟩ | ⟨o, ref, rfl, hw⟩ | ⟨o, s, wr, rfl, hw⟩
    · rcases hobs with h | h <;> cases h
      · exact absurd rfl (hu _ _)
      · exact absurd rfl (hp _ _)
    · rcases hobs with h | h <;> cases h
      exact ⟨φ, o, hφ, hfφ, hw, answered_update hv hfφ hw hh⟩
    · rcases hobs with h | h <;> cases h
      exact ⟨φ, s, hφ, hfφ, hw, answered_patch hv hfφ hw hh⟩
  · rcases hobs with h | h <;> cases h
  · rcases hobs with h | h <;> cases h
  · rcases hobs with h | h <;> cases h

lemma Moves.claim_update {w w' : World} {ph ph' : Phases} {obs : Observed X}
    (hm : Moves w ph obs w' ph') {t : ℕ} {o : SSHHost} {ref : ClaimReference}
    {a : Except Err SSHHost} (hobs : WriteSeen obs t o (.claim ref) a) :
    obs = .call t (.updateStatus o (.claim ref)) a := by
  rcases hobs with h | h
  · exact h
  · rcases hm with ⟨t, j, _⟩ | @⟨t, φ, e, r, ψ, ch, _, hφ, ha, hh⟩ | _ | _ | hx <;> cases h
    cases ha with
    | silent hs => cases hs
    | patch _ hn => exact absurd rfl (hn ref)

lemma Moves.update_claim {w w' : World} {ph ph' : Phases} {t : ℕ} {o : SSHHost} {wr : StatusWrite}
    {a : Except Err SSHHost} (hm : Moves (X := X) w ph (.call t (.updateStatus o wr) a) w' ph') :
    ∃ ref, wr = .claim ref := by
  rcases hm with _ | @⟨_, φ, _, _, ψ, ch, _, hφ, ha, hh⟩
  cases ha with
  | silent hs => cases hs
  | update => exact ⟨_, rfl⟩

lemma WriteSeen.patched {w w' : World} {ph ph' : Phases} {obs : Observed X} {t : ℕ} {o : SSHHost}
    {wr : StatusWrite} {a : Except Err SSHHost} (h : WriteSeen obs t o wr a)
    (hm : Moves w ph obs w' ph') (hw : ∀ ref, wr ≠ .claim ref) :
    obs = .call t (.patchStatus o wr) a := by
  rcases h with rfl | h
  · obtain ⟨ref, he⟩ := Moves.update_claim hm
    exact absurd he (hw ref)
  · exact h

section Versions

variable {w w' : World} {ph : Phases} {obs : Observed X}

inductive ChangeAt (w : World) (ph : Phases) (obs : Observed X) (w' : World) (k : NamespacedName) :
    Prop
  | same : w'.current k = w.current k → w'.versions k = w.versions k → ChangeAt w ph obs w' k
  | edited (c o' : SSHHost) : w.current k = some c → w.Pushed w' k o' → o'.status = c.status →
      ChangeAt w ph obs w' k
  | written (t : ℕ) (φ : Phase) (o s : SSHHost) (wr : StatusWrite)
      (a : Except Err SSHHost) (o' : SSHHost) :
      ph t = some φ → φ.Facts w → Writes φ o s wr → WriteSeen obs t o wr a →
      (a = .ok o' ∨ ∃ m, a = .error (World.otherErr true m)) → o.key = k →
      w.Landed w' k s (outcome o s wr) o' → ChangeAt w ph obs w' k

lemma Change.at (h : Change w ph obs w') (k : NamespacedName) : ChangeAt w ph obs w' k := by
  cases h with
  | none hs => exact .same (hs.current k) (hs.versions k)
  | edited j c o' hc hp hst _ _ =>
    by_cases hk : k = j
    · subst hk
      exact .edited c o' hc hp hst
    · exact .same (hp.current_of_ne hk) (hp.versions_of_ne hk)
  | written t φ o s wr a o' hφ hf hw hobs ha hl =>
    by_cases hk : k = s.key
    · subst hk
      exact .written t φ o s wr a o' hφ hf hw hobs ha (hw.drifts hf.sound).key hl
    · rcases hl.after with ⟨_, hp⟩ | ⟨_, _, hs⟩
      · exact .same (hp.current_of_ne hk) (hp.versions_of_ne hk)
      · exact .same (hs.current k) (hs.versions k)

inductive ChangeFrom (w : World) (ph : Phases) (obs : Observed X) (w' : World) (k : NamespacedName)
    (c : SSHHost) : Prop
  | same : w'.current k = some c → ChangeFrom w ph obs w' k c
  | edited (o' : SSHHost) : w.Pushed w' k o' → o'.status = c.status → ChangeFrom w ph obs w' k c
  | written (t : ℕ) (φ : Phase) (o : SSHHost) (wr : StatusWrite)
      (a : Except Err SSHHost) (o' : SSHHost) :
      ph t = some φ → φ.Facts w → Writes φ o c wr → WriteSeen obs t o wr a →
      (a = .ok o' ∨ ∃ m, a = .error (World.otherErr true m)) → o.key = k →
      w.Landed w' k c (outcome o c wr) o' → ChangeFrom w ph obs w' k c

lemma Change.from (h : Change w ph obs w') {k : NamespacedName} {c : SSHHost}
    (hc : w.current k = some c) :
    ChangeFrom w ph obs w' k c := by
  cases h.at k with
  | same hcur _ => exact .same (hcur.trans hc)
  | edited d o' hd hp hst =>
    obtain rfl := Option.some.inj (hd.symm.trans hc)
    exact .edited o' hp hst
  | written t φ o s wr a o' hφ hf hw hobs ha hk hl =>
    obtain rfl := Option.some.inj (hl.before.symm.trans hc)
    exact .written t φ o wr a o' hφ hf hw hobs ha hk hl

lemma Change.versions {Q : SSHHostStatus → Prop} (h : Change w ph obs w')
    (hQ : ∀ k, ∀ v ∈ w.versions k, Q v.status)
    (hw : ∀ t φ o s wr a, ph t = some φ → φ.Facts w → WriteSeen obs t o wr a → Writes φ o s wr →
      w.current s.key = some s → Q s.status → Q (outcome o s wr)) :
    ∀ k, ∀ v ∈ w'.versions k, Q v.status := by
  intro k v hv
  cases h.at k with
  | same _ hvs => exact hQ k v (hvs ▸ hv)
  | edited c o' hc hp hst =>
    rcases (hp.versions v).mp hv with rfl | hv
    · exact hst ▸ hQ k c (World.current_mem hc)
    · exact hQ k v hv
  | written t φ o s wr a o' hφ hf hwr hobs ha _ hl =>
    rcases hl.after with ⟨_, hp⟩ | ⟨_, _, hs⟩
    · rcases (hp.versions v).mp hv with rfl | hv
      · rw [hl.status]
        exact hw t φ o s wr a hφ hf hobs hwr (hl.key ▸ hl.before)
          (hQ _ s (World.current_mem hl.before))
      · exact hQ _ v hv
    · exact hQ k v (hs.versions k ▸ hv)

def Superseded (w : World) (o : SSHHost) : Prop :=
  ∃ v ∈ w.versions o.key, o.resourceVersion < v.resourceVersion

lemma Superseded.later {o : SSHHost} (h : Superseded w o) (hl : w.Later w') : Superseded w' o := by
  obtain ⟨v, hv, hr⟩ := h
  exact ⟨v, hl.versions _ v hv, hr⟩

lemma Superseded.ne_current {o h : SSHHost} (hs : Superseded w o) (hk : h.key = o.key)
    (hr : h.resourceVersion ≤ o.resourceVersion) : w.current h.key ≠ some h := by
  obtain ⟨v, hv, hlt⟩ := hs
  intro hcur
  have := World.rev_le_current hv (hk ▸ hcur)
  omega

lemma Superseded.of_pushed {o o' : SSHHost} (hv : w.Valid) (ho : o ∈ w.versions o.key)
    (hp : w.Pushed w' o.key o') : Superseded w' o :=
  ⟨o', (hp.versions o').mpr (.inl rfl), (hv.rev_of_mem ho).trans_lt hp.newer⟩

lemma Change.superseded {s : SSHHost} {k : NamespacedName} (h : Change w ph obs w') (hv : w.Valid)
    (hm : s ∈ w.versions k) (hn : w.current k ≠ some s) : w'.current k ≠ some s := by
  have hnew (o' : SSHHost) (hp : w.Pushed w' k o') : w'.current k ≠ some s := by
    rw [hp.current]
    rintro he
    cases he
    have := hv.rev_of_mem hm
    have := hp.newer
    omega
  cases h.at k with
  | same hc _ => rwa [hc]
  | edited c o' hc hp => exact hnew o' hp
  | written t φ o s' wr a o' hφ hf hwr hobs ha _ hl =>
    rcases hl.after with ⟨_, hp⟩ | ⟨_, _, hs⟩
    · exact hnew o' hp
    · rwa [hs.current]

lemma Change.claimed (h : Change w ph obs w') {k : NamespacedName} {c : SSHHost}
    {ref : ClaimReference} (hc : w'.current k = some c) (hr : c.status.claimRef = some ref) :
    (∃ d, w.current k = some d ∧ d.status.claimRef = some ref) ∨
      ∃ t nc os o a, ph t = some (.picking nc os) ∧ nc.ref = ref ∧ o.key = k ∧
      WriteSeen obs t o (.claim ref) a ∧
        carriedOut a = true := by
  cases h.at k with
  | same hcur _ => exact .inl ⟨c, hcur ▸ hc, hr⟩
  | edited d o' hd hp hst =>
    rw [hp.current] at hc
    cases hc
    exact .inl ⟨d, hd, hst ▸ hr⟩
  | written t φ o s wr a o' hφ hf hw hobs ha hk hl =>
    rw [hl.current] at hc
    cases hc
    rw [hl.status] at hr
    rcases hw.claimRef_cases hf.sound with he | ⟨he, _⟩ | ⟨nc, os, rfl, _, rfl, _, he⟩
    · exact .inl ⟨s, hl.before, he ▸ hr⟩
    · rw [he] at hr
      cases hr
    · rw [he] at hr
      cases hr
      exact .inr ⟨t, nc, os, o, a, hφ, rfl, hk, hobs, carriedOut_of ha⟩

end Versions

lemma valid_start (hosts : List SSHHost) : (World.start hosts).Valid := by
  have hfind (k : NamespacedName) (h : SSHHost) (hf : hosts.find? (·.key = k) = some h) :
      h ∈ hosts ∧ h.key = k :=
    ⟨List.mem_of_find?_eq_some hf, by simpa using List.find?_some hf⟩
  have hle (l : List SSHHost) (h : SSHHost) (hm : h ∈ l) :
      h.resourceVersion ≤ (l.map SSHHost.resourceVersion).foldr max 0 := by
    induction l with
    | nil => simp at hm
    | cons a l ih =>
      rcases List.mem_cons.mp hm with rfl | hm
      · simp
      · exact (ih hm).trans (by simp)
  refine ⟨fun k v hv => ?_, fun k c hc => ?_, fun k c hc => ?_⟩
  · cases hf : hosts.find? (·.key = k) with
    | none => simp [World.versions, World.start, hf] at hv
    | some h =>
      simp only [World.versions, World.start, hf, Option.map_some, Store.History.versions_single,
        List.mem_singleton] at hv
      rw [hv]
      exact (hfind k h hf).2
  · cases hf : hosts.find? (·.key = k) with
    | none => simp [World.current, World.start, hf] at hc
    | some h =>
      simp only [World.current, World.start, hf, Option.map_some, Option.some.injEq] at hc
      rw [← hc]
      exact hle hosts h (hfind k h hf).1
  · cases hf : hosts.find? (·.key = k) with
    | none => simp [World.current, World.start, hf] at hc
    | some h =>
      obtain ⟨hm, hk⟩ := hfind k h hf
      exact List.mem_map.mpr ⟨h, hm, hk⟩

lemma status_start {hosts : List SSHHost} {k : NamespacedName} {v : SSHHost}
    (hv : v ∈ (World.start hosts).versions k) : v.status = .empty := by
  cases hf : hosts.find? (·.key = k) with
  | none => simp [World.versions, World.start, hf] at hv
  | some h =>
    simp only [World.versions, World.start, hf, Option.map_some, Store.History.versions_single,
      List.mem_singleton] at hv
    rw [hv]

section Invariants

variable {A : World → Observed X → Prop} {I : World → Phases → Prop}
  {hosts : List SSHHost} {c d : Run X}

theorem reached (hk : (protocol X).Kept A I) (hi : I (World.start hosts) (fun _ => none))
    (hr : Config.Reaches A (idle X hosts) c) :
    ∃ ph : Phases, (protocol X).Tracks c ph ∧ I c.world ph :=
  Protocol.invariant (conforms X) hk (valid_start hosts) hi hr

theorem reached_step (hk : (protocol X).Kept A I) (hi : I (World.start hosts) (fun _ => none))
    (hr : Config.Reaches A (idle X hosts) c) {ev : Event X} {obs : Observed X}
    (hs : c.step ev = some (obs, d)) :
    ∃ ph ph' : Phases, (protocol X).Tracks c ph ∧ I c.world ph ∧ Moves c.world ph obs d.world ph' ∧
      (protocol X).Tracks d ph' := by
  obtain ⟨ph, ht, hI⟩ := reached hk hi hr
  obtain ⟨ph', hm, ht'⟩ := ht.step (conforms X) hs
  exact ⟨ph, ph', ht, hI, hm, ht'⟩

end Invariants

end KarpenterProviderSsh.Runs
