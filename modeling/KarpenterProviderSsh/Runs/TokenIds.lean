import KarpenterProviderSsh.Runs.Changes

/-! Token ids. An id is minted once, belongs to the launch that minted it, and gets into a host's
status only by that launch. -/

namespace KarpenterProviderSsh.Runs

open Api Cluster Scripts Providers Controllers Interleaving Config

variable {X : Externals}

namespace Phase

def unrecorded : Phase → Option String
  | .launch _ _ _ (.minted id) => some id
  | _ => none

lemma own_of_unrecorded {φ : Phase} {id : String} (h : φ.unrecorded = some id) :
    φ.own = some id := by
  unfold unrecorded at h
  split at h <;> cases h
  rfl

lemma own_ne_empty {φ : Phase} {id : String} (hs : φ.Sound) (h : φ.own = some id) : id ≠ "" := by
  rintro rfl
  cases φ with
  | launch => exact hs.2 h
  | closing => exact hs.2.2 h
  | _ => cases h

lemma own_of_close {φ : Phase} {nc : NodeClaim} {r : Bool} {cl : Closing}
    (hc : φ.close = some (nc, r, cl)) : φ.own = cl.own := by
  unfold close at hc
  split at hc <;> cases hc <;> rfl

end Phase

lemma Writes.token_cases {φ : Phase} {o s : SSHHost} {wr : StatusWrite}
    (h : Writes φ o s wr) (hs : φ.Sound) :
    (outcome o s wr).bootstrapTokenID = s.status.bootstrapTokenID ∨
      (outcome o s wr).bootstrapTokenID = "" ∨
      ∃ nc r id, φ = .launch nc r s (.minted id) ∧ o = s ∧ wr = .set (.bootstrapTokenID id) ∧
        (outcome o s wr).bootstrapTokenID = id := by
  rcases h.outcome_cases hs with he | ⟨_, _, _, _, _, _, _, _, _, _, _, he⟩
  · rw [he]
    cases h with
    | claim => exact .inl rfl
    | set hst =>
      cases hst with
      | token id => exact .inr (.inr ⟨_, _, id, rfl, rfl, rfl, rfl⟩)
      | _ => exact .inl rfl
    | clear | release | teardown => exact .inr (.inl rfl)
    | probe ready hp =>
      obtain ⟨conds, he⟩ := apply_probe _ ready _
      rw [he]
      cases hp with
      | collect | release => exact .inr (.inl rfl)
      | _ => exact .inl rfl
  · exact .inl (by rw [he])

section Steps

variable {w w' : World} {t : ℕ} {φ ψ : Phase} {ch : Choice}

lemma own_after {o s : SSHHost} {wr : StatusWrite} {a : Except Err SSHHost}
    (hψ : After φ o s wr a ψ) :
    ψ.own = none ∨ ψ.own = φ.own := by
  cases hψ with
  | setOk hs => cases hs <;> simp [Phase.own, Stage.next, Stage.own]
  | claimLost | setLost | setErr => exact .inr rfl
  | _ => exact .inl rfl

lemma own_act {e : Eff} {r : Res e} (ha : Act φ e r ψ) (hh : w.handle t e ch = some (r, w')) :
    ψ.own = none ∨ ψ.own = φ.own ∨
      ∃ id, ψ.own = some id ∧ id ≠ "" ∧ id ∉ w.minted ∧ id ∈ w'.minted := by
  cases ha with
  | update _ hψ | patch _ _ hψ => exact (own_after hψ).imp id .inl
  | mint =>
    rcases World.createToken_cases hh with ⟨_, he, hfr, rfl⟩ | ⟨_, he, _⟩ <;> cases he
    exact .inr (.inr ⟨_, rfl, hfr.1, hfr.2, by simp [World.note, World.mint]⟩)
  | silent | look | list | quietStart | quietWait | startFailed | refetch | abandon
    | joinStart | joinErr
  | mintFailed => exact .inr (.inl rfl)
  | _ => exact .inl rfl

lemma unrecorded_act {e : Eff} {r : Res e} (hv : w.Valid) (hf : φ.Facts w) (ha : Act φ e r ψ)
    (hh : w.handle t e ch = some (r, w')) {id : String} (hψ : ψ.unrecorded = some id) :
    (w.SameStore w' ∧ id ∉ w.minted) ∨ (w.SameStore w' ∧ φ.unrecorded = some id) := by
  have hs := (World.handle_frame hh).store
  have hrefused {o s : SSHHost} {wr : StatusWrite} {e : Err} (hcf : e.isConflict = true)
      (h : Answered w o s wr (.error e) w') : w.SameStore w' := by
    cases h with
    | landed o' _ ha =>
      rcases ha with ha | ⟨m, ha⟩ <;> cases ha
      cases hcf
    | refused _ hw => exact hw ▸ .refl w
  cases ha with
  | update hw ha =>
    cases ha with
    | claimLost hcf => cases hψ
    | claimOk | claimErr => cases hψ
  | patch hw _ ha =>
    cases ha with
    | setOk hst => cases hst <;> cases hψ
    | setLost hcf => exact .inr ⟨hrefused hcf (answered_patch hv hf hw hh), hψ⟩
    | _ => cases hψ
  | mint =>
    rcases World.createToken_cases hh with ⟨_, he, hfr, rfl⟩ | ⟨_, he, _⟩ <;> cases he
    cases hψ
    exact .inl ⟨hs (by simp) (by simp), hfr.2⟩
  | @silent _ e _ hsil =>
    refine .inr ⟨hs ?_ ?_, hψ⟩ <;> rintro o wr rfl <;> cases hsil
  | refetch hst =>
    cases hst with
    | token id => exact .inr ⟨hs (by simp) (by simp), hψ⟩
    | _ => cases hψ
  | look | list | quietStart | quietWait | startFailed => exact .inr ⟨hs (by simp) (by simp), hψ⟩
  | _ => cases hψ

end Steps

structure TokensKnown (w : World) (ph : Phases) : Prop where
  stored : ∀ k, ∀ v ∈ w.versions k, v.status.bootstrapTokenID ≠ "" →
    v.status.bootstrapTokenID ∈ w.minted
  own : ∀ t φ, ph t = some φ → ∀ id, φ.own = some id → id ∈ w.minted
  distinct : ∀ t u φ χ id, ph t = some φ → ph u = some χ → φ.own = some id → χ.own = some id → t = u
  unrecorded : ∀ t φ, ph t = some φ → ∀ id, φ.unrecorded = some id →
    ∀ k, ∀ v ∈ w.versions k, v.status.bootstrapTokenID ≠ id

lemma tokensKnown_start (hosts : List SSHHost) :
    TokensKnown (World.start hosts) (fun _ => none) := by
  refine ⟨fun k v hv h => ?_, by simp, by simp, by simp⟩
  rw [status_start hv] at h
  exact absurd rfl h

section Kept

variable {w w' : World} {ph ph' : Phases} {obs : Observed X}

lemma TokensKnown.stored_step (h : TokensKnown w ph) (hch : Change w ph obs w') (hl : w.Later w') :
    ∀ k, ∀ v ∈ w'.versions k, v.status.bootstrapTokenID ≠ "" →
    v.status.bootstrapTokenID ∈ w'.minted := by
  refine hch.versions (Q := fun st => st.bootstrapTokenID ≠ "" → st.bootstrapTokenID ∈ w'.minted)
    (fun k v hv hne => hl.minted _ (h.stored k v hv hne)) ?_
  intro t φ o s wr a hφ hf _ hw _ hQ hne
  rcases hw.token_cases hf.sound with he | he | ⟨nc, r, id, rfl, _, _, he⟩
  · rw [he] at hne ⊢
    exact hQ hne
  · exact absurd he hne
  · rw [he]
    exact hl.minted _ (h.own t _ hφ id rfl)

lemma TokensKnown.unrecorded_other (h : TokensKnown w ph) (hf : ∀ t φ, ph t = some φ → φ.Facts w)
    (hch : Change w ph obs w') {u : ℕ} {χ : Phase} (hχ : ph u = some χ) (hu : obs.actor ≠ some u)
    {id : String} (hid : χ.unrecorded = some id) :
    ∀ k, ∀ v ∈ w'.versions k, v.status.bootstrapTokenID ≠ id := by
  have hown := Phase.own_of_unrecorded hid
  refine hch.versions (Q := fun st => st.bootstrapTokenID ≠ id) (h.unrecorded u χ hχ id hid) ?_
  intro t φ o s wr a hφ hfφ hobs hw _ hne
  rcases hw.token_cases hfφ.sound with he | he | ⟨nc, r, id', rfl, _, _, he⟩
  · rwa [he]
  · rw [he]
    exact Ne.symm (Phase.own_ne_empty (hf u χ hχ).sound hown)
  · rw [he]
    rintro rfl
    have htu := h.distinct t u _ χ id' hφ hχ rfl hown
    exact hu (htu ▸ hobs.actor)

lemma distinct_update {t : ℕ} {ψ : Option Phase}
    (h : ∀ t u φ χ id, ph t = some φ → ph u = some χ → φ.own = some id → χ.own = some id → t = u)
    (hψ : ∀ φ id, ψ = some φ → φ.own = some id → ∀ u χ, u ≠ t → ph u = some χ → χ.own ≠ some id) :
    ∀ v u φ χ id, Function.update ph t ψ v = some φ → Function.update ph t ψ u = some χ →
      φ.own = some id → χ.own = some id → v = u := by
  intro v u φ χ id hv hu hφ hχ
  by_cases hvt : v = t
  · by_cases hut : u = t
    · rw [hvt, hut]
    · rw [hvt, Function.update_self] at hv
      rw [Function.update_of_ne hut] at hu
      exact absurd hχ (hψ φ id hv hφ u χ hut hu)
  · rw [Function.update_of_ne hvt] at hv
    by_cases hut : u = t
    · rw [hut, Function.update_self] at hu
      exact absurd hφ (hψ χ id hu hχ v φ hvt hv)
    · rw [Function.update_of_ne hut] at hu
      exact h v u φ χ id hv hu hφ hχ

lemma TokensKnown.distinct_step (h : TokensKnown w ph) (hm : Moves w ph obs w' ph') :
    ∀ t u φ χ id, ph' t = some φ → ph' u = some χ → φ.own = some id → χ.own = some id → t = u := by
  rcases hm with ⟨t, j, _⟩ | @⟨t, φ, e, r, ψ, ch, _, hφ, ha, hh⟩ | _ | _ | _
  · refine distinct_update h.distinct fun φ id hφ hid => ?_
    cases hφ
    cases j <;> cases hid
  · refine distinct_update h.distinct fun χ id hχ hid u ζ hut hu hζ => ?_
    cases hχ
    rcases own_act ha hh with hn | hn | ⟨id', hn, _, hnew, _⟩
    · rw [hn] at hid
      cases hid
    · exact hut (h.distinct u t ζ φ id hu hφ hζ (hn ▸ hid))
    · rw [hn] at hid
      cases hid
      exact hnew (h.own u ζ hu id hζ)
  · exact distinct_update h.distinct fun φ id hφ => by cases hφ
  · exact distinct_update h.distinct fun φ id hφ => by cases hφ
  · exact h.distinct

end Kept

theorem kept_tokensKnown (A : World → Observed X → Prop) : (protocol X).Kept A TokensKnown := by
  intro w ph obs w' ph' hv hf h _ hm
  have hch := Moves.change hv hf hm
  have hl : w.Later w' := hm.later hv
  refine ⟨h.stored_step hch hl, ?_, h.distinct_step hm, ?_⟩
  · refine Moves.threads (T := fun w _ φ => ∀ id, φ.own = some id → id ∈ w.minted) hm h.own ?_ ?_ ?_
    · rintro t j _ _ _ id hid
      cases j <;> cases hid
    · intro t φ e r ψ ch hφ ha hh _ hT id hid
      rcases own_act ha hh with hn | hn | ⟨id', hn, _, _, hnew⟩
      · rw [hn] at hid
        cases hid
      · exact hl.minted _ (hT id (hn ▸ hid))
      · rw [hn] at hid
        cases hid
        exact hnew
    · intro t φ _ _ hT id hid
      exact hl.minted _ (hT id hid)
  · refine Moves.threads (T := fun w _ φ => ∀ id, φ.unrecorded = some id →
      ∀ k, ∀ v ∈ w.versions k, v.status.bootstrapTokenID ≠ id) hm h.unrecorded ?_ ?_ ?_
    · rintro t j _ _ _ id hid
      cases j <;> cases hid
    · intro t φ e r ψ ch hφ ha hh _ hT id hid k v hvm
      have hne : id ≠ "" := by
        have hfψ : ψ.Facts w' := facts_act hv (hf t φ hφ) ha hh
        exact Phase.own_ne_empty hfψ.sound (Phase.own_of_unrecorded hid)
      rcases unrecorded_act hv (hf t φ hφ) ha hh hid with ⟨hs, hnew⟩ | ⟨hs, hφid⟩
      · rintro rfl
        exact hnew (h.stored k v (hs.versions k ▸ hvm) hne)
      · exact hT id hφid k v (hs.versions k ▸ hvm)
    · intro t φ hφ hact _ id hid
      exact h.unrecorded_other hf hch hφ hact hid

end KarpenterProviderSsh.Runs
