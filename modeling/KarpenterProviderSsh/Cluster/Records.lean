import KarpenterProviderSsh.Cluster.Answers

/-! What the answers to its requests put on the record of a running operation. -/

namespace KarpenterProviderSsh.Cluster

open Api Store

namespace World

section Marks

variable (wr : StatusWrite) (id : String) (p : ScriptPhase) (a : Activity)

@[simp] lemma markWrite_owner : (markWrite wr a).owner = a.owner := by
  unfold markWrite
  split <;> [split_ifs <;> rfl; rfl]

@[simp] lemma markWrite_since : (markWrite wr a).since = a.since := by
  unfold markWrite
  split <;> [split_ifs <;> rfl; rfl]

@[simp] lemma markWrite_reads : (markWrite wr a).reads = a.reads := by
  unfold markWrite
  split <;> [split_ifs <;> rfl; rfl]

@[simp] lemma markWrite_recorded : (markWrite wr a).recorded = a.recorded := by
  unfold markWrite
  split <;> [split_ifs <;> rfl; rfl]

@[simp] lemma markWrite_won : (markWrite wr a).won = a.won := by
  unfold markWrite
  split <;> [split_ifs <;> rfl; rfl]

@[simp] lemma markOk_owner : (markOk wr a).owner = a.owner := by
  unfold markOk
  split <;> rfl

@[simp] lemma markOk_since : (markOk wr a).since = a.since := by
  unfold markOk
  split <;> rfl

@[simp] lemma markOk_reads : (markOk wr a).reads = a.reads := by
  unfold markOk
  split <;> rfl

@[simp] lemma markOk_minting : (markOk wr a).minting = a.minting := by
  unfold markOk
  split <;> rfl

lemma markOk_won : (markOk wr a).won = a.won ∨ ∃ ref, wr = .claim ref := by
  unfold markOk
  split
  · exact .inr ⟨_, rfl⟩
  · exact .inl rfl
  · exact .inl rfl

@[simp] lemma giveUp_owner : (giveUp id a).owner = a.owner := by
  unfold giveUp
  split_ifs <;> rfl

@[simp] lemma giveUp_since : (giveUp id a).since = a.since := by
  unfold giveUp
  split_ifs <;> rfl

@[simp] lemma giveUp_reads : (giveUp id a).reads = a.reads := by
  unfold giveUp
  split_ifs <;> rfl

@[simp] lemma giveUp_minting : (giveUp id a).minting = a.minting := by
  unfold giveUp
  split_ifs <;> rfl

@[simp] lemma giveUp_won : (giveUp id a).won = a.won := by
  unfold giveUp
  split_ifs <;> rfl

@[simp] lemma forget_owner : (forget id a).owner = a.owner := by
  unfold forget
  split_ifs <;> simp

@[simp] lemma forget_since : (forget id a).since = a.since := by
  unfold forget
  split_ifs <;> simp

@[simp] lemma forget_reads : (forget id a).reads = a.reads := by
  unfold forget
  split_ifs <;> simp

@[simp] lemma forget_won : (forget id a).won = a.won := by
  unfold forget
  split_ifs <;> simp

@[simp] lemma endJoin_owner : (endJoin p a).owner = a.owner := by
  unfold endJoin
  split_ifs <;> rfl

@[simp] lemma endJoin_since : (endJoin p a).since = a.since := by
  unfold endJoin
  split_ifs <;> rfl

@[simp] lemma endJoin_reads : (endJoin p a).reads = a.reads := by
  unfold endJoin
  split_ifs <;> rfl

@[simp] lemma endJoin_won : (endJoin p a).won = a.won := by
  unfold endJoin
  split_ifs <;> rfl

@[simp] lemma endJoin_minting : (endJoin p a).minting = a.minting := by
  unfold endJoin
  split_ifs <;> rfl

lemma forget_minting : (forget id a).minting = if a.minting = some id then none else a.minting := by
  unfold forget
  rw [giveUp_minting]
  split_ifs <;> rfl

lemma markWrite_minting : (markWrite wr a).minting = a.minting ∨
    ∃ id, wr = .set (.bootstrapTokenID id) ∧ a.minting = some id ∧
    (markWrite wr a).minting = none := by
  unfold markWrite
  split
  · split_ifs with h
    · exact .inr ⟨_, rfl, h, rfl⟩
    · exact .inl rfl
  · exact .inl rfl

lemma giveUp_recorded {id' : String} (h : (giveUp id' a).recorded = some id) :
    a.recorded = some id ∧ id' ≠ id := by
  unfold giveUp at h
  split_ifs at h with hr
  exact ⟨h, fun he => hr (he ▸ h)⟩

lemma forget_recorded {id' : String} (h : (forget id' a).recorded = some id) :
    a.recorded = some id ∧ id' ≠ id := by
  unfold forget at h
  obtain ⟨h, hne⟩ := giveUp_recorded _ _ h
  refine ⟨?_, hne⟩
  split_ifs at h <;> exact h

end Marks

section Noted

variable {w : World} {t : ℕ} {e : Eff} {ch : Choice} {r : Res e} {w' : World}

def noted : (e : Eff) → Res e → Activity → Activity
  | .listHosts _, .ok os => fun a => { a with reads := os ++ a.reads }
  | .getHost _, .ok o => fun a => { a with reads := o :: a.reads }
  | .updateStatus _ wr, .ok _ | .patchStatus _ wr, .ok _ => markOk wr ∘ markWrite wr
  | .updateStatus _ wr, .error e | .patchStatus _ wr, .error e =>
    if e.reason = some (.other true) then markWrite wr else id
  | .createToken, .ok tok => fun a => { a with minting := some tok.id }
  | .deleteToken id, .ok _ => forget id
  | .deleteToken id, .error e => if e.reason = some (.other false) then giveUp id else forget id
  | .sshWait _ p, _ => endJoin p
  | _, _ => id

section Cases

variable (o h : SSHHost) (wr : StatusWrite) (tok : String) (u : Unit) (k : NamespacedName)
  (p : ScriptPhase) (e : Err)

lemma noted_update_ok : noted (.updateStatus o wr) (.ok h) = markOk wr ∘ markWrite wr := rfl

lemma noted_patch_ok : noted (.patchStatus o wr) (.ok h) = markOk wr ∘ markWrite wr := rfl

lemma noted_update_error : noted (.updateStatus o wr) (.error e) =
    if e.reason = some (.other true) then markWrite wr else id := rfl

lemma noted_patch_error : noted (.patchStatus o wr) (.error e) =
    if e.reason = some (.other true) then markWrite wr else id := rfl

lemma noted_delete_ok : noted (.deleteToken tok) (.ok u) = forget tok := rfl

lemma noted_delete_error : noted (.deleteToken tok) (.error e) =
    if e.reason = some (.other false) then giveUp tok else forget tok := rfl

lemma noted_wait (r : Except Err ExecResult) : noted (.sshWait k p) r = endJoin p := rfl

end Cases

lemma update_map_id (f : ℕ → Option Activity) (t : ℕ) :
    Function.update f t ((f t).map id) = f := by
  simp

lemma threads_write {o : SSHHost} {st : SSHHostStatus → SSHHostStatus} {wr : StatusWrite}
    {a : Except Err SSHHost} (hv : w.Valid)
    (hh : w.write t o st (markWrite wr) (markOk wr) ch = some (a, w')) :
    w'.threads = Function.update w.threads t ((w.threads t).map (noted (.patchStatus o wr) a)) := by
  rcases write_answer hv hh with ⟨_, _, _, _, ⟨rfl, ht⟩ | ⟨⟨m, rfl⟩, ht⟩⟩ | ⟨rfl, e, rfl, he⟩
  · exact ht
  · simpa [noted_patch_error, otherErr] using ht
  · have hid : noted (.patchStatus o wr) (.error e) = id := by
      rcases he with ⟨rfl, _⟩ | rfl | ⟨m, rfl⟩ <;>
        simp [noted_patch_error, conflictErr, notFoundErr, otherErr]
    rw [hid, update_map_id]

lemma handle_threads (hv : w.Valid) (hh : w.handle t e ch = some (r, w')) :
    w'.threads = Function.update w.threads t ((w.threads t).map (noted e r)) := by
  cases e with
  | updateStatus o wr =>
    simp only [handle] at hh
    have ht := threads_write hv hh
    cases r <;> exact ht
  | patchStatus o wr =>
    simp only [handle] at hh
    exact threads_write hv hh
  | listHosts ns =>
    rcases listHosts_answer hv hh with ⟨os, rfl, rfl, _⟩ | ⟨rfl, e, rfl⟩
    · rfl
    · simp [noted]
  | getHost k =>
    rcases getHost_answer hv hh with ⟨o, rfl, rfl, _⟩ | ⟨rfl, e, rfl, _⟩
    · rfl
    · simp [noted]
  | createToken =>
    rcases createToken_cases hh with ⟨tok, rfl, _, rfl⟩ | ⟨e, rfl, rfl | ⟨id, m, _, rfl, _⟩⟩
    · rfl
    · simp [noted]
    · simp [noted, mint]
  | deleteToken id =>
    simp only [handle] at hh
    split at hh
    · split_ifs at hh
      cases hh
      rfl
    · split_ifs at hh
      cases hh
      simp [note, noted, notFoundErr]
    · cases hh
      simp [note, noted, otherErr]
    · rename_i hn hf
      cases ch with
      | notFound => exact absurd rfl hn
      | fail landed m =>
        cases hh
        simp [note, noted, otherErr]
      | _ => cases hh
  | sshStart k p a b =>
    rcases sshStart_cases hh with ⟨rfl, rfl⟩ | ⟨rfl, e, rfl⟩ <;> simp [noted]
  | sshWait k p =>
    simp only [handle] at hh
    split at hh <;> cases hh
    · split_ifs <;> simp [note, noted]
    · simp [note, noted]
  | now | pollTick =>
    simp only [handle] at hh
    split at hh <;> cases hh
    simp [noted]
  | deleteNode n =>
    simp only [handle] at hh
    split at hh
    · cases hh
      simp [noted]
    · obtain ⟨rfl, _⟩ := failed_cases hh
      simp [noted]
  | getNodeClaim | listNodes | getProfile | getSecret | readClusterInfo =>
    simp only [handle] at hh
    split at hh
    · cases hh
      simp [noted]
    · obtain ⟨rfl, _⟩ := failed_cases hh
      simp [noted]

lemma record_after (hv : w.Valid) (hh : w.handle t e ch = some (r, w')) {a' : Activity}
    (h : w'.threads t = some a') : ∃ a, w.threads t = some a ∧ a' = noted e r a := by
  rw [handle_threads hv hh, Function.update_self, Option.map_eq_some_iff] at h
  obtain ⟨a, ha, rfl⟩ := h
  exact ⟨a, ha, rfl⟩

lemma threads_after (hv : w.Valid) (hh : w.handle t e ch = some (r, w')) {a : Activity}
    (h : w.threads t = some a) : w'.threads t = some (noted e r a) := by
  simp [handle_threads hv hh, h]

lemma noted_owner (e : Eff) (r : Res e) (a : Activity) :
    (noted e r a).owner = a.owner ∧ (noted e r a).since = a.since := by
  cases e with
  | listHosts | getHost | createToken => cases r <;> exact ⟨rfl, rfl⟩
  | updateStatus | patchStatus | deleteToken =>
    cases r with
    | ok => simp [noted_update_ok, noted_patch_ok, noted_delete_ok]
    | error =>
      simp only [noted_update_error, noted_patch_error, noted_delete_error]
      split_ifs <;> simp
  | sshWait => simp [noted_wait]
  | _ => exact ⟨rfl, rfl⟩

def served : (e : Eff) → Res e → List SSHHost
  | .listHosts _, .ok os => os
  | .getHost _, .ok o => [o]
  | _, _ => []

lemma noted_reads (e : Eff) (r : Res e) (a : Activity) :
    (noted e r a).reads = served e r ++ a.reads := by
  cases e with
  | listHosts | getHost | createToken => cases r <;> rfl
  | updateStatus | patchStatus | deleteToken =>
    cases r with
    | ok => simp [noted_update_ok, noted_patch_ok, noted_delete_ok, served]
    | error =>
      simp only [noted_update_error, noted_patch_error, noted_delete_error]
      split_ifs <;> simp [served]
  | sshWait => simp [noted_wait, served]
  | _ => rfl

lemma noted_won (hu : ∀ o wr, e ≠ .updateStatus o wr)
    (hp : ∀ o ref, e ≠ .patchStatus o (.claim ref)) (a : Activity) :
    (noted e r a).won = a.won := by
  cases e with
  | updateStatus => exact absurd rfl (hu _ _)
  | patchStatus o wr =>
    cases r with
    | ok =>
      rcases markOk_won wr (markWrite wr a) with h | ⟨ref, rfl⟩
      · exact h.trans (markWrite_won wr a)
      · exact absurd rfl (hp o ref)
    | error =>
      simp only [noted_patch_error]
      split_ifs <;> simp
  | deleteToken =>
    cases r with
    | ok => simp [noted_delete_ok]
    | error =>
      simp only [noted_delete_error]
      split_ifs <;> simp
  | listHosts | getHost | createToken => cases r <;> rfl
  | sshWait => simp [noted_wait]
  | _ => rfl

lemma noted_won_error (o : SSHHost) (wr : StatusWrite) (e : Err) (a : Activity) :
    (noted (.updateStatus o wr) (.error e) a).won = a.won := by
  simp only [noted_update_error]
  split_ifs <;> simp

lemma noted_minting (hc : e ≠ .createToken) (a : Activity) :
    (noted e r a).minting = a.minting ∨ ((noted e r a).minting = none ∧ ∃ id, a.minting = some id ∧
      (e = .deleteToken id ∨ ∃ o, e = .updateStatus o (.set (.bootstrapTokenID id)) ∨
        e = .patchStatus o (.set (.bootstrapTokenID id)))) := by
  cases e with
  | updateStatus o wr =>
    rcases markWrite_minting wr a with hw | ⟨id, rfl, hm, hw⟩
    · cases r with
      | ok => exact .inl (by simp [noted_update_ok, hw])
      | error =>
        simp only [noted_update_error]
        split_ifs <;> simp [hw]
    · cases r with
      | ok => exact .inr ⟨by simp [noted_update_ok, hw], id, hm, .inr ⟨o, .inl rfl⟩⟩
      | error =>
        simp only [noted_update_error]
        split_ifs
        · exact .inr ⟨hw, id, hm, .inr ⟨o, .inl rfl⟩⟩
        · exact .inl rfl
  | patchStatus o wr =>
    rcases markWrite_minting wr a with hw | ⟨id, rfl, hm, hw⟩
    · cases r with
      | ok => exact .inl (by simp [noted_patch_ok, hw])
      | error =>
        simp only [noted_patch_error]
        split_ifs <;> simp [hw]
    · cases r with
      | ok => exact .inr ⟨by simp [noted_patch_ok, hw], id, hm, .inr ⟨o, .inr rfl⟩⟩
      | error =>
        simp only [noted_patch_error]
        split_ifs
        · exact .inr ⟨hw, id, hm, .inr ⟨o, .inr rfl⟩⟩
        · exact .inl rfl
  | deleteToken id =>
    have hf : (forget id a).minting = a.minting ∨
        ((forget id a).minting = none ∧ a.minting = some id) := by
      rw [forget_minting]
      split_ifs with h
      · exact .inr ⟨rfl, h⟩
      · exact .inl rfl
    cases r with
    | ok => exact hf.imp_right fun h => ⟨h.1, id, h.2, .inl rfl⟩
    | error =>
      simp only [noted_delete_error]
      split_ifs
      · exact .inl (by simp)
      · exact hf.imp_right fun h => ⟨h.1, id, h.2, .inl rfl⟩
  | sshWait => exact .inl (by simp [noted_wait])
  | listHosts | getHost => cases r <;> exact .inl rfl
  | createToken => exact absurd rfl hc
  | _ => exact .inl rfl

lemma minting_of_noted {a : Activity} {id : String} (hc : e ≠ .createToken)
    (h : (noted e r a).minting = some id) : a.minting = some id := by
  rcases noted_minting (r := r) hc a with he | ⟨he, _⟩
  · exact he ▸ h
  · rw [he] at h
    cases h

lemma recorded_of_noted {a : Activity} {id : String} (hu : ∀ o wr, e ≠ .updateStatus o wr)
    (hp : ∀ o wr, e ≠ .patchStatus o wr) (h : (noted e r a).recorded = some id) :
    a.recorded = some id ∧ (∀ k, e ≠ .sshWait k .join) ∧ e ≠ .deleteToken id := by
  cases e with
  | updateStatus => exact absurd rfl (hu _ _)
  | patchStatus => exact absurd rfl (hp _ _)
  | deleteToken id' =>
    have hd : a.recorded = some id ∧ id' ≠ id := by
      cases r with
      | ok => exact forget_recorded _ _ h
      | error =>
        simp only [noted_delete_error] at h
        split_ifs at h
        · exact giveUp_recorded _ _ h
        · exact forget_recorded _ _ h
    exact ⟨hd.1, by simp, by simpa using hd.2⟩
  | sshWait k p =>
    simp only [noted_wait, endJoin] at h
    split_ifs at h with hj
    exact ⟨h, by simpa using hj, by simp⟩
  | listHosts | getHost | createToken => cases r <;> exact ⟨h, by simp, by simp⟩
  | _ => exact ⟨h, by simp, by simp⟩

lemma recorded_of_patch {a : Activity} {id : String} {o : SSHHost} {wr : StatusWrite}
    {r : Except Err SSHHost} (h : (noted (.patchStatus o wr) r a).recorded = some id) :
    a.recorded = some id ∨ (wr = .set (.bootstrapTokenID id) ∧ id ≠ "" ∧ ∃ o', r = .ok o') := by
  cases r with
  | error =>
    simp only [noted_patch_error] at h
    split_ifs at h
    · exact .inl (markWrite_recorded wr a ▸ h)
    · exact .inl h
  | ok o' =>
    simp only [noted_patch_ok, Function.comp_apply, markOk] at h
    split at h
    · exact .inl (markWrite_recorded _ a ▸ h)
    · simp only at h
      split_ifs at h with hid
      cases h
      exact .inr ⟨rfl, hid, o', rfl⟩
    · exact .inl (markWrite_recorded _ a ▸ h)

end Noted

end World

end KarpenterProviderSsh.Cluster
