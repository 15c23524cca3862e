import KarpenterProviderSsh.Runs.Registrations
import KarpenterProviderSsh.Runs.TokenIds

/-! Bootstrap tokens are collected: a token whose Secret exists is recorded on a host, or its launch
is about to record or delete it. -/

namespace KarpenterProviderSsh.Runs

open Api Cluster Scripts Providers Controllers Interleaving Config

variable {X : Externals}

section Promises

/-- Token deletions succeed, if only by finding nothing to delete. -/
def deletesTokens : Observed X → Bool
  | .call _ (.deleteToken _) (.error e) => e.isNotFound
  | _ => true

/-- No token is lost on the way to its record: none is stored by a CreateToken that fails, and no
crash falls between the two. -/
def mintsWhole (w : World) : Observed X → Bool
  | .call _ .createToken (.error e) => e.reason ≠ some (.other true)
  | .crash t => decide (∀ a ∈ w.threads t, a.minting = none)
  | _ => true

/-- SetBootstrapTokenID does not replace the id of a Secret that still exists. -/
def replacesSpent (w : World) : Observed X → Bool
  | .call _ (.patchStatus o (.set (.bootstrapTokenID id))) r => decide (carriedOut r = true →
      ∀ c ∈ w.current o.key, c.status.bootstrapTokenID ∈ w.tokens → c.status.bootstrapTokenID = id)
  | _ => true

def collects (w : World) (obs : Observed X) : Bool :=
  deletesTokens obs && mintsWhole w obs && replacesSpent w obs

end Promises

namespace Phase

def pending : Phase → Option String
  | .launch _ _ _ (.minted id) => some id
  | .closing _ _ cl => cl.own
  | _ => none

lemma own_of_pending {φ : Phase} {id : String} (h : φ.pending = some id) : φ.own = some id := by
  unfold pending at h
  split at h
  · exact h
  · exact h
  · cases h

def freed : Phase → List SSHHost
  | .closing _ _ cl => if cl.freed then [cl.stored] else []
  | .teardown _ h _ true | .stale h true | .spent h => [h]
  | _ => []

lemma freed_of_close {φ : Phase} {nc : NodeClaim} {r : Bool} {cl : Closing}
    (hc : φ.close = some (nc, r, cl)) : φ.freed = if cl.freed then [cl.stored] else [] := by
  unfold close at hc
  split at hc <;> cases hc <;> rfl

lemma pending_of_close {φ : Phase} {nc : NodeClaim} {r : Bool} {s o : SSHHost}
    {started freed lost : Bool} (hc : φ.close = some (nc, r, ⟨s, o, started, none, freed, lost⟩)) :
    φ.pending = none := by
  unfold close at hc
  split at hc <;> cases hc <;> rfl

lemma freed_mem {φ : Phase} {v : SSHHost} (h : v ∈ φ.freed) : v ∈ φ.objects := by
  unfold freed at h
  split at h
  · split_ifs at h
    · exact h
    · cases h
  · exact h
  · exact h
  · exact h
  · cases h

end Phase

lemma Writes.token_kept {φ : Phase} {o s : SSHHost} {wr : StatusWrite}
    (h : Writes φ o s wr) (hs : φ.Sound) :
    (outcome o s wr).bootstrapTokenID = s.status.bootstrapTokenID ∨ s.status.bootstrapTokenID = "" ∨
      s ∈ φ.freed ∨ ∃ id, wr = .set (.bootstrapTokenID id) ∧
      (outcome o s wr).bootstrapTokenID = id := by
  cases h with
  | claim => exact .inl (by rw [outcome_self]; rfl)
  | set hst =>
    rw [outcome_self]
    cases hst with
    | token id => exact .inr (.inr (.inr ⟨id, rfl, rfl⟩))
    | _ => exact .inl rfl
  | clear hc ht =>
    refine .inr (.inr (.inr ⟨"", rfl, ?_⟩))
    rcases ht with ht | rfl
    · rw [outcome_clear (Phase.close_sound hc hs).2.1 ht]
    · rw [outcome_self]
      rfl
  | release reason hc _ ht =>
    rcases ht with ht | ⟨rfl, _⟩
    · refine .inl ?_
      rw [outcome_release (Phase.close_sound hc hs).2.1]
      simp [ht]
    · exact .inr (.inr (.inl (by rw [Phase.freed_of_close hc]; simp)))
  | teardown reason ht =>
    rcases ht with ht | rfl
    · exact .inr (.inl ht)
    · exact .inr (.inr (.inl (by simp [Phase.freed])))
  | probe ready hp =>
    rw [outcome_self]
    obtain ⟨conds, he⟩ := apply_probe _ ready _
    rw [he]
    cases hp with
    | collect => exact .inr (.inr (.inl (by simp [Phase.freed])))
    | release _ _ ht =>
      rcases ht with ht | rfl
      · exact .inr (.inl ht)
      · exact .inr (.inr (.inl (by simp [Phase.freed])))
    | _ => exact .inl rfl

def Pending (w : World) (t : ℕ) (φ : Phase) : Prop :=
  ∀ a id, w.threads t = some a → a.minting = some id → φ.pending = some id

def Spent (w : World) (φ : Phase) : Prop := ∀ v ∈ φ.freed, v.status.bootstrapTokenID ∉ w.tokens

structure OrphanInv (w : World) (ph : Phases) : Prop where
  registered : Registered w ph
  tokens : TokensKnown w ph
  live : ∀ id ∈ w.tokens, id ∈ w.minted ∧ id ≠ ""
  pending : ∀ t φ, ph t = some φ → Pending w t φ
  spent : ∀ t φ, ph t = some φ → Spent w φ
  recorded : ∀ id ∈ w.tokens, (∃ k c, w.current k = some c ∧ c.status.bootstrapTokenID = id) ∨
    ∃ t a, w.threads t = some a ∧ a.minting = some id

section Steps

variable {w w' : World} {ph ph' : Phases} {obs : Observed X} {t : ℕ} {φ ψ : Phase} {e : Eff}
  {r : Res e} {ch : Choice}

lemma handle_tokens (hh : w.handle t e ch = some (r, w')) {id : String} (hid : id ∈ w'.tokens) :
    id ∈ w.tokens ∨ (e = .createToken ∧ w.fresh id ∧ id ∈ w'.minted) := by
  by_cases hc : e = .createToken
  · subst hc
    rcases World.createToken_cases hh with ⟨tok, _, hf, rfl⟩ | ⟨_, _, rfl | ⟨id', _, hf, rfl, _⟩⟩
    · rcases List.mem_cons.mp hid with rfl | hid
      · exact .inr ⟨rfl, hf, by simp [World.note, World.mint]⟩
      · exact .inl hid
    · exact .inl hid
    · rcases List.mem_cons.mp hid with rfl | hid
      · exact .inr ⟨rfl, hf, by simp [World.mint]⟩
      · exact .inl hid
  · by_cases hd : ∃ id', e = .deleteToken id'
    · obtain ⟨id', rfl⟩ := hd
      rcases World.deleteToken_cases hh with rfl | ⟨rfl, _⟩
      · exact .inl (List.mem_of_mem_filter hid)
      · exact .inl hid
    · push Not at hd
      rw [(World.handle_frame hh).tokens hc hd] at hid
      exact .inl hid

lemma Moves.tokens (hm : Moves w ph obs w' ph') {id : String} (hid : id ∈ w'.tokens) :
    id ∈ w.tokens ∨ (w.fresh id ∧ id ∈ w'.minted) := by
  rcases hm with _ | @⟨_, _, _, _, _, _, _, _, _, hh⟩ | _ | _ | hx
  · exact .inl hid
  · exact (handle_tokens hh hid).imp_right fun h => h.2
  · exact .inl hid
  · exact .inl hid
  · rw [(World.outside_frame hx).2.2.1] at hid
    exact .inl hid

lemma Spent.later (hf : φ.Facts w) (hI : OrphanInv w ph) (hm : Moves w ph obs w' ph')
    (h : Spent w φ) :
    Spent w' φ := by
  intro v hv hid
  rcases Moves.tokens hm hid with hid | ⟨⟨hne, hnew⟩, _⟩
  · exact h v hv hid
  · exact hnew (hI.tokens.stored _ v (hf.stored v (Phase.freed_mem hv)) hne)

lemma deleted_of_answer {id : String} {r : Except Err Unit}
    (hh : w.handle t (.deleteToken id) ch = some (r, w'))
    (hA : deletesTokens (X := X) (.call t (.deleteToken id) r) = true) : id ∉ w'.tokens := by
  rcases World.deleteToken_cases hh with rfl | ⟨_, m, rfl⟩
  · simp
  · cases hA

lemma spent_act (hA : deletesTokens (X := X) (.call t e r) = true) (ha : Act φ e r ψ)
    (hh : w.handle t e ch = some (r, w')) (hkeep : Spent w' φ) : Spent w' ψ := by
  have hnone (hn : ψ.freed = []) : Spent w' ψ := by
    intro v hv
    rw [hn] at hv
    cases hv
  have hclose {nc : NodeClaim} {b : Bool} {x : Closing}
      (hc : φ.close = some (nc, b, x)) (y : Closing)
      (hs : y.stored = x.stored) (hf : y.freed = x.freed) : Spent w' (.closing nc b y) := by
    intro v hv
    refine hkeep v ?_
    rw [Phase.freed_of_close hc, ← hs, ← hf]
    exact hv
  cases ha with
  | silent | look | list | quietStart | quietWait | startFailed => exact hkeep
  | update _ hψ => cases hψ <;> exact hnone rfl
  | patch hw _ hψ =>
    cases hψ with
    | setLost | claimLost => exact hkeep
    | clearLost hc | clearErr hc => exact hclose hc _ rfl rfl
    | _ => exact hnone rfl
  | abandonClosing => exact hclose (x := ⟨_, _, _, none, _, true⟩) rfl _ rfl rfl
  | discard hc => exact hclose hc _ rfl rfl
  | free hc _ he =>
    intro v hv
    simp only [Phase.freed, if_true, List.mem_singleton] at hv
    rw [hv, ← he]
    exact deleted_of_answer hh hA
  | freeLeft | freeStale | collect =>
    intro v hv
    simp only [Phase.freed, List.mem_singleton] at hv
    rw [hv]
    exact deleted_of_answer hh hA
  | leaveStart | leaveOk | leaveErr => exact hnone rfl
  | _ => exact hnone rfl

lemma pending_act (hv : w.Valid) (hf : φ.Facts w) (hA : deletesTokens (X := X) (.call t e r) = true)
    (h : Pending w t φ) (ha : Act φ e r ψ) (hh : w.handle t e ch = some (r, w')) :
    Pending w' t ψ := by
  intro a' id ha' hmint
  rw [World.handle_threads hv hh, Function.update_self, Option.map_eq_some_iff] at ha'
  obtain ⟨a, hta, rfl⟩ := ha'
  have hold (hc : e ≠ .createToken) : φ.pending = some id :=
    h a id hta (World.minting_of_noted hc hmint)
  have hnot (hc : e ≠ .createToken) (hn : φ.pending = none) : False := by
    have := hold hc
    rw [hn] at this
    cases this
  cases ha with
  | @silent _ e _ hsil =>
    refine hold ?_
    rintro rfl
    cases hsil
  | look | list | quietStart | quietWait | startFailed => exact hold (by simp)
  | update hw hψ => cases hw; exact (hnot (by simp) rfl).elim
  | patch hw hn hψ =>
    cases hw with
    | claim => exact absurd rfl (hn _)
    | clear hc | release _ hc => exact (hnot (by simp) (Phase.pending_of_close hc)).elim
    | teardown => exact (hnot (by simp) rfl).elim
    | probe _ hp => exact (hnot (by simp) (by cases hp <;> rfl)).elim
    | set hst =>
      cases hst with
      | token id' =>
        have hid := hold (by simp)
        cases hψ with
        | setOk =>
          -- the record is written: nothing is in the making any more
          have hma : a.minting = some id := World.minting_of_noted (by simp) hmint
          cases hid
          simp [World.noted, World.markOk, World.markWrite, hma] at hmint
        | setLost | setErr => exact hid
        | clearOk hc | clearLost hc | clearErr hc => cases hc
      | _ => exact (hnot (by simp) rfl).elim
  | mint =>
    cases hmint
    rfl
  | mintFailed =>
    have := h a id hta hmint
    cases this
  | refetch hst | abandon hst =>
    have hid := hold (by simp)
    cases hst with
    | token => exact hid
    | _ => cases hid
  | discard hc =>
    have hid := Phase.own_of_pending (hold (by simp))
    rw [Phase.own_of_close hc] at hid
    cases hid
    -- the token is gone, and with it the need to deal with it
    have hma : a.minting = some id := World.minting_of_noted (by simp) hmint
    exfalso
    rename_i res
    cases res with
    | ok => simp [World.noted, World.forget_minting, hma] at hmint
    | error err =>
      have hnf : err.reason ≠ some (.other false) := by
        intro he
        simp [deletesTokens, Err.isNotFound, he] at hA
      simp [World.noted, hnf, World.forget_minting, hma] at hmint
  | free hc => exact (hnot (by simp) (Phase.pending_of_close hc)).elim
  | _ => exact (hnot (by simp) rfl).elim

lemma OrphanInv.stored_step (hI : OrphanInv w ph) (hm : Moves w ph obs w' ph')
    (hch : Change w ph obs w') (hA : replacesSpent w obs = true) {id : String} (hid : id ∈ w.tokens)
    (h : ∃ k c, w.current k = some c ∧ c.status.bootstrapTokenID = id) :
    ∃ k c, w'.current k = some c ∧ c.status.bootstrapTokenID = id := by
  obtain ⟨k, c, hc, rfl⟩ := h
  cases hch.from hc with
  | same hcur => exact ⟨k, c, hcur, rfl⟩
  | edited o' hp hst => exact ⟨k, o', hp.current, by rw [hst]⟩
  | written t φ o wr a o' hφ hf hw hobs ha hk hl =>
    refine ⟨k, o', hl.current, ?_⟩
    rw [hl.status]
    rcases hw.token_kept hf.sound with he | he | he | ⟨id, rfl, he⟩
    · exact he
    · exact absurd he (hI.live _ hid).2
    · exact absurd hid (hI.spent t φ hφ c he)
    · obtain rfl := hobs.patched hm (by simp)
      simp only [replacesSpent, decide_eq_true_eq] at hA
      rw [he, hA (carriedOut_of ha) c (hk ▸ hc) hid]

lemma recorded_act (hv : w.Valid) (hf : φ.Facts w) (hI : OrphanInv w ph) (ha : Act φ e r ψ)
    (hh : w.handle t e ch = some (r, w')) (hA : deletesTokens (X := X) (.call t e r) = true)
    (hc : e ≠ .createToken) {a : Activity} {id : String} (hmint : a.minting = some id)
    (hid : id ∈ w.tokens) (hid' : id ∈ w'.tokens) :
    (World.noted e r a).minting = some id ∨ ∃ k c, w'.current k = some c ∧
    c.status.bootstrapTokenID = id := by
  rcases World.noted_minting (r := r) hc a with he | ⟨he, id', hm', hd | ⟨o, hu | hp⟩⟩
  · exact .inl (he.trans hmint)
  · rw [hmint] at hm'
    cases hm'
    subst hd
    exact absurd hid' (deleted_of_answer hh hA)
  · subst hu
    cases ha with
    | silent hsil => cases hsil
  · rw [hmint] at hm'
    cases hm'
    subst hp
    cases ha with
    | silent hsil => cases hsil
    | patch hw _ _ =>
      have hans := answered_patch hv hf hw hh
      cases hans with
      | landed o' hl _ =>
        refine .inr ⟨_, o', hl.current, ?_⟩
        rw [hl.status]
        cases hw with
        | set => rw [outcome_self]; rfl
        | clear => exact absurd rfl (hI.live _ hid).2
      | refused err _ hr herr =>
        -- a write that was refused leaves the token in the making
        subst hr
        refine .inl ?_
        rcases herr with ⟨rfl, _⟩ | rfl | ⟨m, rfl⟩ <;>
          simpa [World.noted, World.conflictErr, World.notFoundErr, World.otherErr] using hmint

lemma OrphanInv.recorded_call (hv : w.Valid) (hf : φ.Facts w) (hI : OrphanInv w ph)
    (hA : collects (X := X) w (.call t e r) = true) (hφ : ph t = some φ) (ha : Act φ e r ψ)
    (hh : w.handle t e ch = some (r, w')) (hm : Moves (X := X) w ph (.call t e r) w' ph')
    (hch : Change (X := X) w ph (.call t e r) w') {id : String} (hid' : id ∈ w'.tokens) :
    (∃ k c, w'.current k = some c ∧ c.status.bootstrapTokenID = id) ∨
      ∃ u a, w'.threads u = some a ∧ a.minting = some id := by
  simp only [collects, Bool.and_eq_true] at hA
  obtain ⟨b, hb, _⟩ := hI.registered.record t φ hφ
  by_cases hc : e = .createToken
  · subst hc
    have hst := ((World.handle_frame hh).store (by simp) (by simp)).current
    have hpen : φ.pending = none := by
      cases ha with
      | silent hsil => cases hsil
      | mint | mintFailed => rfl
    -- what was there before is still there
    have hold (hid : id ∈ w.tokens) :
        (∃ k c, w'.current k = some c ∧ c.status.bootstrapTokenID = id) ∨
        ∃ u a, w'.threads u = some a ∧ a.minting = some id := by
      rcases hI.recorded id hid with ⟨k, c, hk, ht⟩ | ⟨u, a, hu, hmint⟩
      · exact .inl ⟨k, c, by rw [hst, hk], ht⟩
      · have hut : u ≠ t := by
          rintro rfl
          have := hI.pending u φ hφ a id hu hmint
          rw [hpen] at this
          cases this
        exact .inr ⟨u, a, by rw [(World.handle_frame hh).others u hut, hu], hmint⟩
    rcases World.createToken_cases hh with ⟨tok, rfl, _, rfl⟩ |
      ⟨err, rfl, rfl | ⟨id', m, _, rfl, rfl⟩⟩
    · rcases List.mem_cons.mp hid' with rfl | hid
      · exact .inr ⟨t, _, World.threads_after hv hh hb, rfl⟩
      · exact hold hid
    · exact hold hid'
    · simp [mintsWhole, World.otherErr] at hA
  · have hid : id ∈ w.tokens := (handle_tokens hh hid').resolve_right fun h => hc h.1
    rcases hI.recorded id hid with hs | ⟨u, a, hu, hmint⟩
    · exact .inl (hI.stored_step hm hch hA.2 hid hs)
    · by_cases hut : u = t
      · subst hut
        rcases recorded_act hv hf hI ha hh hA.1.1 hc hmint hid hid' with hn | hs
        · exact .inr ⟨u, _, World.threads_after hv hh hu, hn⟩
        · exact .inl hs
      · exact .inr ⟨u, a, by rw [(World.handle_frame hh).others u hut, hu], hmint⟩

lemma OrphanInv.recorded_leave (hI : OrphanInv w ph)
    (hn : ∀ a, w.threads t = some a → a.minting = none) {id : String} (hid : id ∈ w.tokens) :
    (∃ k c, (w.leave t).current k = some c ∧ c.status.bootstrapTokenID = id) ∨
      ∃ u a, (w.leave t).threads u = some a ∧ a.minting = some id := by
  rcases hI.recorded id hid with ⟨k, c, hk, ht⟩ | ⟨u, a, hu, hmint⟩
  · exact .inl ⟨k, c, hk, ht⟩
  · have hut : u ≠ t := by
      rintro rfl
      rw [hn a hu] at hmint
      cases hmint
    exact .inr ⟨u, a, by simp [World.leave, hut, hu], hmint⟩

end Steps

theorem kept_orphanInv : (protocol X).Kept (Passes collects) OrphanInv := by
  intro w ph obs w' ph' hv hf hI ha hm
  have ho : collects w obs = true := ha
  simp only [collects, Bool.and_eq_true] at ho
  have hch := Moves.change hv hf hm
  have hl : w.Later w' := hm.later hv
  refine ⟨kept_registered _ w ph obs w' ph' hv hf hI.registered ha hm,
    kept_tokensKnown _ w ph obs w' ph' hv hf hI.tokens ha hm, ?_, ?_, ?_, ?_⟩
  · intro id hid
    rcases Moves.tokens hm hid with hid | ⟨⟨hne, _⟩, hmint⟩
    · exact ⟨hl.minted _ (hI.live id hid).1, (hI.live id hid).2⟩
    · exact ⟨hmint, hne⟩
  · refine Moves.threads (T := Pending) hm hI.pending ?_ ?_ ?_
    · rintro t j _ _ rfl a id ha hr
      simp only [World.enter, Function.update_self, Option.some.injEq] at ha
      rw [← ha] at hr
      cases hr
    · rintro t φ e r ψ ch hφ hact hh rfl hT
      exact pending_act hv (hf t φ hφ) ho.1.1 hT hact hh
    · intro t φ hφ hact hT a id ha hr
      obtain ⟨b, hb, _⟩ := hI.registered.record t φ hφ
      rw [Moves.record_of_other hm hact hb] at ha
      cases ha
      exact hT _ id hb hr
  · refine Moves.threads (T := fun w _ φ => Spent w φ) hm hI.spent ?_ ?_ ?_
    · rintro t j _ _ _ v hv
      cases j <;> cases hv
    · rintro t φ e r ψ ch hφ hact hh rfl hT
      exact spent_act ho.1.1 hact hh (hT.later (hf t φ hφ) hI hm)
    · intro t φ hφ _ hT
      exact hT.later (hf t φ hφ) hI hm
  · intro id hid
    rcases hm with ⟨t, j, hn⟩ | @⟨t, φ, e, r, ψ, ch, _, hφ, hact, hh⟩ |
      @⟨t, φ, hφ, hfin⟩ | @⟨t, φ, hφ⟩ | hx
    · rcases hI.recorded id hid with ⟨k, c, hk, ht⟩ | ⟨u, a, hu, hmint⟩
      · exact .inl ⟨k, c, hk, ht⟩
      · have hut : u ≠ t := by
          rintro rfl
          obtain ⟨_, φ, hφ⟩ := hI.registered.running u a hu
          rw [hn] at hφ
          cases hφ
        exact .inr ⟨u, a, by simp [machine, World.enter, hut, hu], hmint⟩
    · exact hI.recorded_call hv (hf t φ hφ) ha hφ hact hh (.call hφ hact hh) hch hid
    · refine hI.recorded_leave (fun a hta => ?_) hid
      cases hmint : a.minting with
      | none => rfl
      | some id' =>
        have := Phase.own_of_pending (hI.pending t φ hφ a id' hta hmint)
        rw [show φ.own = none from hfin] at this
        cases this
    · refine hI.recorded_leave (fun a hta => ?_) hid
      simp only [mintsWhole, decide_eq_true_eq] at ho
      exact ho.1.2 a hta
    · obtain ⟨_, hth, htok, _⟩ := World.outside_frame hx
      rw [htok] at hid
      rcases hI.recorded id hid with hs | ⟨u, a, hu, hmint⟩
      · exact .inl (hI.stored_step (.outside hx) hch ho.2 hid hs)
      · exact .inr ⟨u, a, by rw [hth, hu], hmint⟩

lemma orphanInv_start (hosts : List SSHHost) : OrphanInv (World.start hosts) (fun _ => none) :=
  ⟨registered_start hosts, tokensKnown_start
      hosts, by simp [World.start], by simp, by simp, by simp [World.start]⟩

/-- In every run in which deletions succeed, tokens are not lost on the way to their record, and no
record of a live token is replaced, every token that exists is recorded while no launch is between
the two. -/
theorem live_tokens_recorded {hosts : List SSHHost} {c : Run X}
    (hr : Reaches (Passes collects) (idle X hosts) c)
    (hq : ∀ t a, c.world.threads t = some a → a.minting = none) {id : String}
    (hid : id ∈ c.world.tokens) :
    ∃ k h, c.world.current k = some h ∧ h.status.bootstrapTokenID = id := by
  obtain ⟨ph, _, hI⟩ := reached kept_orphanInv (orphanInv_start hosts) hr
  rcases hI.recorded id hid with hs | ⟨t, a, ha, hmint⟩
  · exact hs
  · rw [hq t a ha] at hmint
    cases hmint

section Sample

open Sample

lemma all_records {A : World → Observed X → Prop} {hosts : List SSHHost} {c : Run X}
    {P : Activity → Prop} (hr : Reaches A (idle X hosts) c)
    (h : ∀ t ∈ c.world.running, ∀ a ∈ c.world.threads t, P a) :
    ∀ t a, c.world.threads t = some a → P a := by
  obtain ⟨ph, _, hreg⟩ := reached (kept_registered A) (registered_start hosts) hr
  exact fun t a ha => h t (hreg.running t a ha).1 a ha

theorem live_tokens_recorded_joining :
    ∃ c : Run externals, Reaches (Passes collects) (idle externals hosts) c ∧
    "id1" ∈ c.world.tokens ∧
      ∃ k h, c.world.current k = some h ∧ h.status.bootstrapTokenID = "id1" := by
  obtain ⟨c, hr, hq⟩ := exists_of_replay (p := collects) (c := idle externals hosts)
    (l := admitting 0 k1 1000 ++ claiming 1 claimA k1 ++ preparing 1 ++
      installing 1 ++ joining 1 "id1")
    (Q := fun c => decide ("id1" ∈ c.world.tokens ∧
      ∀ t ∈ c.world.running, ∀ a ∈ c.world.threads t, a.minting = none)) (by decide +kernel)
  obtain ⟨hid, hq⟩ := of_decide_eq_true hq
  exact ⟨c, hr, hid, live_tokens_recorded hr (all_records hr hq) hid⟩

/-- A launch crashes while its join script runs, after the record was written; the next one records
its own token over it, and the first Secret is left with no record of it anywhere. -/
theorem resumed_create_orphans_token :
    ∃ c : Run externals, Reaches (Passes fun w o => orderly w o &&
      deletesTokens o && mintsWhole w o)
        (idle externals hosts) c ∧
      "id1" ∈ c.world.tokens ∧ (∀ t a, c.world.threads t = some a → a.minting = none) ∧
      ¬ ∃ k h, c.world.current k = some h ∧ h.status.bootstrapTokenID = "id1" := by
  obtain ⟨c, hr, hq⟩ :=
    exists_of_replay (p := fun w o => orderly w o && deletesTokens o && mintsWhole w o)
    (c := idle externals hosts)
    (l := admitting 0 k1 1000 ++ claiming 1 claimA k1 ++ preparing 1 ++ installing 1 ++
      joining 1 "id1" ++ [.crash 1] ++ resuming 2 claimA k1 ++ preparing 2 ++ joining 2 "id2")
    (Q := fun c => decide ("id1" ∈ c.world.tokens ∧
      (∀ t ∈ c.world.running, ∀ a ∈ c.world.threads t, a.minting = none) ∧
      ∀ k ∈ c.world.keys, ∀ h ∈ c.world.current k, h.status.bootstrapTokenID ≠ "id1"))
        (by decide +kernel)
  obtain ⟨hid, hq, hk⟩ := of_decide_eq_true hq
  refine ⟨c, hr, hid, all_records hr hq, ?_⟩
  rintro ⟨k, h, hh, ht⟩
  obtain ⟨ph, htr, _⟩ := reached (kept_registered _) (registered_start hosts) hr
  have hv : c.world.Valid := htr.valid
  exact hk k (hv.keys k h hh) h hh ht

end Sample

end KarpenterProviderSsh.Runs
