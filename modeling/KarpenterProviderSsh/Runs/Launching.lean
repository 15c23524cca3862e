import KarpenterProviderSsh.Runs.Following

/-! Create follows the protocol: the setters with their retries, the tokens, the join, the claim. -/

namespace KarpenterProviderSsh.Runs

open Api Cluster Scripts Providers Controllers Interleaving

variable {X : Externals} {t : ℕ} {φ : Phase} {w : World} {nc : NodeClaim} {r : Bool}

section Setters

def Stopped (nc : NodeClaim) (r : Bool) (st : Stage) (o : SSHHost) (ψ : Phase) : Prop :=
  (st = .joined → ψ.own = none) ∧
    (st ≠ .joined → ∃ s lost, ψ.close = some (nc, r, ⟨s, o, false, st.own, false, lost⟩) ∧
      (st.own = none → o.status.bootstrapTokenID = s.status.bootstrapTokenID))

lemma stopped_launch {st : Stage} {x : Setter} (hs : st.Sets x) (h : SSHHost) :
    Stopped nc r st h (.launch nc r h st) := by
  refine ⟨fun hj => by rw [hj]; rfl, fun hj => ?_⟩
  cases hs with
  | installed | token => exact ⟨h, false, rfl, fun _ => rfl⟩
  | providerID | inUse => exact absurd rfl hj

lemma stopped_closing {st : Stage} {x : Setter} (hs : st.Sets x) (h : SSHHost) :
    Stopped nc r st (withSet h x)
      (.closing nc r ⟨h, withSet h x, false, st.own, false, false⟩) := by
  refine ⟨fun hj => by rw [hj]; rfl, fun hj => ⟨h, false, rfl, ?_⟩⟩
  cases hs with
  | installed => exact fun _ => rfl
  | token => simp [Stage.own]
  | providerID | inUse => exact absurd rfl hj

lemma follows_setStatusOnce {st : Stage} {x : Setter} {h : SSHHost} (hs : st.Sets x)
    (hf : (Phase.launch nc r h st).Facts w) :
    Follows X t (fun a ψ => (a.2 = none → ψ = .launch nc r a.1 st.next) ∧
      ∀ e, a.2 = some e → (e.isConflict = true ∧ ψ = .launch nc r a.1 st ∧
          a.1.status.claimRef = h.status.claimRef) ∨
        (e.isConflict = false ∧ Stopped nc r st a.1 ψ))
      (.launch nc r h st) (setStatusOnce h.status.claimRef x h) w := by
  have hlast (e : Err) (hc : e.isConflict = false) (ψ : Phase) (hψ : (st = .joined ∧ ψ.own = none) ∨
      ψ = .closing nc r ⟨h, withSet h x, false, st.own, false, false⟩) :
      ∀ e', some e = some e' → (e'.isConflict = true ∧ ψ = .launch nc r (withSet h x) st ∧
          (withSet h x).status.claimRef = h.status.claimRef) ∨
        (e'.isConflict = false ∧ Stopped nc r st (withSet h x) ψ) := by
    rintro e' he
    cases he
    rcases hψ with ⟨rfl, ho⟩ | rfl
    · exact .inr ⟨hc, fun _ => ho, fun hj => absurd rfl hj⟩
    · exact .inr ⟨hc, stopped_closing hs h⟩
  unfold setStatusOnce
  refine .step hf fun w₁ ch a w₂ hv hf₁ hh => ?_
  cases a with
  | ok h' =>
    exact ⟨_, .patch (.set hs) (by simp) (.setOk hs), fun hf₂ => .ret hf₂ ⟨fun _ => rfl, by simp⟩⟩
  | error e =>
    by_cases hc : e.isConflict = true
    · refine ⟨_, .patch (.set hs) (by simp) (.setLost hc), fun hf₂ => ?_⟩
      dsimp only
      rw [if_pos hc]
      refine .step hf₂ fun w₃ ch' a w₄ hv' hf₃ hh' => ?_
      rcases World.getHost_answer hv' hh' with ⟨fresh, rfl, _, _, hk⟩ | ⟨_, gerr, rfl, hg, _⟩
      · by_cases hsame : sameClaim h.status.claimRef fresh.status.claimRef = true
        · have hcl := (sameClaim_iff _ _).mp hsame
          refine ⟨_, .refetch hs hcl.symm hk, fun hf₄ => ?_⟩
          dsimp only
          rw [if_pos hsame]
          refine .ret hf₄ ⟨by simp, ?_⟩
          rintro e' he
          cases he
          exact .inl ⟨hc, rfl, hcl.symm⟩
        · by_cases hj : st = .joined
          · refine ⟨_, .look (.inl rfl), fun hf₄ => ?_⟩
            dsimp only
            rw [if_neg hsame]
            exact .ret hf₄ ⟨by simp, hlast _ rfl _ (.inl ⟨hj, by rw [hj]; rfl⟩)⟩
          · refine ⟨_, .abandon hs hj, fun hf₄ => ?_⟩
            dsimp only
            rw [if_neg hsame]
            exact .ret hf₄ ⟨by simp, hlast _ rfl _ (.inr rfl)⟩
      · by_cases hj : st = .joined
        · exact ⟨_, .look (.inl rfl),
            fun hf₄ => .ret hf₄ ⟨by simp, hlast _ hg _ (.inl ⟨hj, by rw [hj]; rfl⟩)⟩⟩
        · exact ⟨_, .abandon hs hj, fun hf₄ => .ret hf₄ ⟨by simp, hlast _ hg _ (.inr rfl)⟩⟩
    · have hc' : e.isConflict = false := by simpa using hc
      by_cases hj : st = .joined
      · subst hj
        refine ⟨_, .patch (.set hs) (by simp) .lastErr, fun hf₂ => ?_⟩
        dsimp only
        rw [if_neg hc]
        exact .ret hf₂ ⟨by simp, hlast _ hc' _ (.inl ⟨rfl, rfl⟩)⟩
      · refine ⟨_, .patch (.set hs) (by simp) (.setErr hs hj), fun hf₂ => ?_⟩
        dsimp only
        rw [if_neg hc]
        exact .ret hf₂ ⟨by simp, hlast _ hc' _ (.inr rfl)⟩

lemma follows_retry {st : Stage} {x : Setter} (hs : st.Sets x) (n : ℕ) {h : SSHHost}
    {expect : Option ClaimReference} (he : h.status.claimRef = expect)
    (hf : (Phase.launch nc r h st).Facts w) :
    Follows X t (fun a ψ => (a.2 = none → ψ = .launch nc r a.1 st.next) ∧
      (a.2 ≠ none → Stopped nc r st a.1 ψ))
      (.launch nc r h st) (retryOnConflict (setStatusOnce expect x) (n + 1) h) w := by
  induction n generalizing h w with
  | zero =>
    subst he
    refine (follows_setStatusOnce hs hf).bind fun a ψ w' hf' hp => ?_
    obtain ⟨o, err⟩ := a
    cases err with
    | none => exact .ret hf' ⟨fun _ => hp.1 rfl, by simp⟩
    | some e =>
      simp only [ne_eq, not_true_eq_false, decide_false, Bool.and_false,
        Bool.false_eq_true, if_false]
      refine .ret hf' ⟨by simp, fun _ => ?_⟩
      rcases hp.2 e rfl with ⟨_, rfl, _⟩ | ⟨_, hstop⟩
      · exact stopped_launch hs o
      · exact hstop
  | succ n ih =>
    subst he
    refine (follows_setStatusOnce hs hf).bind fun a ψ w' hf' hp => ?_
    obtain ⟨o, err⟩ := a
    cases err with
    | none => exact .ret hf' ⟨fun _ => hp.1 rfl, by simp⟩
    | some e =>
      dsimp only
      rcases hp.2 e rfl with ⟨hc, rfl, hcl⟩ | ⟨hc, hstop⟩
      · rw [if_pos (by simp [hc])]
        exact ih hcl hf'
      · rw [if_neg (by simp [hc])]
        exact .ret hf' ⟨by simp, fun _ => hstop⟩

lemma follows_setStatus {st : Stage} {x : Setter} {h : SSHHost} (hs : st.Sets x)
    (hf : (Phase.launch nc r h st).Facts w) :
    Follows X t (fun a ψ => (a.2 = none → ψ = .launch nc r a.1 st.next) ∧
      (a.2 ≠ none → Stopped nc r st a.1 ψ))
      (.launch nc r h st) (setStatus h x) w :=
  follows_retry hs 3 rfl hf

end Setters

section Tokens

variable {s o : SSHHost} {started lost : Bool}

def Releasable (nc : NodeClaim) (r : Bool) (o : SSHHost) (started : Bool) (ψ : Phase) : Prop :=
  ∃ s lost, ψ.close = some (nc, r, ⟨s, o, started, none, false, lost⟩) ∧
    (o.status.bootstrapTokenID = "" ∨ o.status.bootstrapTokenID = s.status.bootstrapTokenID)

lemma Stopped.releasable {st : Stage} {ψ : Phase} (h : Stopped nc r st o ψ) (hj : st ≠ .joined)
    (hn : st.own = none) : Releasable nc r o false ψ := by
  obtain ⟨s, lost, hc, ht⟩ := h.2 hj
  exact ⟨s, lost, hn ▸ hc, .inr (ht hn)⟩

lemma follows_clearOnce (hf : φ.Facts w)
    (hc : φ.close = some (nc, r, ⟨s, o, started, none, false, lost⟩))
    (ht : o.status.bootstrapTokenID ≠ "" ∨ o = s) :
    Follows X t (fun a ψ => (a.2 = none →
      ψ = .closing nc r ⟨a.1, a.1, started, none, false, false⟩) ∧ ∀ e, a.2 = some e →
      (e.isConflict = true ∧ ψ = .closing nc r ⟨a.1, a.1, started, none, false, false⟩ ∧
          a.1.status.claimRef = o.status.claimRef) ∨
        (e.isConflict = false ∧ Releasable nc r a.1 started ψ))
      φ (setStatusOnce o.status.claimRef (.bootstrapTokenID "") o) w := by
  have hd : o.status.claimRef = s.status.claimRef := (Phase.close_sound hc hf.sound).2.1.claimRef
  have hk : o.key = s.key := (Phase.close_sound hc hf.sound).2.1.key
  have hlast (e : Err) (he : e.isConflict = false) (ψ : Phase)
      (hψ : ∃ l, ψ = .closing nc r ⟨s, withSet o (.bootstrapTokenID ""), started, none, false, l⟩) :
      ∀ e', some e = some e' →
        (e'.isConflict = true ∧ ψ = .closing nc r ⟨withSet o (.bootstrapTokenID ""),
          withSet o (.bootstrapTokenID ""), started, none, false, false⟩ ∧
          (withSet o (.bootstrapTokenID "")).status.claimRef = o.status.claimRef) ∨
        (e'.isConflict = false ∧ Releasable nc r (withSet o (.bootstrapTokenID "")) started ψ) := by
    rintro e' h
    cases h
    obtain ⟨l, rfl⟩ := hψ
    exact .inr ⟨he, s, l, rfl, .inl rfl⟩
  unfold setStatusOnce
  refine .step hf fun w₁ ch a w₂ hv hf₁ hh => ?_
  cases a with
  | ok h' =>
    exact ⟨_, .patch (.clear hc ht) (by simp) (.clearOk hc),
      fun hf₂ => .ret hf₂ ⟨fun _ => rfl, by simp⟩⟩
  | error e =>
    by_cases hcf : e.isConflict = true
    · refine ⟨_, .patch (.clear hc ht) (by simp) (.clearLost hc hcf), fun hf₂ => ?_⟩
      dsimp only
      rw [if_pos hcf]
      refine .step hf₂ fun w₃ ch' a w₄ hv' hf₃ hh' => ?_
      rcases World.getHost_answer hv' hh' with ⟨fresh, rfl, _, _, hkey⟩ | ⟨_, gerr, rfl, hg, _⟩
      · by_cases hsame : sameClaim o.status.claimRef fresh.status.claimRef = true
        · have hcl := (sameClaim_iff _ _).mp hsame
          refine ⟨_, .refetchClosing (hcl.symm.trans hd) (hkey.trans hk), fun hf₄ => ?_⟩
          dsimp only
          rw [if_pos hsame]
          refine .ret hf₄ ⟨by simp, ?_⟩
          rintro e' he
          cases he
          exact .inl ⟨hcf, rfl, hcl.symm⟩
        · refine ⟨_, .abandonClosing, fun hf₄ => ?_⟩
          dsimp only
          rw [if_neg hsame]
          exact .ret hf₄ ⟨by simp, hlast _ rfl _ ⟨_, rfl⟩⟩
      · exact ⟨_, .abandonClosing, fun hf₄ => .ret hf₄ ⟨by simp, hlast _ hg _ ⟨_, rfl⟩⟩⟩
    · have hcf' : e.isConflict = false := by simpa using hcf
      refine ⟨_, .patch (.clear hc ht) (by simp) (.clearErr hc hcf'), fun hf₂ => ?_⟩
      dsimp only
      rw [if_neg hcf]
      exact .ret hf₂ ⟨by simp, hlast _ hcf' _ ⟨_, rfl⟩⟩

lemma follows_clearRetry (n : ℕ) {expect : Option ClaimReference} (hf : φ.Facts w)
    (hc : φ.close = some (nc, r, ⟨s, o, started, none, false, lost⟩))
    (ht : o.status.bootstrapTokenID ≠ "" ∨ o = s) (he : o.status.claimRef = expect) :
    Follows X t (fun a ψ => Releasable nc r a.1 started ψ) φ
      (retryOnConflict (setStatusOnce expect (.bootstrapTokenID "")) (n + 1) o) w := by
  have hsame (o' : SSHHost) :
      Releasable nc r o' started (.closing nc r ⟨o', o', started, none, false, false⟩) :=
    ⟨o', false, rfl, .inr rfl⟩
  induction n generalizing φ s o lost w with
  | zero =>
    subst he
    refine (follows_clearOnce hf hc ht).bind fun a ψ w' hf' hp => ?_
    obtain ⟨o', err⟩ := a
    cases err with
    | none => exact .ret hf' (hp.1 rfl ▸ hsame o')
    | some e =>
      simp only [ne_eq, not_true_eq_false, decide_false, Bool.and_false,
        Bool.false_eq_true, if_false]
      refine .ret hf' ?_
      rcases hp.2 e rfl with ⟨_, rfl, _⟩ | ⟨_, hrel⟩
      · exact hsame o'
      · exact hrel
  | succ n ih =>
    subst he
    refine (follows_clearOnce hf hc ht).bind fun a ψ w' hf' hp => ?_
    obtain ⟨o', err⟩ := a
    cases err with
    | none => exact .ret hf' (hp.1 rfl ▸ hsame o')
    | some e =>
      dsimp only
      rcases hp.2 e rfl with ⟨hcf, rfl, hcl⟩ | ⟨hcf, hrel⟩
      · rw [if_pos (by simp [hcf])]
        exact ih hf' rfl (.inr rfl) hcl
      · rw [if_neg (by simp [hcf])]
        exact .ret hf' hrel

lemma follows_deleteToken {tok : BootstrapToken} (hf : φ.Facts w)
    (hc : φ.close = some (nc, r, ⟨s, o, started, some tok.id, false, lost⟩)) :
    Follows X t (fun o' ψ => Releasable nc r o' started ψ) φ (deleteToken o tok) w := by
  -- the token given up is deleted first, then forgotten on the host
  have hid : tok.id ≠ "" := by
    intro h
    exact (Phase.close_sound hc hf.sound).2.2 (by simp [h])
  have hrest (w' : World) (hf' : (Phase.closing nc r ⟨s, o, started, none, false, lost⟩).Facts w') :
      Follows X t (fun o' ψ => Releasable nc r o' started ψ)
        (.closing nc r ⟨s, o, started, none, false, lost⟩)
        (if o.status.bootstrapTokenID = "" then pure o
          else do let r ← setBootstrapTokenID o ""; return r.1) w' := by
    split_ifs with ht
    · exact .ret hf' ⟨s, lost, rfl, .inl ht⟩
    · exact (follows_clearRetry 3 hf' rfl (.inl ht) rfl).bind fun a ψ w'' hf'' hr => .ret hf'' hr
  unfold deleteToken deleteTokenByID
  rw [if_neg hid, Prog.bind_assoc]
  refine .step hf fun _ _ a _ _ _ _ => ⟨_, .discard hc, fun hf' => ?_⟩
  cases a <;> exact hrest _ hf'

lemma follows_releaseHost {healthy : Bool} {reason : String} (hf : φ.Facts w)
    (hr : Releasable nc r o started φ) (hh : healthy = true → started = false) :
    Follows X t Ended φ (releaseHost o healthy reason) w := by
  obtain ⟨s, lost, hc, ht⟩ := hr
  have hrel (φ' : Phase) (w' : World) (freed : Bool) (hf' : φ'.Facts w')
      (hc' : φ'.close = some (nc, r, ⟨s, o, started, none, freed, lost⟩))
      (ht' : o.status.bootstrapTokenID = "" ∨
        (freed = true ∧ o.status.bootstrapTokenID = s.status.bootstrapTokenID)) :
      Follows X t Ended φ' (do let _ ← release o healthy reason; return ()) w' := by
    unfold release
    rw [Prog.bind_assoc]
    refine .step hf' fun _ _ a _ _ _ _ => ?_
    refine ⟨_, .patch (.release reason hc' hh ht') (by simp) .released, fun hf'' => ?_⟩
    cases a <;> exact .ret hf'' rfl
  unfold releaseHost deleteBootstrapToken
  split_ifs with hn
  · exact hrel φ w false hf hc (.inl hn)
  · have htok := ht.resolve_left hn
    unfold deleteTokenByID
    rw [if_neg hn, Prog.bind_assoc, Prog.bind_assoc]
    refine .step hf fun _ _ a _ _ _ _ => ⟨_, .free hc hn htok, fun hf' => ?_⟩
    cases a <;> exact hrel _ _ true hf' rfl (.inr ⟨rfl, htok⟩)

end Tokens

section Joining

variable {h : SSHHost}

lemma releasable_prepare : Releasable nc r h false (.launch nc r h .prepare) :=
  ⟨h, false, rfl, .inr rfl⟩

lemma follows_runInstall {p : Preparation} (hf : (Phase.launch nc r h .prepare).Facts w) :
    Follows X t (fun a ψ => (a.2 = none → ψ = .launch nc r a.1 .prepare) ∧
      (a.2 ≠ none → Releasable nc r a.1 false ψ))
      (.launch nc r h .prepare) (runInstall X p h) w := by
  unfold runInstall
  split_ifs
  · exact .ret hf ⟨fun _ => rfl, by simp⟩
  have hq := (dials_runPhase (X := X) p.target h p.profile .install p.context p.env).quiet
    (by simp) (by simp)
  refine .quiet hq hf fun a w' hf' => ?_
  cases a with
  | error e => exact .ret hf' ⟨by simp, fun _ => releasable_prepare⟩
  | ok x =>
    refine (follows_setStatus (.installed _) hf').conseq fun a ψ hp => ⟨hp.1, fun hne => ?_⟩
    exact (hp.2 hne).releasable (by simp) rfl

def Joins (nc : NodeClaim) (r : Bool) (a : SSHHost × Option Err) (ψ : Phase) : Prop :=
  (a.2 = none → ψ = .launch nc r a.1 .joined) ∧
    ∀ e, a.2 = some e → ∃ started, Releasable nc r a.1 started ψ ∧
    (e.config = true → started = false)

lemma joins_error {o : SSHHost} {e : Err} {started : Bool} {ψ : Phase}
    (hr : Releasable nc r o started ψ) (hc : e.config = true → started = false) :
    Joins nc r (o, some e) ψ := by
  refine ⟨by simp, ?_⟩
  rintro e' he
  cases he
  exact ⟨started, hr, hc⟩

lemma follows_runJoin {p : Preparation} (hf : (Phase.launch nc r h .prepare).Facts w) :
    Follows X t (Joins nc r) (.launch nc r h .prepare) (runJoin X p h) w := by
  -- every failure deletes the token before it is reported
  have hdrop (tok : BootstrapToken) (e : Err) (o s : SSHHost) (started lost : Bool) (φ' : Phase)
      (w' : World) (hf' : φ'.Facts w')
      (hc : φ'.close = some (nc, r, ⟨s, o, started, some tok.id, false, lost⟩))
      (he : e.config = true → started = false) :
      Follows X t (Joins nc r) φ' (do let h ← deleteToken o tok; return (h, some e)) w' :=
    (follows_deleteToken hf' hc).bind fun o' ψ w'' hf'' hr => .ret hf'' (joins_error hr he)
  unfold runJoin
  refine .step hf fun w₁ ch a w₂ hv hf₁ hh => ?_
  cases a with
  | error e =>
    exact ⟨_, .mintFailed, fun hf₂ => .ret hf₂ (joins_error releasable_prepare (by simp))⟩
  | ok tok =>
    refine ⟨_, .mint, fun hf₂ => ?_⟩
    dsimp only
    split
    · exact hdrop tok _ h h false false _ _ hf₂ rfl (by simp)
    refine (follows_setStatus (.token tok.id) hf₂).bind fun a ψ w₃ hf₃ hp => ?_
    obtain ⟨o, err⟩ := a
    cases err with
    | some e =>
      obtain ⟨s, lost, hc, _⟩ := (hp.2 (by simp)).2 (by simp)
      exact hdrop tok _ o s false lost _ _ hf₃ hc (by simp)
    | none =>
      obtain rfl := hp.1 rfl
      refine (follows_join (dials_runPhase _ _ _ _ _ _) hf₃).bind fun a ψ w₄ hf₄ hp => ?_
      cases a with
      | ok x => exact .ret hf₄ ⟨fun _ => hp.1 x rfl, by simp⟩
      | error e =>
        rcases hp.2 e rfl with rfl | ⟨rfl, hcfg⟩
        · exact hdrop tok _ o o false false _ _ hf₄ rfl (by simp)
        · refine hdrop tok _ o o true false _ _ hf₄ rfl ?_
          simp [redactPhaseErr, hcfg]

lemma follows_joinHost {nodeClass : SSHNodeClass X} (hf : (Phase.launch nc r h .prepare).Facts w) :
    Follows X t (Joins nc r) (.launch nc r h .prepare) (join X nodeClass nc h) w := by
  unfold join
  refine .quiet (quiet_prepare nodeClass nc h) hf fun a w₁ hf₁ => ?_
  cases a with
  | error e => exact .ret hf₁ (joins_error releasable_prepare (by simp))
  | ok p =>
    refine (follows_runInstall hf₁).bind fun a ψ w₂ hf₂ hp => ?_
    obtain ⟨o, err⟩ := a
    cases err with
    | some e => exact .ret hf₂ (joins_error (hp.2 (by simp)) (by simp))
    | none =>
      obtain rfl := hp.1 rfl
      exact follows_runJoin hf₂

lemma follows_launch {nodeClass : SSHNodeClass X} (hf : (Phase.launch nc r h .prepare).Facts w) :
    Follows X t Ended (.launch nc r h .prepare) (launch X nodeClass nc h) w := by
  unfold launch
  refine (follows_joinHost hf).bind fun a ψ w₁ hf₁ hp => ?_
  obtain ⟨o, err⟩ := a
  cases err with
  | some e =>
    obtain ⟨started, hr, hc⟩ := hp.2 e rfl
    exact (follows_releaseHost hf₁ hr hc).bind fun _ _ _ hf₂ he => .ret hf₂ he
  | none =>
    obtain rfl := hp.1 rfl
    have hq :
        Quiet (if nodeClass.adoptsProviderID then adoptProviderID o else pure
        (.ok (providerID o))) := by
      split_ifs
      · exact quiet_adoptProviderID o
      · trivial
    refine .quiet hq hf₁ fun a w₂ hf₂ => ?_
    cases a with
    | error e =>
      have hr : Releasable nc r o true (.launch nc r o .joined) := ⟨o, false, rfl, .inr rfl⟩
      exact (follows_releaseHost hf₂ hr (by simp)).bind fun _ _ _ hf₃ he => .ret hf₃ he
    | ok id =>
      refine (follows_setStatus (.providerID id) hf₂).bind fun a ψ w₃ hf₃ hp => ?_
      obtain ⟨o', err⟩ := a
      cases err with
      | some e => exact .ret hf₃ ((hp.2 (by simp)).1 rfl)
      | none =>
        obtain rfl := hp.1 rfl
        refine (follows_setStatus .inUse hf₃).bind fun a ψ _ hf₄ hp => .ret hf₄ ?_
        by_cases hn : a.2 = none
        · rw [hp.1 hn]
          rfl
        · exact (hp.2 hn).1 rfl

end Joining

section Claiming

lemma follows_available {selector : Option X.LabelSelector} {cls : String} {cs : List SSHHost}
    (hf : (Phase.picking nc cs).Facts w) :
    Follows X t (fun a ψ => (∀ ds, a = .ok ds → ψ = .picking nc ds) ∧
      ∀ e, a = .error e → ψ = .picking nc cs) (.picking nc cs) (available X selector cls) w := by
  have hpick (os os' : List SSHHost) (hs : ∀ o ∈ os', o ∈ os) : ∀ o ∈ (os'.filter (fun h =>
      claimable h && (cls == "" || hostClass h == cls))).insertionSort oldestFirst,
      o ∈ os ∧ claimable o = true := by
    intro o ho
    rw [List.mem_insertionSort, List.mem_filter, Bool.and_eq_true] at ho
    exact ⟨hs o ho.1, ho.2.1⟩
  unfold available list
  split
  · refine .step hf fun _ _ a _ _ _ _ => ?_
    cases a with
    | error e => exact ⟨_, .list rfl, fun hf' => .ret hf' ⟨by simp, fun _ _ => rfl⟩⟩
    | ok os =>
      refine ⟨_, .pick (hpick os os fun _ ho => ho), fun hf' => .ret hf' ⟨?_, by simp⟩⟩
      rintro ds he
      cases he
      rfl
  · split
    · exact .ret hf ⟨by simp, fun _ _ => rfl⟩
    · rename_i matchesLabels _
      rw [Prog.bind_assoc]
      refine .step hf fun _ _ a _ _ _ _ => ?_
      cases a with
      | error e => exact ⟨_, .list rfl, fun hf' => .ret hf' ⟨by simp, fun _ _ => rfl⟩⟩
      | ok os =>
        refine ⟨_, .pick (hpick os (os.filter fun h => matchesLabels h.labels)
          fun _ ho => (List.mem_filter.mp ho).1), fun hf' => .ret hf' ⟨?_, by simp⟩⟩
        rintro ds he
        cases he
        rfl

lemma follows_claimFirst {cs ds : List SSHHost} (hs : ∀ o ∈ ds, o ∈ cs)
    (hf : (Phase.picking nc cs).Facts w) :
    Follows X t (fun a ψ => (∀ h, a = .ok (some h) → ψ = .launch nc false h .prepare) ∧
      (a = .ok none → ψ = .picking nc cs) ∧ ψ.own = none) (.picking nc cs)
        (claimFirst nc ds) w := by
  induction ds generalizing w with
  | nil => exact .ret hf ⟨by simp, fun _ => rfl, rfl⟩
  | cons c ds ih =>
    unfold claimFirst claim
    rw [Prog.bind_assoc]
    have hw : Writes (.picking nc cs) c c (.claim nc.ref) := .claim (hs c (by simp))
    refine .step hf fun _ _ a _ _ _ _ => ?_
    cases a with
    | ok h' =>
      refine ⟨_, .update hw .claimOk, fun hf' => .ret hf' ⟨?_, by simp, rfl⟩⟩
      rintro h he
      cases he
      rfl
    | error e =>
      by_cases hc : e.isConflict = true
      · refine ⟨_, .update hw (.claimLost hc), fun hf' => ?_⟩
        dsimp only
        rw [if_pos hc]
        exact ih (fun o ho => hs o (by simp [ho])) hf'
      · refine ⟨_, .update hw .claimErr, fun hf' => ?_⟩
        dsimp only
        rw [if_neg hc]
        exact .ret hf' ⟨by simp, by simp, rfl⟩

lemma follows_claimCheapest {nodeClass : SSHNodeClass X} {its : List InstanceType}
    {cs : List SSHHost} (hf : (Phase.picking nc cs).Facts w) :
    Follows X t (fun a ψ => (∀ h, a = .ok (some h) → ψ = .launch nc false h .prepare) ∧
      ψ.own = none)
      (.picking nc cs) (claimCheapest X nodeClass nc its) w := by
  induction its generalizing cs w with
  | nil => exact .ret hf ⟨by simp, rfl⟩
  | cons it its ih =>
    unfold claimCheapest
    refine (follows_available hf).bind fun a ψ w₁ hf₁ hp => ?_
    cases a with
    | error e =>
      obtain rfl := hp.2 e rfl
      exact .ret hf₁ ⟨by simp, rfl⟩
    | ok ds =>
      obtain rfl := hp.1 ds rfl
      refine (follows_claimFirst (fun _ ho => ho) hf₁).bind fun a ψ w₂ hf₂ hp => ?_
      rcases a with e | _ | h
      · exact .ret hf₂ ⟨by simp, hp.2.2⟩
      · obtain rfl := hp.2.1 rfl
        exact ih hf₂
      · refine .ret hf₂ ⟨?_, hp.2.2⟩
        rintro h' he
        cases he
        exact hp.1 h rfl

theorem follows_create {nodeClass : SSHNodeClass X} {its : List InstanceType}
    (hf : (Phase.lookup nc).Facts w) :
    Follows X t Ended (.lookup nc) (create X nodeClass nc its) w := by
  unfold create byClaim list
  rw [Prog.bind_assoc]
  refine .step hf fun _ _ a _ _ _ _ => ?_
  cases a with
  | error e => exact ⟨_, .list rfl, fun hf' => .ret hf' rfl⟩
  | ok os =>
    cases hfind : os.find? (fun h => claimHeldBy h nc) with
    | some o =>
      have ho : claimHeldBy o nc = true := List.find?_some (p := fun h => claimHeldBy h nc) hfind
      refine ⟨_, .found (List.mem_of_find?_eq_some hfind) ho, fun hf' => ?_⟩
      dsimp only
      rw [hfind]
      exact follows_launch hf'
    | none =>
      have hn : ∀ o ∈ os, claimHeldBy o nc = false := by simpa using List.find?_eq_none.mp hfind
      refine ⟨_, .none hn, fun hf' => ?_⟩
      dsimp only
      rw [hfind]
      refine (follows_claimCheapest hf').bind fun a ψ w₁ hf₁ hp => ?_
      rcases a with e | _ | h
      · exact .ret hf₁ hp.2
      · exact .ret hf₁ hp.2
      · obtain rfl := hp.1 h rfl
        exact follows_launch hf₁

end Claiming

end KarpenterProviderSsh.Runs
