import KarpenterProviderSsh.Runs.Knowledge

/-! The provider's building blocks follow the protocol: reads and scripts, the field setters with
their retries, and the tokens. -/

namespace KarpenterProviderSsh.Runs

open Api Cluster Scripts Providers Controllers Interleaving

variable {X : Externals} {α β : Type} {t : ℕ} {φ : Phase} {w : World}

def Follows (X : Externals) (t : ℕ) (post : α → Phase → Prop) (φ : Phase) (p : Cluster.Prog α)
    (w : World) : Prop :=
  (protocol X).Safe t (fun a ψ _ => post a ψ) φ p w

section Rules

variable {post : α → Phase → Prop} {post' : β → Phase → Prop}

lemma Follows.ret (hf : φ.Facts w) {a : α} (h : post a φ) : Follows X t post φ (.ret a) w := ⟨hf, h⟩

lemma Follows.request {e : Eff} {k : Res e → Cluster.Prog α} (hf : φ.Facts w)
    (h : ∀ w₁ ch r w₂, w₁.Valid → φ.Facts w₁ → w₁.handle t e ch = some (r, w₂) →
      ∃ ψ, Act φ e r ψ ∧ (ψ.Facts w₂ → Follows X t post ψ (k r) w₂)) :
    Follows X t post φ (.call e k) w := by
  refine ⟨hf, ?_⟩
  intro w₁ ch r w₂ hv hl hh
  have hf₁ : φ.Facts w₁ := hf.later hl
  obtain ⟨ψ, ha, hk⟩ := h w₁ ch r w₂ hv hf₁ hh
  exact ⟨ψ, ha, hk (facts_act hv hf₁ ha hh)⟩

lemma Follows.step {e : Eff} {f : Res e → Cluster.Prog α} (hf : φ.Facts w)
    (h : ∀ w₁ ch r w₂, w₁.Valid → φ.Facts w₁ → w₁.handle t e ch = some (r, w₂) →
      ∃ ψ, Act φ e r ψ ∧ (ψ.Facts w₂ → Follows X t post ψ (f r) w₂)) :
    Follows X t post φ (Cluster.request e >>= f) w :=
  .request hf h

lemma Follows.bind {p : Cluster.Prog α} {f : α → Cluster.Prog β} (h : Follows X t post φ p w)
    (hf : ∀ a ψ w', ψ.Facts w' → post a ψ → Follows X t post' ψ (f a) w') :
    Follows X t post' φ (p >>= f) w :=
  Protocol.Safe.bind h hf

lemma Follows.conseq {post' : α → Phase → Prop} {p : Cluster.Prog α} (h : Follows X t post φ p w)
    (hp : ∀ a ψ, post a ψ → post' a ψ) : Follows X t post' φ p w :=
  Protocol.Safe.conseq h (fun a ψ _ => hp a ψ)

def Ended (_ : α) (ψ : Phase) : Prop := ψ.own = none

lemma Follows.drop {p : Cluster.Prog α} (h : Follows X t Ended φ p w) :
    Follows X t Ended φ (p >>= fun _ => pure ()) w :=
  h.bind fun _ _ _ hf he => .ret hf he

end Rules

section Quiet

inductive QuietRequest : Eff → Prop
  | silent {e} : Silent e = true → QuietRequest e
  | start {k p a b} : p ≠ .join → p ≠ .leave → QuietRequest (.sshStart k p a b)
  | wait {k p} : p ≠ .join → p ≠ .leave → QuietRequest (.sshWait k p)

def Quiet : Cluster.Prog α → Prop
  | .ret _ => True
  | .call e k => QuietRequest e ∧ ∀ r, Quiet (k r)

lemma Quiet.bind {p : Cluster.Prog α} {f : α → Cluster.Prog β} (hp : Quiet p)
    (hf : ∀ a, Quiet (f a)) :
    Quiet (p >>= f) := by
  induction p with
  | ret a => exact hf a
  | call e k ih => exact ⟨hp.1, fun r => ih r (hp.2 r)⟩

lemma QuietRequest.act {e : Eff} (h : QuietRequest e) (r : Res e) : Act φ e r φ := by
  cases h with
  | silent h => exact .silent h
  | start h h' => exact .quietStart h h'
  | wait h h' => exact .quietWait h h'

lemma Quiet.follows {p : Cluster.Prog α} (hp : Quiet p) (hf : φ.Facts w) :
    Follows X t (fun _ ψ => ψ = φ) φ p w := by
  induction p generalizing w with
  | ret a => exact .ret hf rfl
  | call e k ih =>
    refine .request hf fun _ _ r _ _ _ _ => ⟨φ, hp.1.act r, fun hf' => ?_⟩
    exact ih r (hp.2 r) hf'

lemma Follows.quiet {post : β → Phase → Prop} {p : Cluster.Prog α}
    {f : α → Cluster.Prog β} (hp : Quiet p) (hf : φ.Facts w)
    (h : ∀ a w', φ.Facts w' → Follows X t post φ (f a) w') :
    Follows X t post φ (p >>= f) w :=
  (hp.follows hf).bind fun a ψ w' hf' hψ => by
    subst hψ
    exact h a w' hf'

lemma quiet_request {e : Eff} (h : Silent e = true) : Quiet (request e) :=
  ⟨.silent h, fun _ => trivial⟩

lemma quiet_readSSHCredentials (h : SSHHost) : Quiet (readSSHCredentials X h) := by
  refine (quiet_request rfl).bind fun r => ?_
  cases r with
  | error e => trivial
  | ok data =>
    dsimp only
    split
    · trivial
    · split
      · trivial
      · split <;> trivial

lemma quiet_clusterInfo (nodeClass : SSHNodeClass X) : Quiet (clusterInfo X nodeClass) := by
  unfold clusterInfo
  split
  · split_ifs
    · trivial
    · exact quiet_request rfl
  · exact quiet_request rfl

lemma quiet_joinSecrets (nodeClass : SSHNodeClass X) (h : SSHHost) :
    Quiet (joinSecrets nodeClass h) := by
  unfold joinSecrets
  split
  · trivial
  · refine (quiet_request rfl).bind fun r => ?_
    cases r <;> trivial

lemma quiet_prepare (nodeClass : SSHNodeClass X) (nc : NodeClaim) (h : SSHHost) :
    Quiet (prepare X nodeClass nc h) := by
  refine (quiet_request rfl).bind fun r => ?_
  cases r with
  | error e => trivial
  | ok prof =>
    refine (quiet_readSSHCredentials h).bind fun r => ?_
    cases r with
    | error e => trivial
    | ok creds =>
      refine (quiet_clusterInfo nodeClass).bind fun r => ?_
      cases r with
      | error e => trivial
      | ok info =>
        refine (quiet_joinSecrets nodeClass h).bind fun r => ?_
        cases r with
        | error e => trivial
        | ok secrets =>
          dsimp only
          split <;> trivial

lemma quiet_pollNodes (ip : String) (n : ℕ) : Quiet (pollNodes ip n) := by
  induction n with
  | zero => trivial
  | succ n ih =>
    refine (quiet_request rfl).bind fun nodes => ?_
    dsimp only
    split
    · trivial
    · refine (quiet_request rfl).bind fun more => ?_
      cases more
      · trivial
      · exact ih

lemma quiet_adoptProviderID (h : SSHHost) : Quiet (adoptProviderID h) := by
  refine (quiet_pollNodes _ _).bind fun r => ?_
  cases r <;> trivial

lemma quiet_nodeByInternalIP (ip : String) : Quiet (nodeByInternalIP ip) := by
  refine (quiet_request rfl).bind fun r => ?_
  cases r <;> trivial

lemma quiet_session {k : NamespacedName} {p : ScriptPhase} (target : Target) (payload : Payload)
    (hj : p ≠ .join) (hl : p ≠ .leave) : Quiet (session k p target payload) := by
  refine ⟨.start hj hl, fun r => ?_⟩
  cases r with
  | error e => trivial
  | ok u => exact ⟨.wait hj hl, fun _ => trivial⟩

end Quiet

section Scripts

def Dials (k : NamespacedName) (phase : ScriptPhase) (p : Cluster.Prog (Except Err ExecResult)) :
    Prop :=
  (∃ e, p = .ret (.error e)) ∨ ∃ target payload, p = session k phase target payload

lemma dials_run (k : NamespacedName) (phase : ScriptPhase) (target : Target) (text : String)
    (env : List (String × String)) : Dials k phase (run k phase target text env) := by
  unfold run
  split
  · exact .inl ⟨_, rfl⟩
  · exact .inr ⟨_, _, rfl⟩

lemma dials_runShim (k : NamespacedName) (target : Target) (e : Envelope) :
    Dials k e.phase (runShim k target e) := by
  unfold runShim
  split
  · exact .inl ⟨_, rfl⟩
  · exact .inr ⟨_, _, rfl⟩

lemma dials_runVerifiedPhase (target : Target) (h : SSHHost) (prof : SSHJoinProfile)
    (phase : ScriptPhase) (env : List (String × String)) :
    Dials h.key phase (runVerifiedPhase X target h prof phase env) := by
  have hsend (tg : Target) (raw sig : String) :
      Dials h.key phase (runShim h.key tg ⟨phase, raw, sig, env⟩) :=
        dials_runShim h.key tg ⟨phase, raw, sig, env⟩
  unfold runVerifiedPhase
  dsimp only
  split_ifs
  · exact .inl ⟨_, rfl⟩
  · exact .inl ⟨_, rfl⟩
  · exact .inl ⟨_, rfl⟩
  · exact hsend _ _ _
  · split
    · exact .inl ⟨_, rfl⟩
    · split
      · exact .inl ⟨_, rfl⟩
      · exact hsend _ _ _

lemma dials_runPhase (target : Target) (h : SSHHost) (prof : SSHJoinProfile) (phase : ScriptPhase)
    (pctx : Context) (env : List (String × String)) :
    Dials h.key phase (runPhase X target h prof phase pctx env) := by
  unfold runPhase
  split_ifs
  · exact dials_runVerifiedPhase target h prof phase env
  · split
    · exact .inl ⟨_, rfl⟩
    · exact dials_run _ _ _ _ _

lemma Dials.quiet {k : NamespacedName} {phase : ScriptPhase}
    {p : Cluster.Prog (Except Err ExecResult)} (h : Dials k phase p) (hj : phase ≠ .join)
    (hl : phase ≠ .leave) : Quiet p := by
  rcases h with ⟨e, rfl⟩ | ⟨_, _, rfl⟩
  · trivial
  · exact quiet_session _ _ hj hl

lemma follows_join {nc : NodeClaim} {r : Bool} {h : SSHHost} {id : String}
    {p : Cluster.Prog (Except Err ExecResult)} (hd : Dials h.key .join p)
    (hf : (Phase.launch nc r h (.recorded id)).Facts w) :
    Follows X t (fun a ψ => (∀ x, a = .ok x → ψ = .launch nc r h .joined) ∧
      ∀ e, a = .error e → ψ = .launch nc r h (.recorded id) ∨
        (ψ = .closing nc r ⟨h, h, true, some id, false, false⟩ ∧ e.config = false))
      (.launch nc r h (.recorded id)) p w := by
  rcases hd with ⟨e, rfl⟩ | ⟨target, payload, rfl⟩
  · exact .ret hf ⟨by simp, fun e he => .inl rfl⟩
  · refine .request hf fun w₁ ch a w₂ hv hf₁ hh => ?_
    cases a with
    | error e => exact ⟨_, .startFailed, fun hf₂ => .ret hf₂ ⟨by simp, fun _ _ => .inl rfl⟩⟩
    | ok u =>
      refine ⟨_, .joinStart, fun hf₂ => .request hf₂ fun w₃ ch' a w₄ _ _ hh' => ?_⟩
      cases a with
      | error e =>
        refine ⟨_, .joinErr, fun hf₄ => .ret hf₄ ⟨by simp, ?_⟩⟩
        rintro e' he
        cases he
        exact .inr ⟨rfl, World.sshWait_config hh'⟩
      | ok x => exact ⟨_, .joinOk, fun hf₄ => .ret hf₄ ⟨fun _ _ => rfl, by simp⟩⟩

lemma follows_leaveHost {h : SSHHost} {φr φo : Phase} (hf : φ.Facts w)
    (hstart : ∀ a b, Act φ (.sshStart h.key .leave a b) (.ok ()) φr)
    (hok : ∀ x, Act φr (.sshWait h.key .leave) (.ok x) φo)
    (herr : ∀ e, Act φr (.sshWait h.key .leave) (.error e) φ) :
    Follows X t (fun a ψ => (a = .ok () → ψ = φo) ∧ ∀ e, a = .error e → ψ = φ) φ
      (leaveHost X h) w := by
  unfold leaveHost runInstalledPhase
  split_ifs
  · exact .ret hf ⟨by simp, fun _ _ => rfl⟩
  refine .quiet (quiet_request rfl) hf fun a w₁ hf₁ => ?_
  cases a with
  | error e => exact .ret hf₁ ⟨by simp, fun _ _ => rfl⟩
  | ok prof =>
    dsimp only
    split_ifs
    · exact .ret hf₁ ⟨by simp, fun _ _ => rfl⟩
    refine .quiet (quiet_readSSHCredentials h) hf₁ fun a w₂ hf₂ => ?_
    cases a with
    | error e => exact .ret hf₂ ⟨by simp, fun _ _ => rfl⟩
    | ok creds =>
      dsimp only
      split
      · exact .ret hf₂ ⟨by simp, fun _ _ => rfl⟩
      rcases dials_runPhase (X := X) (sshTarget h creds) h prof .leave
        { hostAddress := h.spec.address, nodeAddress := h.spec.nodeIP } ‹_› with ⟨e,
          he⟩ | ⟨tg, pl, he⟩
      · rw [he]
        exact .ret hf₂ ⟨by simp, fun _ _ => rfl⟩
      · rw [he]
        refine .request hf₂ fun _ _ a _ _ _ _ => ?_
        cases a with
        | error e => exact ⟨_, .startFailed, fun hf₃ => .ret hf₃ ⟨by simp, fun _ _ => rfl⟩⟩
        | ok u =>
          refine ⟨_, hstart _ _, fun hf₃ => .request hf₃ fun _ _ a _ _ _ _ => ?_⟩
          cases a with
          | error e => exact ⟨_, herr e, fun hf₄ => .ret hf₄ ⟨by simp, fun _ _ => rfl⟩⟩
          | ok x => exact ⟨_, hok x, fun hf₄ => .ret hf₄ ⟨fun _ => rfl, by simp⟩⟩

end Scripts

end KarpenterProviderSsh.Runs
