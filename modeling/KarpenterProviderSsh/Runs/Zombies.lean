import KarpenterProviderSsh.Runs.Readmissions

/-! The Node a zombie guard has found: what becomes of it when the guard is cut short. -/

namespace KarpenterProviderSsh.Runs

open Api Cluster Scripts Providers Controllers Interleaving Config

variable {X : Externals}

def Round.key : Round → NamespacedName
  | .opened k => k
  | .served h | .dialled h | .probed h _ | .noted h | .looked h _ | .fenced h _
    | .forcing h _ | .left h _
  | .dropped h _ => h.key

def Round.isLooked : Round → Bool
  | .looked _ _ => true
  | _ => false

def found (t : ℕ) (l : Log (machine X)) : Option Node :=
  match (rounds X).watch t l with
  | some (.looked _ n) => n
  | _ => none

/-- The Nodes that guards have found for a host, have stored Leaving for, and that have existed ever
since. -/
def owed (k : NamespacedName) : Log (machine X) → List Node
  | [] => []
  | y :: l =>
    match y.obs with
    | .call t (.patchStatus o (.probe .enterLeaving _)) a =>
      if o.key = k ∧ carriedOut a = true then (found t l).toList.filter (· ∈ World.nodes y.world) ++
        owed k l
      else owed k l
    | .call _ (.deleteNode n) (.ok _) => (owed k l).filter (· ≠ n)
    | .outside (.dropNode n) => (owed k l).filter (· ≠ n)
    | _ => owed k l

section Owed

variable {l : Log (machine X)} {w : World} {obs : Observed X} {k : NamespacedName} {n : Node}

lemma owed_cases (h : n ∈ owed k (⟨w, obs⟩ :: l)) :
    (n ∈ owed k l ∧ (∀ t r, obs = .call t (.deleteNode n) r → ∃ e, r = .error e) ∧
      obs ≠ .outside (.dropNode n)) ∨
      ∃ t o ready a, obs = .call t (.patchStatus o (.probe .enterLeaving ready)) a ∧ o.key = k ∧
        carriedOut a = true ∧ found t l = some n ∧ n ∈ w.nodes := by
  unfold owed at h
  split at h
  · rename_i t o ready a hobs
    subst hobs
    split_ifs at h with hc
    · rcases List.mem_append.mp h with h | h
      · simp only [List.mem_filter, Option.mem_toList, decide_eq_true_eq] at h
        exact .inr ⟨t, o, ready, a, rfl, hc.1, hc.2, h.1, h.2⟩
      · exact .inl ⟨h, nofun, nofun⟩
    · exact .inl ⟨h, nofun, nofun⟩
  · rename_i t m u hobs
    subst hobs
    obtain ⟨h, hne⟩ := List.mem_filter.mp h
    refine .inl ⟨h, ?_, nofun⟩
    intro _ _ he
    cases he
    simp at hne
  · rename_i m hobs
    subst hobs
    obtain ⟨h, hne⟩ := List.mem_filter.mp h
    refine .inl ⟨h, nofun, fun he => ?_⟩
    cases he
    simp at hne
  · rename_i hdel hdrop
    refine .inl ⟨h, fun t r he => ?_, hdrop n⟩
    cases r with
    | ok u => exact absurd he (hdel t n u)
    | error e => exact ⟨e, rfl⟩

def Answerable (l : Log (machine X)) : Round → Prop
  | .probed h x => owed h.key l ≠ [] → (probeResult x).kubeletActive = true
  | .looked h m | .fenced h m | .forcing h m | .left h m => ∀ n ∈ owed h.key l, m = some n
  | .dropped h _ => ∀ n, n ∉ owed h.key l
  | _ => True

lemma Answerable.mono {l' : Log (machine X)} {σ : Round} (h : Answerable l σ)
    (hsub : ∀ n ∈ owed σ.key l', n ∈ owed σ.key l) : Answerable l' σ := by
  cases σ with
  | opened | served | dialled | noted => trivial
  | probed h' x =>
    intro hne
    obtain ⟨n, hn⟩ := List.exists_mem_of_ne_nil _ hne
    exact h (List.ne_nil_of_mem (hsub n hn))
  | looked | fenced | forcing | left => exact fun n hn => h n (hsub n hn)
  | dropped => exact fun n hn => h n (hsub n hn)

end Owed

section Conditions

/-- While a Node is owed for a host, its probes find the kubelet running and its guards find that
Node first; and a Node is said to be gone only if it is. -/
def settles (l : Log (machine X)) (w : World) : Observed X → Bool
  | .call _ (.sshWait k .probe) (.ok x) => (owed k l).isEmpty || (probeResult x).kubeletActive
  | .call t (.listNodes _) (.ok ns) =>
    match (rounds X).watch t l with
    | some (.noted h) => (owed h.key l).all fun n => ns.head? = some n
    | _ => true
  | .call _ (.deleteNode n) (.error e) => !e.isNotFound || decide (n ∉ w.nodes)
  | _ => true

section Settles

variable {l : Log (machine X)} {w : World} {t : ℕ} {k : NamespacedName} {n : Node}

lemma settles_probe {x : ExecResult}
    (h : settles (X := X) l w (.call t (.sshWait k .probe) (.ok x)) = true) (hne : owed k l ≠ []) :
    (probeResult x).kubeletActive = true := by
  simp only [settles, Bool.or_eq_true, List.isEmpty_iff] at h
  exact h.resolve_left hne

lemma settles_list {ip : String} {ns : List Node} {o : SSHHost}
    (h : settles (X := X) l w (.call t (.listNodes ip) (.ok ns)) = true)
    (hσ : (rounds X).watch t l = some (.noted o)) (hn : n ∈ owed o.key l) : ns.head? = some n := by
  simp only [settles, hσ, List.all_eq_true, decide_eq_true_eq] at h
  exact h n hn

lemma settles_gone {e : Err} (h : settles (X := X) l w (.call t (.deleteNode n) (.error e)) = true)
    (he : e.isNotFound = true) : n ∉ w.nodes := by
  simpa [settles, he] using h

end Settles

def settling (l : Log (machine X)) (w : World) (obs : Observed X) : Bool :=
  queuesHosts w obs && settles l w obs

end Conditions

section Kept

variable {w w' : World} {ph ph' : Phases} {t : ℕ} {e : Eff} {r : Res e} {σ : Round}
  {l : Log (machine X)} {obs : Observed X}

def Placed (l : Log (machine X)) (ph : Phases) : Prop :=
  ∀ t σ, (rounds X).watch t l = some σ → ∃ φ, ph t = some φ ∧ φ.owner = .reconcile σ.key

lemma key_see (hv : w.Valid) (hf : ∀ t φ, ph t = some φ → φ.Facts w)
    (hm : Moves (X := X) w ph (.call t e r) w' ph') (ha : σ.Allows e) :
    (σ.see e r).key = σ.key := by
  unfold Round.see
  split
  · obtain ⟨_, _, _, _, _, hh, _⟩ := Moves.handled hm
    cases ha
    obtain ⟨o, ho, _, _, hk⟩ | ⟨_, e, he, _⟩ := World.getHost_answer hv hh
    · cases ho
      exact hk
    · cases he
  · rfl
  · rfl
  · obtain ⟨_, hσ, _⟩ := ha
    cases hσ
    obtain ⟨_, _, _, _, _, hland⟩ := probe_landed hv hf hm
    exact (landed_mem hland).1
  · rfl
  · obtain ⟨_, hσ⟩ := ha
    cases hσ
    obtain ⟨_, _, _, _, _, hland⟩ := probe_landed hv hf hm
    exact (landed_mem hland).1
  · rfl
  · rfl
  · rfl
  · split_ifs <;> rfl
  · rfl

lemma Placed.step (hv : w.Valid) (hf : ∀ t φ, ph t = some φ → φ.Facts w) (h : Placed l ph)
    (hadm : (rounds X).Admits l obs) (hm : Moves w ph obs w' ph') : Placed (⟨w, obs⟩ :: l) ph' := by
  intro t σ hσ
  rcases Monitor.watch_cases hσ with ⟨hact, hw⟩ | ⟨j, rfl, hj⟩ | ⟨e, r, τ, rfl, hτ, rfl⟩
  · obtain ⟨φ, hφ, hown⟩ := h t σ hw
    exact ⟨φ, (Moves.phase_of_other hm hact).trans hφ, hown⟩
  · rcases hm with @⟨_, _, hn⟩ | _
    cases j with
    | reconcile k =>
      cases hj
      exact ⟨_, Function.update_self .., rfl⟩
    | create | delete | reboot => cases hj
  · obtain ⟨φ, ψ, ch, hφ, hact, hh, hψ⟩ := Moves.handled hm
    obtain ⟨χ, hχ, hown⟩ := h t τ hτ
    rw [hφ] at hχ
    cases hχ
    refine ⟨ψ, hψ, ?_⟩
    rw [owner_act hv (hf t φ hφ) hact hh, hown]
    exact congrArg _ (key_see hv hf hm (hadm τ hτ)).symm

structure ZombieInv (l : Log (machine X)) (w : World) (ph : Phases) : Prop where
  round : RoundInv l w ph
  placed : Placed l ph
  queued : Queued w
  exist : ∀ k, ∀ n ∈ owed k l, n ∈ w.nodes
  shut : ∀ k, owed k l ≠ [] → ∀ c, w.current k = some c → c.status.state ≠ .available ∧
    c.status.claimRef = none
  answerable : ∀ t σ, (rounds X).watch t l = some σ → Answerable l σ

lemma owed_new {k : NamespacedName} {n : Node} (hadm : (rounds X).Admits l obs)
    (h : n ∈ owed k (⟨w, obs⟩ :: l)) (hn : n ∉ owed k l) :
    ∃ t o ready a, obs = .call t (.patchStatus o (.probe .enterLeaving ready)) a ∧ o.key = k ∧
      carriedOut a = true ∧ (rounds X).watch t l = some (.looked o (some n)) ∧ n ∈ w.nodes := by
  rcases owed_cases h with ⟨h, _⟩ | ⟨t, o, ready, a, rfl, hk, hdone, hf, hnode⟩
  · exact absurd h hn
  · refine ⟨t, o, ready, a, rfl, hk, hdone, ?_, hnode⟩
    unfold found at hf
    split at hf
    · rename_i h' m hw
      obtain ⟨_, hσ⟩ := hadm _ hw
      cases hσ
      exact hf ▸ hw
    · cases hf

lemma owed_other (hI : ZombieInv l w ph) (hadm : (rounds X).Admits l obs)
    (hσ : (rounds X).watch t l = some σ) (hact : obs.actor ≠ some t) :
    ∀ n ∈ owed σ.key (⟨w, obs⟩ :: l), n ∈ owed σ.key l := by
  intro n hn
  by_contra hnew
  obtain ⟨u, o, ready, a, rfl, hk, _, hu, _⟩ := owed_new hadm hn hnew
  obtain ⟨φ, hφ, hφo⟩ := hI.placed t σ hσ
  obtain ⟨ψ, hψ, hψo⟩ := hI.placed u _ hu
  obtain ⟨b, hb, hbo, _⟩ := hI.round.registered.record t φ hφ
  obtain ⟨d, hd, hdo, _⟩ := hI.round.registered.record u ψ hψ
  have htu := hI.queued t u b d hb hd ⟨σ.key, hbo.trans hφo, hdo.trans (hψo.trans (congrArg _ hk))⟩
  exact hact (by rw [htu]; rfl)

lemma owed_deleted {k : NamespacedName} {n : Node} {r : Except Err Unit} (hI : ZombieInv l w ph)
    (hA : settles (X := X) l w (.call t (.deleteNode n) r) = true)
    (hans : ∀ m ∈ owed k l, some n = some m)
    (hr : ∀ e, r = .error e → e.isNotFound = true) (m : Node) :
    m ∉ owed k (⟨w, .call t (.deleteNode n) r⟩ :: l) := by
  intro hm
  rcases owed_cases hm with ⟨hold, hdel, _⟩ | ⟨_, _, _, _, he, _⟩
  · obtain rfl := Option.some.inj (hans m hold)
    obtain ⟨e, rfl⟩ := hdel t r rfl
    exact settles_gone hA (hr e rfl) (hI.exist _ _ hold)
  · cases he

lemma answerable_see (hv : w.Valid) (hf : ∀ t φ, ph t = some φ → φ.Facts w) (hI : ZombieInv l w ph)
    (hm : Moves (X := X) w ph (.call t e r) w' ph') (hadm : (rounds X).Admits l (.call t e r))
    (hA : settles (X := X) l w (.call t e r) = true) (hσ : (rounds X).watch t l = some σ) :
    Answerable (⟨w, .call t e r⟩ :: l) (σ.see e r) := by
  have ha : σ.Allows e := hadm σ hσ
  have hans := hI.answerable t σ hσ
  have hgrow (n : Node) (hn : n ∈ owed σ.key (⟨w, .call t e r⟩ :: l)) :
      n ∈ owed σ.key l ∨ ∃ o, σ = .looked o (some n) := by
    by_cases hold : n ∈ owed σ.key l
    · exact .inl hold
    · obtain ⟨u, o, _, _, he, _, _, hu, _⟩ := owed_new hadm hn hold
      cases he
      rw [hσ] at hu
      exact .inr ⟨o, Option.some.inj hu⟩
  have hkeep (hne : σ.isLooked = false) (n : Node) (hn : n ∈ owed σ.key (⟨w, .call t e r⟩ :: l)) :
      n ∈ owed σ.key l :=
    (hgrow n hn).resolve_right fun ⟨o, ho⟩ => by simp [ho, Round.isLooked] at hne
  unfold Round.see
  split
  · trivial
  · trivial
  · obtain ⟨_, h, rfl⟩ := ha
    cases h
    intro hne
    obtain ⟨n, hn⟩ := List.exists_mem_of_ne_nil _ hne
    exact settles_probe hA (List.ne_nil_of_mem (hkeep rfl n hn))
  · trivial
  · exact fun n hn => settles_list hA hσ (hkeep rfl n hn)
  · obtain ⟨_, h⟩ := ha
    cases h
    have hk := key_see hv hf hm (hadm _ hσ)
    intro n hn
    rcases hgrow n (hk ▸ hn) with hold | ⟨o, ho⟩
    · exact hans n hold
    · cases ho
      rfl
  · exact fun n hn => hans n (hkeep rfl n hn)
  · exact fun n hn => hans n (hkeep rfl n hn)
  · obtain ⟨_, h⟩ := ha
    cases h
    exact owed_deleted hI hA hans nofun
  · obtain ⟨_, h⟩ := ha
    cases h
    split_ifs with hnf
    · refine owed_deleted hI hA hans ?_
      rintro _ ⟨⟩
      exact hnf
    · exact fun m hm' => hans m (hkeep rfl m hm')
  · cases σ with
    | opened | served | dialled | noted => trivial
    | looked h m =>
      intro n hn
      rcases hgrow n hn with hold | ⟨o, ho⟩
      · exact hans n hold
      · cases ho
        rfl
    | probed | fenced | forcing | left | dropped => exact hans.mono (hkeep rfl)

lemma nodes_move (hm : Moves w ph obs w' ph') {n : Node} (hn : n ∈ w.nodes)
    (hdel : ∀ t r, obs = .call t (.deleteNode n) r → ∃ e, r = .error e)
    (hdrop : obs ≠ .outside (.dropNode n)) :
    n ∈ w'.nodes := by
  rcases hm with ⟨t, j, _⟩ | @⟨t, φ, e, r, ψ, ch, _, _, _, hh⟩ | _ | _ | hx
  · exact hn
  · by_cases he : ∃ m, e = .deleteNode m
    · obtain ⟨m, rfl⟩ := he
      rcases World.deleteNode_answer (t := t) hh with ⟨rfl, hnodes⟩ | ⟨hnodes, _⟩
      · rw [hnodes]
        refine List.mem_filter.mpr ⟨hn, ?_⟩
        by_contra hne
        obtain rfl : n = m := by simpa using hne
        obtain ⟨e, he⟩ := hdel t _ rfl
        cases he
      · rw [hnodes]
        exact hn
    · rw [World.handle_nodes hh fun m hm => he ⟨m, hm⟩]
      exact hn
  · exact hn
  · exact hn
  · exact World.outside_nodes hx hn fun h => hdrop (by rw [h])

lemma shut_step (hv : w.Valid) (hf : ∀ t φ, ph t = some φ → φ.Facts w) (hI : ZombieInv l w ph)
    (hadm : (rounds X).Admits l obs) (hm : Moves w ph obs w' ph') {k : NamespacedName}
    (hne : owed k l ≠ []) {c : SSHHost} (hc : w'.current k = some c) : c.status.state ≠ .available ∧
    c.status.claimRef = none := by
  cases (Moves.change hv hf hm).at k with
  | same hcur _ => exact hI.shut k hne c (hcur ▸ hc)
  | edited e o' he hp hst =>
    rw [hp.current] at hc
    cases hc
    rw [hst]
    exact hI.shut k hne e he
  | written t φ o s wr ra o' hφ hfφ hw hobs hra hk hland =>
    obtain rfl := Option.some.inj (hland.current.symm.trans hc)
    obtain ⟨hns, hnc⟩ := hI.shut k hne s hland.before
    rw [hland.status]
    constructor
    · intro hav
      rcases hw.readmits hfφ.sound hns hav with ⟨hsome, _⟩ | ⟨p, ready, rfl, rfl, hrec, _, hp⟩
      · simp [hnc] at hsome
      · obtain ⟨σ, hσ⟩ := hI.round.watched t φ hφ _ hrec
        have hans := hI.answerable t σ hσ
        obtain ⟨n, hn⟩ := List.exists_mem_of_ne_nil _ hne
        obtain rfl := hobs.patched hm (by simp)
        have hallow : σ.Writes o p := hadm σ hσ
        subst hk
        rcases hp with ⟨g, now, res, rfl⟩ | ⟨rfl, _⟩
        · obtain ⟨x, rfl, _, rfl, hcold⟩ := hallow
          rw [hans hne] at hcold
          cases hcold
        · rcases hallow with rfl | ⟨m, rfl⟩
          · cases hans n hn
          · exact hans n hn
    · rcases hw.claimRef_cases hfφ.sound with he | ⟨he, _⟩ | ⟨_, _, _, _, _, hcl, _⟩
      · rw [he, hnc]
      · exact he
      · exact absurd (claimable_iff.mp hcl).1 hns

lemma shut_fenced (hv : w.Valid) (hf : ∀ t φ, ph t = some φ → φ.Facts w) {o c : SSHHost}
    {ready : Option Stamp} {a : Except Err SSHHost}
    (hm : Moves (X := X) w ph (.call t (.patchStatus o (.probe .enterLeaving ready)) a) w' ph')
    (hdone : carriedOut a = true) (hc : w'.current o.key = some c) :
    c.status.state ≠ .available ∧ c.status.claimRef = none := by
  obtain ⟨φ, s, _, hfφ, hw, ha⟩ := Moves.answered hv hf hm (.inr rfl)
  cases hw with
  | probe _ hp =>
    cases hp with
    | fence _ hn =>
      cases ha with
      | refused e _ he hr =>
        subst he
        rcases hr with ⟨rfl, _⟩ | rfl | ⟨m, rfl⟩ <;> cases hdone
      | landed o' hl _ =>
        rw [hl.current] at hc
        cases hc
        obtain ⟨conds, he⟩ := apply_probe .enterLeaving ready o.status
        rw [hl.status, outcome_self, he]
        exact ⟨nofun, hn⟩

theorem kept_zombieInv (hv : w.Valid) (hf : ∀ t φ, ph t = some φ → φ.Facts w)
    (hI : ZombieInv l w ph) (hA : settling l w obs = true) (hadm : (rounds X).Admits l obs)
    (hm : Moves w ph obs w' ph') :
    ZombieInv (⟨w, obs⟩ :: l) w' ph' := by
  simp only [settling, Bool.and_eq_true] at hA
  refine ⟨kept_roundInv hv hf hI.round hadm hm, hI.placed.step hv hf hadm hm,
    queued_step hv hI.round.registered hI.queued hA.1 hm, ?_, ?_, ?_⟩
  · intro k n hn
    rcases owed_cases hn with ⟨hold, hdel, hdrop⟩ | ⟨t, o, ready, a, rfl, _, _, _, hnode⟩
    · exact nodes_move hm (hI.exist k n hold) hdel hdrop
    · exact nodes_move hm hnode nofun nofun
  · intro k hne c hc
    by_cases hold : owed k l = []
    · obtain ⟨n, hn⟩ := List.exists_mem_of_ne_nil _ hne
      rcases owed_cases hn with ⟨hmem, _⟩ | ⟨t, o, ready, a, rfl, rfl, hdone, _⟩
      · rw [hold] at hmem
        cases hmem
      · exact shut_fenced hv hf hm hdone hc
    · exact shut_step hv hf hI hadm hm hold hc
  · intro t σ hσ
    rcases Monitor.watch_cases hσ with ⟨hact, hw⟩ | ⟨j, rfl, hj⟩ | ⟨e, r, τ, rfl, hτ, rfl⟩
    · exact (hI.answerable t σ hw).mono (owed_other hI hadm hw hact)
    · cases j with
      | reconcile =>
        cases hj
        trivial
      | create | delete | reboot => cases hj
    · exact answerable_see hv hf hI hm hadm hA.2 hτ

end Kept

/-- As long as a Node that a guard has found and fenced the host for exists, the host is not
Available. -/
theorem zombie_node_goes_first {hosts : List SSHHost} {l : Log (machine X)} {c : Run X}
    (hr : Logged (fun l w obs => settling l w obs = true) (idle X hosts) l c)
    {k : NamespacedName} {n : Node} (hn : n ∈ owed k l) : ∀ h, World.current c.world k = some h →
    h.status.state ≠ .available := by
  obtain ⟨ph, _, hI⟩ := Protocol.run_logged (conforms X) (rounds_respected X)
    (fun l w ph o w' ph' hv hf hI hA hadm hm => kept_zombieInv hv hf hI hA hadm hm)
      (valid_start hosts)
    ⟨roundInv_start hosts, by simp [Placed, Monitor.watch],
      alone_start _ hosts, by simp [owed], by simp [owed], by simp [Monitor.watch]⟩ hr
  intro h hh
  exact (hI.shut k (List.ne_nil_of_mem hn) h hh).1

section Sample

open Sample

def Sample.nodeFound : Script :=
  failedJoin ++ [.outside (.addNode node), .call 1 .ok, .call 1 .ok, .finish 1] ++
    probing 2 k1 5000 "active" ++
    [.call 2 .ok, .call 2 (.nodes [node]), .call 2 .ok, .call 2 (.profile profile),
    .call 2 (.data [("privateKey", "pk")]),
      .call 2 .ok]

theorem zombie_node_goes_first_retried :
    ∃ (l : Log (machine externals)) (c : Run externals),
      Logged (fun l w obs => settling l w obs = true) (idle externals hosts) l c ∧
      node ∈ owed k1 l ∧ ∃ h, World.current c.world k1 = some h ∧ h.status.state ≠ .available := by
  obtain ⟨l, c, hr, hq⟩ := exists_logged (p := settling) (c := idle externals hosts)
    (q := nodeFound ++ [.call 2 (.scriptFailed "leave failed" (some 1)), .call 2 (.time 5060),
      .call 2 .ok, .finish 2] ++ probing 3 k1 6000 "active" ++
      [.call 3 .ok, .call 3 (.nodes [node]), .call 3 .ok])
    (Q := fun l c => decide (node ∈ owed k1 l) && (World.current c.world k1).isSome)
      (by decide +kernel)
  simp only [Bool.and_eq_true, decide_eq_true_eq] at hq
  obtain ⟨h, hh⟩ := Option.isSome_iff_exists.mp hq.2
  exact ⟨l, c, hr, hq.1, h, hh, zombie_node_goes_first hr hq.1 h hh⟩

/-- The leave script succeeds and the deletion of the Node fails; the next round finds no kubelet
and makes the host Available. -/
theorem guard_forgets_node :
    ∃ (l : Log (machine externals)) (c : Run externals),
      Logged (fun _ w obs => queuesHosts w obs = true) (idle externals hosts) l c ∧
      node ∈ owed k1 l ∧ ∃ h, World.current c.world k1 = some h ∧ h.status.state = .available := by
  obtain ⟨l, c, hr, hq⟩ :=
    exists_logged (p := fun _ w obs => queuesHosts w obs) (c := idle externals hosts)
    (q := nodeFound ++ [.call 2 done, .call 2 (.fail false "timeout"), .finish 2] ++
      admitting 3 k1 6000)
    (Q := fun l c => decide (node ∈ owed k1 l) &&
      (World.current c.world k1).any (fun h => h.status.state = .available))
    (by decide +kernel)
  simp only [Bool.and_eq_true, decide_eq_true_eq, Option.any_eq_true] at hq
  exact ⟨l, c, hr, hq.1, hq.2⟩

end Sample

end KarpenterProviderSsh.Runs
