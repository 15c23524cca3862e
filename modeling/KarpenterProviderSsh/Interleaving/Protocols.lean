import KarpenterProviderSsh.Interleaving.Pools

/-! Protocols for pools of programs. A protocol gives every thread a phase, says which requests
a phase admits and what they lead to, and attaches to each phase facts that no other thread can
take away. A program that follows the protocol is checked once; safety of whole runs is then an
invariant of worlds and phases. -/

namespace KarpenterProviderSsh.Interleaving

variable {E : Type} {R : E → Type}

structure Protocol (M : Machine E R) where
  Phase : Type
  opening : M.Job → Phase
  Final : Phase → Prop
  Act : Phase → (e : E) → R e → Phase → Prop
  Valid : M.World → Prop
  Later : M.World → M.World → Prop
  Facts : M.World → Phase → Prop
  later_refl : ∀ w, Later w w
  later_trans : ∀ {u v w}, Later u v → Later v w → Later u w
  facts_later : ∀ {v w φ}, Later v w → Facts v φ → Facts w φ
  enter_later : ∀ {w} t j, Valid w → Valid (M.enter w t j) ∧ Later w (M.enter w t j)
  handle_later : ∀ {w t e ch r w'}, Valid w → M.handle w t e ch = some (r, w') →
    Valid w' ∧ Later w w'
  leave_later : ∀ {w} t, Valid w → Valid (M.leave w t) ∧ Later w (M.leave w t)
  outside_later : ∀ {w x w'}, Valid w → M.outside w x = some w' → Valid w' ∧ Later w w'

namespace Protocol

variable {M : Machine E R} (P : Protocol M) {α β : Type}

/-- From this phase and world the program follows the protocol, whatever other threads do
between its requests, and ends in the postcondition. -/
def Safe (t : ℕ) (post : α → P.Phase → M.World → Prop) : P.Phase → Prog E R α → M.World → Prop
  | φ, .ret a, w => P.Facts w φ ∧ post a φ w
  | φ, .call e k, w => P.Facts w φ ∧ ∀ w₁ ch r w₂, P.Valid w₁ → P.Later w w₁ →
      M.handle w₁ t e ch = some (r, w₂) → ∃ ψ, P.Act φ e r ψ ∧ Safe t post ψ (k r) w₂

variable {P} {t : ℕ} {post : α → P.Phase → M.World → Prop} {φ : P.Phase} {w : M.World}

lemma Safe.facts {p : Prog E R α} (h : P.Safe t post φ p w) : P.Facts w φ := by
  cases p <;> exact h.1

lemma Safe.conseq {post' : α → P.Phase → M.World → Prop} {p : Prog E R α}
    (h : P.Safe t post φ p w) (hp : ∀ a φ w, post a φ w → post' a φ w) :
    P.Safe t post' φ p w := by
  induction p generalizing φ w with
  | ret a => exact ⟨h.1, hp _ _ _ h.2⟩
  | call e k ih =>
    refine ⟨h.1, ?_⟩
    intro w₁ ch r w₂ hv hl hh
    obtain ⟨ψ, ha, hs⟩ := h.2 w₁ ch r w₂ hv hl hh
    exact ⟨ψ, ha, ih r hs⟩

lemma Safe.bind {post' : β → P.Phase → M.World → Prop} {p : Prog E R α} {f : α → Prog E R β}
    (h : P.Safe t post φ p w)
    (hf : ∀ a ψ w', P.Facts w' ψ → post a ψ w' → P.Safe t post' ψ (f a) w') :
    P.Safe t post' φ (p >>= f) w := by
  induction p generalizing φ w with
  | ret a => exact hf a φ w h.1 h.2
  | call e k ih =>
    refine ⟨h.1, ?_⟩
    intro w₁ ch r w₂ hv hl hh
    obtain ⟨ψ, ha, hs⟩ := h.2 w₁ ch r w₂ hv hl hh
    exact ⟨ψ, ha, ih r hs⟩

variable (P) in
def Running (t : ℕ) (φ : P.Phase) (p : Prog E R Unit) (w : M.World) : Prop :=
  P.Safe t (fun _ ψ _ => P.Final ψ) φ p w

lemma Running.later {p : Prog E R Unit} {w' : M.World} (h : P.Running t φ p w) (hl : P.Later w w') :
    P.Running t φ p w' := by
  cases p with
  | ret a => exact ⟨P.facts_later hl h.1, h.2⟩
  | call e k =>
    refine ⟨P.facts_later hl h.1, ?_⟩
    intro w₁ ch r w₂ hv hl' hh
    exact h.2 w₁ ch r w₂ hv (P.later_trans hl hl') hh

variable (P) in
def Conforms : Prop :=
  ∀ t j w, P.Valid w → P.Running t (P.opening j) (M.program j) (M.enter w t j)

variable (P) in
inductive Moves : M.World → (ℕ → Option P.Phase) → Obs M → M.World → (ℕ → Option P.Phase) → Prop
  | spawn {w ph} (t : ℕ) (j : M.Job) : ph t = none →
      Moves w ph (.spawn t j) (M.enter w t j) (Function.update ph t (some (P.opening j)))
  | call {w ph t φ e r ψ ch w'} : ph t = some φ → P.Act φ e r ψ →
      M.handle w t e ch = some (r, w') →
      Moves w ph (.call t e r) w' (Function.update ph t (some ψ))
  | finish {w ph t φ} : ph t = some φ → P.Final φ →
      Moves w ph (.finish t) (M.leave w t) (Function.update ph t none)
  | crash {w ph t φ} : ph t = some φ →
      Moves w ph (.crash t) (M.leave w t) (Function.update ph t none)
  | outside {w ph x w'} : M.outside w x = some w' → Moves w ph (.outside x) w' ph

lemma Moves.later {w w' : M.World} {ph ph' : ℕ → Option P.Phase} {o : Obs M}
    (hm : P.Moves w ph o w' ph') (hv : P.Valid w) : P.Later w w' := by
  cases hm with
  | spawn t j => exact (P.enter_later t j hv).2
  | call _ _ hh => exact (P.handle_later hv hh).2
  | finish | crash => exact (P.leave_later _ hv).2
  | outside hx => exact (P.outside_later hv hx).2

lemma step_later {c d : Config M} {ev : Event M} {o : Obs M} (hv : P.Valid c.world)
    (hs : c.step ev = some (o, d)) : P.Valid d.world ∧ P.Later c.world d.world := by
  cases Config.happens_of_step hs with
  | spawn => exact P.enter_later _ _ hv
  | call _ hh => exact P.handle_later hv hh
  | finish | crash => exact P.leave_later _ hv
  | outside hx => exact P.outside_later hv hx

variable (P) in
structure Tracks (c : Config M) (ph : ℕ → Option P.Phase) : Prop where
  valid : P.Valid c.world
  safe : ∀ t φ, ph t = some φ →
    ∃ p, c.pool t = some p ∧ P.Running t φ p c.world
  idle : ∀ t, ph t = none → c.pool t = none

lemma Tracks.facts {c : Config M} {ph : ℕ → Option P.Phase} (h : P.Tracks c ph)
    (t : ℕ) (φ : P.Phase) (ht : ph t = some φ) : P.Facts c.world φ := by
  obtain ⟨p, _, hs⟩ := h.safe t φ ht
  exact hs.facts

lemma Tracks.start {w : M.World} (hv : P.Valid w) : P.Tracks (Config.start w) (fun _ => none) :=
  ⟨hv, by simp, fun _ _ => rfl⟩

lemma Tracks.update {c : Config M} {ph : ℕ → Option P.Phase} (h : P.Tracks c ph)
    {w : M.World} (hv : P.Valid w) (hl : P.Later c.world w) (t : ℕ)
    (p : Option (Prog E R Unit)) (φ : Option P.Phase)
    (hn : φ = none → p = none)
    (hs : ∀ ψ, φ = some ψ → ∃ q, p = some q ∧ P.Running t ψ q w) :
    P.Tracks ⟨w, Function.update c.pool t p⟩ (Function.update ph t φ) := by
  refine ⟨hv, ?_, ?_⟩
  · intro u ψ hu
    by_cases hut : u = t
    · subst hut
      simp only [Function.update_self] at hu ⊢
      exact hs ψ hu
    · simp only [Function.update_of_ne hut] at hu ⊢
      obtain ⟨q, hq, hsafe⟩ := h.safe u ψ hu
      exact ⟨q, hq, hsafe.later hl⟩
  · intro u hu
    by_cases hut : u = t
    · subst hut
      simp only [Function.update_self] at hu ⊢
      exact hn hu
    · simp only [Function.update_of_ne hut] at hu ⊢
      exact h.idle u hu

lemma Tracks.remove {c : Config M} {ph : ℕ → Option P.Phase} (h : P.Tracks c ph) (t : ℕ) :
    P.Tracks ⟨M.leave c.world t, Function.update c.pool t none⟩ (Function.update ph t none) := by
  obtain ⟨hv, hl⟩ := P.leave_later t h.valid
  exact h.update hv hl t none none (fun _ => rfl) (by simp)

lemma Tracks.phase {c : Config M} {ph : ℕ → Option P.Phase} (h : P.Tracks c ph)
    {t : ℕ} {p : Prog E R Unit} (hp : c.pool t = some p) :
    ∃ φ, ph t = some φ ∧ P.Running t φ p c.world := by
  cases hφ : ph t with
  | none => simp [h.idle t hφ] at hp
  | some φ =>
    obtain ⟨q, hq, hs⟩ := h.safe t φ hφ
    rw [hp] at hq
    cases hq
    exact ⟨φ, rfl, hs⟩

theorem Tracks.step (hc : P.Conforms) {c d : Config M} {ph : ℕ → Option P.Phase}
    (h : P.Tracks c ph) {ev : Event M} {o : Obs M} (hs : c.step ev = some (o, d)) :
    ∃ ph', P.Moves c.world ph o d.world ph' ∧ P.Tracks d ph' := by
  cases Config.happens_of_step hs with
  | @spawn t j hp =>
    have hn : ph t = none := by
      by_contra hne
      obtain ⟨φ, hφ⟩ := Option.ne_none_iff_exists'.mp hne
      obtain ⟨p, hq, _⟩ := h.safe t φ hφ
      simp [hp] at hq
    obtain ⟨hv, hl⟩ := P.enter_later t j h.valid
    refine ⟨_, .spawn t j hn, h.update hv hl t _ _ (by simp) ?_⟩
    rintro ψ hψ
    cases hψ
    exact ⟨_, rfl, hc t j c.world h.valid⟩
  | @call t e k ch r w hp hh =>
    obtain ⟨φ, hφ, hsafe⟩ := h.phase hp
    obtain ⟨ψ, ha, hs'⟩ := hsafe.2 _ ch r w h.valid (P.later_refl _) hh
    obtain ⟨hv, hl⟩ := P.handle_later h.valid hh
    refine ⟨_, .call hφ ha hh, h.update hv hl t _ _ (by simp) ?_⟩
    rintro χ hχ
    cases hχ
    exact ⟨_, rfl, hs'⟩
  | @finish t a hp =>
    obtain ⟨φ, hφ, hsafe⟩ := h.phase hp
    exact ⟨_, .finish hφ hsafe.2, h.remove t⟩
  | @crash t p hp =>
    obtain ⟨φ, hφ, _⟩ := h.phase hp
    exact ⟨_, .crash hφ, h.remove t⟩
  | @outside x w hw =>
    obtain ⟨hv, hl⟩ := P.outside_later h.valid hw
    refine ⟨ph, .outside hw, hv, ?_, h.idle⟩
    intro t φ ht
    obtain ⟨p, hp, hsafe⟩ := h.safe t φ ht
    exact ⟨p, hp, hsafe.later hl⟩

variable (P) in
def Kept (A : M.World → Obs M → Prop) (I : M.World → (ℕ → Option P.Phase) → Prop) : Prop :=
  ∀ w ph o w' ph', P.Valid w → (∀ t φ, ph t = some φ → P.Facts w φ) → I w ph → A w o →
    P.Moves w ph o w' ph' → I w' ph'

lemma Kept.and {A : M.World → Obs M → Prop} {I J : M.World → (ℕ → Option P.Phase) → Prop}
    (hi : P.Kept A I)
    (hj : ∀ w ph o w' ph', P.Valid w → (∀ t φ, ph t = some φ → P.Facts w φ) → I w ph → J w ph →
      A w o → P.Moves w ph o w' ph' → J w' ph') : P.Kept A (fun w ph => I w ph ∧ J w ph) := by
  rintro w ph o w' ph' hv hf ⟨h, h'⟩ ha hm
  exact ⟨hi w ph o w' ph' hv hf h ha hm, hj w ph o w' ph' hv hf h h' ha hm⟩

lemma Moves.each {S T : ℕ → P.Phase → Prop} {w w' : M.World} {ph ph' : ℕ → Option P.Phase}
    {o : Obs M} (hm : P.Moves w ph o w' ph') (hS : ∀ t φ, ph t = some φ → S t φ)
    (hopen : ∀ t j, ph t = none → o = .spawn t j → w' = M.enter w t j → T t (P.opening j))
    (hact : ∀ t φ e r ψ ch, ph t = some φ → P.Act φ e r ψ → M.handle w t e ch = some (r, w') →
      o = .call t e r → S t φ → T t ψ)
    (hother : ∀ t φ, ph t = some φ → o.actor ≠ some t → S t φ → T t φ) :
    ∀ t φ, ph' t = some φ → T t φ := by
  intro u χ hu
  cases hm with
  | spawn t j hn =>
    by_cases hut : u = t
    · subst hut
      simp only [Function.update_self, Option.some.injEq] at hu
      exact hu ▸ hopen u j hn rfl rfl
    · rw [Function.update_of_ne hut] at hu
      exact hother u χ hu (by simpa [Obs.actor] using Ne.symm hut) (hS u χ hu)
  | @call t φ e r ψ ch _ hφ ha hh =>
    by_cases hut : u = t
    · subst hut
      simp only [Function.update_self, Option.some.injEq] at hu
      exact hu ▸ hact u φ e r ψ ch hφ ha hh rfl (hS u φ hφ)
    · rw [Function.update_of_ne hut] at hu
      exact hother u χ hu (by simpa [Obs.actor] using Ne.symm hut) (hS u χ hu)
  | @finish t φ hφ _ =>
    by_cases hut : u = t
    · subst hut
      simp at hu
    · rw [Function.update_of_ne hut] at hu
      exact hother u χ hu (by simpa [Obs.actor] using Ne.symm hut) (hS u χ hu)
  | @crash t φ hφ =>
    by_cases hut : u = t
    · subst hut
      simp at hu
    · rw [Function.update_of_ne hut] at hu
      exact hother u χ hu (by simpa [Obs.actor] using Ne.symm hut) (hS u χ hu)
  | outside hx => exact hother u χ hu (by simp [Obs.actor]) (hS u χ hu)

lemma Moves.threads {T : M.World → ℕ → P.Phase → Prop} {w w' : M.World}
    {ph ph' : ℕ → Option P.Phase} {o : Obs M} (hm : P.Moves w ph o w' ph')
    (hT : ∀ t φ, ph t = some φ → T w t φ)
    (hopen : ∀ t j, ph t = none → o = .spawn t j → w' = M.enter w t j → T w' t (P.opening j))
    (hact : ∀ t φ e r ψ ch, ph t = some φ → P.Act φ e r ψ → M.handle w t e ch = some (r, w') →
      o = .call t e r → T w t φ → T w' t ψ)
    (hother : ∀ t φ, ph t = some φ → o.actor ≠ some t → T w t φ → T w' t φ) :
    ∀ t φ, ph' t = some φ → T w' t φ :=
  Moves.each hm hT hopen hact hother

theorem Tracks.run (hc : P.Conforms) {A : M.World → Obs M → Prop}
    {I : M.World → (ℕ → Option P.Phase) → Prop} (hk : P.Kept A I) {c d : Config M}
    {ph : ℕ → Option P.Phase} (h : P.Tracks c ph) (hi : I c.world ph)
    (hr : Config.Reaches A c d) : ∃ ph', P.Tracks d ph' ∧ I d.world ph' := by
  induction hr with
  | refl => exact ⟨ph, h, hi⟩
  | tail _ hs ih =>
    obtain ⟨ph', ht, hi'⟩ := ih
    obtain ⟨ev, o, he, ha⟩ := hs
    obtain ⟨ph'', hm, ht'⟩ := ht.step hc he
    exact ⟨ph'', ht', hk _ _ _ _ _ ht.valid ht.facts hi' ha hm⟩

/-- What holds at the start and is kept by every admitted move holds at every reachable
configuration. -/
theorem invariant (hc : P.Conforms) {A : M.World → Obs M → Prop}
    {I : M.World → (ℕ → Option P.Phase) → Prop} (hk : P.Kept A I) {w : M.World}
    (hv : P.Valid w) (hi : I w (fun _ => none)) {c : Config M}
    (hr : Config.Reaches A (Config.start w) c) : ∃ ph, P.Tracks c ph ∧ I c.world ph :=
  (Tracks.start hv).run hc hk hi hr

end Protocol

end KarpenterProviderSsh.Interleaving
