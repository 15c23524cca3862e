import KarpenterProviderSsh.Interleaving.Programs

/-! Pools of programs over one world. The scheduler picks a thread, the environment picks how
its next request is answered, and every run is a list of such choices. -/

namespace KarpenterProviderSsh.Interleaving

structure Machine (E : Type) (R : E → Type) where
  World : Type
  Job : Type
  Choice : Type
  Outer : Type
  program : Job → Prog E R Unit
  enter : World → ℕ → Job → World
  handle : World → ℕ → (e : E) → Choice → Option (R e × World)
  leave : World → ℕ → World
  outside : World → Outer → Option World

variable {E : Type} {R : E → Type}

structure Config (M : Machine E R) where
  world : M.World
  pool : ℕ → Option (Prog E R Unit)

inductive Event (M : Machine E R)
  | spawn (t : ℕ) (j : M.Job)
  | call (t : ℕ) (c : M.Choice)
  | finish (t : ℕ)
  | crash (t : ℕ)
  | outside (x : M.Outer)

inductive Obs (M : Machine E R)
  | spawn (t : ℕ) (j : M.Job)
  | call (t : ℕ) (e : E) (r : R e)
  | finish (t : ℕ)
  | crash (t : ℕ)
  | outside (x : M.Outer)

def Obs.actor {M : Machine E R} : Obs M → Option ℕ
  | .spawn t _ | .call t _ _ | .finish t | .crash t => some t
  | .outside _ => none

namespace Config

variable {M : Machine E R}

def start (w : M.World) : Config M := ⟨w, fun _ => none⟩

def step (c : Config M) : Event M → Option (Obs M × Config M)
  | .spawn t j =>
    match c.pool t with
    | none =>
      some (.spawn t j, ⟨M.enter c.world t j, Function.update c.pool t (some (M.program j))⟩)
    | some _ => none
  | .call t ch =>
    match c.pool t with
    | some (.call e k) =>
      match M.handle c.world t e ch with
      | some (r, w) => some (.call t e r, ⟨w, Function.update c.pool t (some (k r))⟩)
      | none => none
    | _ => none
  | .finish t =>
    match c.pool t with
    | some (.ret _) => some (.finish t, ⟨M.leave c.world t, Function.update c.pool t none⟩)
    | _ => none
  | .crash t =>
    match c.pool t with
    | some _ => some (.crash t, ⟨M.leave c.world t, Function.update c.pool t none⟩)
    | none => none
  | .outside x =>
    match M.outside c.world x with
    | some w => some (.outside x, ⟨w, c.pool⟩)
    | none => none

inductive Happens (c : Config M) : Obs M → Config M → Prop
  | spawn {t j} : c.pool t = none →
      Happens c (.spawn t j) ⟨M.enter c.world t j, Function.update c.pool t (some (M.program j))⟩
  | call {t e k ch r w} : c.pool t = some (.call e k) → M.handle c.world t e ch = some (r, w) →
      Happens c (.call t e r) ⟨w, Function.update c.pool t (some (k r))⟩
  | finish {t a} : c.pool t = some (.ret a) →
      Happens c (.finish t) ⟨M.leave c.world t, Function.update c.pool t none⟩
  | crash {t p} : c.pool t = some p →
      Happens c (.crash t) ⟨M.leave c.world t, Function.update c.pool t none⟩
  | outside {x w} : M.outside c.world x = some w → Happens c (.outside x) ⟨w, c.pool⟩

lemma happens_of_step {c d : Config M} {ev : Event M} {o : Obs M} (hs : c.step ev = some (o, d)) :
    Happens c o d := by
  cases ev with
  | spawn t j =>
    simp only [step] at hs
    split at hs <;> cases hs
    exact .spawn ‹_›
  | call t ch =>
    simp only [step] at hs
    split at hs
    · split at hs <;> cases hs
      exact .call ‹_› ‹_›
    · cases hs
  | finish t =>
    simp only [step] at hs
    split at hs <;> cases hs
    exact .finish ‹_›
  | crash t =>
    simp only [step] at hs
    split at hs <;> cases hs
    exact .crash ‹_›
  | outside x =>
    simp only [step] at hs
    split at hs <;> cases hs
    exact .outside ‹_›

lemma Happens.thread {c d : Config M} {o : Obs M} (h : Happens c o d) (t : ℕ) :
    (o.actor ≠ some t ∧ d.pool t = c.pool t) ∨
    (∃ j, o = .spawn t j ∧ c.pool t = none ∧ d.pool t = some (M.program j)) ∨
    (∃ e k r, o = .call t e r ∧ c.pool t = some (.call e k) ∧ d.pool t = some (k r)) ∨
    ((o = .finish t ∨ o = .crash t) ∧ d.pool t = none) := by
  cases h with
  | @spawn u j hp =>
    by_cases hu : t = u
    · subst hu
      exact .inr (.inl ⟨j, rfl, hp, Function.update_self ..⟩)
    · exact .inl ⟨by simpa [Obs.actor] using Ne.symm hu, Function.update_of_ne hu _ _⟩
  | @call u e k ch r w hp _ =>
    by_cases hu : t = u
    · subst hu
      exact .inr (.inr (.inl ⟨e, k, r, rfl, hp, Function.update_self ..⟩))
    · exact .inl ⟨by simpa [Obs.actor] using Ne.symm hu, Function.update_of_ne hu _ _⟩
  | @finish u a hp =>
    by_cases hu : t = u
    · subst hu
      exact .inr (.inr (.inr ⟨.inl rfl, Function.update_self ..⟩))
    · exact .inl ⟨by simpa [Obs.actor] using Ne.symm hu, Function.update_of_ne hu _ _⟩
  | @crash u p hp =>
    by_cases hu : t = u
    · subst hu
      exact .inr (.inr (.inr ⟨.inr rfl, Function.update_self ..⟩))
    · exact .inl ⟨by simpa [Obs.actor] using Ne.symm hu, Function.update_of_ne hu _ _⟩
  | outside => exact .inl ⟨by simp [Obs.actor], rfl⟩

def Step (A : M.World → Obs M → Prop) (c d : Config M) : Prop :=
  ∃ ev o, c.step ev = some (o, d) ∧ A c.world o

def Reaches (A : M.World → Obs M → Prop) : Config M → Config M → Prop :=
  Relation.ReflTransGen (Step A)

lemma Reaches.weaken {A B : M.World → Obs M → Prop} {c d : Config M}
    (h : Reaches A c d) (hab : ∀ w o, A w o → B w o) : Reaches B c d := by
  induction h with
  | refl => exact .refl
  | tail _ hs ih =>
    obtain ⟨ev, o, he, ha⟩ := hs
    exact ih.tail ⟨ev, o, he, hab _ _ ha⟩

section Replay

variable (p : M.World → Obs M → Bool)

def Passes (w : M.World) (o : Obs M) : Prop := p w o = true

def replay (c : Config M) : List (Event M) → Option (Config M)
  | [] => some c
  | ev :: evs =>
    match c.step ev with
    | some (o, d) => if p c.world o = true then replay d evs else none
    | none => none

variable {p}

lemma reaches_of_replay {c d : Config M} {evs : List (Event M)}
    (h : replay p c evs = some d) : Reaches (Passes p) c d := by
  induction evs generalizing c with
  | nil =>
    cases Option.some.inj h
    exact .refl
  | cons ev evs ih =>
    simp only [replay] at h
    split at h
    · rename_i o e he
      split_ifs at h with ha
      exact .head ⟨ev, o, he, ha⟩ (ih h)
    · cases h

lemma exists_of_replay {c : Config M} {l : List (Event M)} {Q : Config M → Bool}
    (h : (replay p c l).any Q = true) : ∃ d, Reaches (Passes p) c d ∧ Q d = true := by
  cases hr : replay p c l with
  | none => simp [hr] at h
  | some d => exact ⟨d, reaches_of_replay hr, by simpa [hr] using h⟩

lemma exists_step_of_replay {c : Config M} {l : List (Event M)} {v : Event M}
    {Q : Obs M × Config M → Bool} (h : ((replay p c l).bind (fun d => d.step v)).any Q = true) :
    ∃ d o e, Reaches (Passes p) c d ∧ d.step v = some (o, e) ∧ Q (o, e) = true := by
  cases hr : replay p c l with
  | none => simp [hr] at h
  | some d =>
    cases hs : d.step v with
    | none => simp [hr, hs] at h
    | some x => exact ⟨d, x.1, x.2, reaches_of_replay hr, hs, by simpa [hr, hs] using h⟩

end Replay

end Config

end KarpenterProviderSsh.Interleaving
