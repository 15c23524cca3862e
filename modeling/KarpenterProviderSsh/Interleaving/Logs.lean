import KarpenterProviderSsh.Interleaving.Contracts

/-! Runs together with their logs, and monitors: automata that follow the requests and answers of
one thread. A program that obeys a monitor is checked once; in a run, the log then tells what the
monitor of each thread has come to. -/

namespace KarpenterProviderSsh.Interleaving

variable {E : Type} {R : E → Type} {α β : Type}

structure Entry (M : Machine E R) where
  world : M.World
  obs : Obs M

abbrev Log (M : Machine E R) := List (Entry M)

namespace Config

variable {M : Machine E R} {A : Log M → M.World → Obs M → Prop} {c d : Config M} {l : Log M}

inductive Logged (A : Log M → M.World → Obs M → Prop) (c : Config M) : Log M → Config M → Prop
  | nil : Logged A c [] c
  | cons {l d ev o e} : Logged A c l d → d.step ev = some (o, e) → A l d.world o →
      Logged A c (⟨d.world, o⟩ :: l) e

lemma Logged.weaken {B : Log M → M.World → Obs M → Prop} (h : Logged A c l d)
    (hab : ∀ l w o, A l w o → B l w o) :
    Logged B c l d := by
  induction h with
  | nil => exact .nil
  | cons _ hs ha ih => exact ih.cons hs (hab _ _ _ ha)

lemma Logged.earlier {l' : Log M} (h : Logged A c (l' ++ l) d) : ∃ d', Logged A c l d' := by
  induction l' generalizing d with
  | nil => exact ⟨d, h⟩
  | cons y l' ih =>
    cases h with
    | cons h _ _ => exact ih h

lemma Reaches.logged {B : M.World → Obs M → Prop} (h : Reaches B c d) :
    ∃ l, Logged (fun _ => B) c l d := by
  induction h with
  | refl => exact ⟨[], .nil⟩
  | tail _ hs ih =>
    obtain ⟨l, hl⟩ := ih
    obtain ⟨ev, o, he, ha⟩ := hs
    exact ⟨_, hl.cons he ha⟩

def replayLog (p : Log M → M.World → Obs M → Bool) (l : Log M) (c : Config M) :
    List (Event M) → Option (Log M × Config M)
  | [] => some (l, c)
  | ev :: evs =>
    match c.step ev with
    | some (o, d) => if p l c.world o = true then replayLog p (⟨c.world, o⟩ :: l) d evs else none
    | none => none

lemma logged_of_replay {p : Log M → M.World → Obs M → Bool} {c₀ : Config M}
    {evs : List (Event M)} {l' : Log M} (hl : Logged (fun l w o => p l w o = true) c₀ l c)
    (h : replayLog p l c evs = some (l', d)) :
    Logged (fun l w o => p l w o = true) c₀ l' d := by
  induction evs generalizing l c with
  | nil =>
    cases h
    exact hl
  | cons ev evs ih =>
    simp only [replayLog] at h
    split at h
    · split_ifs at h with hp
      exact ih (hl.cons ‹_› hp) h
    · cases h

lemma exists_logged {p : Log M → M.World → Obs M → Bool} {q : List (Event M)}
    {Q : Log M → Config M → Bool} (h : ((replayLog p [] c q).any fun x => Q x.1 x.2) = true) :
    ∃ l d, Logged (fun l w o => p l w o = true) c l d ∧ Q l d = true := by
  simp only [Option.any_eq_true, Prod.exists] at h
  obtain ⟨l, d, hr, hq⟩ := h
  exact ⟨l, d, logged_of_replay .nil hr, hq⟩

lemma exists_logged_step {p : Log M → M.World → Obs M → Bool} {q : List (Event M)} {v : Event M}
    {Q : Log M → Config M → Obs M → Config M → Bool}
    (h : ((replayLog p [] c q).any fun x => (x.2.step v).any fun y => Q x.1 x.2 y.1 y.2) = true) :
    ∃ l d o e, Logged (fun l w o => p l w o = true) c l d ∧ d.step v = some (o, e) ∧
    Q l d o e = true := by
  simp only [Option.any_eq_true, Prod.exists] at h
  obtain ⟨l, d, hr, o, e, hs, hq⟩ := h
  exact ⟨l, d, o, e, logged_of_replay .nil hr, hs, hq⟩

end Config

structure Reply (M : Machine E R) where
  world : M.World
  request : E
  answer : R request

def Log.own {M : Machine E R} (t : ℕ) : Log M → List (Reply M)
  | [] => []
  | y :: l =>
    match y.obs with
    | .spawn u _ | .finish u | .crash u => if u = t then [] else own t l
    | .call u e r => if u = t then ⟨y.world, e, r⟩ :: own t l else own t l
    | .outside _ => own t l

def Log.job {M : Machine E R} (t : ℕ) : Log M → Option M.Job
  | [] => none
  | y :: l =>
    match y.obs with
    | .spawn u j => if u = t then some j else job t l
    | .finish u | .crash u => if u = t then none else job t l
    | .call _ _ _ | .outside _ => job t l

def Prog.returns {M : Machine E R} [DecidableEq E] (p : Prog E R α) (s : List (Reply M)) :
    Option α :=
  go p s.reverse
where
  go : Prog E R α → List (Reply M) → Option α
    | .ret a, [] => some a
    | .call e k, y :: s => if h : y.request = e then go (k (h ▸ y.answer)) s else none
    | _, _ => none

namespace Log

variable {M : Machine E R} {t : ℕ} {w : M.World} {o : Obs M} {l : Log M}

lemma own_other (h : o.actor ≠ some t) : own t (⟨w, o⟩ :: l) = own t l := by
  cases o <;> simp_all [own, Obs.actor]

lemma job_other (h : o.actor ≠ some t) : job t (⟨w, o⟩ :: l) = job t l := by
  cases o <;> simp_all [job, Obs.actor]

@[simp] lemma own_call (e : E) (r : R e) :
    own t (⟨w, .call t e r⟩ :: l) = ⟨w, e, r⟩ :: own t l := by simp [own]

def Meets (G : (e : E) → R e → Prop) (l : Log M) : Prop :=
  ∀ y ∈ l, ∀ t e r, y.obs = .call t e r → G e r

lemma Meets.own {G : (e : E) → R e → Prop} (h : Meets G l) (t : ℕ) :
    ∀ y ∈ l.own t, G y.request y.answer := by
  induction l with
  | nil => simp [Log.own]
  | cons x l ih =>
    obtain ⟨w, o⟩ := x
    obtain ⟨hx, hl⟩ := List.forall_mem_cons.mp h
    cases o with
    | call u e r =>
      by_cases hut : u = t
      · subst hut
        rw [own_call]
        exact List.forall_mem_cons.mpr ⟨hx u e r rfl, ih hl⟩
      · rw [own_other (by simpa [Obs.actor] using hut)]
        exact ih hl
    | outside x => exact ih hl
    | spawn u j =>
      by_cases hut : u = t
      · simp [Log.own, hut]
      · simpa [Log.own, hut] using ih hl
    | finish u | crash u =>
      by_cases hut : u = t
      · simp [Log.own, hut]
      · simpa [Log.own, hut] using ih hl

end Log

structure Monitor (M : Machine E R) where
  State : Type
  init : M.Job → Option State
  see : State → (e : E) → R e → State
  Allows : State → E → Prop

namespace Monitor

variable {M : Machine E R} (S : Monitor M)

def Obeys (Q : α → S.State → Prop) : S.State → Prog E R α → Prop
  | σ, .ret a => Q a σ
  | σ, .call e k => S.Allows σ e ∧ ∀ r, Obeys Q (S.see σ e r) (k r)

def ObeysGiven (G : (e : E) → R e → Prop) (Q : α → S.State → Prop) : S.State → Prog E R α → Prop
  | σ, .ret a => Q a σ
  | σ, .call e k => S.Allows σ e ∧ ∀ r, G e r → ObeysGiven G Q (S.see σ e r) (k r)

variable {S} {σ : S.State} {Q : α → S.State → Prop} {Q' : β → S.State → Prop}
  {G : (e : E) → R e → Prop}

lemma ObeysGiven.bind {p : Prog E R α} {f : α → Prog E R β} (h : S.ObeysGiven G Q σ p)
    (hf : ∀ a τ, Q a τ → S.ObeysGiven G Q' τ (f a)) : S.ObeysGiven G Q' σ (p >>= f) := by
  induction p generalizing σ with
  | ret a => exact hf a σ h
  | call e k ih => exact ⟨h.1, fun r hr => ih r (h.2 r hr)⟩

lemma ObeysGiven.conseq {P : α → S.State → Prop} {p : Prog E R α} (h : S.ObeysGiven G Q σ p)
    (hq : ∀ a τ, Q a τ → P a τ) : S.ObeysGiven G P σ p := by
  induction p generalizing σ with
  | ret a => exact hq a σ h
  | call e k ih => exact ⟨h.1, fun r hr => ih r (h.2 r hr)⟩

lemma ObeysGiven.step {e : E} {f : R e → Prog E R β} (ha : S.Allows σ e)
    (hf : ∀ r, G e r → S.ObeysGiven G Q' (S.see σ e r) (f r)) :
    S.ObeysGiven G Q' σ (Prog.request e >>= f) := ⟨ha, hf⟩

lemma obeysGiven_of_abides {P : E → Prop} {T : α → Prop} {p : Prog E R α} (hp : Prog.Abides G P T p)
    (hcalm : ∀ e, P e → S.Allows σ e ∧ ∀ r, S.see σ e r = σ) :
    S.ObeysGiven G (fun a τ => τ = σ ∧ T a) σ p := by
  induction p with
  | ret a => exact ⟨rfl, hp⟩
  | call e k ih =>
    obtain ⟨ha, hs⟩ := hcalm e hp.1
    refine ⟨ha, fun r hr => ?_⟩
    rw [hs r]
    exact ih r (hp.2 r hr)

lemma obeys_iff {p : Prog E R α} : S.Obeys Q σ p ↔ S.ObeysGiven (fun _ _ => True) Q σ p := by
  induction p generalizing σ with
  | ret a => rfl
  | call e k ih =>
    exact and_congr_right fun _ => forall_congr' fun r => (ih r).trans (true_imp_iff).symm

lemma Obeys.bind {p : Prog E R α} {f : α → Prog E R β} (h : S.Obeys Q σ p)
    (hf : ∀ a τ, Q a τ → S.Obeys Q' τ (f a)) : S.Obeys Q' σ (p >>= f) :=
  obeys_iff.mpr ((obeys_iff.mp h).bind fun a τ hq => obeys_iff.mp (hf a τ hq))

lemma Obeys.conseq {P : α → S.State → Prop} {p : Prog E R α} (h : S.Obeys Q σ p)
    (hq : ∀ a τ, Q a τ → P a τ) :
    S.Obeys P σ p := obeys_iff.mpr ((obeys_iff.mp h).conseq hq)

lemma Obeys.step {e : E} {f : R e → Prog E R β} (ha : S.Allows σ e)
    (hf : ∀ r, S.Obeys Q' (S.see σ e r) (f r)) :
    S.Obeys Q' σ (Prog.request e >>= f) := ⟨ha, hf⟩

lemma obeys_of_abides {P : E → Prop} {T : α → Prop} {p : Prog E R α}
    (hp : Prog.Abides (fun _ _ => True) P T p)
    (hcalm : ∀ e, P e → S.Allows σ e ∧ ∀ r, S.see σ e r = σ) :
    S.Obeys (fun a τ => τ = σ ∧ T a) σ p := obeys_iff.mpr (obeysGiven_of_abides hp hcalm)

lemma obeys_of_allowed {P : E → Prop} {T : α → Prop} {p : Prog E R α}
    (hp : Prog.Abides (fun _ _ => True) P T p) (hP : ∀ e, P e → ∀ σ, S.Allows σ e) :
    S.Obeys (fun _ _ => True) σ p := by
  induction p generalizing σ with
  | ret a => trivial
  | call e k ih => exact ⟨hP e hp.1 σ, fun r => ih r (hp.2 r trivial)⟩

variable (S) in
def watch (t : ℕ) : Log M → Option S.State
  | [] => none
  | y :: l =>
    match y.obs with
    | .spawn u j => if u = t then S.init j else watch t l
    | .call u e r => if u = t then (watch t l).map (S.see · e r) else watch t l
    | .finish u | .crash u => if u = t then none else watch t l
    | .outside _ => watch t l

variable {t : ℕ} {w : M.World} {o : Obs M} {l : Log M}

lemma watch_other (h : o.actor ≠ some t) : S.watch t (⟨w, o⟩ :: l) = S.watch t l := by
  cases o <;> simp_all [watch, Obs.actor]

@[simp] lemma watch_spawn (j : M.Job) : S.watch t (⟨w, .spawn t j⟩ :: l) = S.init j := by
  simp [watch]

@[simp] lemma watch_call (e : E) (r : R e) :
    S.watch t (⟨w, .call t e r⟩ :: l) = (S.watch t l).map (S.see · e r) := by simp [watch]

lemma watch_end (h : o = .finish t ∨ o = .crash t) : S.watch t (⟨w, o⟩ :: l) = none := by
  rcases h with rfl | rfl <;> simp [watch]

lemma watch_cases (h : S.watch t (⟨w, o⟩ :: l) = some σ) :
    (o.actor ≠ some t ∧ S.watch t l = some σ) ∨ (∃ j, o = .spawn t j ∧ S.init j = some σ) ∨
      ∃ e r τ, o = .call t e r ∧ S.watch t l = some τ ∧ S.see τ e r = σ := by
  by_cases ha : o.actor = some t
  · cases o with
    | spawn u j =>
      cases ha
      exact .inr (.inl ⟨j, rfl, by simpa using h⟩)
    | call u e r =>
      cases ha
      rw [watch_call, Option.map_eq_some_iff] at h
      obtain ⟨τ, hτ, hσ⟩ := h
      exact .inr (.inr ⟨e, r, τ, rfl, hτ, hσ⟩)
    | finish u | crash u =>
      cases ha
      rw [watch_end (by simp)] at h
      cases h
    | outside x => cases ha
  · exact .inl ⟨ha, by rwa [watch_other ha] at h⟩

lemma watch_of_job {j : M.Job} (h : l.job t = some j) :
    S.watch t l = (S.init j).map
      fun σ => (l.own t).foldr (fun y σ => S.see σ y.request y.answer) σ := by
  induction l with
  | nil => cases h
  | cons y l ih =>
    obtain ⟨w, o⟩ := y
    cases o with
    | spawn u i =>
      by_cases hut : u = t
      · simp only [Log.job, hut, if_true, Option.some.injEq] at h
        simp [watch, Log.own, hut, h]
      · simp only [Log.job, hut, if_false] at h
        simpa [watch, Log.own, hut] using ih h
    | call u e r =>
      have hw := ih h
      by_cases hut : u = t
      · subst hut
        rw [watch_call, Log.own_call, hw, Option.map_map]
        rfl
      · simpa [watch, Log.own, hut] using hw
    | finish u | crash u =>
      by_cases hut : u = t
      · simp [Log.job, hut] at h
      · simp only [Log.job, hut, if_false] at h
        simpa [watch, Log.own, hut] using ih h
    | outside x => exact ih h

lemma ObeysGiven.returns_go [DecidableEq E] {p : Prog E R α} {s : List (Reply M)} {a : α}
    (h : S.ObeysGiven G Q σ p) (hg : ∀ y ∈ s, G y.request y.answer)
    (hr : Prog.returns.go p s = some a) :
    Q a (s.foldl (fun σ y => S.see σ y.request y.answer) σ) := by
  induction p generalizing σ s with
  | ret b =>
    cases s with
    | nil =>
      cases hr
      exact h
    | cons y s => cases hr
  | call e k ih =>
    cases s with
    | nil => cases hr
    | cons y s =>
      obtain ⟨w, e', r⟩ := y
      simp only [Prog.returns.go] at hr
      split_ifs at hr with he
      subst he
      obtain ⟨hy, hs⟩ := List.forall_mem_cons.mp hg
      rw [List.foldl_cons]
      exact ih r (h.2 r hy) hs hr

lemma ObeysGiven.returns [DecidableEq E] {p : Prog E R α} {a : α} {j : M.Job}
    (h : S.ObeysGiven G Q σ p) (hl : l.Meets G) (hj : l.job t = some j) (hi : S.init j = some σ)
    (hr : p.returns (l.own t) = some a) :
    ∃ τ, S.watch t l = some τ ∧ Q a τ := by
  refine ⟨_, by rw [watch_of_job hj, hi]; rfl, ?_⟩
  have hq := h.returns_go (fun y hy => hl.own t y (List.mem_reverse.mp hy)) hr
  rwa [List.foldl_reverse] at hq

variable (S) in
def Admits (l : Log M) : Obs M → Prop
  | .call t e _ => ∀ σ, S.watch t l = some σ → S.Allows σ e
  | _ => True

variable (S) in
def Respected : Prop := ∀ j σ, S.init j = some σ → S.Obeys (fun _ _ => True) σ (M.program j)

variable (S) in
def RespectedGiven (G : (e : E) → R e → Prop) : Prop :=
  ∀ j σ, S.init j = some σ → S.ObeysGiven G (fun _ _ => True) σ (M.program j)

lemma RespectedGiven.pool {A : Log M → M.World → Obs M → Prop} {c : Config M}
    (hS : S.RespectedGiven G) (hr : Config.Logged A (Config.start w) l c) (hl : l.Meets G)
    {p : Prog E R Unit} (hp : c.pool t = some p) (hw : S.watch t l = some σ) :
    S.ObeysGiven G (fun _ _ => True) σ p := by
  induction hr generalizing p σ with
  | nil => cases hp
  | cons _ hs _ ih =>
    obtain ⟨hx, hrest⟩ := List.forall_mem_cons.mp hl
    rcases (Config.happens_of_step hs).thread t with
      ⟨hact, hd⟩ | ⟨j, rfl, _, hd⟩ | ⟨e, k, r, rfl, hc, hd⟩ | ⟨hend, hd⟩
    · rw [watch_other hact] at hw
      exact ih hrest (hd ▸ hp) hw
    · rw [hp] at hd
      cases hd
      exact hS j σ (by simpa using hw)
    · rw [hp] at hd
      cases hd
      rw [watch_call, Option.map_eq_some_iff] at hw
      obtain ⟨τ, hτ, rfl⟩ := hw
      exact (ih hrest hc hτ).2 r (hx t e r rfl)
    · rw [hp] at hd
      cases hd

lemma RespectedGiven.admits {A : Log M → M.World → Obs M → Prop} {c d : Config M} {ev : Event M}
    (hS : S.RespectedGiven G) (hr : Config.Logged A (Config.start w) l c) (hl : l.Meets G)
    (hs : c.step ev = some (o, d)) : S.Admits l o := by
  cases Config.happens_of_step hs with
  | call hp _ => exact fun σ hw => (hS.pool hr hl hp hw).1
  | _ => trivial

lemma Respected.admits {A : Log M → M.World → Obs M → Prop} {c d : Config M} {ev : Event M}
    (hS : S.Respected) (hr : Config.Logged A (Config.start w) l c) (hs : c.step ev = some (o, d)) :
    S.Admits l o :=
  RespectedGiven.admits (G := fun _ _ => True) (fun j σ hj => obeys_iff.mp (hS j σ hj)) hr
      (fun _ _ _ _ _ _ => trivial) hs

end Monitor

namespace Protocol

variable {M : Machine E R} {P : Protocol M} {S : Monitor M} {A : Log M → M.World → Obs M → Prop}

lemma Moves.watched {l : Log M} {w w' : M.World} {ph ph' : ℕ → Option P.Phase} {o : Obs M}
    (hS : ∀ j, ∃ σ, S.init j = some σ) (h : ∀ t φ, ph t = some φ → ∃ σ, S.watch t l = some σ)
    (hm : P.Moves w ph o w' ph') : ∀ t φ, ph' t = some φ →
    ∃ σ, S.watch t (⟨w, o⟩ :: l) = some σ := by
  refine Moves.each hm h ?_ ?_ ?_
  · rintro t j _ rfl _
    obtain ⟨σ, hσ⟩ := hS j
    exact ⟨σ, (Monitor.watch_spawn j).trans hσ⟩
  · rintro t φ e r ψ ch _ _ _ rfl ⟨σ, hσ⟩
    exact ⟨S.see σ e r, (Monitor.watch_call e r).trans (congrArg (Option.map _) hσ)⟩
  · rintro t φ _ hact ⟨σ, hσ⟩
    exact ⟨σ, (Monitor.watch_other hact).trans hσ⟩

lemma meets_run (hc : P.Conforms) {G : (e : E) → R e → Prop}
    (hG : ∀ w ph t e r w' ph', P.Valid w → (∀ t φ, ph t = some φ → P.Facts w φ) → P.Moves w ph
      (.call t e r) w' ph' → G e r) {w : M.World} (hv : P.Valid w) {l : Log M} {c : Config M}
        (hr : Config.Logged A (Config.start w) l c) :
    l.Meets G ∧ ∃ ph, P.Tracks c ph := by
  induction hr with
  | nil => exact ⟨by simp [Log.Meets], _, Tracks.start hv⟩
  | cons _ hs _ ih =>
    obtain ⟨hl, ph, ht⟩ := ih
    obtain ⟨ph', hm, ht'⟩ := ht.step hc hs
    refine ⟨List.forall_mem_cons.mpr ⟨?_, hl⟩, ph', ht'⟩
    rintro t e r rfl
    exact hG _ _ _ _ _ _ _ ht.valid ht.facts hm

/-- A property of logs, worlds and phases that every admitted move keeps holds after every run. -/
theorem run_admitted (hc : P.Conforms) {w : M.World}
    (hS : ∀ l c ev o d, Config.Logged A (Config.start w) l c → c.step ev = some
      (o, d) → S.Admits l o) {I : Log M → M.World → (ℕ → Option P.Phase) → Prop}
    (hk : ∀ l w ph o w' ph', P.Valid w → (∀ t φ, ph t = some φ → P.Facts w φ) → I l w ph →
      A l w o → S.Admits l o → P.Moves w ph o w' ph' → I (⟨w, o⟩ :: l) w' ph')
    (hv : P.Valid w) (hi : I [] w (fun _ => none)) {l : Log M} {c : Config M}
    (hr : Config.Logged A (Config.start w) l c) : ∃ ph, P.Tracks c ph ∧ I l c.world ph := by
  induction hr with
  | nil => exact ⟨_, Tracks.start hv, hi⟩
  | cons hr hs ha ih =>
    obtain ⟨ph, ht, hI⟩ := ih
    obtain ⟨ph', hm, ht'⟩ := ht.step hc hs
    exact ⟨ph', ht', hk _ _ _ _ _ _ ht.valid ht.facts hI ha (hS _ _ _ _ _ hr hs) hm⟩

theorem run_logged (hc : P.Conforms) (hS : S.Respected)
    {I : Log M → M.World → (ℕ → Option P.Phase) → Prop}
    (hk : ∀ l w ph o w' ph', P.Valid w → (∀ t φ, ph t = some φ → P.Facts w φ) → I l w ph →
    A l w o → S.Admits l o →
      P.Moves w ph o w' ph' → I (⟨w, o⟩ :: l) w' ph')
    {w : M.World} (hv : P.Valid w) (hi : I [] w (fun _ => none)) {l : Log M} {c : Config M}
    (hr : Config.Logged A (Config.start w) l c) : ∃ ph, P.Tracks c ph ∧ I l c.world ph :=
  run_admitted hc (fun _ _ _ _ _ hr hs => hS.admits hr hs) hk hv hi hr

end Protocol

end KarpenterProviderSsh.Interleaving
