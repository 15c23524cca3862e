import KarpenterProviderSsh.Interleaving.Traces
import KarpenterProviderSsh.Interleaving.Protocols

/-! Contracts of programs: as long as the answers meet `G`, every request meets `P` and the value
returned meets `Q`. -/

namespace KarpenterProviderSsh.Interleaving

variable {E : Type} {R : E → Type}

namespace Prog

variable {α β : Type} {G : (e : E) → R e → Prop} {P : E → Prop} {Q : α → Prop} {S : β → Prop}

def Abides (G : (e : E) → R e → Prop) (P : E → Prop) (Q : α → Prop) : Prog E R α → Prop
  | .ret a => Q a
  | .call e k => P e ∧ ∀ r, G e r → Abides G P Q (k r)

lemma Abides.bind {p : Prog E R α} {f : α → Prog E R β} (hp : Abides G P Q p)
    (hf : ∀ a, Q a → Abides G P S (f a)) :
    Abides G P S (p >>= f) := by
  induction p with
  | ret a => exact hf a hp
  | call e k ih => exact ⟨hp.1, fun r hr => ih r (hp.2 r hr)⟩

lemma Abides.step {e : E} {f : R e → Prog E R β} (he : P e) (hf : ∀ r, G e r → Abides G P S (f r)) :
    Abides G P S (request e >>= f) := ⟨he, hf⟩

lemma Abides.mono {P' : E → Prop} {p : Prog E R α} (hp : Abides G P Q p) (h : ∀ e, P e → P' e) :
    Abides G P' Q p := by
  induction p with
  | ret a => exact hp
  | call e k ih => exact ⟨h e hp.1, fun r hr => ih r (hp.2 r hr)⟩

lemma Abides.conseq {Q' : α → Prop} {p : Prog E R α} (hp : Abides G P Q p) (h : ∀ a, Q a → Q' a) :
    Abides G P Q' p := by
  induction p with
  | ret a => exact h a hp
  | call e k ih => exact ⟨hp.1, fun r hr => ih r (hp.2 r hr)⟩

lemma Abides.given {p : Prog E R α} (hp : Abides (fun _ _ => True) P Q p) : Abides G P Q p := by
  induction p with
  | ret a => exact hp
  | call e k ih => exact ⟨hp.1, fun r _ => ih r (hp.2 r trivial)⟩

lemma Abides.runs {p : Prog E R α} {l : Trace E R} {a : α} (hp : Abides G P Q p) (hr : Runs p l a)
    (hl : ∀ x ∈ l, G x.1 x.2) : (∀ x ∈ l, P x.1) ∧ Q a := by
  induction hr with
  | ret a => exact ⟨by simp, hp⟩
  | call _ ih =>
    obtain ⟨hP, hQ⟩ := ih (hp.2 _ (hl _ (.head _))) fun x hx => hl x (.tail _ hx)
    exact ⟨List.forall_mem_cons.mpr ⟨hp.1, hP⟩, hQ⟩

inductive After : Prog E R α → Trace E R → Prog E R α → Prop
  | refl (p : Prog E R α) : After p [] p
  | call {e : E} {k : R e → Prog E R α} {r : R e} {l : Trace E R} {q : Prog E R α} :
      After (k r) l q → After (.call e k) (⟨e, r⟩ :: l) q

lemma Abides.after {p q : Prog E R α} {l : Trace E R} (hp : Abides G P Q p) (ha : After p l q)
    (hl : ∀ x ∈ l, G x.1 x.2) : Abides G P Q q := by
  induction ha with
  | refl => exact hp
  | call _ ih => exact ih (hp.2 _ (hl _ (.head _))) fun x hx => hl x (.tail _ hx)

def advance (o : (e : E) → R e) : ℕ → Prog E R α → Trace E R × Prog E R α
  | n + 1, .call e k => (⟨e, o e⟩ :: (advance o n (k (o e))).1, (advance o n (k (o e))).2)
  | _, p => ([], p)

lemma after_advance (o : (e : E) → R e) (n : ℕ) (p : Prog E R α) :
    After p (advance o n p).1 (advance o n p).2 := by
  induction n generalizing p with
  | zero => cases p <;> exact .refl _
  | succ n ih =>
    cases p with
    | ret a => exact .refl _
    | call e k => exact .call (ih (k (o e)))

lemma eq_of_mem_answered {o : (e : E) → R e} {p : Prog E R α} {x : (e : E) × R e}
    (hx : x ∈ (answered o p).1) :
    x.2 = o x.1 := by
  induction p with
  | ret a => cases hx
  | call e k ih =>
    rcases List.mem_cons.mp hx with rfl | hx
    · rfl
    · exact ih _ hx

def next : Prog E R α → Option E
  | .ret _ => none
  | .call e _ => some e

lemma eq_call_of_next {p : Prog E R α} {e : E} (h : p.next = some e) : ∃ k, p = .call e k := by
  cases p with
  | ret a => cases h
  | call e' k =>
    cases h
    exact ⟨k, rfl⟩

end Prog

open Prog

namespace Config

variable {M : Machine E R} {c d : Config M} {ev : Event M} {o : Obs M}

lemma step_call {t : ℕ} {e : E} {r : R e} (hs : c.step ev = some (.call t e r, d)) :
    ∃ k, c.pool t = some (.call e k) := by
  cases happens_of_step hs with
  | call hp _ => exact ⟨_, hp⟩

lemma step_pool (hs : c.step ev = some (o, d)) {t : ℕ} {p : Prog E R Unit}
    (hp : d.pool t = some p) :
    c.pool t = some p ∨ (∃ j, p = M.program j) ∨
      ∃ e k r, c.pool t = some (.call e k) ∧ o = .call t e r ∧ p = k r := by
  rcases (happens_of_step hs).thread t with
    ⟨_, hd⟩ | ⟨j, _, _, hd⟩ | ⟨e, k, r, ho, hc, hd⟩ | ⟨_, hd⟩
  · exact .inl (hd ▸ hp)
  · rw [hp] at hd
    exact .inr (.inl ⟨j, Option.some.inj hd⟩)
  · rw [hp] at hd
    exact .inr (.inr ⟨e, k, r, hc, ho, Option.some.inj hd⟩)
  · rw [hp] at hd
    cases hd

end Config

namespace Protocol

variable {M : Machine E R} {P : Protocol M} {G : (e : E) → R e → Prop} {C : E → Prop}

def Meets (C : E → Prop) : Obs M → Prop
  | .call _ e _ => C e
  | _ => True

/-- Runs of programs that keep a contract: an invariant may rest on the requests meeting it, and the
answers may meet its assumption because of the invariant. -/
theorem run_abiding (hc : P.Conforms) (hj : ∀ j, Abides G C (fun _ => True) (M.program j))
    {A : M.World → Obs M → Prop} {I : M.World → (ℕ → Option P.Phase) → Prop}
    (hk : P.Kept (fun w o => A w o ∧ Meets C o) I)
    (hG : ∀ w ph t e r w' ph', P.Valid w → (∀ u φ, ph u = some φ → P.Facts w φ) → I w' ph' →
      A w (.call t e r) → C e → P.Moves w ph (.call t e r) w' ph' → G e r)
    {w : M.World} (hv : P.Valid w) (hi : I w (fun _ => none)) {c : Config M}
    (hr : Config.Reaches A (Config.start w) c) :
    ∃ ph, P.Tracks c ph ∧ I c.world ph ∧ ∀ t p, c.pool t = some p →
    Abides G C (fun _ => True) p := by
  induction hr with
  | refl =>
    refine ⟨_, Tracks.start hv, hi, ?_⟩
    intro t p hp
    cases hp
  | @tail c d _ hs ih =>
    obtain ⟨ph, ht, hi', hab⟩ := ih
    obtain ⟨ev, o, he, ha⟩ := hs
    obtain ⟨ph', hm, ht'⟩ := ht.step hc he
    have hmeets : Meets C o := by
      cases o with
      | call t e r =>
        obtain ⟨k, hp⟩ := Config.step_call he
        exact (hab t _ hp).1
      | _ => trivial
    have hi'' := hk _ _ _ _ _ ht.valid ht.facts hi' ⟨ha, hmeets⟩ hm
    refine ⟨ph', ht', hi'', fun t p hp => ?_⟩
    rcases Config.step_pool he hp with hp | ⟨j, rfl⟩ | ⟨e, k, r, hq, rfl, rfl⟩
    · exact hab t p hp
    · exact hj j
    · exact (hab t _ hq).2 r (hG _ _ _ _ _ _ _ ht.valid ht.facts hi'' ha hmeets hm)

end Protocol

end KarpenterProviderSsh.Interleaving
