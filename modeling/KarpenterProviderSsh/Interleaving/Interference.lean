import KarpenterProviderSsh.Interleaving.Pools

/-! One program of a pool, with everything the others do in between taken as interference. -/

namespace KarpenterProviderSsh.Interleaving

variable {E : Type} {R : E → Type} {α β : Type}

structure Own (M : Machine E R) where
  before : M.World
  request : E
  after : M.World

variable {M : Machine E R}

/-- Thread `t` runs a program down to what is left of it, with any interference in `env` between its
own requests. -/
inductive Amid (env : M.World → M.World → Prop) (t : ℕ) :
    M.World → Prog E R α → List (Own M) → M.World → Prog E R α → Prop
  | stay {w w' p} : env w w' → Amid env t w p [] w' p
  | call {w w₁ w₂ w' e k ch r l q} : env w w₁ → M.handle w₁ t e ch = some (r, w₂) →
      Amid env t w₂ (k r) l w' q → Amid env t w (.call e k) (⟨w₁, e, w₂⟩ :: l) w' q

namespace Amid

variable {env : M.World → M.World → Prop} {t : ℕ} {w w' w'' : M.World}

lemma ret_inv {a : α} {l : List (Own M)} {q : Prog E R α} (h : Amid env t w (.ret a) l w' q) :
    l = [] ∧ q = .ret a ∧ env w w' := by
  cases h with
  | stay he => exact ⟨rfl, rfl, he⟩

lemma call_inv {e : E} {k : R e → Prog E R α} {l : List (Own M)} {q : Prog E R α}
    (h : Amid env t w (.call e k) l w' q) :
    (l = [] ∧ q = .call e k) ∨ ∃ w₁ w₂ ch r l', l = ⟨w₁, e, w₂⟩ :: l' ∧ env w w₁ ∧
      M.handle w₁ t e ch = some (r, w₂) ∧ Amid env t w₂ (k r) l' w' q := by
  cases h with
  | stay he => exact .inl ⟨rfl, rfl⟩
  | call he hh hl => exact .inr ⟨_, _, _, _, _, rfl, he, hh, hl⟩

lemma bind {p : Prog E R α} {f : α → Prog E R β} {l : List (Own M)} {q : Prog E R β}
    (hrefl : ∀ w, env w w) (h : Amid env t w (p >>= f) l w' q) :
    (∃ p', (∀ b, q ≠ .ret b) ∧ Amid env t w p l w' p') ∨
      ∃ l₁ l₂ w₁ a, l = l₁ ++ l₂ ∧ Amid env t w p l₁ w₁ (.ret a) ∧ Amid env t w₁ (f a) l₂ w' q := by
  induction p generalizing w l with
  | ret a => exact .inr ⟨[], l, w, a, rfl, .stay (hrefl w), h⟩
  | call e k ih =>
    cases h with
    | stay he => exact .inl ⟨_, nofun, .stay he⟩
    | call he hh hl =>
      rcases ih _ hl with ⟨p', hq, hp⟩ | ⟨l₁, l₂, w₁, a, rfl, hp, hf⟩
      · exact .inl ⟨p', hq, .call he hh hp⟩
      · exact .inr ⟨_, l₂, w₁, a, rfl, .call he hh hp, hf⟩

lemma interfere {p q : Prog E R α} {l : List (Own M)}
    (htrans : ∀ {u v w}, env u v → env v w → env u w) (h : Amid env t w p l w' q)
    (he : env w' w'') : Amid env t w p l w'' q := by
  induction h with
  | stay h => exact .stay (htrans h he)
  | call h hh _ ih => exact .call h hh (ih he)

lemma step {p : Prog E R α} {l : List (Own M)} {e : E} {k : R e → Prog E R α}
    {ch : M.Choice} {r : R e} (hrefl : ∀ w, env w w) (h : Amid env t w p l w' (.call e k))
    (hh : M.handle w' t e ch = some (r, w'')) :
    Amid env t w p (l ++ [⟨w', e, w''⟩]) w'' (k r) := by
  induction l generalizing w p with
  | nil =>
    cases h with
    | stay he => exact .call he hh (.stay (hrefl _))
  | cons x l ih =>
    cases h with
    | call he hh' hl => exact .call he hh' (ih hl)

end Amid

def Machine.drive (M : Machine E R) (t : ℕ) :
    List M.Choice → M.World → Prog E R α → Option (List (Own M) × M.World × Prog E R α)
  | [], w, p => some ([], w, p)
  | ch :: chs, w, .call e k =>
    match M.handle w t e ch with
    | some (r, w') => (M.drive t chs w' (k r)).map fun x => (⟨w, e, w'⟩ :: x.1, x.2)
    | none => none
  | _ :: _, _, .ret _ => none

lemma amid_of_drive {env : M.World → M.World → Prop} {t : ℕ} (hrefl : ∀ w, env w w)
    {chs : List M.Choice} {w w' : M.World} {p q : Prog E R α} {l : List (Own M)}
    (h : M.drive t chs w p = some (l, w', q)) :
    Amid env t w p l w' q := by
  induction chs generalizing w p l with
  | nil =>
    cases p <;> cases h <;> exact .stay (hrefl _)
  | cons ch chs ih =>
    cases p with
    | ret a => cases h
    | call e k =>
      simp only [Machine.drive] at h
      split at h
      · rename_i r w₁ hh
        obtain ⟨⟨l₁, w₂, q₁⟩, hd, he⟩ := Option.map_eq_some_iff.mp h
        cases he
        exact .call (hrefl w) hh (ih hd)
      · cases h

namespace Config

theorem Reaches.amid {V : M.World → M.World → Prop} {A : M.World → Obs M → Prop}
    {c d : Config M} {t : ℕ} {p : Prog E R Unit} {I : M.World → Prop} (hrefl : ∀ w, V w w)
    (htrans : ∀ {u v w}, V u v → V v w → V u w)
    (hstep : ∀ (c d : Config M) ev o, I c.world → c.step ev = some (o, d) → I d.world ∧
      V c.world d.world) (hA : ∀ w o, A w o → o ≠ .finish t ∧ o ≠ .crash t)
        (hr : Reaches A c d) (hi : I c.world)
    (hp : c.pool t = some p) : I d.world ∧ ∃ l q, d.pool t = some q ∧
    Amid V t c.world p l d.world q := by
  induction hr with
  | refl => exact ⟨hi, [], p, hp, .stay (hrefl _)⟩
  | @tail d d' _ hs ih =>
    obtain ⟨hid, l, q, hq, hl⟩ := ih
    obtain ⟨ev, o, he, ha⟩ := hs
    obtain ⟨hid', henv⟩ := hstep d d' ev o hid he
    refine ⟨hid', ?_⟩
    obtain ⟨hfin, hcr⟩ := hA _ _ ha
    rcases (happens_of_step he).thread t with ⟨_, hd⟩ | ⟨j, _, hn, _⟩ |
      ⟨e, k, r, rfl, hc, hd⟩ | ⟨h | h, _⟩
    · exact ⟨l, q, hd.trans hq, hl.interfere htrans henv⟩
    · rw [hq] at hn
      cases hn
    · cases happens_of_step he with
      | call hc' hh =>
        rw [hq] at hc'
        cases hc'
        exact ⟨_, _, Function.update_self .., hl.step hrefl hh⟩
    · exact absurd h hfin
    · exact absurd h hcr

end Config

end KarpenterProviderSsh.Interleaving
