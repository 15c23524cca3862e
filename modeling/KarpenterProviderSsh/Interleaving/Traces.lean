import KarpenterProviderSsh.Interleaving.Programs

/-! The runs of a single program whose requests are answered in any way. -/

namespace KarpenterProviderSsh.Interleaving.Prog

variable {E : Type} {R : E → Type} {α β : Type}

abbrev Trace (E : Type) (R : E → Type) := List ((e : E) × R e)

inductive Runs : Prog E R α → Trace E R → α → Prop
  | ret (a : α) : Runs (.ret a) [] a
  | call {e : E} {k : R e → Prog E R α} {r : R e} {l : Trace E R} {a : α} : Runs (k r) l a →
      Runs (.call e k) (⟨e, r⟩ :: l) a

@[simp] lemma runs_ret {a b : α} {l : Trace E R} : Runs (.ret a) l b ↔ l = [] ∧ b = a := by
  constructor
  · intro h
    cases h
    exact ⟨rfl, rfl⟩
  · rintro ⟨rfl, rfl⟩
    exact .ret b

@[simp] lemma runs_call {e : E} {k : R e → Prog E R α} {l : Trace E R} {a : α} :
    Runs (.call e k) l a ↔ ∃ r l', l = ⟨e, r⟩ :: l' ∧ Runs (k r) l' a := by
  constructor
  · intro h
    cases h with
    | call h => exact ⟨_, _, rfl, h⟩
  · rintro ⟨r, l', rfl, h⟩
    exact .call h

lemma runs_bind {p : Prog E R α} {f : α → Prog E R β} {l : Trace E R} {b : β} :
    Runs (p >>= f) l b ↔ ∃ l₁ a l₂, l = l₁ ++ l₂ ∧ Runs p l₁ a ∧ Runs (f a) l₂ b := by
  induction p generalizing l with
  | ret a =>
    constructor
    · intro h
      exact ⟨[], a, l, rfl, .ret a, h⟩
    · rintro ⟨l₁, c, l₂, rfl, hp, hf⟩
      obtain ⟨rfl, rfl⟩ := runs_ret.mp hp
      exact hf
  | call e k ih =>
    simp only [call_bind, runs_call, ih]
    constructor
    · rintro ⟨r, l', rfl, l₁, a, l₂, rfl, hk, hf⟩
      exact ⟨⟨e, r⟩ :: l₁, a, l₂, rfl, ⟨r, l₁, rfl, hk⟩, hf⟩
    · rintro ⟨_, a, l₂, rfl, ⟨r, l₁, rfl, hk⟩, hf⟩
      exact ⟨r, l₁ ++ l₂, rfl, l₁, a, l₂, rfl, hk, hf⟩

lemma Runs.unique {p : Prog E R α} {l l' r r' : Trace E R} {a a' : α} (h : Runs p l a)
    (h' : Runs p l' a') (he : l ++ r = l' ++ r') : l = l' ∧ a = a' := by
  induction h generalizing l' with
  | ret a =>
    obtain ⟨rfl, rfl⟩ := runs_ret.mp h'
    exact ⟨rfl, rfl⟩
  | call _ ih =>
    obtain ⟨s, l₁, rfl, hk⟩ := runs_call.mp h'
    obtain ⟨hs, hrest⟩ := List.cons.inj he
    cases hs
    obtain ⟨rfl, rfl⟩ := ih hk hrest
    exact ⟨rfl, rfl⟩

def Only (Q : E → Prop) : Prog E R α → Prop
  | .ret _ => True
  | .call e k => Q e ∧ ∀ r, Only Q (k r)

lemma Only.bind {Q : E → Prop} {p : Prog E R α} {f : α → Prog E R β} (hp : Only Q p)
    (hf : ∀ a, Only Q (f a)) :
    Only Q (p >>= f) := by
  induction p with
  | ret a => exact hf a
  | call e k ih => exact ⟨hp.1, fun r => ih r (hp.2 r)⟩

lemma Only.runs {Q : E → Prop} {p : Prog E R α} {l : Trace E R} {a : α} (h : Only Q p)
    (hr : Runs p l a) :
    ∀ x ∈ l, Q x.1 := by
  induction hr with
  | ret a => simp
  | call _ ih =>
    intro x hx
    rcases List.mem_cons.mp hx with rfl | hx
    · exact h.1
    · exact ih (h.2 _) x hx

def Admits (P : Trace E R → ((e : E) × R e) → Prop) (acc l : Trace E R) : Prop :=
  ∀ l₁ x l₂, l = l₁ ++ x :: l₂ → P (acc ++ l₁) x

section Admits

variable {P : Trace E R → ((e : E) × R e) → Prop} {acc l l' : Trace E R} {x : (e : E) × R e}

lemma admits_nil : Admits P acc [] := by
  intro l₁ x l₂ h
  simp at h

lemma admits_cons : Admits P acc (x :: l) ↔ P acc x ∧ Admits P (acc ++ [x]) l := by
  constructor
  · intro h
    refine ⟨by simpa using h [] x l rfl, fun l₁ y l₂ he => ?_⟩
    simpa using h (x :: l₁) y l₂ (by rw [he, List.cons_append])
  · rintro ⟨hx, hl⟩ l₁ y l₂ he
    cases l₁ with
    | nil =>
      cases he
      simpa using hx
    | cons z l₁ =>
      cases he
      simpa using hl l₁ y l₂ rfl

lemma admits_append : Admits P acc (l ++ l') ↔ Admits P acc l ∧ Admits P (acc ++ l) l' := by
  induction l generalizing acc with
  | nil => simp [admits_nil]
  | cons x l ih => simp [admits_cons, ih, and_assoc]

end Admits

def answered (o : (e : E) → R e) : Prog E R α → Trace E R × α
  | .ret a => ([], a)
  | .call e k => (⟨e, o e⟩ :: (answered o (k (o e))).1, (answered o (k (o e))).2)

lemma answered_request (o : (e : E) → R e) (e : E) : answered o (request e) = ([⟨e, o e⟩], o e) :=
  rfl

lemma runs_answered (o : (e : E) → R e) (p : Prog E R α) :
    Runs p (answered o p).1 (answered o p).2 := by
  induction p with
  | ret a => exact .ret a
  | call e k ih => exact .call (ih (o e))

lemma answered_congr {Q : E → Prop} {o o' : (e : E) → R e} {p : Prog E R α} (hp : Only Q p)
    (ho : ∀ e, Q e → o e = o' e) : answered o p = answered o' p := by
  induction p with
  | ret a => rfl
  | call e k ih => rw [answered, answered, ho e hp.1, ih _ (hp.2 _)]

lemma answered_bind (o : (e : E) → R e) (p : Prog E R α) (f : α → Prog E R β) :
    answered o (p >>= f) = ((answered o p).1 ++ (answered o (f (answered o p).2)).1,
      (answered o (f (answered o p).2)).2) := by
  induction p with
  | ret a => rfl
  | call e k ih =>
    rw [call_bind, answered, ih]
    rfl

lemma mem_answered_bind {o : (e : E) → R e} {p : Prog E R α} {f : α → Prog E R β}
    {x : (e : E) × R e} :
    x ∈ (answered o (p >>= f)).1 ↔ x ∈ (answered o p).1 ∨
    x ∈ (answered o (f (answered o p).2)).1 := by
  rw [answered_bind]
  exact List.mem_append

end KarpenterProviderSsh.Interleaving.Prog
