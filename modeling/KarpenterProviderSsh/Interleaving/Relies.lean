import KarpenterProviderSsh.Interleaving.Traces

/-! A program whose requests are answered by one server while others change its world: what they may
change between two requests is a relation, the rely of the program. -/

namespace KarpenterProviderSsh.Interleaving

variable {E : Type} {R : E → Type} {α : Type}

structure Server (E : Type) (R : E → Type) where
  World : Type
  Choice : Type
  answer : World → (e : E) → Choice → Option (R e × World)

namespace Prog

variable {M : Server E R} {rely : M.World → M.World → Prop} {Q : M.World → E → Prop}
  {post : M.World → α → Prop} {w w' : M.World}

/-- Every request meets `Q` in the world it is answered in, and what is returned meets `post`,
whatever the rely allows in between. -/
def Under (M : Server E R) (rely : M.World → M.World → Prop) (Q : M.World → E → Prop)
    (post : M.World → α → Prop) : Prog E R α → M.World → Prop
  | .ret a, w => ∀ w', rely w w' → post w' a
  | .call e k, w => ∀ w', rely w w' → Q w' e ∧ ∀ ch r w'', M.answer w' e ch = some (r, w'') →
      Under M rely Q post (k r) w''

lemma Under.later {p : Prog E R α} (htrans : ∀ {u v w}, rely u v → rely v w → rely u w)
    (h : Under M rely Q post p w) (hw : rely w w') : Under M rely Q post p w' := by
  cases p with
  | ret a => exact fun v hv => h v (htrans hw hv)
  | call e k => exact fun v hv => h v (htrans hw hv)

end Prog

def Prog.lift {E' : Type} {R' : E' → Type} (ι : E → E') (g : (e : E) → R' (ι e) → R e) :
    Prog E R α → Prog E' R' α
  | .ret a => .ret a
  | .call e k => .call (ι e) (fun r => (k (g e r)).lift ι g)

lemma Prog.runs_lift {E' : Type} {R' : E' → Type} {ι : E → E'}
    {g : (e : E) → R' (ι e) → R e} {p : Prog E R α} {l : Trace E' R'} {a : α} :
    Runs (p.lift ι g) l a ↔
      ∃ l₀ : List ((e : E) × R' (ι e)), l = l₀.map (fun x => ⟨ι x.1, x.2⟩) ∧
        Runs p (l₀.map fun x => ⟨x.1, g x.1 x.2⟩) a := by
  induction p generalizing l with
  | ret b =>
    simp only [lift, runs_ret, List.map_eq_nil_iff]
    constructor
    · rintro ⟨rfl, rfl⟩
      exact ⟨[], rfl, rfl, rfl⟩
    · rintro ⟨_, rfl, rfl, rfl⟩
      exact ⟨rfl, rfl⟩
  | call e k ih =>
    simp only [lift, runs_call, ih]
    constructor
    · rintro ⟨r, _, rfl, l₀, rfl, hk⟩
      exact ⟨⟨e, r⟩ :: l₀, rfl, g e r, _, rfl, hk⟩
    · rintro ⟨l₀, rfl, r, l', he, hk⟩
      cases l₀ with
      | nil => cases he
      | cons x l₀ =>
        cases he
        exact ⟨x.2, _, rfl, l₀, rfl, hk⟩

end KarpenterProviderSsh.Interleaving
