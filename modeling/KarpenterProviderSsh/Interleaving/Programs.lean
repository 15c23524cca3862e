import Mathlib.Tactic

/-! Programs that talk to a shared world one request at a time. -/

namespace KarpenterProviderSsh.Interleaving

inductive Prog (E : Type) (R : E → Type) (α : Type) : Type
  | ret (a : α) : Prog E R α
  | call (e : E) (k : R e → Prog E R α) : Prog E R α

namespace Prog

variable {E : Type} {R : E → Type} {α β γ : Type}

def bind : Prog E R α → (α → Prog E R β) → Prog E R β
  | .ret a, f => f a
  | .call e k, f => .call e (fun r => (k r).bind f)

instance : Monad (Prog E R) where
  pure := .ret
  bind := .bind

def request (e : E) : Prog E R (R e) :=
  .call e .ret

@[simp] lemma pure_eq (a : α) : (pure a : Prog E R α) = .ret a := rfl

@[simp] lemma ret_bind (a : α) (f : α → Prog E R β) : (Prog.ret a >>= f) = f a := rfl

@[simp] lemma call_bind (e : E) (k : R e → Prog E R α) (f : α → Prog E R β) :
    (Prog.call e k >>= f) = .call e (fun r => k r >>= f) := rfl

@[simp] lemma request_bind (e : E) (f : R e → Prog E R β) :
    (request e >>= f) = .call e f := rfl

lemma bind_assoc (p : Prog E R α) (f : α → Prog E R β) (g : β → Prog E R γ) :
    (p >>= f >>= g) = (p >>= fun a => f a >>= g) := by
  induction p with
  | ret a => rfl
  | call e k ih =>
    simp only [call_bind, call.injEq, heq_eq_eq, true_and]
    funext r
    exact ih r

end Prog

end KarpenterProviderSsh.Interleaving
