import KarpenterProviderSsh.Cluster.Worlds
import KarpenterProviderSsh.Controllers.StartupTaintGate
import KarpenterProviderSsh.Interleaving.Relies

/-! The stored SSHNodeClass with its metadata and its one condition, and the requests about it that
come on top of those about hosts. -/

namespace KarpenterProviderSsh.Catalogs

open Api Cluster Scripts Providers Controllers

structure NodeClass (X : Externals) where
  spec : SSHNodeClassSpec X
  generation : ℕ
  resourceVersion : ℕ
  deleting : Bool
  finalizers : List String
  ready : Option Condition

/-- An update replaces spec and finalizers under the optimistic lock; a status patch carries no
lock. -/
inductive ClassEff (X : Externals)
  | cluster (e : Eff)
  | getNodeClass (name : String)
  | updateNodeClass (n : NodeClass X)
  | patchReady (orig : NodeClass X) (ready : Option Condition)
  | listNodeClaims (cls : String)

abbrev ClassRes (X : Externals) : ClassEff X → Type
  | .cluster e => Res e
  | .getNodeClass _ => Except Err (NodeClass X)
  | .updateNodeClass _ => Except Err (NodeClass X)
  | .patchReady _ _ => Except Err Unit
  | .listNodeClaims _ => Except Err (List String)

abbrev ClassProg (X : Externals) := Interleaving.Prog (ClassEff X) (ClassRes X)

variable {X : Externals}

abbrev classRequest (e : ClassEff X) : ClassProg X (ClassRes X e) := Interleaving.Prog.request e

def onCluster {α : Type} (X : Externals) (p : Cluster.Prog α) : ClassProg X α :=
  p.lift .cluster (fun _ r => r)

def ownsNodeClassRef : Option NodeClassReference → Bool
  | some ref => ref.group == nodeClassGroup && ref.kind == nodeClassKind
  | none => false

def requeues : Except Err Result → Bool
  | .ok r => r.requeueAfter ≠ 0
  | .error _ => true

inductive ApiChoice
  | ok
  | fail (landed : Bool) (message : String)
  | hosts (l : List SSHHost)
  | pods (l : List Pod)
  | time (n : ℕ)

section Answers

variable {W α : Type} {w w' w₁ : W} {r : Except Err α} {ch : ApiChoice}

def cachedOr (o : Option α) : Except Err α :=
  match o with
  | some a => .ok a
  | none => .error World.notFoundErr

def served (w : W) (r : Except Err α) : ApiChoice → Option (Except Err α × W)
  | .ok => some (r, w)
  | .fail _ m => some (.error (World.otherErr false m), w)
  | _ => none

def landing (w : W) (a : α) (w' : W) : ApiChoice → Option (Except Err α × W)
  | .ok => some (.ok a, w')
  | .fail true m => some (.error (World.otherErr true m), w')
  | .fail false m => some (.error (World.otherErr false m), w)
  | _ => none

def lost (w : W) (e : Err) : ApiChoice → Option (Except Err α × W)
  | .ok => some (.error e, w)
  | .fail false m => some (.error (World.otherErr false m), w)
  | _ => none

lemma served_eq {a : Except Err α} (h : served w a ch = some (r, w')) :
    w' = w ∧ (r = a ∨ ∃ m, r = .error (World.otherErr false m)) := by
  cases ch <;> cases h
  · exact ⟨rfl, .inl rfl⟩
  · exact ⟨rfl, .inr ⟨_, rfl⟩⟩

lemma landing_eq {a : α} (h : landing w a w₁ ch = some (r, w')) :
    (w' = w₁ ∧ (r = .ok a ∨ ∃ m, r = .error (World.otherErr true m))) ∨
    (w' = w ∧ ∃ m, r = .error (World.otherErr false m)) := by
  rcases ch with _ | ⟨_ | _, m⟩ | _ | _ | _ <;> cases h
  · exact .inl ⟨rfl, .inl rfl⟩
  · exact .inr ⟨rfl, _, rfl⟩
  · exact .inl ⟨rfl, .inr ⟨_, rfl⟩⟩

lemma lost_eq {e : Err} (h : lost w e ch = some (r, w')) :
    w' = w ∧ (r = .error e ∨ ∃ m, r = .error (World.otherErr false m)) := by
  rcases ch with _ | ⟨_ | _, m⟩ | _ | _ | _ <;> cases h
  · exact ⟨rfl, .inl rfl⟩
  · exact ⟨rfl, .inr ⟨_, rfl⟩⟩

lemma landing_weak {a : α} (h : landing w a w₁ ch = some (r, w')) :
    (w' = w ∧ ∃ e, r = .error e) ∨ (w' = w₁ ∧ (r = .ok a ∨ ∃ e, r = .error e)) := by
  rcases landing_eq h with ⟨hw, hr | ⟨m, hr⟩⟩ | ⟨hw, m, hr⟩
  · exact .inr ⟨hw, .inl hr⟩
  · exact .inr ⟨hw, .inr ⟨_, hr⟩⟩
  · exact .inl ⟨hw, _, hr⟩

lemma lost_weak {e : Err} (h : lost w e ch = some (r, w')) : w' = w ∧ ∃ e, r = .error e := by
  rcases lost_eq h with ⟨hw, hr | ⟨m, hr⟩⟩ <;> exact ⟨hw, _, hr⟩

end Answers

end KarpenterProviderSsh.Catalogs
