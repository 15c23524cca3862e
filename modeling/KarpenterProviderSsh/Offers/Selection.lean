import KarpenterProviderSsh.Offers.Availability
import KarpenterProviderSsh.Runs.Asking

/-! The candidates of a Create: its two loops over classes and hosts are one pass over a single
order. -/

namespace KarpenterProviderSsh.Offers

open Api Cluster Scripts Store Providers
open Interleaving.Prog (Runs Trace Abides runs_bind runs_call runs_ret)

section Orders

/-- Cheapest first, those of one price as they came. -/
structure Preferred (its order : List InstanceType) : Prop where
  perm : order.Perm its
  sorted : order.Pairwise fun a b => cheapest a ≤ cheapest b
  stable : ∀ p, order.filter (cheapest · = p) = its.filter (cheapest · = p)

lemma preferred_sortByPrice (its : List InstanceType) : Preferred its (sortByPrice its) := by
  have : Std.Total fun a b : InstanceType => cheapest a ≤ cheapest b := ⟨fun _ _ => le_total _ _⟩
  have : IsTrans InstanceType fun a b => cheapest a ≤ cheapest b := ⟨fun _ _ _ => le_trans⟩
  have hperm : (sortByPrice its).Perm its := List.perm_insertionSort _ _
  refine ⟨hperm, List.pairwise_insertionSort _ _, fun p => ?_⟩
  -- what is already in order keeps its order, and there is nothing else of this price
  have hsorted : (its.filter (cheapest · = p)).Pairwise fun a b => cheapest a ≤ cheapest b :=
    List.pairwise_of_forall_mem_list fun a ha b hb => by
      simp only [List.mem_filter, decide_eq_true_eq] at ha hb
      rw [ha.2, hb.2]
  have hsub :
      (its.filter (cheapest · = p)).Sublist ((sortByPrice its).filter (cheapest · = p)) := by
    have hf := (List.sublist_insertionSort hsorted List.filter_sublist).filter
      (fun it => decide (cheapest it = p))
    rw [List.filter_filter] at hf
    simp only [Bool.and_self] at hf
    exact hf
  exact (hsub.eq_of_length ((hperm.filter _).length_eq).symm).symm

end Orders

section Trying

inductive Outcome
  | won (h : SSHHost)
  | lost
  | failed (e : Err)

def Outcome.isWon : Outcome → Bool
  | .won _ => true
  | _ => false

def outcomeOf : Except Err SSHHost → Outcome
  | .ok h => .won h
  | .error e => if e.isConflict then .lost else .failed e

inductive Tried : List SSHHost → List (SSHHost × Outcome) → Except Err (Option SSHHost) → Prop
  | exhausted : Tried [] [] (.ok none)
  | won {c cs h} : Tried (c :: cs) [(c, .won h)] (.ok (some h))
  | failed {c cs e} : Tried (c :: cs) [(c, .failed e)] (.error e)
  | lost {c cs t r} : Tried cs t r → Tried (c :: cs) ((c, .lost) :: t) r

variable {cs cs' : List SSHHost} {t t' : List (SSHHost × Outcome)} {r : Except Err (Option SSHHost)}

lemma Tried.append (h : Tried cs t (.ok none)) (h' : Tried cs' t' r) :
    Tried (cs ++ cs') (t ++ t') r := by
  generalize hr : (Except.ok none : Except Err (Option SSHHost)) = r₀ at h
  induction h with
  | exhausted => exact h'
  | won => cases hr
  | failed => cases hr
  | lost _ ih => exact .lost (ih hr)

lemma Tried.extend (h : Tried cs t r) (hr : r ≠ .ok none) : Tried (cs ++ cs') t r := by
  induction h with
  | exhausted => exact absurd rfl hr
  | won => exact .won
  | failed => exact .failed
  | lost _ ih => exact .lost (ih hr)

lemma Tried.of_failed (h : Tried cs t r) {c : SSHHost} {e : Err} (hm : (c, .failed e) ∈ t) :
    r = .error e := by
  induction h with
  | exhausted => cases hm
  | won | failed =>
    cases List.mem_singleton.mp hm
    try rfl
  | lost _ ih => exact ih ((List.mem_cons.mp hm).resolve_left (by simp))

lemma Tried.once (h : Tried cs t r) : t.countP (fun x => x.2.isWon) ≤ 1 := by
  induction h with
  | exhausted | won | failed => simp [Outcome.isWon]
  | lost _ ih => simpa [Outcome.isWon] using ih

end Trying

section Loops

variable {X : Externals} {nodeClass : SSHNodeClass X} {nc : NodeClaim} {l l' : Trace Eff Res}
  {its : List InstanceType} {cs pool : List SSHHost} {r : Except Err (Option SSHHost)}

def attempt : (e : Eff) → Res e → Option (SSHHost × Outcome)
  | .updateStatus h _, r => some (h, outcomeOf r)
  | _, _ => none

def attempts (l : Trace Eff Res) : List (SSHHost × Outcome) := l.filterMap fun x => attempt x.1 x.2

def listed : (e : Eff) → Res e → Option (List SSHHost)
  | .listHosts _, .ok pool => some pool
  | _, _ => none

def pools (l : Trace Eff Res) : List (List SSHHost) := l.filterMap fun x => listed x.1 x.2

@[simp] lemma attempts_snapshot : attempts (snapshot X pool) = [] := rfl
@[simp] lemma pools_snapshot : pools (snapshot X pool) = [pool] := rfl

def order (X : Externals) (selector : Option X.LabelSelector) (its : List InstanceType)
    (pools : List (List SSHHost)) :
    List SSHHost :=
  (its.zip pools).flatMap fun p => candidatesOf X selector p.1.name p.2

inductive Selects (X : Externals) (nodeClass : SSHNodeClass X) (its : List InstanceType)
    (l : Trace Eff Res) :
    Except Err (Option SSHHost) → Prop
  | tried {a} : Tried (order X nodeClass.hostSelector its (pools l)) (attempts l) a →
      (a = .ok none → (pools l).length = its.length) → Selects X nodeClass its l a
  | refused {e} : Tried (order X nodeClass.hostSelector its (pools l)) (attempts l) (.ok none) →
      (pools l).length < its.length → Selects X nodeClass its l (.error e)

end Loops

section Launching

open Runs (Asks QuietRequest CoversJoin quiet_adoptProviderID asks_setStatus asks_join
  asks_releaseHost)

variable {X : Externals} {nodeClass : SSHNodeClass X} {nc : NodeClaim} {h : SSHHost}
  {l : Trace Eff Res}

def Settled : Eff → Prop
  | .listHosts _ | .updateStatus _ _ => False
  | _ => True

end Launching

section Creates

variable {X : Externals} {nodeClass : SSHNodeClass X} {nc : NodeClaim} {l : Trace Eff Res}
  {its : List InstanceType} {pool : List SSHHost} {a : Except CloudError Instance}

end Creates

section Sample

open Runs.Sample
open Interleaving.Prog (answered runs_answered)

end Sample

end KarpenterProviderSsh.Offers
