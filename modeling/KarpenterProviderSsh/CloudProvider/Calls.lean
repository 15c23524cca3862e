import KarpenterProviderSsh.CloudProvider.Verdicts

/-! The calls of karpenter core against the operations on hosts: a call looks hosts, classes and
profiles up, and then runs at most one operation. What holds of every pool of operations holds
whatever core calls. -/

namespace KarpenterProviderSsh.CloudProvider

open Api Cluster Scripts Providers Controllers Catalogs
open Runs (Job Asks asks_list asks_byProviderID)
open Interleaving.Prog (Runs Trace Only runs_bind runs_ret)

variable {X : Externals} {T : Toolkit} {α : Type}

inductive Call
  | create (lc : LaunchClaim)
  | delete (lc : LaunchClaim)
  | reboot (lc : LaunchClaim)
  | get (id : String)
  | list
  | getInstanceTypes (pool : Option (Option NodeClassReference))
  | isDrifted (lc : LaunchClaim)

def Call.program (T : Toolkit) : Call → ClassProg X Unit
  | .create lc => do
    let _ ← CloudProvider.create T lc
    return ()
  | .delete lc => do
    let _ ← CloudProvider.delete lc
    return ()
  | .reboot lc => do
    let _ ← CloudProvider.reboot lc
    return ()
  | .get id => do
    let _ ← CloudProvider.get T id
    return ()
  | .list => do
    let _ ← CloudProvider.list T
    return ()
  | .getInstanceTypes pool => do
    let _ ← CloudProvider.getInstanceTypes T pool
    return ()
  | .isDrifted lc => do
    let _ ← CloudProvider.isDrifted T lc
    return ()

def Call.owner : Call → Option Owner
  | .create lc => some (.create lc.claim)
  | .delete lc => some (.delete lc.claim)
  | .reboot lc => some (.reboot lc.claim)
  | .get _ | .list | .getInstanceTypes _ | .isDrifted _ => none

def LooksUp : ClassEff X → Prop
  | .getNodeClass _ | .cluster (.listHosts _) | .cluster (.getHost _) | .cluster (.getProfile _) =>
    True
  | _ => False

lemma runs_discard {E : Type} {R : E → Type} {p : Interleaving.Prog E R α} {l : Trace E R} :
    Runs (do let _ ← p; return ()) l () ↔ ∃ a, Runs p l a := by
  refine runs_bind.trans ⟨?_, ?_⟩
  · rintro ⟨l₁, a, l₂, rfl, hp, hret⟩
    obtain ⟨rfl, _⟩ := runs_ret.mp hret
    exact ⟨a, (List.append_nil l₁).symm ▸ hp⟩
  · rintro ⟨a, hp⟩
    exact ⟨l, a, [], (List.append_nil l).symm, hp, .ret ()⟩

section Lookups

lemma only_onCluster {P : ClassEff X → Prop} {p : Cluster.Prog α}
    (hp : Asks (fun e => P (.cluster e)) p) :
    Only P (onCluster X p) := by
  induction p with
  | ret a => trivial
  | call e k ih => exact ⟨hp.1, fun r => ih r (hp.2 r trivial)⟩

lemma looksUp_nodeClassByRef (ref : Option NodeClassReference) :
    Only LooksUp (nodeClassByRef X ref) := by
  cases ref with
  | none => trivial
  | some ref => exact ⟨trivial, fun _ => trivial⟩

lemma looksUp_instanceTypes (n : SSHNodeClassSpec X) :
    Only LooksUp (onCluster X (listInstanceTypes T.floats T.iteration n)) := by
  refine only_onCluster ((asks_list (fun _ => trivial) n.hostSelector).bind fun a _ => ?_)
  cases a <;> trivial

lemma looksUp_instanceGet (id : String) : Only LooksUp (onCluster X (Instance.get X id)) := by
  refine only_onCluster ((asks_byProviderID (fun _ => trivial) (fun _ => trivial) id).bind
    fun a _ => ?_)
  cases a with
  | error e => trivial
  | ok h =>
    dsimp only
    split <;> trivial

lemma looksUp_get (id : String) : Only LooksUp (get (X := X) T id) := by
  unfold get
  split_ifs
  · trivial
  · refine (looksUp_instanceGet id).bind fun a => ?_
    cases a <;> trivial

lemma looksUp_list : Only LooksUp (list (X := X) T) := by
  have hclaimed : Asks (fun e => LooksUp (X := X) (.cluster e)) (claimed X) := by
    refine (asks_list (fun _ => trivial) none).bind fun a _ => ?_
    cases a <;> trivial
  have hlist : Only LooksUp (onCluster X (Instance.list X)) := by
    refine only_onCluster (hclaimed.bind fun a _ => ?_)
    cases a <;> trivial
  refine hlist.bind fun a => ?_
  cases a <;> trivial

lemma looksUp_getInstanceTypes (pool : Option (Option NodeClassReference)) :
    Only LooksUp (getInstanceTypes (X := X) T pool) := by
  unfold getInstanceTypes
  cases pool with
  | none => trivial
  | some ref =>
    dsimp only
    split_ifs
    · refine (looksUp_nodeClassByRef ref).bind fun a => ?_
      cases a with
      | error e => trivial
      | ok n => exact looksUp_instanceTypes n.spec
    · trivial

lemma looksUp_isDrifted (lc : LaunchClaim) : Only LooksUp (isDrifted (X := X) T lc) := by
  unfold isDrifted
  split_ifs
  · trivial
  · refine (looksUp_instanceGet lc.claim.providerID).bind fun a => ?_
    cases a with
    | error e => cases e <;> trivial
    | ok inst =>
      refine (looksUp_nodeClassByRef lc.nodeClassRef).bind fun b => ?_
      cases b with
      | error e => trivial
      | ok n =>
        refine (only_onCluster ⟨trivial, fun _ _ => trivial⟩ : Only LooksUp
          (onCluster X (request (.getProfile _)))).bind
          fun c => ?_
        cases c <;> trivial

end Lookups

section Operations

/-- Something is looked up, and then at most one operation of the owner runs to its end. -/
def Serves (owner : Option Owner) (l : Trace (ClassEff X) (ClassRes X)) : Prop :=
  ∃ l₁ l₂, l = l₁ ++ l₂ ∧ (∀ x ∈ l₁, LooksUp x.1) ∧
    (l₂ = [] ∨ ∃ (j : Job X) (l₀ : Trace Eff Res), l₂ = onHosts l₀ ∧ Runs j.program l₀ () ∧
      owner = some j.owner)

lemma serves_lookups {owner : Option Owner} {l : Trace (ClassEff X) (ClassRes X)}
    (hl : ∀ x ∈ l, LooksUp x.1) :
    Serves owner l := ⟨l, [], (List.append_nil l).symm, hl, .inl rfl⟩

lemma serves_operation {j : Job X} {p : Cluster.Prog α}
    {l : Trace (ClassEff X) (ClassRes X)} {a : α} (hj : ∀ l₀, Runs p l₀ a → Runs j.program l₀ ())
    (hr : Runs (onCluster X p) l a) : Serves (some j.owner) l := by
  obtain ⟨l₀, rfl, hp⟩ := runs_onCluster.mp hr
  exact ⟨[], onHosts l₀, rfl, by simp, .inr ⟨j, l₀, rfl, hj l₀ hp, rfl⟩⟩

lemma Serves.after {owner : Option Owner} {l l₀ : Trace (ClassEff X) (ClassRes X)}
    (h : Serves owner l) (h₀ : ∀ x ∈ l₀, LooksUp x.1) : Serves owner (l₀ ++ l) := by
  obtain ⟨l₁, l₂, rfl, h₁, h₂⟩ := h
  exact ⟨l₀ ++ l₁, l₂, (List.append_assoc ..).symm, List.forall_mem_append.mpr ⟨h₀, h₁⟩, h₂⟩

lemma serves_createReady {lc : LaunchClaim} {n : NodeClass X} {l : Trace (ClassEff X) (ClassRes X)}
    {a : Except Failure ClaimView} (hr : Runs (createReady T lc n) l a) :
    Serves (some (.create lc.claim)) l := by
  obtain ⟨l₁, b, l₂, rfl, ht, hk⟩ := runs_bind.mp hr
  have hlook : Only LooksUp (resolveInstanceTypes T lc n.spec) := by
    refine (looksUp_instanceTypes n.spec).bind fun c => ?_
    cases c <;> trivial
  refine Serves.after ?_ (hlook.runs ht)
  cases b with
  | error e =>
    obtain ⟨rfl, _⟩ := runs_ret.mp hk
    exact serves_lookups (by simp)
  | ok types =>
    dsimp only at hk
    split_ifs at hk
    · obtain ⟨rfl, _⟩ := runs_ret.mp hk
      exact serves_lookups (by simp)
    · obtain ⟨l₃, c, l₄, rfl, hc, hret⟩ := runs_bind.mp hk
      have hnil : l₄ = [] := by
        cases c <;> exact (runs_ret.mp hret).1
      rw [hnil, List.append_nil]
      exact serves_operation (j :=
        .create n.spec.launching lc.claim (types.map AdvertisedType.priced))
        (fun _ hp => runs_discard.mpr ⟨c, hp⟩) hc

lemma serves_create {lc : LaunchClaim} {l : Trace (ClassEff X) (ClassRes X)}
    {a : Except Failure ClaimView} (hr : Runs (create T lc) l a) :
    Serves (some (.create lc.claim)) l := by
  obtain ⟨l₁, b, l₂, rfl, hn, hk⟩ := runs_bind.mp hr
  refine Serves.after ?_ ((looksUp_nodeClassByRef _).runs hn)
  have hstop (v : Failure)
      (hret : Runs (pure (.error v) : ClassProg X (Except Failure ClaimView)) l₂ a) :
      Serves (some (.create lc.claim)) l₂ := by
    obtain ⟨rfl, _⟩ := runs_ret.mp hret
    exact serves_lookups (by simp)
  cases b with
  | error e =>
    dsimp only at hk
    split_ifs at hk
    · exact hstop _ hk
    · exact hstop _ hk
  | ok n =>
    dsimp only at hk
    split at hk
    · exact hstop _ hk
    · exact hstop _ hk
    · exact serves_createReady hk

theorem call_serves (c : Call) {l : Trace (ClassEff X) (ClassRes X)}
    (hr : Runs (c.program T) l ()) :
    Serves c.owner l := by
  have hlook {β : Type} {p : ClassProg X β} (hp : Only LooksUp p)
      (hr : Runs (do let _ ← p; return ()) l ()) :
      Serves c.owner l := by
    obtain ⟨a, ha⟩ := runs_discard.mp hr
    exact serves_lookups (hp.runs ha)
  cases c with
  | create lc =>
    obtain ⟨a, ha⟩ := runs_discard.mp hr
    exact serves_create ha
  | delete lc =>
    obtain ⟨a, ha⟩ := runs_discard.mp hr
    unfold CloudProvider.delete at ha
    split_ifs at ha
    · obtain ⟨rfl, _⟩ := runs_ret.mp ha
      exact serves_lookups (by simp)
    · exact serves_operation (j := .delete lc.claim) (fun _ hp => runs_discard.mpr ⟨a, hp⟩) ha
  | reboot lc =>
    obtain ⟨a, ha⟩ := runs_discard.mp hr
    unfold CloudProvider.reboot at ha
    split_ifs at ha
    · obtain ⟨rfl, _⟩ := runs_ret.mp ha
      exact serves_lookups (by simp)
    · exact serves_operation (j := .reboot lc.claim) (fun _ hp => runs_discard.mpr ⟨a, hp⟩) ha
  | get id => exact hlook (looksUp_get id) hr
  | list => exact hlook looksUp_list hr
  | getInstanceTypes pool => exact hlook (looksUp_getInstanceTypes pool) hr
  | isDrifted lc => exact hlook (looksUp_isDrifted lc) hr

end Operations

end KarpenterProviderSsh.CloudProvider
