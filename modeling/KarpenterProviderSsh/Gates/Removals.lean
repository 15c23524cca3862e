import KarpenterProviderSsh.Controllers.StartupTaintGate
import KarpenterProviderSsh.Runs.Jobs

/-! What the startup taint gates take off a Node, for any state of the cluster they are evaluated
in. -/

namespace KarpenterProviderSsh.Gates

open Api Cluster Scripts Providers Controllers
open Interleaving.Prog
  (Only answered answered_bind answered_request mem_answered_bind runs_answered)

variable {X : Externals} {o : (e : GateEff) → GateRes X e} {node : TaintedNode} {nc : OwningClaim}
  {n : SSHNodeClassSpec X} {gates : List (StartupTaintGate X)} {kept : List Taint}

def Reads : GateEff → Prop
  | .patchTaints _ _ => False
  | _ => True

section Reading

lemma reads_nodeClaimFor : Only Reads (nodeClaimFor X node) := by
  unfold nodeClaimFor
  split
  · trivial
  · exact ⟨trivial, fun r => by cases r <;> trivial⟩

lemma reads_nodeClassFor : Only Reads (nodeClassFor X nc) := by
  unfold nodeClassFor
  split
  · trivial
  · split_ifs
    · trivial
    · exact ⟨trivial, fun r => by cases r <;> trivial⟩

lemma only_evaluate {Q : GateEff → Prop} (hQ : ∀ ns, Q (.listPods ns))
    (cond : StartupTaintCondition X) :
    Only Q (evaluate X node cond) := by
  unfold evaluate
  split
  · unfold podsReady
    split
    · trivial
    · exact ⟨hQ _, fun r => by cases r <;> trivial⟩
  · split <;> trivial
  · trivial

lemma reads_evaluateGates (remove : List String) (pending : ℕ) :
    Only Reads (evaluateGates X node nc gates remove pending) := by
  induction gates generalizing remove pending with
  | nil => trivial
  | cons gate gates ih =>
    unfold evaluateGates
    split_ifs
    · exact ih _ _
    · exact ih _ _
    · refine (only_evaluate (fun _ => trivial) _).bind fun r => ?_
      match r with
      | .error e => trivial
      | .ok true => exact ih _ _
      | .ok false => exact ih _ _

lemma not_mem_of_reads {α : Type} {p : GateProg X α} (hp : Only Reads p)
    {a : GateRes X (.patchTaints node kept)} :
    ⟨.patchTaints node kept, a⟩ ∉ (answered o p).1 := by
  intro hm
  exact hp.runs (runs_answered o p) _ hm

end Reading

def opens (o : (e : GateEff) → GateRes X e) (node : TaintedNode) (gate : StartupTaintGate X) :
    Except Err Bool :=
  (answered o (evaluate X node gate.removeWhen)).2

def relevant (node : TaintedNode) (nc : OwningClaim) (gate : StartupTaintGate X) : Bool :=
  hasTaintKey node.taints gate.taintKey && hasTaintKey nc.startupTaints gate.taintKey

lemma evaluateGates_cons (gate : StartupTaintGate X) (remove : List String) (pending : ℕ) :
    (answered o (evaluateGates X node nc (gate :: gates) remove pending)).2 =
      if relevant node nc gate then
        match opens o node gate with
        | .error e => .error (e.wrap ("evaluating gate " ++ gate.taintKey.quote ++ ": "))
        | .ok true =>
          (answered o (evaluateGates X node nc gates (gate.taintKey :: remove) pending)).2
        | .ok false => (answered o (evaluateGates X node nc gates remove (pending + 1))).2
      else (answered o (evaluateGates X node nc gates remove pending)).2 := by
  rw [evaluateGates, relevant]
  cases hasTaintKey node.taints gate.taintKey <;>
    cases hasTaintKey nc.startupTaints gate.taintKey <;> try rfl
  change (answered o (evaluate X node gate.removeWhen >>= _)).2 = _
  rw [answered_bind]
  change (answered o (match opens o node gate with
    | .error e => _
    | .ok true => _
    | .ok false => _)).2 = _
  match opens o node gate with
  | .error e => rfl
  | .ok true => rfl
  | .ok false => rfl

lemma mem_remove {remove remove' : List String} {pending pending' : ℕ}
    (hr : (answered o (evaluateGates X node nc gates remove pending)).2 = .ok (remove', pending'))
    (key : String) :
    key ∈ remove' ↔ key ∈ remove ∨
    (hasTaintKey node.taints key = true ∧ hasTaintKey nc.startupTaints key = true ∧
      ∃ g ∈ gates, g.taintKey = key ∧ opens o node g = .ok true) := by
  induction gates generalizing remove pending with
  | nil =>
    cases hr
    simp
  | cons gate gates ih =>
    rw [evaluateGates_cons] at hr
    split_ifs at hr with hrel
    · rw [relevant, Bool.and_eq_true] at hrel
      match hg : opens o node gate with
      | .error e =>
        rw [hg] at hr
        cases hr
      | .ok true =>
        rw [hg] at hr
        rw [ih hr]
        grind
      | .ok false =>
        rw [hg] at hr
        rw [ih hr]
        grind
    · rw [relevant, Bool.and_eq_true] at hrel
      rw [ih hr]
      grind

def Owns (o : (e : GateEff) → GateRes X e) (node : TaintedNode) (nc : OwningClaim)
    (n : SSHNodeClassSpec X) : Prop :=
  (answered o (nodeClaimFor X node)).2 = .ok (some nc) ∧
    (answered o (nodeClassFor X nc)).2 = .ok (some n)

lemma mem_removeTaints {a : GateRes X (.patchTaints node kept)} {stored : TaintedNode}
    {keys : List String}
    (hm : ⟨.patchTaints node kept, a⟩ ∈ (answered o (removeTaints X stored keys)).1) :
    node = stored ∧ kept = node.taints.filter (fun t => !keys.contains t.key) := by
  rcases List.mem_cons.mp hm with hm | hm
  · cases hm
    exact ⟨rfl, rfl⟩
  · cases ho : o (.patchTaints stored (stored.taints.filter fun t => !keys.contains t.key)) <;>
      rw [ho] at hm <;> cases hm

lemma mem_openGates {a : GateRes X (.patchTaints node kept)} {stored : TaintedNode}
    (hm : ⟨.patchTaints node kept, a⟩ ∈ (answered o (openGates X stored nc n)).1) :
    node = stored ∧ ∃ remove pending,
      (answered o (evaluateGates X node nc n.startupTaintGates [] 0)).2 = .ok (remove, pending) ∧
      kept = node.taints.filter (fun t => !remove.contains t.key) := by
  have hm := (mem_answered_bind.mp hm).resolve_left (not_mem_of_reads (reads_evaluateGates _ _))
  match he : (answered o (evaluateGates X stored nc n.startupTaintGates [] 0)).2 with
  | .error e =>
    rw [he] at hm
    cases hm
  | .ok (remove, pending) =>
    rw [he] at hm
    rcases mem_answered_bind.mp hm with hm | hm
    · split_ifs at hm with hrem
      · cases hm
      · obtain ⟨rfl, hkept⟩ := mem_removeTaints hm
        exact ⟨rfl, remove, pending, he, hkept⟩
    · split at hm <;> cases hm

lemma mem_reconcileGates {name : String} {a : GateRes X (.patchTaints node kept)}
    (hm : ⟨.patchTaints node kept, a⟩ ∈ (answered o (reconcileGates X name)).1) :
    ∃ nc n remove pending, o (.getNode name) = .ok node ∧ Owns o node nc n ∧
      (answered o (evaluateGates X node nc n.startupTaintGates [] 0)).2 = .ok (remove, pending) ∧
      kept = node.taints.filter (fun t => !remove.contains t.key) := by
  have hm := (mem_answered_bind.mp hm).resolve_left fun h => by cases List.mem_singleton.mp h
  rw [answered_request] at hm
  cases hnode : o (.getNode name) with
  | error e =>
    rw [hnode] at hm
    cases hm
  | ok stored =>
    rw [hnode] at hm
    dsimp only at hm
    split_ifs at hm
    · cases hm
    · have hm := (mem_answered_bind.mp hm).resolve_left (not_mem_of_reads reads_nodeClaimFor)
      rcases hclaim : (answered o (nodeClaimFor X stored)).2 with e | _ | nc
      · rw [hclaim] at hm
        cases hm
      · rw [hclaim] at hm
        cases hm
      · rw [hclaim] at hm
        dsimp only at hm
        split_ifs at hm
        · cases hm
        · have hm := (mem_answered_bind.mp hm).resolve_left (not_mem_of_reads reads_nodeClassFor)
          rcases hclass : (answered o (nodeClassFor X nc)).2 with e | _ | n
          · rw [hclass] at hm
            cases hm
          · rw [hclass] at hm
            cases hm
          · rw [hclass] at hm
            dsimp only at hm
            split_ifs at hm
            · cases hm
            · obtain ⟨rfl, remove, pending, he, hkept⟩ := mem_openGates hm
              exact ⟨nc, n, remove, pending, rfl, ⟨hclaim, hclass⟩, he, hkept⟩

/-- A reconcile takes off only startup taints exactly when no other taint of the Node shares its key
with a startup taint and an open gate. -/
theorem strips_startup_taints_iff {name : String} {a : GateRes X (.patchTaints node kept)}
    (hm : ⟨.patchTaints node kept, a⟩ ∈ (answered o (reconcileGates X name)).1) :
    ∃ nc n, o (.getNode name) = .ok node ∧ Owns o node nc n ∧
      ((∀ t ∈ node.taints, t ∉ kept → t ∈ nc.startupTaints) ↔
        ∀ t ∈ node.taints, (∃ s ∈ nc.startupTaints, s.key = t.key) →
          (∃ g ∈ n.startupTaintGates, g.taintKey = t.key ∧ opens o node g = .ok true) →
          t ∈ nc.startupTaints) := by
  obtain ⟨nc, n, remove, pending, hnode, howns, he, rfl⟩ := mem_reconcileGates hm
  refine ⟨nc, n, hnode, howns, forall₂_congr fun t ht => ?_⟩
  have hkey : hasTaintKey node.taints t.key = true := List.any_eq_true.mpr ⟨t, ht, by simp⟩
  have hgone : t ∉ node.taints.filter (fun t => !remove.contains t.key) ↔ t.key ∈ remove := by
    simp [ht]
  have hstartup : hasTaintKey nc.startupTaints t.key = true ↔
      ∃ s ∈ nc.startupTaints, s.key = t.key := by
    simp [hasTaintKey]
  rw [hgone, mem_remove he, hkey, hstartup]
  simp only [List.not_mem_nil, false_or, true_and, and_imp]

section Sample

open Runs.Sample

def startup : Taint := ⟨"agent", "", "NoSchedule"⟩
def permanent : Taint := ⟨"agent", "", "NoExecute"⟩

def registered (taints : List Taint) : TaintedNode :=
  ⟨"n", 1, false, [⟨nodeClaimAPIVersion, "NodeClaim", "a"⟩], taints, [⟨"Ready", .true⟩]⟩

def cluster (taints : List Taint) : (e : GateEff) → GateRes externals e
  | .getNode _ => .ok (registered taints)
  | .getNodeClaim _ => .ok ⟨"a", [permanent], [startup], some ⟨nodeClassGroup, nodeClassKind, "c"⟩⟩
  | .getNodeClass _ =>
    .ok ⟨"c", none, "p", .empty, none, .unset, "", [], none, none,
      [⟨"agent", ⟨none, some ⟨"Ready", none⟩⟩⟩]⟩
  | .listPods _ => .ok []
  | .patchTaints _ _ => .ok ()

lemma cluster_patch :
    ⟨.patchTaints (registered [startup]) [], .ok ()⟩ ∈
    (answered (cluster [startup]) (reconcileGates externals "n")).1 :=
  List.mem_of_getElem? (i := 3) rfl

theorem strips_startup_taints_iff_ready :
    ⟨.patchTaints (registered [startup]) [], .ok ()⟩ ∈
    (answered (cluster [startup]) (reconcileGates externals "n")).1 ∧
      ∃ nc n, Owns (cluster [startup]) (registered [startup]) nc n ∧
        ∀ t ∈ (registered [startup]).taints, t ∉ ([] : List Taint) → t ∈ nc.startupTaints := by
  obtain ⟨nc, n, _, howns, hiff⟩ := strips_startup_taints_iff cluster_patch
  refine ⟨cluster_patch, nc, n, howns, hiff.mpr fun t ht _ _ => ?_⟩
  have hnc : nc.startupTaints = [startup] := by
    cases howns.1
    rfl
  rw [hnc]
  exact ht

/-- A taint of the pool with the key and another effect goes with the startup taint. -/
theorem permanent_taint_stripped :
    ∃ nc n, Owns (cluster [startup, permanent]) (registered [startup, permanent]) nc n ∧
      ⟨.patchTaints (registered [startup, permanent]) [], .ok ()⟩ ∈
        (answered (cluster [startup, permanent]) (reconcileGates externals "n")).1 ∧
      permanent ∈ nc.taints ∧ permanent ∉ nc.startupTaints :=
  ⟨_, _, ⟨rfl, rfl⟩, List.mem_of_getElem? (i := 3) rfl, List.mem_singleton_self _, by decide⟩

end Sample

end KarpenterProviderSsh.Gates
