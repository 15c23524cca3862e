import KarpenterProviderSsh.Gates.Removals

/-! What a reconcile of the startup taint gates leaves of a Node's taints, and when it asks to come
back. -/

namespace KarpenterProviderSsh.Gates

open Api Cluster Scripts Providers Controllers
open Interleaving.Prog
  (Trace Only answered answered_bind answered_request answered_congr runs_answered)

variable {X : Externals}

/-- A Node that is not being deleted, its NodeClaim, the class that claim references, and the pods
of the cluster with their namespaces, no more of them than an `int32` counts. -/
structure GateWorld (X : Externals) where
  node : TaintedNode
  claim : OwningClaim
  nodeClass : SSHNodeClassSpec X
  pods : List (String × Pod)
  live : node.deleting = false
  owner : ∃ ref, node.ownerReferences.find? (fun ref => ref.kind == "NodeClaim" &&
    ref.apiVersion == nodeClaimAPIVersion) = some ref ∧ ref.name = claim.name
  references : claim.nodeClassRef = some ⟨nodeClassGroup, nodeClassKind, nodeClass.name⟩
  distinct : (nodeClass.startupTaintGates.map StartupTaintGate.taintKey).Nodup
  few : pods.length < 2 ^ 31

/-- A request for something that exists is answered with it, or fails otherwise than as not
found. -/
def Serves {α : Type} (a : α) (r : Except Err α) : Prop := r = .ok a ∨ ∃ e, r = .error e ∧
    e.isNotFound = false

namespace GateWorld

variable (w : GateWorld X)

abbrev gates : List (StartupTaintGate X) := w.nodeClass.startupTaintGates

structure Answers (o : (e : GateEff) → GateRes X e) : Prop where
  node : Serves w.node (o (.getNode w.node.name))
  claim : Serves w.claim (o (.getNodeClaim w.claim.name))
  nodeClass : Serves w.nodeClass (o (.getNodeClass w.nodeClass.name))
  pods : ∀ ns, Serves ((w.pods.filter (·.1 == ns)).map Prod.snd) (o (.listPods ns))
  patch : ∀ stored kept, Serves () (o (.patchTaints stored kept))

def counted (ns : String) (sel : List (String × String) → Bool) : List (String × Pod) :=
  w.pods.filter fun p => p.1 == ns && sel p.2.labels && p.2.nodeName == w.node.name &&
    !p.2.deleting && isPodReady p.2

def holds (cond : StartupTaintCondition X) : Bool :=
  match cond.podsReady, cond.nodeCondition with
  | some c, _ =>
    match X.labelSelectorAsSelector c.selector with
    | .ok sel => max 1 (c.minReady.getD 1).toInt ≤ ((w.counted c.ns sel).length : ℤ)
    | .error _ => false
  | none, some c =>
    (w.node.conditions.find? (·.type == c.type)).any (·.status == c.status.getD .true)
  | none, none => false

def removes (key : String) : Bool :=
  hasTaintKey w.claim.startupTaints key &&
    w.gates.any (fun g => g.taintKey == key && w.holds g.removeWhen)

def waits (key : String) : Bool :=
  hasTaintKey w.claim.startupTaints key &&
    w.gates.any (fun g => g.taintKey == key && !w.holds g.removeWhen)

end GateWorld

/-- The taints of the Node after the writes of a run: a patch that won leaves what it kept. One that
failed, but not for a conflict, may have been applied all the same, as `landed` tells. -/
def taintsAfter (landed : Bool) : Trace GateEff (GateRes X) → List Taint → List Taint
  | [], taints => taints
  | ⟨.patchTaints _ kept, .ok ()⟩ :: l, _ => taintsAfter landed l kept
  | ⟨.patchTaints _ kept, .error e⟩ :: l, taints =>
    taintsAfter landed l (if landed && !e.isConflict then kept else taints)
  | _ :: l, taints => taintsAfter landed l taints

def lost (l : Trace GateEff (GateRes X)) : Bool := l.any fun
  | ⟨.patchTaints _ _, .error _⟩ => true
  | _ => false

section Evaluation

variable {w : GateWorld X} {o : (e : GateEff) → GateRes X e} {g : StartupTaintGate X}

lemma minReady_eq (c : PodsReadyCondition X) :
    c.minReadyOrDefault.toInt = max 1 (c.minReady.getD 1).toInt := by
  have hone : (1 : Int32).toInt = 1 := rfl
  unfold PodsReadyCondition.minReadyOrDefault
  cases c.minReady with
  | none => rfl
  | some n =>
    dsimp only [Option.getD_some]
    split_ifs with hn
    · rw [Int32.lt_iff_toInt_lt, hone] at hn
      omega
    · rw [Int32.not_lt, Int32.le_iff_toInt_le, hone] at hn
      omega

lemma foldl_count {α : Type} (q : α → Bool) (l : List α) (n : Int32) :
    l.foldl (fun n a => if q a then n + 1 else n) n = n + Int32.ofNat (l.countP q) := by
  induction l generalizing n with
  | nil => simp
  | cons a l ih =>
    rw [List.foldl_cons, ih, List.countP_cons]
    split_ifs
    · rw [Int32.ofNat_add, Int32.add_assoc, Int32.add_comm 1]
      rfl
    · rfl

lemma countP_eq (ns : String) (sel : List (String × String) → Bool) :
    ((((w.pods.filter (·.1 == ns)).map Prod.snd).filter (fun p => sel p.labels)).countP
      fun p => p.nodeName == w.node.name && !p.deleting && isPodReady p) =
      (w.counted ns sel).length := by
  rw [List.countP_filter, List.countP_map, List.countP_filter, GateWorld.counted,
    ← List.countP_eq_length_filter]
  refine List.countP_congr fun p _ => ?_
  simp only [Function.comp_apply, Bool.and_eq_true]
  tauto

lemma toInt_counted (ns : String) (sel : List (String × String) → Bool) :
    (Int32.ofNat (w.counted ns sel).length).toInt = (w.counted ns sel).length :=
  Int32.toInt_ofNat_of_lt ((List.length_filter_le _ _).trans_lt w.few)

lemma podsReady_eq (ho : w.Answers o) {c : PodsReadyCondition X}
    {sel : List (String × String) → Bool}
    (hsel : X.labelSelectorAsSelector c.selector = .ok sel) {b : Bool}
    (hb : (answered o (podsReady X w.node c)).2 = .ok b) :
    b = decide (max 1 (c.minReady.getD 1).toInt ≤ ((w.counted c.ns sel).length : ℤ)) := by
  rw [podsReady, hsel] at hb
  dsimp only at hb
  rw [answered_bind, answered_request] at hb
  obtain hlist | ⟨e, hlist, _⟩ := ho.pods c.ns
  · rw [hlist] at hb
    obtain rfl := Except.ok.inj hb
    rw [foldl_count, Int32.zero_add, countP_eq, decide_eq_decide, Int32.le_iff_toInt_le,
      minReady_eq, toInt_counted]
  · rw [hlist] at hb
    cases hb

lemma opens_eq (ho : w.Answers o) {b : Bool} (hb : opens o w.node g = .ok b) :
    b = w.holds g.removeWhen := by
  rw [opens, evaluate] at hb
  rw [GateWorld.holds]
  match hp : g.removeWhen.podsReady, hc : g.removeWhen.nodeCondition with
  | some c, _ =>
    rw [hp] at hb
    dsimp only at hb ⊢
    cases hsel : X.labelSelectorAsSelector c.selector with
    | error e =>
      rw [podsReady, hsel] at hb
      cases hb
    | ok sel => exact podsReady_eq ho hsel hb
  | none, some c =>
    rw [hp, hc] at hb
    dsimp only at hb ⊢
    cases hfind : w.node.conditions.find? (·.type == c.type) with
    | none =>
      rw [hfind] at hb
      exact (Except.ok.inj hb).symm
    | some x =>
      rw [hfind] at hb
      exact (Except.ok.inj hb).symm
  | none, none =>
    rw [hp, hc] at hb
    cases hb

end Evaluation

section Loop

variable {o : (e : GateEff) → GateRes X e} {node : TaintedNode} {nc : OwningClaim}
  {gates gates' : List (StartupTaintGate X)} {remove remove' : List String} {pending pending' : ℕ}

lemma pending_pos (hr : (answered o (evaluateGates X node nc gates remove pending)).2 = .ok
    (remove', pending')) :
    0 < pending' ↔ 0 < pending ∨ ∃ g ∈ gates, relevant node nc g = true ∧
    opens o node g = .ok false := by
  induction gates generalizing remove pending with
  | nil =>
    cases hr
    simp
  | cons gate gates ih =>
    rw [evaluateGates_cons] at hr
    split_ifs at hr with hrel
    · match hg : opens o node gate with
      | .error e =>
        rw [hg] at hr
        cases hr
      | .ok true =>
        rw [hg] at hr
        rw [ih hr]
        grind
      | .ok false =>
        rw [hg] at hr
        rw [ih hr]
        grind
    · rw [ih hr]
      grind

variable (remove pending) in
lemma evaluateGates_error :
    (∃ e, (answered o (evaluateGates X node nc gates remove pending)).2 = .error e) ↔
    ∃ g ∈ gates, relevant node nc g = true ∧ ∃ e, opens o node g = .error e := by
  induction gates generalizing remove pending with
  | nil => simp [evaluateGates, answered]
  | cons gate gates ih =>
    rw [evaluateGates_cons]
    split_ifs with hrel
    · rcases hg : opens o node gate with e | _ | _
      · simp [hrel, hg]
      · simp [ih, hg]
      · simp [ih, hg]
    · simp [ih, hrel]

end Loop

section Outcome

structure Outcome (α : Type) where
  result : α
  taints : List Taint
  lost : Bool

def outcome {α : Type} (landed : Bool) (o : (e : GateEff) → GateRes X e) (p : GateProg X α)
    (taints : List Taint) :
    Outcome α where
  result := (answered o p).2
  taints := taintsAfter landed (answered o p).1 taints
  lost := Gates.lost (answered o p).1

variable {α β : Type} {landed : Bool} {o : (e : GateEff) → GateRes X e} {taints : List Taint}
  {l l' : Trace GateEff (GateRes X)}

variable (landed taints) in
lemma read_cons {x : (e : GateEff) × GateRes X e} (hx : Reads x.1) :
    taintsAfter landed (x :: l) taints = taintsAfter landed l taints ∧ lost (x :: l) = lost l :=
  match x with
  | ⟨.patchTaints _ _, _⟩ => hx.elim
  | ⟨.getNode _, _⟩ | ⟨.getNodeClaim _, _⟩ | ⟨.getNodeClass _, _⟩ | ⟨.listPods _, _⟩ => ⟨rfl, rfl⟩

variable (landed taints) in
lemma read_append (hl : ∀ x ∈ l, Reads x.1) :
    taintsAfter landed (l ++ l') taints = taintsAfter landed l' taints ∧
    lost (l ++ l') = lost l' := by
  induction l with
  | nil => exact ⟨rfl, rfl⟩
  | cons x l ih =>
    obtain ⟨hx, hrest⟩ := List.forall_mem_cons.mp hl
    rw [List.cons_append, (read_cons landed taints hx).1, (read_cons landed taints hx).2]
    exact ih hrest

lemma outcome_bind {p : GateProg X α} {f : α → GateProg X β} (hp : Only Reads p) :
    outcome landed o (p >>= f) taints = outcome landed o (f (answered o p).2) taints := by
  have hreads := hp.runs (runs_answered o p)
  rw [outcome, answered_bind, (read_append landed taints hreads).1,
    (read_append landed taints hreads).2]
  rfl

lemma outcome_request {e : GateEff} (he : Reads e) (f : GateRes X e → GateProg X β) :
    outcome landed o (gateRequest X e >>= f) taints = outcome landed o (f (o e)) taints :=
  outcome_bind ⟨he, fun _ => trivial⟩

def again (pending : ℕ) : Except Err Result :=
  .ok (if 0 < pending then { requeueAfter := gateRecheck } else {})

variable {node : TaintedNode} {nc : OwningClaim} {n : SSHNodeClassSpec X}

lemma answered_removeTaints (keys : List String) : answered o (removeTaints X node keys) =
    ([⟨.patchTaints node (node.taints.filter fun t => !keys.contains t.key), o _⟩],
      match o (.patchTaints node (node.taints.filter fun t => !keys.contains t.key)) with
      | .ok () => none
      | .error e => if e.isConflict then none else some (e.wrap "removing startup taints: ")) := by
  rw [removeTaints, answered_bind, answered_request]
  cases o (.patchTaints node (node.taints.filter fun t => !keys.contains t.key)) <;> rfl

lemma outcome_openGates : outcome landed o (openGates X node nc n) node.taints =
    match (answered o (evaluateGates X node nc n.startupTaintGates [] 0)).2 with
    | .error e => ⟨.error e, node.taints, false⟩
    | .ok (remove, pending) =>
      if remove = [] then ⟨again pending, node.taints, false⟩
      else
        let kept := node.taints.filter (fun t => !remove.contains t.key)
        match o (.patchTaints node kept) with
        | .ok () => ⟨again pending, kept, false⟩
        | .error e =>
          ⟨if e.isConflict then again pending
          else ignoreNotFound (e.wrap "removing startup taints: "),
            if landed && !e.isConflict then kept else node.taints, true⟩ := by
  rw [openGates, outcome_bind (reads_evaluateGates _ _)]
  match (answered o (evaluateGates X node nc n.startupTaintGates [] 0)).2 with
  | .error e => rfl
  | .ok (remove, pending) =>
    dsimp only
    by_cases hrem : remove = []
    · rw [if_pos hrem, if_pos hrem]
      rfl
    · rw [if_neg hrem, if_neg hrem, outcome, answered_bind, answered_removeTaints]
      match o (.patchTaints node (node.taints.filter fun t => !remove.contains t.key)) with
      | .ok () => rfl
      | .error e =>
        dsimp only
        by_cases hc : e.isConflict = true
        · rw [if_pos hc, if_pos hc]
          rfl
        · rw [if_neg hc, if_neg hc]
          rfl

end Outcome

section Reconcile

variable {landed : Bool} {o : (e : GateEff) → GateRes X e} {w : GateWorld X}

lemma evaluateGates_idle {node : TaintedNode} {nc : OwningClaim} {gates : List (StartupTaintGate X)}
    {remove : List String} {pending : ℕ} (hidle : ∀ g ∈ gates, relevant node nc g = false) :
    (answered o (evaluateGates X node nc gates remove pending)).2 = .ok (remove, pending) := by
  induction gates with
  | nil => rfl
  | cons gate gates ih =>
    obtain ⟨hg, hrest⟩ := List.forall_mem_cons.mp hidle
    rw [evaluateGates_cons, hg]
    exact ih hrest

lemma outcome_idle {node : TaintedNode} {nc : OwningClaim} {n : SSHNodeClassSpec X}
    (hidle : ∀ g ∈ n.startupTaintGates, relevant node nc g = false) :
    outcome landed o (openGates X node nc n) node.taints = ⟨.ok {}, node.taints, false⟩ := by
  rw [outcome_openGates, evaluateGates_idle hidle]
  rfl

def GateWorld.Readable (w : GateWorld X) (o : (e : GateEff) → GateRes X e) : Prop :=
  o (.getNode w.node.name) = .ok w.node ∧ (w.node.taints = [] ∨
    (o (.getNodeClaim w.claim.name) = .ok w.claim ∧ (w.claim.startupTaints = [] ∨
      o (.getNodeClass w.nodeClass.name) = .ok w.nodeClass)))

lemma nodeClaimFor_eq (w : GateWorld X) : (answered o (nodeClaimFor X w.node)).2 =
    match o (.getNodeClaim w.claim.name) with
    | .error e => if e.isNotFound then .ok none else .error e
    | .ok nc => .ok (some nc) := by
  obtain ⟨ref, hfind, hname⟩ := w.owner
  rw [nodeClaimFor, hfind, ← hname]
  dsimp only
  rw [answered_bind, answered_request]
  cases o (.getNodeClaim ref.name) <;> rfl

lemma nodeClassFor_eq (w : GateWorld X) : (answered o (nodeClassFor X w.claim)).2 =
    match o (.getNodeClass w.nodeClass.name) with
    | .error e => if e.isNotFound then .ok none else .error e
    | .ok n => .ok (some n) := by
  rw [nodeClassFor, w.references]
  dsimp only
  rw [if_neg (by simp), answered_bind, answered_request]
  cases o (.getNodeClass w.nodeClass.name) <;> rfl

lemma outcome_readable (hr : w.Readable o) :
    outcome landed o (reconcileGates X w.node.name) w.node.taints =
    outcome landed o (openGates X w.node w.claim w.nodeClass) w.node.taints := by
  obtain ⟨hnode, hread⟩ := hr
  rw [reconcileGates, outcome_request (e := .getNode w.node.name) trivial, hnode]
  dsimp only
  by_cases htaints : w.node.taints = []
  · rw [if_pos (.inr htaints), outcome_idle]
    · rfl
    · intro g _
      simp [relevant, hasTaintKey, htaints]
  · obtain ⟨hclaim, hread⟩ := hread.resolve_left htaints
    rw [if_neg (by simp [w.live, htaints]), outcome_bind reads_nodeClaimFor,
      nodeClaimFor_eq, hclaim]
    dsimp only
    by_cases hstartup : w.claim.startupTaints = []
    · rw [if_pos hstartup, outcome_idle]
      · rfl
      · intro g _
        simp [relevant, hasTaintKey, hstartup]
    · rw [if_neg hstartup, outcome_bind reads_nodeClassFor, nodeClassFor_eq,
        hread.resolve_left hstartup]
      dsimp only
      by_cases hgates : w.nodeClass.startupTaintGates = []
      · rw [if_pos hgates, outcome_idle]
        · rfl
        · simp [hgates]
      · rw [if_neg hgates]

lemma outcome_unreadable (ho : w.Answers o) (hr : ¬ w.Readable o) :
    ∃ e, outcome landed o (reconcileGates X w.node.name) w.node.taints = ⟨.error e,
      w.node.taints, false⟩ := by
  rw [reconcileGates, outcome_request (e := .getNode w.node.name) trivial]
  obtain hnode | ⟨e, hnode, he⟩ := ho.node
  · have htaints : w.node.taints ≠ [] := fun h => hr ⟨hnode, .inl h⟩
    rw [hnode]
    dsimp only
    rw [if_neg (by simp [w.live, htaints]), outcome_bind reads_nodeClaimFor, nodeClaimFor_eq]
    obtain hclaim | ⟨e, hclaim, he⟩ := ho.claim
    · have hstartup : w.claim.startupTaints ≠ [] := fun h => hr ⟨hnode, .inr ⟨hclaim, .inl h⟩⟩
      rw [hclaim]
      dsimp only
      rw [if_neg hstartup, outcome_bind reads_nodeClassFor, nodeClassFor_eq]
      obtain hclass | ⟨e, hclass, he⟩ := ho.nodeClass
      · exact absurd ⟨hnode, .inr ⟨hclaim, .inr hclass⟩⟩ hr
      · exact ⟨e, by rw [hclass]; simp [he, outcome, answered, taintsAfter, lost]⟩
    · exact ⟨e, by rw [hclaim]; simp [he, outcome, answered, taintsAfter, lost]⟩
  · exact ⟨e, by rw [hnode]; simp [he, ignoreNotFound, outcome, answered, taintsAfter, lost]⟩

end Reconcile

section Order

variable {landed : Bool} {w : GateWorld X} {o : (e : GateEff) → GateRes X e}
  {gates : List (StartupTaintGate X)}

def reordered (o : (e : GateEff) → GateRes X e) (gates : List (StartupTaintGate X)) :
    (e : GateEff) → GateRes X e
  | .getNodeClass name =>
    (o (.getNodeClass name)).map fun n => { n with startupTaintGates := gates }
  | .getNode name => o (.getNode name)
  | .getNodeClaim name => o (.getNodeClaim name)
  | .listPods ns => o (.listPods ns)
  | .patchTaints stored kept => o (.patchTaints stored kept)

def GateWorld.reorder (w : GateWorld X) (gates : List (StartupTaintGate X))
    (hg : gates.Perm w.gates) : GateWorld X :=
  { w with
    nodeClass := { w.nodeClass with startupTaintGates := gates }
    references := w.references
    distinct := (hg.map _).nodup_iff.mpr w.distinct }

lemma serves_map {α β : Type} {a : α} {r : Except Err α} (f : α → β) (hr : Serves a r) :
    Serves (f a) (r.map f) := by
  rcases hr with rfl | ⟨e, rfl, he⟩
  · exact .inl rfl
  · exact .inr ⟨e, rfl, he⟩

lemma answers_reordered (ho : w.Answers o) (hg : gates.Perm w.gates) :
    (w.reorder gates hg).Answers (reordered o gates) where
  node := ho.node
  claim := ho.claim
  nodeClass := serves_map (fun n => { n with startupTaintGates := gates }) ho.nodeClass
  pods := ho.pods
  patch := ho.patch

lemma readable_reordered (ho : w.Answers o) (hg : gates.Perm w.gates) :
    (w.reorder gates hg).Readable (reordered o gates) ↔ w.Readable o := by
  have hclass : reordered o gates (.getNodeClass w.nodeClass.name) =
      .ok { w.nodeClass with startupTaintGates := gates } ↔
      o (.getNodeClass w.nodeClass.name) = .ok w.nodeClass := by
    rw [reordered]
    rcases ho.nodeClass with h | ⟨e, h, _⟩ <;> simp [h, Except.map]
  exact and_congr_right fun _ => or_congr_right (and_congr_right fun _ => or_congr_right hclass)

lemma opens_reordered (node : TaintedNode) (g : StartupTaintGate X) :
    opens (reordered o gates) node g = opens o node g :=
  congrArg Prod.snd (answered_congr (only_evaluate (fun _ => rfl) _) fun _ he => he)

lemma decision_reordered (hg : gates.Perm w.gates) :
    ((∃ e, (answered o (evaluateGates X w.node w.claim w.gates [] 0)).2 = .error e) ∧
      ∃ e, (answered (reordered o gates) (evaluateGates X w.node w.claim gates [] 0)).2 =
      .error e) ∨
    ∃ remove pending remove' pending',
      (answered o (evaluateGates X w.node w.claim w.gates [] 0)).2 = .ok (remove, pending) ∧
      (answered (reordered o gates) (evaluateGates X w.node w.claim gates [] 0)).2 = .ok
        (remove', pending') ∧
      (∀ key, key ∈ remove' ↔ key ∈ remove) ∧ (0 < pending' ↔ 0 < pending) := by
  have herror :
      (∃ e, (answered (reordered o gates) (evaluateGates X w.node w.claim gates [] 0)).2 =
      .error e) ↔ ∃ e, (answered o (evaluateGates X w.node w.claim w.gates [] 0)).2 = .error e := by
    rw [evaluateGates_error, evaluateGates_error]
    simp only [opens_reordered, hg.mem_iff]
  match h : (answered o (evaluateGates X w.node w.claim w.gates [] 0)).2,
      h' : (answered (reordered o gates) (evaluateGates X w.node w.claim gates [] 0)).2 with
  | .error e, .error e' => exact .inl ⟨⟨e, rfl⟩, e', rfl⟩
  | .error e, .ok _ => exact absurd (herror.mpr ⟨e, h⟩) (by simp [h'])
  | .ok _, .error e => exact absurd (herror.mp ⟨e, h'⟩) (by simp [h])
  | .ok (remove, pending), .ok (remove', pending') =>
    refine .inr ⟨remove, pending, remove', pending', rfl, rfl, fun key => ?_, ?_⟩
    · rw [mem_remove h, mem_remove h']
      simp only [opens_reordered, hg.mem_iff]
    · rw [pending_pos h, pending_pos h']
      simp only [opens_reordered, hg.mem_iff]

lemma again_congr {pending pending' : ℕ} (h : 0 < pending' ↔ 0 < pending) :
    again pending' = again pending := by
  simp only [again, h]

lemma openGates_reordered (hg : gates.Perm w.gates) :
    let out := outcome landed o (openGates X w.node w.claim w.nodeClass) w.node.taints
    let out' := outcome landed (reordered o gates)
      (openGates X w.node w.claim (w.reorder gates hg).nodeClass) w.node.taints
    out'.result.toOption = out.result.toOption ∧ out'.taints = out.taints := by
  dsimp only
  rw [outcome_openGates, outcome_openGates]
  rcases decision_reordered (o := o) hg with ⟨⟨e, h⟩, e', h'⟩ |
    ⟨remove, pending, remove', pending', h, h', hkeys, hpending⟩
  · rw [h, show (answered (reordered o gates) (evaluateGates X w.node w.claim
      (w.reorder gates hg).nodeClass.startupTaintGates [] 0)).2 = .error e' from h']
    exact ⟨rfl, rfl⟩
  · have hkept : (w.node.taints.filter fun t => !remove'.contains t.key) =
        w.node.taints.filter fun t => !remove.contains t.key :=
      List.filter_congr fun t _ => by simp [hkeys]
    have hnil : remove' = [] ↔ remove = [] := by simp only [List.eq_nil_iff_forall_not_mem, hkeys]
    rw [h, show (answered (reordered o gates) (evaluateGates X w.node w.claim
      (w.reorder gates hg).nodeClass.startupTaintGates [] 0)).2 = .ok (remove', pending') from h']
    dsimp only
    rw [hkept, again_congr hpending]
    simp only [hnil]
    exact ⟨rfl, rfl⟩

end Order

section Decision

variable {landed : Bool} {w : GateWorld X} {o : (e : GateEff) → GateRes X e}
  {remove : List String} {pending : ℕ}

lemma opens_of_decided (ho : w.Answers o)
    (hd : (answered o (evaluateGates X w.node w.claim w.gates [] 0)).2 = .ok (remove, pending))
    {g : StartupTaintGate X} (hg : g ∈ w.gates) (hrel : relevant w.node w.claim g = true) :
    opens o w.node g = .ok (w.holds g.removeWhen) := by
  match hopens : opens o w.node g with
  | .error e =>
    obtain ⟨e', he'⟩ := (evaluateGates_error [] 0).mpr ⟨g, hg, hrel, e, hopens⟩
    cases he'.symm.trans hd
  | .ok b => rw [opens_eq ho hopens]

lemma remove_eq (ho : w.Answers o)
    (hd : (answered o (evaluateGates X w.node w.claim w.gates [] 0)).2 = .ok (remove, pending))
    {t : Taint} (ht : t ∈ w.node.taints) : remove.contains t.key = w.removes t.key := by
  have hkey : hasTaintKey w.node.taints t.key = true := List.any_eq_true.mpr ⟨t, ht, by simp⟩
  rw [Bool.eq_iff_iff, List.contains_iff_mem, mem_remove hd, GateWorld.removes, Bool.and_eq_true,
    List.any_eq_true]
  simp only [List.not_mem_nil, false_or, hkey, true_and, Bool.and_eq_true, beq_iff_eq]
  refine and_congr_right fun hstartup => exists_congr fun g => and_congr_right
    fun hg => and_congr_right fun hgk => ?_
  have hrel : relevant w.node w.claim g = true := by rw [relevant, hgk, hkey, hstartup]; rfl
  rw [opens_of_decided ho hd hg hrel]
  simp

lemma pending_eq (ho : w.Answers o)
    (hd : (answered o (evaluateGates X w.node w.claim w.gates [] 0)).2 = .ok (remove, pending)) :
    0 < pending ↔ w.node.taints.any (fun t => w.waits t.key) = true := by
  rw [pending_pos hd, List.any_eq_true]
  simp only [lt_irrefl, false_or, GateWorld.waits, Bool.and_eq_true, List.any_eq_true, beq_iff_eq,
    Bool.not_eq_true']
  constructor
  · rintro ⟨g, hg, hrel, hclosed⟩
    rw [opens_of_decided ho hd hg hrel] at hclosed
    rw [relevant, Bool.and_eq_true] at hrel
    obtain ⟨t, ht, htk⟩ := List.any_eq_true.mp hrel.1
    have hkey : g.taintKey = t.key := (eq_of_beq htk).symm
    exact ⟨t, ht, hkey ▸ hrel.2, g, hg, hkey, Except.ok.inj hclosed⟩
  · rintro ⟨t, ht, hstartup, g, hg, hkey, hclosed⟩
    have hrel : relevant w.node w.claim g = true := by
      rw [relevant, hkey, hstartup, Bool.and_true]
      exact List.any_eq_true.mpr ⟨t, ht, by simp⟩
    exact ⟨g, hg, hrel, by rw [opens_of_decided ho hd hg hrel, hclosed]⟩

lemma requeue_eq (ho : w.Answers o)
    (hd : (answered o (evaluateGates X w.node w.claim w.gates [] 0)).2 = .ok (remove, pending))
    {r : Result} (hr : again pending = .ok r) :
    r.requeueAfter = if w.node.taints.any (fun t => w.waits t.key) then gateRecheck else 0 := by
  cases hr
  by_cases hp : 0 < pending
  · rw [if_pos hp, if_pos ((pending_eq ho hd).mp hp)]
  · rw [if_neg hp, if_neg fun h => hp ((pending_eq ho hd).mpr h)]

structure Exact (w : GateWorld X) (landed : Bool) (out : Outcome (Except Err Result)) : Prop where
  failed : ∀ e, out.result = .error e → landed = false → out.taints = w.node.taints
  won : ∀ r, out.result = .ok r → out.lost = false → out.taints = w.node.taints.filter
    fun t => !w.removes t.key
  requeued : ∀ r, out.result = .ok r →
    r.requeueAfter = if w.node.taints.any (fun t => w.waits t.key) then gateRecheck else 0
  atomic : out.taints = w.node.taints ∨ out.taints = w.node.taints.filter fun t => !w.removes t.key

lemma exact_failed (w : GateWorld X) (landed : Bool) (e : Err) :
    Exact w landed ⟨.error e, w.node.taints, false⟩ :=
  ⟨fun _ _ _ => rfl, nofun, nofun, .inl rfl⟩

lemma openGates_exact (ho : w.Answers o) :
    Exact w landed (outcome landed o (openGates X w.node w.claim w.nodeClass) w.node.taints) := by
  rw [outcome_openGates]
  match hd : (answered o (evaluateGates X w.node w.claim w.gates [] 0)).2 with
  | .error e => exact exact_failed w landed e
  | .ok (remove, pending) =>
    have hkept : (w.node.taints.filter fun t => !remove.contains t.key) =
        w.node.taints.filter fun t => !w.removes t.key :=
      List.filter_congr fun t ht => by rw [remove_eq ho hd ht]
    dsimp only
    by_cases hrem : remove = []
    · have hnone : w.node.taints = w.node.taints.filter fun t => !w.removes t.key := by
        rw [← hkept, hrem]
        simp
      rw [if_pos hrem]
      exact ⟨nofun, fun _ _ _ => hnone, fun r hr => requeue_eq ho hd hr, .inl rfl⟩
    · rw [if_neg hrem]
      obtain hpatch | ⟨e, hpatch, he⟩ :=
        ho.patch w.node (w.node.taints.filter fun t => !remove.contains t.key)
      · rw [hpatch]
        exact ⟨nofun, fun _ _ _ => hkept, fun r hr => requeue_eq ho hd hr, .inr hkept⟩
      · rw [hpatch]
        refine ⟨fun _ _ hl => by simp [hl], fun _ _ h => (nomatch h), fun r hr => ?_, ?_⟩
        · dsimp only at hr
          by_cases hc : e.isConflict = true
          · rw [if_pos hc] at hr
            exact requeue_eq ho hd hr
          · have hfound : (e.wrap "removing startup taints: ").isNotFound = false := he
            rw [if_neg hc, ignoreNotFound, hfound] at hr
            cases hr
        · dsimp only
          split_ifs
          · exact .inr hkept
          · exact .inl rfl

variable (landed) in
lemma reconcile_exact (ho : w.Answers o) :
    Exact w landed (outcome landed o (reconcileGates X w.node.name) w.node.taints) := by
  by_cases hr : w.Readable o
  · rw [outcome_readable hr]
    exact openGates_exact ho
  · obtain ⟨e, he⟩ := outcome_unreadable ho hr
    rw [he]
    exact exact_failed w landed e

variable (landed) in
lemma reconcile_reordered (ho : w.Answers o) {gates : List (StartupTaintGate X)}
    (hg : gates.Perm w.gates) :
    let out := outcome landed o (reconcileGates X w.node.name) w.node.taints
    let out' := outcome landed (reordered o gates) (reconcileGates X w.node.name) w.node.taints
    out'.result.toOption = out.result.toOption ∧ out'.taints = out.taints := by
  dsimp only
  by_cases hr : w.Readable o
  · rw [outcome_readable hr]
    have hr' : outcome landed (reordered o gates) (reconcileGates X w.node.name) w.node.taints =
        outcome landed (reordered o gates)
          (openGates X w.node w.claim (w.reorder gates hg).nodeClass) w.node.taints :=
      outcome_readable (w := w.reorder gates hg) ((readable_reordered ho hg).mpr hr)
    rw [hr']
    exact openGates_reordered hg
  · obtain ⟨e, he⟩ := outcome_unreadable ho hr
    obtain ⟨e', he'⟩ := outcome_unreadable (answers_reordered ho hg)
      fun h => hr ((readable_reordered ho hg).mp h)
    have he' :
        outcome landed (reordered o gates) (reconcileGates X w.node.name) w.node.taints = _ := he'
    rw [he, he']
    exact ⟨rfl, rfl⟩

end Decision

/-- A reconcile that fails leaves the Node as it was. One that succeeds and wins its patch takes off
exactly the startup taints whose gate is open, and it asks to come back exactly if one of the Node's
startup taints has a closed gate. Where a patch was applied although it is answered with an error,
it is the same patch: all of these taints are gone or none is. The order of the gates makes no
difference. -/
theorem gates_reconciled_exactly (w : GateWorld X) (o : (e : GateEff) → GateRes X e)
    (ho : w.Answers o) :
    let run := answered o (reconcileGates X w.node.name)
    (∀ e, run.2 = .error e → taintsAfter false run.1 w.node.taints = w.node.taints) ∧
    (∀ r, run.2 = .ok r →
      (lost run.1 = false → ∀ landed,
        taintsAfter landed run.1 w.node.taints = w.node.taints.filter fun t => !w.removes t.key) ∧
      r.requeueAfter = if w.node.taints.any (fun t => w.waits t.key) then gateRecheck else 0) ∧
    (∀ landed, taintsAfter landed run.1 w.node.taints = w.node.taints ∨
      taintsAfter landed run.1 w.node.taints = w.node.taints.filter fun t => !w.removes t.key) ∧
    ∀ gates : List (StartupTaintGate X), gates.Perm w.gates →
      let run' := answered (reordered o gates) (reconcileGates X w.node.name)
      run'.2.toOption = run.2.toOption ∧
        ∀ landed, taintsAfter landed run'.1 w.node.taints = taintsAfter landed run.1
          w.node.taints := by
  have hexact (landed : Bool) := reconcile_exact landed ho
  refine ⟨fun e he => (hexact false).failed e he rfl,
    fun r hr => ⟨fun hl landed => (hexact landed).won r hr hl, ?_⟩,
    fun landed => (hexact landed).atomic, fun gates hg => ⟨(reconcile_reordered false ho hg).1, ?_⟩⟩
  · exact (hexact false).requeued r hr
  · exact fun landed => (reconcile_reordered landed ho hg).2

section Sample

open Runs.Sample

def waiting : SSHNodeClassSpec externals :=
  ⟨"c", none, "p", .empty, none, .unset, "", [], none, none,
    [⟨"agent", ⟨none, some ⟨"Ready", none⟩⟩⟩, ⟨"net", ⟨some ⟨"kube-system", (), none⟩, none⟩⟩]⟩

def other : Taint := ⟨"net", "", "NoSchedule"⟩
def disk : Taint := ⟨"disk", "", "NoExecute"⟩

def tainted : GateWorld externals where
  node := registered [disk, other, startup]
  claim := ⟨"a", [], [startup, other], some ⟨nodeClassGroup, nodeClassKind, "c"⟩⟩
  nodeClass := waiting
  pods := [("kube-system", ⟨[], "m", false, [⟨"Ready", .true⟩]⟩)]
  live := rfl
  owner := ⟨_, rfl, rfl⟩
  references := rfl
  distinct := by decide
  few := by decide

def answering : (e : GateEff) → GateRes externals e
  | .getNode _ => .ok tainted.node
  | .getNodeClaim _ => .ok tainted.claim
  | .getNodeClass _ => .ok waiting
  | .listPods ns => .ok ((tainted.pods.filter (·.1 == ns)).map Prod.snd)
  | .patchTaints _ _ => .ok ()

lemma answering_answers : tainted.Answers answering where
  node := .inl rfl
  claim := .inl rfl
  nodeClass := .inl rfl
  pods _ := .inl rfl
  patch _ _ := .inl rfl

theorem gates_reconciled_exactly_tainted :
    tainted.Answers answering ∧
      taintsAfter false (answered answering (reconcileGates externals "n")).1 [disk, other,
        startup] = [disk, other] ∧
      (answered answering (reconcileGates externals "n")).2 = .ok
        { requeueAfter := gateRecheck } := by
  have hexact := gates_reconciled_exactly tainted answering answering_answers
  obtain ⟨hkept, hrequeue⟩ := hexact.2.1 { requeueAfter := gateRecheck } rfl
  exact ⟨answering_answers, hkept rfl false, rfl⟩

end Sample

end KarpenterProviderSsh.Gates
