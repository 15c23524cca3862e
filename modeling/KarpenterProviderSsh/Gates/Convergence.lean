import KarpenterProviderSsh.Catalogs.Requests
import KarpenterProviderSsh.Control.Feeds
import KarpenterProviderSsh.Control.Queues
import KarpenterProviderSsh.Gates.Removals

/-! No Node is left behind a gate: as long as it carries a startup taint that a gate of its class
names, the reconciler is at it, has it in its queue or on a timer, or has an update of it to
come. -/

namespace KarpenterProviderSsh.Gates

open Api Cluster Scripts Providers Controllers Catalogs Control Interleaving Interleaving.Prog

variable {X : Externals}

structure RegisteredClaim where
  claim : OwningClaim
  nodeName : String
deriving DecidableEq

/-- What the gate reconciler reads: Nodes, NodeClaims and node classes as its caches show them. Pods
are not kept, since what is listed of them decides nothing here. -/
structure GateStore (X : Externals) where
  nodes : Watched String TaintedNode
  claims : Watched String RegisteredClaim
  classes : Watched String (SSHNodeClassSpec X)
  rev : ℕ

def ownerReference (n : TaintedNode) : Option OwnerReference :=
  n.ownerReferences.find? (fun ref => ref.kind == "NodeClaim" &&
      ref.apiVersion == nodeClaimAPIVersion)

def ownedByNodeClaim (n : TaintedNode) : Bool := (ownerReference n).isSome

namespace GateStore

variable (w : GateStore X)

def empty (X : Externals) : GateStore X := ⟨.empty _ _, .empty _ _, .empty _ _, 0⟩

def putNode (name : String) (o : Option TaintedNode) : GateStore X :=
  { w with
    nodes := w.nodes.put name (o.map fun n => { n with resourceVersion := w.rev + 1 })
    rev := w.rev + 1 }

def retainted (stored : TaintedNode) (taints : List Taint) (cur : TaintedNode) : GateStore X :=
  if taints = stored.taints then w else w.putNode stored.name (some { cur with taints := taints })

def patchTaints (stored : TaintedNode) (taints : List Taint) (ch : ApiChoice) :
    Option (Except Err Unit × GateStore X) :=
  match w.nodes.stored stored.name with
  | none => lost w World.notFoundErr ch
  | some cur =>
    if stored.resourceVersion = cur.resourceVersion
      then landing w () (w.retainted stored taints cur) ch
    else lost w World.conflictErr ch

def answer : (e : GateEff) → ApiChoice → Option (GateRes X e × GateStore X)
  | .getNode name, ch => served w (cachedOr (w.nodes.cached name)) ch
  | .getNodeClaim name, ch =>
    served w (cachedOr ((w.claims.cached name).map RegisteredClaim.claim)) ch
  | .getNodeClass name, ch => served w (cachedOr (w.classes.cached name)) ch
  | .listPods _, ch =>
    match ch with
    | .pods l => some (.ok l, w)
    | .fail _ m => some (.error (World.otherErr false m), w)
    | _ => none
  | .patchTaints stored taints, ch => w.patchTaints stored taints ch

end GateStore

/-- What others store, and what the watches deliver; `listed` tells whether the NodeClaims could be
listed to fan the event out. -/
inductive GateEvent (X : Externals)
  | putNode (n : TaintedNode)
  | dropNode (name : String)
  | putClaim (name : String) (o : Option RegisteredClaim)
  | putClass (name : String) (o : Option (SSHNodeClassSpec X))
  | seeNode (name : String) (i : ℕ)
  | seeClaim (name : String) (i : ℕ)
  | seeClass (name : String) (i : ℕ) (listed : Bool)

namespace GateStore

variable (w : GateStore X)

def outside : GateEvent X → Option (GateStore X)
  | .putNode n => if n.name = "" then none else some (w.putNode n.name (some n))
  | .dropNode name => some (w.putNode name none)
  | .putClaim name o => some { w with claims := w.claims.put name o }
  | .putClass name o => some { w with classes := w.classes.put name o }
  | .seeNode name i => (w.nodes.see name i).map fun W => { w with nodes := W }
  | .seeClaim name i => (w.claims.see name i).map fun W => { w with claims := W }
  | .seeClass name i _ => (w.classes.see name i).map fun W => { w with classes := W }

def watched (n : TaintedNode) : Bool := n.taints ≠ [] && ownedByNodeClaim n

def refersTo (name : String) (c : OwningClaim) : Bool :=
  c.nodeClassRef.any fun ref => ref.group == nodeClassGroup && ref.kind == nodeClassKind &&
    ref.name == name

def nodesForNodeClass (listed : Bool) (name : String) (o : Option (SSHNodeClassSpec X))
    (node : String) : Bool :=
  o.any (fun n => n.startupTaintGates.length ≠ 0) && listed &&
    w.claims.listed.any fun c => refersTo name c.2.claim && c.2.nodeName ≠ "" &&
    c.2.nodeName == node

/-- The watches of `Register`. A deletion shows the last known object; an update of a class is
mapped from both versions. Pods only start a reconcile sooner. -/
def wakes (x : GateEvent X) (w' : GateStore X) (node : String) : Bool :=
  match x with
  | .seeNode name _ =>
    name == node && ((w'.nodes.cached name).orElse fun _ => w.nodes.cached name).any watched
  | .seeClass name _ listed =>
    w'.nodesForNodeClass listed name (w.classes.cached name) node ||
      w'.nodesForNodeClass listed name (w'.classes.cached name) node
  | _ => false

end GateStore

def gateController (X : Externals) : Controller GateEff (GateRes X) (Except Err Result) where
  World := GateStore X
  Choice := ApiChoice
  answer := GateStore.answer
  Key := String
  Outer := GateEvent X
  program := reconcileGates X
  retries := requeues
  outside := GateStore.outside
  wakes := GateStore.wakes
  known w node := (w.nodes.cached node).any GateStore.watched

instance : DecidableEq (gateController X).Key := inferInstanceAs (DecidableEq String)

namespace GateStore

variable {w w' : GateStore X} {node : String} {n : TaintedNode}

def claimOf (w : GateStore X) (n : TaintedNode) : Option OwningClaim :=
  (ownerReference n).bind fun ref => (w.claims.cached ref.name).map RegisteredClaim.claim

def classOf (w : GateStore X) (c : OwningClaim) : Option (SSHNodeClassSpec X) :=
  c.nodeClassRef.bind fun ref => if ref.group ≠ nodeClassGroup ∨ ref.kind ≠ nodeClassKind then none
    else w.classes.cached ref.name

def Open (n : TaintedNode) (c : OwningClaim) (spec : SSHNodeClassSpec X) : Prop :=
  ∀ gate ∈ spec.startupTaintGates, relevant n c gate = false

def Settled (node : String) (w : GateStore X) : Prop :=
  w.nodes.pending node ≠ [] ∨ ∀ n, w.nodes.cached node = some n → n.deleting = false →
    ∀ c, w.claimOf n = some c → ∀ spec, w.classOf c = some spec → Open n c spec

structure Calm (node : String) (w w' : GateStore X) : Prop where
  cached : w'.nodes.cached node = w.nodes.cached node
  pending : w.nodes.pending node ≠ [] → w'.nodes.pending node ≠ []
  claim : ∀ n, w.nodes.cached node = some n → w'.claimOf n = w.claimOf n
  cls : ∀ n c, w.nodes.cached node = some n → w.claimOf n = some c → w'.classOf c = w.classOf c

lemma Calm.refl (node : String) (w : GateStore X) : Calm node w w :=
  ⟨rfl, id, fun _ _ => rfl, fun _ _ _ _ => rfl⟩

lemma Calm.trans {u v w : GateStore X} (huv : Calm node u v) (hvw : Calm node v w) :
    Calm node u w where
  cached := hvw.cached.trans huv.cached
  pending h := hvw.pending (huv.pending h)
  claim n hn := (hvw.claim n (huv.cached.trans hn)).trans (huv.claim n hn)
  cls n c hn hc := (hvw.cls n c (huv.cached.trans hn) ((huv.claim n hn).trans hc)).trans
    (huv.cls n c hn hc)

lemma Calm.settled (h : Calm node w w') (hs : Settled node w) : Settled node w' := by
  rcases hs with hp | hs
  · exact .inl (h.pending hp)
  · refine .inr fun n hn hlive c hc spec hspec => ?_
    rw [h.cached] at hn
    rw [h.claim n hn] at hc
    rw [h.cls n c hn hc] at hspec
    exact hs n hn hlive c hc spec hspec

lemma calm_putNode (w : GateStore X) (node name : String) (o : Option TaintedNode) :
    Calm node w (w.putNode name o) where
  cached := Watched.cached_put node _
  pending hp := Watched.pending_put _ hp
  claim _ _ := rfl
  cls _ _ _ _ := rfl

lemma patchTaints_eq {stored : TaintedNode} {taints : List Taint} {ch : ApiChoice}
    {r : Except Err Unit} (h : w.patchTaints stored taints ch = some (r, w')) :
    (w' = w ∧ ∃ m, r = .error (World.otherErr false m)) ∨
    (w.nodes.stored stored.name = none ∧ w' = w ∧ r = .error World.notFoundErr) ∨
    ∃ cur, w.nodes.stored stored.name = some cur ∧
      ((stored.resourceVersion ≠ cur.resourceVersion ∧ w' = w ∧ r = .error World.conflictErr) ∨
      (w' = w.retainted stored taints cur ∧
        (r = .ok () ∨ ∃ m, r = .error (World.otherErr true m)))) := by
  unfold patchTaints at h
  split at h
  · rename_i hnone
    rcases lost_eq h with ⟨hw, hr | hr⟩
    · exact .inr (.inl ⟨hnone, hw, hr⟩)
    · exact .inl ⟨hw, hr⟩
  · rename_i cur hcur
    split at h
    · rcases landing_eq h with hr | hr
      · exact .inr (.inr ⟨cur, hcur, .inr hr⟩)
      · exact .inl hr
    · rename_i hrev
      rcases lost_eq h with ⟨hw, hr | hr⟩
      · exact .inr (.inr ⟨cur, hcur, .inl ⟨hrev, hw, hr⟩⟩)
      · exact .inl ⟨hw, hr⟩

lemma calm_retainted (stored : TaintedNode) (taints : List Taint) (cur : TaintedNode) :
    Calm node w (w.retainted stored taints cur) := by
  unfold retainted
  split
  · exact .refl node w
  · exact calm_putNode w node _ _

lemma calm_answer {e : GateEff} {ch : ApiChoice} {r : GateRes X e}
    (h : w.answer e ch = some (r, w')) (node : String) :
    Calm node w w' := by
  cases e with
  | getNode name | getNodeClaim name | getNodeClass name => exact (served_eq h).1 ▸ .refl node w
  | listPods ns =>
    cases ch with
    | pods l | fail b m =>
      cases h
      exact .refl node w
    | _ => cases h
  | patchTaints stored taints =>
    rcases patchTaints_eq h with ⟨rfl, _⟩ | ⟨_, rfl, _⟩ | ⟨cur, _, ⟨_, rfl, _⟩ | ⟨rfl, _⟩⟩
    · exact .refl node w'
    · exact .refl node w'
    · exact .refl node w'
    · exact calm_retainted _ _ _

def Wf (w : GateStore X) : Prop := ∀ name n, some n ∈ w.nodes.versions name →
    n.name = name ∧ name ≠ ""

end GateStore

open GateStore

section Settling

variable {w : GateStore X} {node : String} {n : TaintedNode} {nc : OwningClaim}
  {spec : SSHNodeClassSpec X}

def aim (X : Externals) : Aim (gateController X) where
  calm := Calm
  Settled := Settled
  refl := Calm.refl
  trans _ := Calm.trans
  stays := Calm.settled
  answer := calm_answer

abbrev Settles (node : String) (p : GateProg X (Except Err Result)) (w : GateStore X) : Prop :=
  (aim X).OnTrack node p w

lemma settles_error (e : Err) : Settles node (.ret (.error e) : GateProg X _) w :=
  Aim.onTrack_retry rfl

lemma settles_of_pending {p : GateProg X (Except Err Result)} (h : w.nodes.pending node ≠ []) :
    Settles node p w :=
  Aim.onTrack_of_settled (.inl h)

lemma settles_step {e : GateEff} {f : GateRes X e → GateProg X (Except Err Result)}
    (h : ∀ w₁ ch r w₂, Calm node w w₁ → w₁.answer e ch = some (r, w₂) → Settles node (f r) w₂) :
    Settles node (gateRequest X e >>= f) w := Aim.onTrack_step h

lemma settles_shown {a : Except Err Result} (hn : w.nodes.cached node = some n)
    (h : n.deleting = false → ∀ c, w.claimOf n = some c → ∀ spec, w.classOf c = some spec →
      Open n c spec) :
    Settles node (.ret a) w := by
  refine Aim.onTrack_of_settled (.inr fun m hm => ?_)
  obtain rfl : n = m := Option.some.inj (hn.symm.trans hm)
  exact h

lemma nodeClaimFor_settles {f : Except Err (Option OwningClaim) → GateProg X (Except Err Result)}
    (herr : ∀ w₁ e, Settles node (f (.error e)) w₁)
    (hok : ∀ w₁, Calm node w w₁ → Settles node (f (.ok (w₁.claimOf n))) w₁) :
    Settles node (nodeClaimFor X n >>= f) w := by
  unfold nodeClaimFor
  cases href : ownerReference n with
  | none =>
    rw [show List.find? _ n.ownerReferences = none from href]
    have hnone : w.claimOf n = none := by simp [claimOf, href]
    exact hnone ▸ hok w (.refl node w)
  | some ref =>
    rw [show List.find? _ n.ownerReferences = some ref from href]
    refine settles_step fun w₁ ch r w₂ h₁ hr => ?_
    obtain ⟨rfl, rfl | ⟨m, rfl⟩⟩ := served_eq hr
    · have hclaim : w₂.claimOf n = (w₂.claims.cached ref.name).map RegisteredClaim.claim := by
        simp [claimOf, href]
      have hgoal := hok w₂ h₁
      rw [hclaim] at hgoal
      generalize (w₂.claims.cached ref.name).map RegisteredClaim.claim = o at hgoal ⊢
      cases o <;> exact hgoal
    · exact herr w₂ _

lemma nodeClassFor_settles
    {f : Except Err (Option (SSHNodeClassSpec X)) → GateProg X (Except Err Result)}
    (herr : ∀ w₁ e, Settles node (f (.error e)) w₁)
    (hok : ∀ w₁, Calm node w w₁ → Settles node (f (.ok (w₁.classOf nc))) w₁) :
    Settles node (nodeClassFor X nc >>= f) w := by
  have hnow : classOf w nc = none → Settles node (f (.ok none)) w :=
      fun h => h ▸ hok w (.refl node w)
  unfold nodeClassFor
  cases href : nc.nodeClassRef with
  | none => exact hnow (by simp [classOf, href])
  | some ref =>
    dsimp only
    split
    · rename_i hforeign
      exact hnow (by simp only [classOf, href, Option.bind_some, if_pos hforeign])
    · rename_i hours
      refine settles_step fun w₁ ch r w₂ h₁ hr => ?_
      obtain ⟨rfl, rfl | ⟨m, rfl⟩⟩ := served_eq hr
      · have hcls : w₂.classOf nc = w₂.classes.cached ref.name := by
          simp only [classOf, href, Option.bind_some, if_neg hours]
        have hgoal := hok w₂ h₁
        rw [hcls] at hgoal
        generalize w₂.classes.cached ref.name = o at hgoal ⊢
        cases o <;> exact hgoal
      · exact herr w₂ _

lemma evaluate_settles {f : Except Err Bool → GateProg X (Except Err Result)}
    (cond : StartupTaintCondition X) (h : ∀ w₁ r, Calm node w w₁ → Settles node (f r) w₁) :
    Settles node (evaluate X n cond >>= f) w := by
  unfold evaluate
  split
  · unfold podsReady
    split
    · exact h w _ (.refl node w)
    · refine settles_step fun w₁ ch r w₂ h₁ hr => ?_
      have h₂ := h₁.trans (calm_answer hr node)
      cases r <;> exact h w₂ _ h₂
  · split <;> exact h w _ (.refl node w)
  · exact h w _ (.refl node w)

lemma evaluateGates_settles {f : Except Err (List String × ℕ) → GateProg X (Except Err Result)}
    (gates : List (StartupTaintGate X)) (remove : List String) (pending : ℕ)
    (hrem : ∀ key ∈ remove, hasTaintKey n.taints key = true)
    (herr : ∀ w₁ e, Settles node (f (.error e)) w₁) (hok : ∀ w₁ remove' pending', Calm node w w₁ →
    (∀ key ∈ remove', hasTaintKey n.taints key = true) →
      (remove' = [] → pending' = 0 → remove = [] ∧ pending = 0 ∧
        ∀ g ∈ gates, relevant n nc g = false) →
      Settles node (f (.ok (remove', pending'))) w₁) :
    Settles node (evaluateGates X n nc gates remove pending >>= f) w := by
  -- what the loop over the gates returns: keys that are on the Node, and nothing at all only
  -- if no gate is relevant
  induction gates generalizing remove pending w with
  | nil => exact hok w remove pending (.refl node w) hrem fun hr hp => ⟨hr, hp, by simp⟩
  | cons gate gates ih =>
    have hskip : relevant n nc gate = false →
        Settles node (evaluateGates X n nc gates remove pending >>= f) w := by
      intro hrel
      refine ih remove pending hrem fun w₁ remove' pending' h₁ hkeys hnone =>
        hok w₁ remove' pending' h₁ hkeys fun hr hp => ?_
      obtain ⟨hr', hp', hall⟩ := hnone hr hp
      exact ⟨hr', hp', List.forall_mem_cons.mpr ⟨hrel, hall⟩⟩
    unfold evaluateGates
    split
    · rename_i hoff
      have hoff : hasTaintKey n.taints gate.taintKey = false := by simpa using hoff
      exact hskip (by rw [relevant, hoff, Bool.false_and])
    · rename_i hon
      split
      · rename_i hoff
        have hoff : hasTaintKey nc.startupTaints gate.taintKey = false := by simpa using hoff
        exact hskip (by rw [relevant, hoff, Bool.and_false])
      · rw [bind_assoc]
        refine evaluate_settles gate.removeWhen fun w₁ r h₁ => ?_
        rcases r with e | _ | _
        · exact herr w₁ _
        · -- a closed gate is counted
          refine ih remove (pending + 1) hrem fun w₂ remove' pending' h₂ hkeys hnone => ?_
          refine hok w₂ remove' pending' (h₁.trans h₂) hkeys fun hr hp => ?_
          exact absurd (hnone hr hp).2.1 (Nat.succ_ne_zero pending)
        · -- an open one is to be removed
          refine ih (gate.taintKey :: remove) pending ?_
            fun w₂ remove' pending' h₂ hkeys hnone => ?_
          · exact List.forall_mem_cons.mpr ⟨by simpa using hon, hrem⟩
          · refine hok w₂ remove' pending' (h₁.trans h₂) hkeys fun hr hp => ?_
            exact absurd (hnone hr hp).1 (List.cons_ne_nil _ _)

lemma removeTaints_settles {f : Option Err → GateProg X (Except Err Result)} {keys : List String}
    (hn : w.nodes.cached node = some n) (hname : n.name = node)
    (hkeys : ∀ key ∈ keys, hasTaintKey n.taints key = true) (hne : keys ≠ [])
    (herr : ∀ w₁ e, e.isNotFound = false → Settles node (f (some e)) w₁) :
    Settles node (removeTaints X n keys >>= f) w := by
  -- a patch that takes a taint off the Node stores a new version, or there is one already
  refine settles_step fun w₁ ch r w₂ h₁ hr => ?_
  have hcached : w₁.nodes.cached node = some n := h₁.cached.trans hn
  have hstored : w₁.nodes.pending node = [] → w₁.nodes.stored n.name = some n := fun hp =>
    hname ▸ (Watched.stored_eq_cached hp).trans hcached
  have hkeep : w₁.nodes.pending node ≠ [] → w₂.nodes.pending node ≠ [] :=
    (calm_answer hr node).pending
  rcases patchTaints_eq hr with ⟨_, m, rfl⟩ | ⟨hnone, rfl, rfl⟩ |
    ⟨cur, hcur, ⟨hrev, rfl, rfl⟩ | ⟨rfl, hr⟩⟩
  · exact herr w₂ _ rfl
  · refine settles_of_pending fun hp => ?_
    rw [hstored hp] at hnone
    cases hnone
  · refine settles_of_pending fun hp => ?_
    rw [hstored hp] at hcur
    cases hcur
    exact hrev rfl
  · have hpend :
        (w₁.retainted n (n.taints.filter fun t => !keys.contains t.key) cur).nodes.pending node ≠
        [] := by
      obtain ⟨key, hkey⟩ := List.exists_mem_of_ne_nil _ hne
      obtain ⟨t, ht, htk⟩ := List.any_eq_true.mp (hkeys key hkey)
      have hdiff : (n.taints.filter fun t => !keys.contains t.key) ≠ n.taints := by
        intro heq
        have := List.filter_eq_self.mp heq t ht
        simp_all
      rw [retainted, if_neg hdiff, ← hname]
      exact Watched.pending_put_self _
    exact settles_of_pending hpend

lemma openGates_settles (hn : w.nodes.cached node = some n) (hname : n.name = node)
    (hclaim : w.claimOf n = some nc) (hcls : w.classOf nc = some spec) :
    Settles node (openGates X n nc spec) w := by
  refine evaluateGates_settles spec.startupTaintGates [] 0 (by simp) (fun w₁ e => settles_error e)
    fun w₁ remove pending h₁ hkeys hnone => ?_
  have hn₁ := h₁.cached.trans hn
  dsimp only
  split
  · rename_i hr
    by_cases hp : pending = 0
    · refine settles_shown hn₁ fun _ c hc spec' hspec => ?_
      obtain rfl : nc = c := Option.some.inj ((hclaim.symm.trans (h₁.claim n hn).symm).trans hc)
      obtain rfl : spec = spec' :=
        Option.some.inj ((hcls.symm.trans (h₁.cls n nc hn hclaim).symm).trans hspec)
      exact (hnone hr hp).2.2
    · have hpos : 0 < pending := Nat.pos_of_ne_zero hp
      exact Aim.onTrack_retry (by simp [gateController, requeues, hpos, gateRecheck])
  · rename_i hr
    refine removeTaints_settles hn₁ hname hkeys hr fun w₂ e he => ?_
    exact Aim.onTrack_retry (by simp [gateController, requeues, ignoreNotFound, he])

lemma reconcileGates_settles (hw : w.Wf) (node : String) :
    Settles node (reconcileGates X node) w := by
  refine settles_step fun w₁ ch r w₂ h₁ hr => ?_
  obtain ⟨rfl, rfl | ⟨m, rfl⟩⟩ := served_eq hr
  · cases hc : w₂.nodes.cached node with
    | none =>
      refine Aim.onTrack_of_settled (.inr fun n hn => ?_)
      rw [hc] at hn
      cases hn
    | some n =>
      have hname := (hw node n ((h₁.cached.symm.trans hc) ▸ Watched.cached_mem _ _)).1
      simp only [cachedOr]
      split
      · rename_i hidle
        refine settles_shown hc fun hlive c _ spec _ gate _ => ?_
        have htaints : n.taints = [] := hidle.resolve_left (by simp [hlive])
        simp [relevant, hasTaintKey, htaints]
      · refine nodeClaimFor_settles (fun w₁ e => settles_error e) fun w₃ h₃ => ?_
        have hc₃ := h₃.cached.trans hc
        cases hclaim : w₃.claimOf n with
        | none => exact settles_shown hc₃ (by simp [hclaim])
        | some nc =>
          dsimp only
          split
          · rename_i hstart
            refine settles_shown hc₃ fun _ c hcc spec _ gate _ => ?_
            obtain rfl : nc = c := Option.some.inj (hclaim.symm.trans hcc)
            simp [relevant, hasTaintKey, hstart]
          · refine nodeClassFor_settles (fun w₁ e => settles_error e) fun w₄ h₄ => ?_
            have hc₄ := h₄.cached.trans hc₃
            have hclaim₄ := (h₄.claim n hc₃).trans hclaim
            have hsame : ∀ c, w₄.claimOf n = some c →
                nc = c := fun c h => Option.some.inj (hclaim₄.symm.trans h)
            cases hcls : w₄.classOf nc with
            | none =>
              refine settles_shown hc₄ fun _ c hcc spec hspec => ?_
              obtain rfl := hsame c hcc
              rw [hcls] at hspec
              cases hspec
            | some spec =>
              dsimp only
              split
              · rename_i hgates
                refine settles_shown hc₄ fun _ c hcc spec' hspec gate hgate => ?_
                obtain rfl := hsame c hcc
                rw [hcls] at hspec
                cases hspec
                rw [hgates] at hgate
                cases hgate
              · exact openGates_settles hc₄ hname hclaim₄ hcls
  · exact settles_error _

end Settling

/-- How Nodes and NodeClaims come about. A Node is registered for a NodeClaim that the cache shows,
whose spec does not change, and whose status names it by the time an event of the class comes; the
NodeClaims can be listed then. -/
def Registers (w : GateStore X) : GateEvent X → Prop
  | .seeClaim name i => ∀ o, (w.claims.pending name)[i]? = some o → o = none ∨
      o.map RegisteredClaim.claim = (w.claims.cached name).map RegisteredClaim.claim ∨
      ∀ node n, w.nodes.cached node = some n →
      (ownerReference n).map OwnerReference.name ≠ some name
  | .seeClass _ _ listed =>
    listed = true ∧ ∀ node n ref c, w.nodes.cached node = some n → ownerReference n = some ref →
      w.claims.cached ref.name = some c → c.nodeName = node
  | _ => True

namespace GateStore

variable {w w' : GateStore X} {node : String} {n : TaintedNode}

lemma wf_empty : (empty X).Wf := by
  intro name n hn
  simp [empty, Watched.empty, Watched.versions, Feed.none, Feed.versions] at hn

lemma Wf.putNode (h : w.Wf) {name : String} {o : Option TaintedNode}
    (ho : ∀ n ∈ o, n.name = name ∧ name ≠ "") :
    (w.putNode name o).Wf := by
  intro m n hn
  rcases Watched.mem_versions_put hn with hold | ⟨rfl, hnew⟩
  · exact h m n hold
  · obtain ⟨n', hn', rfl⟩ := Option.map_eq_some_iff.mp hnew.symm
    exact ho n' hn'

lemma Wf.answer (h : w.Wf) {e : GateEff} {ch : ApiChoice} {r : GateRes X e}
    (hr : w.answer e ch = some (r, w')) : w'.Wf := by
  cases e with
  | getNode name | getNodeClaim name | getNodeClass name => exact (served_eq hr).1 ▸ h
  | listPods ns =>
    cases ch with
    | pods l | fail b m =>
      cases hr
      exact h
    | _ => cases hr
  | patchTaints stored taints =>
    rcases patchTaints_eq hr with ⟨rfl, _⟩ | ⟨_, rfl, _⟩ | ⟨cur, hcur, ⟨_, rfl, _⟩ | ⟨rfl, _⟩⟩
    · exact h
    · exact h
    · exact h
    · unfold retainted
      split
      · exact h
      · refine h.putNode ?_
        rintro n ⟨⟩
        exact h stored.name cur (hcur ▸ Watched.stored_mem _ _)

lemma Wf.outside (h : w.Wf) {x : GateEvent X} (hx : w.outside x = some w') : w'.Wf := by
  cases x with
  | putNode n =>
    simp only [GateStore.outside] at hx
    split at hx <;> cases hx
    rename_i hname
    refine h.putNode ?_
    rintro m ⟨⟩
    exact ⟨rfl, hname⟩
  | dropNode name =>
    cases hx
    exact h.putNode (by rintro m ⟨⟩)
  | putClaim name o | putClass name o =>
    cases hx
    exact h
  | seeNode name i =>
    obtain ⟨W, hW, rfl⟩ := Option.map_eq_some_iff.mp hx
    exact fun m n hn => h m n ((Watched.sublist_see hW m).subset hn)
  | seeClaim name i | seeClass name i listed =>
    obtain ⟨W, hW, rfl⟩ := Option.map_eq_some_iff.mp hx
    exact h

lemma settled_of_not_watched (h : ∀ n, w.nodes.cached node = some n → watched n = false) :
    Settled node w := by
  refine .inr fun n hn _ c hc spec _ gate _ => ?_
  have hw := h n hn
  simp only [watched, ownedByNodeClaim, Bool.and_eq_false_iff,
    decide_eq_false_iff_not, not_not] at hw
  rcases hw with htaints | howner
  · simp [relevant, hasTaintKey, htaints]
  · simp only [Option.isSome_eq_false_iff, Option.isNone_iff_eq_none] at howner
    simp [claimOf, howner] at hc

lemma seeNode_wakes {name : String} {i : ℕ} {W : Watched String TaintedNode}
    (hW : w.nodes.see name i = some W) (node : String) :
    wakes w (.seeNode name i) { w with nodes := W } node = true ∨
    Calm node w { w with nodes := W } ∨
      Settled node { w with nodes := W } := by
  by_cases hname : name = node
  · subst hname
    cases hc : W.cached name with
    | none =>
      refine .inr (.inr (settled_of_not_watched fun n hn => ?_))
      exact absurd (hc.symm.trans hn) (by simp)
    | some n =>
      cases hwatch : watched n with
      | true => exact .inl (by simp [wakes, hc, hwatch])
      | false =>
        refine .inr (.inr (settled_of_not_watched fun m hm => ?_))
        obtain rfl : n = m := Option.some.inj (hc.symm.trans hm)
        exact hwatch
  · have hf := Watched.see_of_ne hW (Ne.symm hname)
    refine .inr (.inl ⟨?_, ?_, fun _ _ => rfl, fun _ _ _ _ => rfl⟩)
    · rw [Watched.cached, hf, Watched.cached]
    · rw [Watched.pending, Watched.pending, hf]
      exact id

lemma seeClaim_calm {name : String} {i : ℕ} {W : Watched String RegisteredClaim}
    (hW : w.claims.see name i = some W) (ha : Registers w (.seeClaim name i)) (node : String) :
    Calm node w { w with claims := W } ∨ Settled node { w with claims := W } := by
  -- what the cache shows of another NodeClaim is the same
  have hother : ∀ name', name' ≠ name → W.cached name' = w.claims.cached name' := by
    intro name' hne
    rw [Watched.cached, Watched.see_of_ne hW hne, Watched.cached]
  have hcalm :
      (∀ n, w.nodes.cached node = some n → (ownerReference n).map OwnerReference.name = some name →
        (W.cached name).map RegisteredClaim.claim = (w.claims.cached name).map
      RegisteredClaim.claim) → Calm node w { w with claims := W } := by
    intro hsame
    refine ⟨rfl, id, fun n hn => ?_, fun _ _ _ _ => rfl⟩
    simp only [claimOf]
    cases href : ownerReference n with
    | none => rfl
    | some ref =>
      by_cases hne : ref.name = name
      · simpa [hne] using hsame n hn (by simp [href, hne])
      · simp [hother ref.name hne]
  rcases ha (W.cached name) (Watched.cached_see hW) with hnone | hsame | hfree
  · by_cases howned : ∃ n, w.nodes.cached node = some n ∧
      (ownerReference n).map OwnerReference.name = some name
    · obtain ⟨n, hn, hname⟩ := howned
      obtain ⟨ref, href, rfl⟩ := Option.map_eq_some_iff.mp hname
      refine .inr (.inr fun m hm _ c hc => ?_)
      obtain rfl : n = m := Option.some.inj (hn.symm.trans hm)
      simp [claimOf, href, hnone] at hc
    · exact .inl (hcalm fun n hn href => absurd ⟨n, hn, href⟩ howned)
  · exact .inl (hcalm fun _ _ _ => hsame)
  · exact .inl (hcalm fun n hn href => absurd href (hfree node n hn))

lemma seeClass_wakes (h : w.Wf) {name : String} {i : ℕ} {listed : Bool}
    {W : Watched String (SSHNodeClassSpec X)} (hW : w.classes.see name i = some W)
    (ha : Registers w (.seeClass name i listed)) (node : String) :
    wakes w (.seeClass name i listed) { w with classes := W } node = true ∨
    Calm node w { w with classes := W } ∨
      Settled node { w with classes := W } := by
  obtain ⟨rfl, hnamed⟩ := ha
  by_cases hours : ∃ n c, w.nodes.cached node = some n ∧ w.claimOf n = some c ∧
    refersTo name c = true
  · obtain ⟨n, c, hn, hc, href⟩ := hours
    obtain ⟨owner, howner, hclaim⟩ := Option.bind_eq_some_iff.mp hc
    obtain ⟨rc, hrc, rfl⟩ := Option.map_eq_some_iff.mp hclaim
    have hnode := hnamed node n owner rc hn howner hrc
    have hne : node ≠ "" := (h node n (hn ▸ Watched.cached_mem _ _)).2
    cases hnew : W.cached name with
    | none =>
      refine .inr (.inr (.inr fun m hm _ c' hc' spec hspec => ?_))
      obtain rfl : n = m := Option.some.inj (hn.symm.trans hm)
      obtain rfl : rc.claim = c' := Option.some.inj (hc.symm.trans hc')
      obtain ⟨ref, hr, hrn⟩ := (Option.any_eq_true _ _).mp href
      simp only [Bool.and_eq_true, beq_iff_eq] at hrn
      simp [classOf, hr, hrn, hnew] at hspec
    | some spec =>
      by_cases hgates : spec.startupTaintGates = []
      · refine .inr (.inr (.inr fun m hm _ c' hc' spec' hspec gate hgate => ?_))
        obtain rfl : n = m := Option.some.inj (hn.symm.trans hm)
        obtain rfl : rc.claim = c' := Option.some.inj (hc.symm.trans hc')
        obtain ⟨ref, hr, hrn⟩ := (Option.any_eq_true _ _).mp href
        simp only [Bool.and_eq_true, beq_iff_eq] at hrn
        simp only [classOf, hr, hrn, hnew, Option.bind_some, ne_eq, not_true_eq_false, or_self,
          if_false, Option.some.injEq] at hspec
        subst hspec
        rw [hgates] at hgate
        cases hgate
      · left
        have hmem := Watched.mem_listed.mpr hrc
        simp only [wakes, nodesForNodeClass, hnew, Bool.or_eq_true]
        right
        simp only [Option.any_some, Bool.and_true, Bool.and_eq_true, decide_eq_true_eq,
          List.any_eq_true]
        exact ⟨by simpa using hgates, _, hmem, ⟨href, by rw [hnode]; exact hne⟩, by simp [hnode]⟩
  · refine .inr (.inl ⟨rfl, id, fun _ _ => rfl, fun n c hn hc => ?_⟩)
    have hnot : refersTo name c = false := by
      by_contra hr
      exact hours ⟨n, c, hn, hc, by simpa using hr⟩
    simp only [classOf]
    cases hr : c.nodeClassRef with
    | none => rfl
    | some ref =>
      simp only [Option.bind_some]
      split
      · rfl
      · rename_i hours
        have hne : ref.name ≠ name := by
          intro heq
          simp_all [refersTo]
        rw [Watched.cached, Watched.see_of_ne hW hne, Watched.cached]

lemma wakes_or_calm (h : w.Wf) {x : GateEvent X} (ha : Registers w x) (hx : w.outside x = some w')
    (node : String) :
    wakes w x w' node = true ∨ Calm node w w' ∨ Settled node w' := by
  cases x with
  | putNode n =>
    simp only [GateStore.outside] at hx
    split at hx <;> cases hx
    exact .inr (.inl (calm_putNode _ _ _ _))
  | dropNode name =>
    cases hx
    exact .inr (.inl (calm_putNode _ _ _ _))
  | putClaim name o =>
    cases hx
    refine .inr (.inl ⟨rfl, id, fun n _ => ?_, fun _ _ _ _ => rfl⟩)
    simp [claimOf]
  | putClass name o =>
    cases hx
    refine .inr (.inl ⟨rfl, id, fun _ _ => rfl, fun n c _ _ => ?_⟩)
    simp [classOf]
  | seeNode name i =>
    obtain ⟨W, hW, rfl⟩ := Option.map_eq_some_iff.mp hx
    exact seeNode_wakes hW node
  | seeClaim name i =>
    obtain ⟨W, hW, rfl⟩ := Option.map_eq_some_iff.mp hx
    exact .inr (seeClaim_calm hW ha node)
  | seeClass name i listed =>
    obtain ⟨W, hW, rfl⟩ := Option.map_eq_some_iff.mp hx
    exact seeClass_wakes h hW ha node

end GateStore

def tending (X : Externals) : Tending (gateController X) Registers where
  toAim := aim X
  Inv := Wf
  boots _ hk := settled_of_not_watched fun n hn => by simpa [gateController, hn] using hk
  settles node _ hw := reconcileGates_settles hw node
  keeps hw hr := hw.answer hr
  outside hw ha hx := ⟨hw.outside hx, wakes_or_calm hw ha hx⟩

/-- In a quiet state no Node carries a startup taint that a gate of its class names. -/
theorem no_gated_taint_left {c : State (gateController X)} {node cls : String} {n : TaintedNode}
    {ref : OwnerReference} {rc : RegisteredClaim} {spec : SSHNodeClassSpec X}
    (hr : State.Reaches Registers (State.boot (GateStore.empty X)) c) (hq : c.queued node = false)
    (ha : c.active node = none) (hdn : c.world.nodes.Delivered) (hdc : c.world.claims.Delivered)
    (hds : c.world.classes.Delivered) (hn : c.world.nodes.stored node = some n)
    (hlive : n.deleting = false) (howner : ownerReference n = some ref)
    (hc : c.world.claims.stored ref.name = some rc)
    (hcref : rc.claim.nodeClassRef = some ⟨nodeClassGroup, nodeClassKind, cls⟩)
    (hs : c.world.classes.stored cls = some spec) :
    ∀ gate ∈ spec.startupTaintGates, hasTaintKey rc.claim.startupTaints gate.taintKey = true →
      hasTaintKey n.taints gate.taintKey = false := by
  have hset := Tending.settled_of_idle (T := tending X) GateStore.wf_empty hr hq ha
  have hset := hset.resolve_left (· (hdn node))
  rw [Watched.stored_eq_cached (hdn node)] at hn
  rw [Watched.stored_eq_cached (hdc ref.name)] at hc
  rw [Watched.stored_eq_cached (hds cls)] at hs
  intro gate hgate hstart
  have hclaim : c.world.claimOf n = some rc.claim := by simp [claimOf, howner, hc]
  have hcls : c.world.classOf rc.claim = some spec := by simp [classOf, hcref, hs]
  have hrel := hset n hn hlive rc.claim hclaim spec hcls gate hgate
  rwa [relevant, hstart, Bool.and_true] at hrel

section Sample

open Runs.Sample

def registers (w : GateStore X) : GateEvent X → Bool
  | .seeClaim _ _ => w.nodes.listed.isEmpty
  | .seeClass _ _ listed => listed && w.nodes.listed.isEmpty
  | _ => true

lemma cached_eq_none_of_isEmpty {w : GateStore X} (h : w.nodes.listed.isEmpty = true)
    (node : String) :
    w.nodes.cached node = none := by
  cases hn : w.nodes.cached node with
  | none => rfl
  | some n =>
    have hmem := Watched.mem_listed.mpr hn
    rw [List.isEmpty_iff.mp h] at hmem
    cases hmem

lemma registers_of_decide (w : GateStore X) (x : GateEvent X) (h : registers w x = true) :
    Registers w x := by
  cases x with
  | seeClaim name i =>
    exact fun o _ => .inr (.inr fun node n hn => by simp [cached_eq_none_of_isEmpty h] at hn)
  | seeClass name i listed =>
    obtain ⟨hl, hnone⟩ := Bool.and_eq_true_iff.mp h
    exact ⟨hl, fun node n ref c hn => by simp [cached_eq_none_of_isEmpty hnone] at hn⟩
  | _ => trivial

def gatedClass : SSHNodeClassSpec externals :=
  ⟨"c", none, "p", .empty, none, .unset, "", [], none, none,
      [⟨"agent", ⟨none, some ⟨"Ready", none⟩⟩⟩]⟩

def launched : RegisteredClaim :=
  ⟨⟨"a", [], [startup], some ⟨nodeClassGroup, nodeClassKind, "c"⟩⟩, "n"⟩

def opening : List (Event (gateController externals)) :=
  [.outside (.putClass "c" (some gatedClass)), .outside (.seeClass "c" 0 true),
      .outside (.putClaim "a" (some launched)),
    .outside (.seeClaim "a" 0),
    .outside (.putNode (registered [startup, ⟨"net", "", "NoSchedule"⟩])),
    .outside (.seeNode "n" 0), .start "n", .call "n" .ok, .call "n" .ok, .call "n" .ok,
    .call "n" .ok, .finish "n", .outside (.seeNode "n" 0), .start "n", .call "n" .ok, .call "n" .ok,
    .call "n" .ok, .finish "n"]

def quiet (c : State (gateController externals)) : Bool :=
  !c.queued "n" && (c.active "n").isNone && decide c.world.nodes.Delivered &&
    decide c.world.claims.Delivered && decide c.world.classes.Delivered

def isGated (o : Option (SSHNodeClassSpec externals)) : Bool :=
  o.any fun spec => spec.startupTaintGates.length = 1

theorem no_gated_taint_left_opened :
    ∃ (c : State (gateController externals)) (n : TaintedNode) (spec : SSHNodeClassSpec externals),
    State.Reaches Registers (State.boot (GateStore.empty externals)) c ∧
    c.world.nodes.stored "n" = some n ∧
      spec.startupTaintGates ≠ [] ∧
      ∀ gate ∈ spec.startupTaintGates, hasTaintKey launched.claim.startupTaints gate.taintKey =
      true →
        hasTaintKey n.taints gate.taintKey = false := by
  obtain ⟨c, hr, hc⟩ := State.exists_of_replay (M := gateController externals) registers_of_decide
    (c := State.boot (GateStore.empty externals)) (l := opening)
    (Q := fun c => quiet c && (c.world.nodes.stored "n").any (fun n : TaintedNode =>
      !n.deleting && decide (ownerReference n = some ⟨nodeClaimAPIVersion, "NodeClaim", "a"⟩)) &&
      decide (c.world.claims.stored "a" = some launched) && isGated (c.world.classes.stored "c"))
        (by decide +kernel)
  simp only [quiet, Bool.and_eq_true, Bool.not_eq_true', decide_eq_true_eq,
    Option.isNone_iff_eq_none, isGated, Option.any_eq_true] at hc
  obtain ⟨⟨⟨⟨⟨⟨⟨hq, ha⟩, hdn⟩, hdc⟩, hds⟩, n, hn, hlive, howner⟩, hclaim⟩, spec, hspec, hlen⟩ := hc
  refine ⟨c, n, spec, hr, hn, List.ne_nil_of_length_pos (by omega), ?_⟩
  exact no_gated_taint_left hr hq ha hdn hdc hds hn hlive howner hclaim rfl hspec

end Sample

end KarpenterProviderSsh.Gates
