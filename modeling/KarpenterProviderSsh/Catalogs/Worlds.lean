import KarpenterProviderSsh.Control.Feeds
import KarpenterProviderSsh.Control.Queues
import KarpenterProviderSsh.Controllers.NodeClass

/-! What the node class reconciler watches: classes, join profiles, hosts and NodeClaims, each
stored by the API server and shown by a cache that may lag behind. Of a host only its labels matter
here, of a NodeClaim the class it references. -/

namespace KarpenterProviderSsh.Catalogs

open Api Cluster Scripts Providers Controllers Control

abbrev Labels := List (String × String)

structure ClassClaim where
  ref : Option NodeClassReference
deriving DecidableEq

def ClassClaim.refersTo (cls : String) (c : ClassClaim) : Bool :=
  ownsNodeClassRef c.ref && (c.ref.map NodeClassReference.name == some cls)

structure Catalog (X : Externals) where
  classes : Watched String (NodeClass X)
  profiles : Watched String SSHJoinProfile
  hosts : Watched NamespacedName Labels
  claims : Watched String ClassClaim
  rev : ℕ

namespace Catalog

variable {X : Externals} (w : Catalog X)

def empty (X : Externals) : Catalog X := ⟨.empty _ _, .empty _ _, .empty _ _, .empty _ _, 0⟩

def listedHosts (ns : String) : List (NamespacedName × Labels) :=
  w.hosts.listed.filter (·.1.ns = ns)

def referencing (cls : String) : List String :=
  (w.claims.listed.filter (·.2.refersTo cls)).map Prod.fst

def putClass (name : String) (o : Option (NodeClass X)) : Catalog X :=
  { w with
    classes := w.classes.put name (o.map fun n => { n with resourceVersion := w.rev + 1 })
    rev := w.rev + 1 }

/-- An object under deletion goes with its last finalizer. -/
def kept (n : NodeClass X) : Option (NodeClass X) :=
  if n.deleting && n.finalizers.isEmpty then none else some n

/-- An update writes spec and metadata, not the status. -/
def updated (n cur : NodeClass X) : NodeClass X :=
  { cur with spec := n.spec, finalizers := n.finalizers, resourceVersion := w.rev + 1 }

/-- A merge patch of the conditions; one that changes nothing stores no new version. -/
def patched (orig : NodeClass X) (ready : Option Condition) (cur : NodeClass X) : Catalog X :=
  if mergeField orig.ready ready cur.ready = cur.ready then w
  else w.putClass orig.spec.name (some { cur with ready := mergeField orig.ready ready cur.ready })

def update (n : NodeClass X) (ch : ApiChoice) : Option (Except Err (NodeClass X) × Catalog X) :=
  match w.classes.stored n.spec.name with
  | none => lost w World.notFoundErr ch
  | some cur =>
    if n.resourceVersion = cur.resourceVersion then
      landing w (w.updated n cur) (w.putClass n.spec.name (kept (w.updated n cur))) ch
    else lost w World.conflictErr ch

def patch (orig : NodeClass X) (ready : Option Condition) (ch : ApiChoice) :
    Option (Except Err Unit × Catalog X) :=
  match w.classes.stored orig.spec.name with
  | none => lost w World.notFoundErr ch
  | some cur => landing w () (w.patched orig ready cur) ch

def answer : (e : ClassEff X) → ApiChoice → Option (ClassRes X e × Catalog X)
  | .getNodeClass name, ch => served w (cachedOr (w.classes.cached name)) ch
  | .updateNodeClass n, ch => w.update n ch
  | .patchReady orig ready, ch => w.patch orig ready ch
  | .listNodeClaims cls, ch => served w (.ok (w.referencing cls)) ch
  | .cluster (.getProfile name), ch => served w (cachedOr (w.profiles.cached name)) ch
  | .cluster (.listHosts ns), ch =>
    -- the labels are as cached; all else of a host changes all the time
    match ch with
    | .hosts l =>
      if l.map (fun h => (h.key, h.labels)) = w.listedHosts ns then some (.ok l, w) else none
    | .fail _ m => some (.error (World.otherErr false m), w)
    | _ => none
  | .cluster .now, ch =>
    match ch with
    | .time n => some (n, w)
    | _ => none
  | .cluster _, _ => none

variable {w} {w' : Catalog X}

lemma update_eq {n : NodeClass X} {ch : ApiChoice} {r : Except Err (NodeClass X)}
    (h : w.update n ch = some (r, w')) :
    (w' = w ∧ ∃ e, r = .error e) ∨ ∃ cur, w.classes.stored n.spec.name = some cur ∧
      n.resourceVersion = cur.resourceVersion ∧
      w' = w.putClass n.spec.name (kept (w.updated n cur)) ∧
      (r = .ok (w.updated n cur) ∨ ∃ e, r = .error e) := by
  unfold update at h
  split at h
  · exact .inl (lost_weak h)
  · rename_i cur hcur
    split at h
    · rename_i hrev
      rcases landing_weak h with h | ⟨hw, hr⟩
      · exact .inl h
      · exact .inr ⟨cur, hcur, hrev, hw, hr⟩
    · exact .inl (lost_weak h)

lemma patch_eq {orig : NodeClass X} {ready : Option Condition} {ch : ApiChoice}
    {r : Except Err Unit} (h : w.patch orig ready ch = some (r, w')) :
    (w' = w ∧ ∃ e, r = .error e) ∨ ∃ cur, w.classes.stored orig.spec.name = some cur ∧
      w' = w.patched orig ready cur ∧ (r = .ok () ∨ ∃ e, r = .error e) := by
  unfold patch at h
  split at h
  · exact .inl (lost_weak h)
  · rename_i cur hcur
    rcases landing_weak h with h | ⟨hw, hr⟩
    · exact .inl h
    · exact .inr ⟨cur, hcur, hw, hr⟩

lemma cluster_eq {e : Eff} {ch : ApiChoice} {r : Res e}
    (h : w.answer (.cluster e) ch = some (r, w')) : w' = w := by
  cases e with
  | getProfile name => exact (served_eq h).1
  | listHosts ns =>
    cases ch with
    | hosts l =>
      simp only [answer] at h
      split at h <;> cases h
      rfl
    | fail b m =>
      cases h
      rfl
    | _ => cases h
  | now =>
    cases ch with
    | time n =>
      cases h
      rfl
    | _ => cases h
  | _ => cases h

lemma listHosts_eq {ns : String} {ch : ApiChoice} {r : Except Err (List SSHHost)}
    (h : w.answer (.cluster (.listHosts ns)) ch = some (r, w')) :
    (∃ l, r = .ok l ∧ l.map SSHHost.labels = (w.listedHosts ns).map Prod.snd) ∨
    ∃ e, r = .error e := by
  cases ch with
  | hosts l =>
    simp only [answer] at h
    split at h <;> cases h
    rename_i hl
    exact .inl ⟨l, rfl, by simp [← hl]⟩
  | fail b m =>
    cases h
    exact .inr ⟨_, rfl⟩
  | _ => cases h

end Catalog

/-- What others store, and what the watches deliver; `listed` tells whether the classes could be
listed to fan the event out. -/
inductive CatalogEvent (X : Externals)
  | createClass (spec : SSHNodeClassSpec X)
  | editClass (spec : SSHNodeClassSpec X)
  | setFinalizers (name : String) (l : List String)
  | setStatus (name : String) (ready : Option Condition)
  | deleteClass (name : String)
  | putProfile (name : String) (o : Option SSHJoinProfile)
  | putHost (k : NamespacedName) (o : Option Labels)
  | putClaim (name : String) (o : Option ClassClaim)
  | seeClass (name : String) (n : ℕ)
  | seeProfile (name : String) (n : ℕ) (listed : Bool)
  | seeHost (k : NamespacedName) (n : ℕ) (listed : Bool)
  | seeClaim (name : String) (n : ℕ)

namespace Catalog

variable {X : Externals} (w : Catalog X)

def outside : CatalogEvent X → Option (Catalog X)
  | .createClass spec =>
    match w.classes.stored spec.name with
    | none => some (w.putClass spec.name (some ⟨spec, 1, 0, false, [], none⟩))
    | some _ => none
  | .editClass spec =>
    (w.classes.stored spec.name).map fun cur =>
      w.putClass spec.name (some { cur with spec := spec, generation := cur.generation + 1 })
  | .setFinalizers name l =>
    (w.classes.stored name).map fun cur => w.putClass name (kept { cur with finalizers := l })
  | .setStatus name ready =>
    (w.classes.stored name).map fun cur => w.putClass name (some { cur with ready := ready })
  | .deleteClass name =>
    (w.classes.stored name).map fun cur =>
      if cur.deleting then w
      else w.putClass name (kept { cur with deleting := true, generation := cur.generation + 1 })
  | .putProfile name o => some { w with profiles := w.profiles.put name o }
  | .putHost k o => some { w with hosts := w.hosts.put k o }
  | .putClaim name o => some { w with claims := w.claims.put name o }
  | .seeClass name n => (w.classes.see name n).map fun W => { w with classes := W }
  | .seeProfile name n _ => (w.profiles.see name n).map fun W => { w with profiles := W }
  | .seeHost k n _ => (w.hosts.see k n).map fun W => { w with hosts := W }
  | .seeClaim name n => (w.claims.see name n).map fun W => { w with claims := W }

def allNodeClasses (listed : Bool) (cls : String) : Bool := listed && (w.classes.cached cls).isSome

def nodeClassForClaim (c : Option ClassClaim) (cls : String) : Bool :=
  (c.map (ClassClaim.refersTo cls)).getD false

/-- The watches of `Register`: classes, profiles, hosts that come, go or change their labels, and
both the old and the new version of a NodeClaim. -/
def wakes (x : CatalogEvent X) (w' : Catalog X) (cls : String) : Bool :=
  match x with
  | .seeClass name _ => name == cls
  | .seeProfile _ _ listed => w'.allNodeClasses listed cls
  | .seeHost k _ listed => w.hosts.cached k != w'.hosts.cached k && w'.allNodeClasses listed cls
  | .seeClaim name _ =>
    nodeClassForClaim (w.claims.cached name) cls || nodeClassForClaim (w'.claims.cached name) cls
  | _ => false

end Catalog

abbrev classServer (X : Externals) : Interleaving.Server (ClassEff X) (ClassRes X) where
  World := Catalog X
  Choice := ApiChoice
  answer := Catalog.answer

abbrev nodeClassController (X : Externals) :
    Controller (ClassEff X) (ClassRes X) (Except Err Result) where
  toServer := classServer X
  Key := String
  Outer := CatalogEvent X
  program := reconcileNodeClass X
  retries := requeues
  outside := Catalog.outside
  wakes := Catalog.wakes
  known w cls := (w.classes.cached cls).isSome

end KarpenterProviderSsh.Catalogs
