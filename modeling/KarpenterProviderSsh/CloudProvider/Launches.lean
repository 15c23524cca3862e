import KarpenterProviderSsh.CloudProvider.Verdicts

/-! The NodeClaim a Create hands back against the one it was handed: core places pods on the node by
it before the node is there. -/

namespace KarpenterProviderSsh.CloudProvider

open Api Cluster Scripts Providers Controllers Catalogs Offers
open Runs
  (Asks quiet_prepare quiet_adoptProviderID asks_deleteTokenByID asks_releaseHost dials_runPhase)
open Interleaving.Prog (Runs Trace Abides runs_bind runs_call runs_ret)

variable {X : Externals} {T : Toolkit} {lc : LaunchClaim} {n : NodeClass X}
  {nodeClass : SSHNodeClass X}
  {nc : NodeClaim} {h : SSHHost} {k : NamespacedName} {its : List InstanceType}
  {cls : NamespacedName → String}

section Labels

variable {F : Floats} {it : Iteration (String × ClassInfo)} {n : SSHNodeClassSpec X}
  {hosts : List SSHHost} {types : List AdvertisedType} {t : AdvertisedType}

def typeLabels (name arch : String) : Requirements :=
  [(labelInstanceTypeStable, name), (labelArchStable, arch), (labelOSStable, "linux"),
      (labelTopologyZone, poolZone),
    (capacityTypeLabelKey, "on-demand")]

lemma requirements_of_mem (hi : instanceTypes F it n hosts = .ok types) (ht : t ∈ types) :
    ∃ arch, t.requirements = typeLabels t.name arch := by
  obtain ⟨price, _, rfl⟩ := instanceTypes_ok hi
  obtain ⟨_, ci, _, _, rfl⟩ := (mem_instanceTypes it).mp ht
  exact ⟨ci.arch, rfl⟩

lemma labels_view (inst : Instance) (arch : String) :
    (typeLabels inst.cls arch).foldl (fun m p => setEntry m p.1 p.2) (poolLabels inst) =
      [(labelInstanceTypeStable, inst.cls), (labelTopologyZone, poolZone),
        (capacityTypeLabelKey, "on-demand"), (labelArchStable, arch),
        (labelOSStable, "linux")] := by
  simp [typeLabels, poolLabels, setEntry, labelInstanceTypeStable, labelArchStable, labelOSStable,
    labelTopologyZone, capacityTypeLabelKey, List.lookup_cons]

lemma perm_labels_view (inst : Instance) (arch : String) :
    ((typeLabels inst.cls arch).foldl (fun m p => setEntry m p.1 p.2) (poolLabels inst)).Perm
      (typeLabels inst.cls arch) := by
  rw [labels_view]
  exact .cons _ (List.perm_append_comm : ([_, _] ++ [_, _]).Perm ([_, _] ++ [_, _]))

end Labels

section Steady

/-- The answers show every host with the class its name stands for, and a host that is asked for by
name under that name. -/
def Steady (cls : NamespacedName → String) (nc : NodeClaim) : (e : Eff) → Res e → Prop
  | .listHosts _, .ok hs => ∀ h ∈ hs, hostClass h = cls h.key ∧ claimHeldBy h nc = false
  | .getHost k, .ok h => h.key = k ∧ hostClass h = cls k
  | .updateStatus o _, .ok h => h.key = o.key ∧ hostClass h = cls o.key
  | .patchStatus o _, .ok h => h.key = o.key ∧ hostClass h = cls o.key
  | _, _ => True

def Keeps (cls : NamespacedName → String) (k : NamespacedName) (h : SSHHost) : Prop :=
  h.key = k ∧ hostClass h = cls k

lemma Keeps.applyTo (hk : Keeps cls k h) (wr : StatusWrite) : Keeps cls k (wr.applyTo h) := hk

abbrev Holds {α : Type} (cls : NamespacedName → String) (nc : NodeClaim) (Q : α → Prop)
    (p : Cluster.Prog α) : Prop :=
  Abides (Steady cls nc) (fun _ => True) Q p

lemma holds_of_asks {α : Type} {p : Cluster.Prog α} (hp : Asks (fun _ => True) p) :
    Holds cls nc (fun _ => True) p :=
  hp.given

lemma holds_setStatusOnce (hk : Keeps cls k h) (expect : Option ClaimReference) (s : Setter) :
    Holds cls nc (fun a => Keeps cls k a.1) (setStatusOnce expect s h) := by
  have hmut := hk.applyTo (.set s)
  obtain ⟨rfl, _⟩ := hk
  refine .step trivial fun a ha => ?_
  cases a with
  | ok h' => exact ha
  | error e =>
    dsimp only
    split_ifs
    · refine .step trivial fun b hb => ?_
      cases b with
      | error g => exact hmut
      | ok fresh =>
        dsimp only
        split_ifs
        · exact hb
        · exact hmut
    · exact hmut

lemma holds_setStatus (hk : Keeps cls k h) (s : Setter) :
    Holds cls nc (fun a => Keeps cls k a.1) (setStatus h s) := by
  suffices ∀ m (h : SSHHost) expect, Keeps cls k h →
      Holds cls nc (fun a => Keeps cls k a.1) (retryOnConflict (setStatusOnce expect s) m h)
        from this _ _ _ hk
  intro m
  induction m with
  | zero => exact fun h _ hk => hk
  | succ m ih =>
    intro h expect hk
    refine (holds_setStatusOnce hk expect s).bind fun a ha => ?_
    obtain ⟨h', e⟩ := a
    cases e with
    | none => exact ha
    | some e =>
      dsimp only
      split_ifs
      · exact ih h' expect ha
      · exact ha

lemma holds_runPhase {target : Target} {prof : SSHJoinProfile}
    {phase : ScriptPhase} {pctx : Context} {env : List (String × String)} :
    Holds cls nc (fun _ => True) (runPhase X target h prof phase pctx env) :=
  holds_of_asks ((dials_runPhase target h prof phase pctx env).asks (fun _ _ => trivial) trivial)

lemma holds_deleteToken (hk : Keeps cls k h) (tok : BootstrapToken) :
    Holds cls nc (Keeps cls k) (deleteToken h tok) := by
  refine (holds_of_asks (asks_deleteTokenByID (fun _ => trivial) _)).bind fun _ _ => ?_
  split_ifs
  · exact hk
  · exact (holds_setStatus hk _).bind fun r hr => hr

lemma holds_runInstall (hk : Keeps cls k h) (p : Preparation) :
    Holds cls nc (fun a => Keeps cls k a.1) (runInstall X p h) := by
  unfold runInstall
  split_ifs
  · exact hk
  · refine holds_runPhase.bind fun a _ => ?_
    cases a with
    | error e => exact hk
    | ok x => exact holds_setStatus hk _

lemma holds_runJoin (hk : Keeps cls k h) (p : Preparation) :
    Holds cls nc (fun a => Keeps cls k a.1) (runJoin X p h) := by
  refine .step trivial fun a _ => ?_
  cases a with
  | error e => exact hk
  | ok tok =>
    dsimp only
    split
    · exact (holds_deleteToken hk tok).bind fun _ hh => hh
    · refine (holds_setStatus hk _).bind fun r hr => ?_
      obtain ⟨h', e⟩ := r
      cases e with
      | some e => exact (holds_deleteToken hr tok).bind fun _ hh => hh
      | none =>
        refine holds_runPhase.bind fun a _ => ?_
        cases a with
        | error e => exact (holds_deleteToken hr tok).bind fun _ hh => hh
        | ok x => exact hr

lemma holds_join (hk : Keeps cls k h) :
    Holds cls nc (fun a => Keeps cls k a.1) (join X nodeClass nc h) := by
  refine (holds_of_asks ((quiet_prepare nodeClass nc h).asks fun _ _ => trivial)).bind fun a _ => ?_
  cases a with
  | error e => exact hk
  | ok p =>
    refine (holds_runInstall hk p).bind fun r hr => ?_
    obtain ⟨h', e⟩ := r
    cases e with
    | some e => exact hr
    | none => exact holds_runJoin hr p

lemma holds_launch (hk : Keeps cls k h) :
    Holds cls nc (fun a => ∀ inst, a = .ok inst → inst.cls = cls k) (launch X nodeClass nc h) := by
  refine (holds_join hk).bind fun r hr => ?_
  obtain ⟨h', e⟩ := r
  have hrelease (healthy : Bool) (reason : String) (e : CloudError) :
      Holds cls nc (fun a : Except CloudError Instance => ∀ inst, a = .ok inst → inst.cls = cls k)
        (releaseHost h' healthy reason >>= fun _ => pure (.error e)) :=
    (holds_of_asks (asks_releaseHost (fun _ => trivial) (fun _ _ _ => trivial) _ _)).bind
        fun _ _ => nofun
  cases e with
  | some e => exact hrelease _ _ _
  | none =>
    have hid : Holds cls nc (fun _ => True)
        (if nodeClass.adoptsProviderID then adoptProviderID h'
          else pure (.ok (providerID h'))) := by
      split_ifs
      · exact holds_of_asks ((quiet_adoptProviderID h').asks fun _ _ => trivial)
      · trivial
    refine hid.bind fun a _ => ?_
    cases a with
    | error e => exact hrelease _ _ _
    | ok id =>
      refine (holds_setStatus hr _).bind fun b hb => ?_
      obtain ⟨h'', e⟩ := b
      cases e with
      | some e => exact nofun
      | none =>
        refine (holds_setStatus hb _).bind fun c hc => ?_
        rintro inst ⟨⟩
        exact hc.2

lemma holds_list (selector : Option X.LabelSelector) :
    Holds cls nc (fun a => ∀ hs, a = .ok hs → ∀ h ∈ hs, hostClass h = cls h.key ∧
      claimHeldBy h nc = false)
      (Providers.list X selector) := by
  unfold Providers.list
  cases selector with
  | none =>
    refine ⟨trivial, fun r hr => ?_⟩
    rintro hs rfl
    exact hr
  | some s =>
    dsimp only
    split
    · exact nofun
    · refine .step trivial fun r hr => ?_
      cases r with
      | error e => exact nofun
      | ok pool =>
        rintro hs ⟨⟩
        exact fun h hh => hr h (List.mem_of_mem_filter hh)

lemma holds_available (selector : Option X.LabelSelector) {name : String} (hn : name ≠ "") :
    Holds cls nc (fun a => ∀ hs, a = .ok hs → ∀ h ∈ hs, hostClass h = cls h.key ∧
      hostClass h = name)
      (available X selector name) := by
  refine (holds_list selector).bind fun a ha => ?_
  cases a with
  | error e => exact nofun
  | ok hosts =>
    rintro hs ⟨⟩ h hh
    have hm := (List.perm_insertionSort oldestFirst _).mem_iff.mp hh
    simp only [List.mem_filter, Bool.and_eq_true, Bool.or_eq_true, beq_iff_eq, hn, false_or] at hm
    exact ⟨(ha hosts rfl h hm.1).1, hm.2.2⟩

lemma holds_claimFirst {name : String} (cs : List SSHHost)
    (hcs : ∀ c ∈ cs, hostClass c = cls c.key ∧ hostClass c = name) :
    Holds cls nc (fun a => ∀ h, a = .ok (some h) → ∃ k, Keeps cls k h ∧ cls k = name)
      (claimFirst nc cs) := by
  induction cs with
  | nil => rintro _ ⟨⟩
  | cons c cs ih =>
    obtain ⟨hc, hrest⟩ := List.forall_mem_cons.mp hcs
    have hclaim : Holds cls nc (fun a => a.2 = .ok true → Keeps cls c.key a.1) (claim c nc) := by
      refine .step trivial fun a ha => ?_
      cases a with
      | ok h' => exact fun _ => ha
      | error e =>
        dsimp only
        split_ifs <;> exact nofun
    refine hclaim.bind fun r hr => ?_
    match r with
    | (_, .error e) => rintro _ ⟨⟩
    | (h', .ok true) =>
      rintro h ⟨⟩
      exact ⟨c.key, hr rfl, hc.1.symm.trans hc.2⟩
    | (_, .ok false) => exact ih hrest

lemma holds_claimCheapest (hn : ∀ it ∈ its, it.name ≠ "") :
    Holds cls nc (fun a => ∀ h, a = .ok (some h) → ∃ k, Keeps cls k h ∧
      cls k ∈ its.map InstanceType.name)
      (claimCheapest X nodeClass nc its) := by
  induction its with
  | nil => rintro _ ⟨⟩
  | cons it its ih =>
    obtain ⟨hit, hrest⟩ := List.forall_mem_cons.mp hn
    refine (holds_available nodeClass.hostSelector hit).bind fun a ha => ?_
    cases a with
    | error e => rintro _ ⟨⟩
    | ok candidates =>
      refine (holds_claimFirst candidates (ha candidates rfl)).bind fun b hb => ?_
      match b with
      | .error e => rintro _ ⟨⟩
      | .ok (some h) =>
        rintro h' ⟨⟩
        obtain ⟨k, hk, hc⟩ := hb h rfl
        exact ⟨k, hk, hc ▸ List.mem_map_of_mem (.head _)⟩
      | .ok none =>
        refine (ih hrest).conseq fun c hc h hh => ?_
        obtain ⟨k, hk, hm⟩ := hc h hh
        exact ⟨k, hk, .tail _ hm⟩

lemma holds_create (hn : ∀ it ∈ its, it.name ≠ "") :
    Holds cls nc (fun a => ∀ inst, a = .ok inst → inst.cls ∈ its.map InstanceType.name)
      (Providers.create X nodeClass nc its) := by
  have hbyClaim : Holds cls nc (fun a => ∀ found, a = .ok found → found = none) (byClaim X nc) := by
    refine (holds_list none).bind fun a ha => ?_
    cases a with
    | error e => rintro _ ⟨⟩
    | ok hosts =>
      rintro found ⟨⟩
      exact List.find?_eq_none.mpr fun h hh => by simp [(ha hosts rfl h hh).2]
  have hsorted : ∀ it ∈ sortByPrice its, it.name ≠ "" := fun it hit =>
    hn it ((preferred_sortByPrice its).perm.mem_iff.mp hit)
  refine hbyClaim.bind fun a ha => ?_
  match a with
  | .error e => rintro _ ⟨⟩
  | .ok (some h) => cases ha _ rfl
  | .ok none =>
    refine (holds_claimCheapest hsorted).bind fun b hb => ?_
    match b with
    | .error e => rintro _ ⟨⟩
    | .ok none => rintro _ ⟨⟩
    | .ok (some h) =>
      obtain ⟨k, hk, hm⟩ := hb h rfl
      refine (holds_launch hk).conseq fun c hc inst hi => ?_
      rw [hc inst hi]
      exact ((preferred_sortByPrice its).perm.map _).mem_iff.mp hm

end Steady

section Creates

def Undisturbed (cls : NamespacedName → String) (nc : NodeClaim) :
    (e : ClassEff X) × ClassRes X e → Prop
  | ⟨.cluster e, r⟩ => Steady cls nc e r
  | _ => True

variable {l : Trace (ClassEff X) (ClassRes X)} {view : ClaimView}

lemma runs_nodeClassByRef_ok {ref : Option NodeClassReference}
    (hr : Runs (nodeClassByRef X ref) l (.ok n)) :
    ∃ r, ref = some r ∧ l = [⟨.getNodeClass r.name, .ok n⟩] := by
  cases ref with
  | none => cases (runs_ret.mp hr).2
  | some r =>
    obtain ⟨a, l', rfl, hret⟩ := runs_call.mp hr
    obtain ⟨rfl, rfl⟩ := runs_ret.mp hret
    exact ⟨r, rfl, rfl⟩

lemma runs_create_ok (hr : Runs (create T lc) l (.ok view)) :
    ∃ (r : NodeClassReference) (n : NodeClass X) (all : List AdvertisedType) (inst : Instance) (l₀
      l₁ : Trace Eff Res), lc.nodeClassRef = some r ∧ ⟨.getNodeClass r.name, .ok n⟩ ∈ l ∧
      Runs (listInstanceTypes T.floats T.iteration n.spec) l₁ (.ok all) ∧
      Runs (Providers.create X n.spec.launching lc.claim
        ((all.filter (suits T lc)).map AdvertisedType.priced)) l₀ (.ok inst) ∧
      (∀ x ∈ onHosts l₀, x ∈ l) ∧
      view = { instanceToNodeClaim T inst (all.filter (suits T lc)) with
        annotations := stamps T n } := by
  obtain ⟨l₁, a, l₂, rfl, hn, hk⟩ := runs_bind.mp hr
  cases a with
  | error e =>
    dsimp only at hk
    split_ifs at hk <;> cases (runs_ret.mp hk).2
  | ok n =>
    obtain ⟨r, href, rfl⟩ := runs_nodeClassByRef_ok hn
    dsimp only at hk
    split at hk
    · cases (runs_ret.mp hk).2
    · cases (runs_ret.mp hk).2
    · obtain ⟨l₃, b, l₄, rfl, ht, hk⟩ := runs_bind.mp hk
      obtain ⟨l₅, c, l₆, rfl, hlist, hret⟩ := runs_bind.mp ht
      obtain ⟨lt, rfl, hlist'⟩ := runs_onCluster.mp hlist
      cases c with
      | error e =>
        obtain ⟨rfl, rfl⟩ := runs_ret.mp hret
        cases (runs_ret.mp hk).2
      | ok all =>
        obtain ⟨rfl, rfl⟩ := runs_ret.mp hret
        dsimp only at hk
        split_ifs at hk
        · cases (runs_ret.mp hk).2
        · obtain ⟨l₇, d, l₈, rfl, hc, hret⟩ := runs_bind.mp hk
          obtain ⟨l₀, rfl, hcr⟩ := runs_onCluster.mp hc
          cases d with
          | error e => cases (runs_ret.mp hret).2
          | ok inst =>
            obtain ⟨rfl, he⟩ := runs_ret.mp hret
            cases he
            exact ⟨r, n, all, inst, l₀, lt, href, by simp, hlist', hcr,
              fun x hx => by simp [hx], rfl⟩

/-- A first launch, while nobody relabels hosts: the NodeClaim that is handed back is that of a type
the claim was matched with. It has room for what was requested, and every label it promises is one
that was asked for or that nothing was said about. -/
theorem launched_claim_fits (hT : T.Agrees) (hr : Runs (create T lc) l (.ok view))
    (hl : ∀ x ∈ l, Undisturbed cls lc.claim x) :
    T.fits lc.requests view.allocatable = true ∧
      (∀ p ∈ view.labels, T.has lc.requirements p.1 = true →
        T.getHas lc.requirements p.1 p.2 = true) ∧
      ∃ t, suits T lc t = true ∧ view.capacity = t.capacity ∧ view.allocatable = T.allocatable t ∧
        view.labels.Perm t.requirements ∧
        view.labels.lookup labelInstanceTypeStable = some t.name := by
  obtain ⟨_, n, all, inst, l₀, l₁, _, _, hlist, hcr, hsub, rfl⟩ := runs_create_ok hr
  obtain ⟨hosts, _, hi⟩ := runs_listInstanceTypes hlist
  have hname : ∀ t ∈ all, t.name ≠ "" := by
    intro t ht
    obtain ⟨h, hh⟩ := (folded hi).member ht
    exact (mem_members.mp hh).2.2 ▸ hostClass_ne h
  have hits : ∀ it ∈ (all.filter (suits T lc)).map AdvertisedType.priced, it.name ≠ "" := by
    intro it hit
    obtain ⟨t, ht, rfl⟩ := List.mem_map.mp hit
    exact hname t (List.mem_of_mem_filter ht)
  have hsteady : ∀ x ∈ l₀, Steady cls lc.claim x.1 x.2 := fun x hx =>
    hl ⟨.cluster x.1, x.2⟩ (hsub _ (List.mem_map_of_mem hx))
  have hcls := ((holds_create hits).runs hcr hsteady).2 inst rfl
  rw [List.map_map] at hcls
  obtain ⟨t', ht', hn'⟩ := List.mem_map.mp hcls
  -- the view is filled from the first type of the instance's class
  obtain ⟨t, hfind⟩ : ∃ t, (all.filter (suits T lc)).find? (·.name == inst.cls) = some t := by
    rw [← Option.isSome_iff_exists, List.find?_isSome]
    exact ⟨t', ht', beq_iff_eq.mpr hn'⟩
  have htn : t.name = inst.cls := by simpa using List.find?_some hfind
  obtain ⟨htm, hsuits⟩ := List.mem_filter.mp (List.mem_of_find?_eq_some hfind)
  obtain ⟨arch, harch⟩ := requirements_of_mem hi htm
  rw [htn] at harch
  have hview : instanceToNodeClaim T inst (all.filter (suits T lc)) =
      { name := inst.nodeName
        labels := (typeLabels inst.cls arch).foldl (fun m p => setEntry m p.1 p.2) (poolLabels inst)
        annotations := []
        creationTimestamp := inst.creationTime
        providerID := inst.providerID
        capacity := t.capacity
        allocatable := T.allocatable t } := by
    simp only [instanceToNodeClaim, hfind, harch]
  rw [hview]
  have hperm := perm_labels_view inst arch
  have hs := hsuits
  simp only [suits, Bool.and_eq_true] at hs
  refine ⟨hs.2, fun p hp hc => ?_, t, hsuits, rfl, rfl, harch ▸ hperm, ?_⟩
  · exact hT _ _ hs.1.2 p (harch ▸ hperm.mem_iff.mp hp) hc
  · rw [labels_view, htn]
    rfl

end Creates

section Sample

open Runs.Sample
open Interleaving.Prog (answered runs_answered eq_of_mem_answered)

def smooth : (e : Eff) → Res e
  | .listHosts _ => .ok pair
  | .updateStatus h wr | .patchStatus h wr =>
    if hostClass h = "default" then .ok (wr.applyTo h) else .error { message := "" }
  | .getProfile _ => .ok profile
  | .getSecret _ => .ok [("privateKey", "pk")]
  | .readClusterInfo => .ok ⟨"e", "c"⟩
  | .createToken => .ok ⟨"id1", "secret"⟩
  | .deleteToken _ | .sshStart _ _ _ _ => .ok ()
  | .sshWait _ _ => .ok ⟨"", "", "fp"⟩
  | .now => 0
  | .pollTick => false
  | .getHost _ | .getNodeClaim _ | .listNodes _ | .deleteNode _ => .error { message := "" }

def launched : Except Failure ClaimView → Option ClaimView
  | .error _ => none
  | .ok view => some view

lemma undisturbed_smooth (e : ClassEff externals) :
    Undisturbed (fun _ => "default") claimA ⟨e, classReady smooth e⟩ := by
  cases e with
  | cluster e =>
    cases e with
    | listHosts labels =>
      have hpair : ∀ h ∈ pair, hostClass h = "default" ∧ claimHeldBy h claimA = false := by decide
      exact hpair
    | updateStatus h wr | patchStatus h wr =>
      simp only [Undisturbed, classReady, classIs, smooth]
      split_ifs with hc
      · exact ⟨rfl, hc⟩
      · trivial
    | _ => trivial
  | getNodeClass | updateNodeClass | patchReady | listNodeClaims => trivial

lemma agrees_toolkit : toolkit.Agrees := by
  intro reqs labels hcomp p hp _
  exact List.all_eq_true.mp hcomp p hp

theorem launched_claim_fits_smooth :
    ∃ (l : Trace (ClassEff externals) (ClassRes externals)) (view : ClaimView),
      Runs (create toolkit launchA) l (.ok view) ∧
      (∀ x ∈ l, Undisturbed (fun _ => "default") claimA x) ∧
      toolkit.fits launchA.requests view.allocatable = true ∧
      view.labels.lookup labelArchStable = some "amd64" := by
  have hr := runs_answered (classReady smooth) (create toolkit launchA)
  have hb : (launched (answered (classReady smooth) (create toolkit launchA)).2).any
      (fun view => view.labels.lookup labelArchStable = some "amd64") = true := by decide +kernel
  cases hv : (answered (classReady smooth) (create toolkit launchA)).2 with
  | error v => simp [hv, launched] at hb
  | ok view =>
    rw [hv] at hr hb
    have hl : ∀ x ∈ (answered (classReady smooth) (create toolkit launchA)).1, Undisturbed
        (fun _ => "default") claimA x := by
      rintro ⟨e, r⟩ hx
      obtain rfl : r = classReady smooth e := eq_of_mem_answered hx
      exact undisturbed_smooth e
    exact ⟨_, view, hr, hl, (launched_claim_fits agrees_toolkit hr hl).1, of_decide_eq_true hb⟩

end Sample

end KarpenterProviderSsh.CloudProvider
