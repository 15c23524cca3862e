import KarpenterProviderSsh.Interleaving.Traces
import KarpenterProviderSsh.Runs.ProviderIDs
import KarpenterProviderSsh.Runs.Registrations

/-! Launched instances stay visible: what a host shows, and what Get, List and the resolution of a
providerID make of it, from the record of a providerID until the claim is given back. -/

namespace KarpenterProviderSsh.Runs

open Api Cluster Scripts Providers Controllers Interleaving Config

variable {X : Externals}

section Resolving

/-! Reads of one snapshot of the pool. -/

structure Shows (X : Externals) (ans : (e : Eff) → Res e) (os : List SSHHost) : Prop where
  list : ans (.listHosts X.ns) = .ok os
  get : ∀ o ∈ os, ans (.getHost o.key) = .ok o
  ns : ∀ o ∈ os, o.key.ns = X.ns
  once : (os.map SSHHost.key).Nodup

variable {ans : (e : Eff) → Res e} {os : List SSHHost} {u : SSHHost} {id : String}
  {ref : ClaimReference}

lemma Shows.eq_of_key (h : Shows X ans os) {o : SSHHost} (ho : o ∈ os) (hu : u ∈ os)
    (hk : o.key = u.key) : o = u :=
  List.inj_on_of_nodup_map h.once ho hu hk

lemma cutText_append (head rest : String) : cutText (head ++ rest) head = some rest := by
  simp [cutText, ← String.length_toList]

lemma cutSlash_append {ns : String} (name : String) (hns : '/' ∉ ns.toList) :
    cutSlash (ns ++ "/" ++ name) = some (ns, name) := by
  have hne : ∀ c ∈ ns.toList, decide (c ≠ '/') = true := fun c hc => decide_eq_true
    fun he => hns (he ▸ hc)
  have hcs : (ns ++ "/" ++ name).toList = ns.toList ++ '/' :: name.toList := by simp
  simp only [cutSlash, hcs, List.takeWhile_append_of_pos hne, List.dropWhile_append_of_pos hne]
  simp

lemma resolves_own (h : Shows X ans os) (hu : u ∈ os) (hns : '/' ∉ u.key.ns.toList) :
    ((byProviderID X (providerID u)).answered ans).2 = .ok u := by
  have hid : providerID u = providerPrefixText ++ (u.key.ns ++ "/" ++ u.key.name) := by
    simp [providerID, String.append_assoc]
  have hne : providerID u ≠ "" := by
    intro he
    have hlen := congrArg String.length he
    simp [providerID, providerPrefixText] at hlen
  rw [byProviderID, if_neg hne, hid, cutText_append]
  simp only [cutSlash_append _ hns]
  exact h.get u hu

lemma resolves_adopted (h : Shows X ans os) (hu : u ∈ os)
    (hid : u.status.providerID = id) (hne : id ≠ "") (hext : cutText id providerPrefixText = none)
    (honly : ∀ o ∈ os, o.status.providerID = id → o.key = u.key) :
    ((byProviderID X id).answered ans).2 = .ok u := by
  have hfind : os.find? (fun o => o.status.providerID == id) = some u := by
    cases hf : os.find? (fun o => o.status.providerID == id) with
    | none => exact absurd hid (by simpa using List.find?_eq_none.mp hf u hu)
    | some o =>
      have ho := List.mem_of_find?_eq_some hf
      have hoid : o.status.providerID = id := by simpa using List.find?_some hf
      rw [h.eq_of_key ho hu (honly o ho hoid)]
  rw [byProviderID, if_neg hne, hext]
  simp only [Prog.answered_bind, list, request, Prog.answered, Prog.request, h.list, hfind]
  rfl

lemma get_of_resolves (hr : ((byProviderID X id).answered ans).2 = .ok u)
    (hc : u.status.claimRef = some ref) :
    ((Instance.get X id).answered ans).2 = .ok (toInstance u ref.name) := by
  rw [Instance.get, Prog.answered_bind]
  simp only [hr, hc]
  rfl

lemma lists_once (h : Shows X ans os) (hu : u ∈ os) (hc : u.status.claimRef = some ref) :
    ∃ is, ((Instance.list X).answered ans).2 = .ok is ∧
      is.filter (fun i => i.hostName = u.key.name) = [toInstance u ref.name] := by
  refine ⟨(os.filter (fun h => h.status.claimRef.isSome)).filterMap
    (fun h => h.status.claimRef.map (fun ref => toInstance h ref.name)), ?_, ?_⟩
  · simp only [Instance.list, claimed, list, request, Prog.request, Prog.answered_bind,
      Prog.answered, h.list]
    rfl
  · obtain ⟨s, t, rfl⟩ := List.append_of_mem hu
    have hkeys := h.once
    simp only [List.map_append, List.map_cons, List.nodup_append, List.nodup_cons, List.mem_map,
      List.mem_cons] at hkeys
    have hothers (r : List SSHHost) (hr : ∀ o ∈ r, o ∈ s ++ u :: t ∧ o.key ≠ u.key) :
        ((r.filter (fun h => h.status.claimRef.isSome)).filterMap
          (fun h => h.status.claimRef.map (fun ref => toInstance h ref.name))).filter
            (fun i => i.hostName = u.key.name) = [] := by
      simp only [List.filter_eq_nil_iff, List.mem_filterMap, List.mem_filter,
        Option.map_eq_some_iff]
      rintro _ ⟨o, ⟨ho, _⟩, ref, _, rfl⟩ hname
      obtain ⟨hm, hk⟩ := hr o ho
      exact hk (congrArg₂ NamespacedName.mk ((h.ns o hm).trans (h.ns u hu).symm)
        (of_decide_eq_true hname))
    rw [List.filter_append, List.filterMap_append, List.filter_append, hothers s, List.nil_append,
      List.filter_cons_of_pos (by simp [hc]), List.filterMap_cons_some (by rw [hc]; rfl),
      List.filter_cons_of_pos (by simp [toInstance]), hothers t]
    · exact fun o ho => ⟨by simp [ho], fun hk => hkeys.2.1.1 ⟨o, ho, hk⟩⟩
    · exact fun o ho => ⟨by simp [ho], fun hk => hkeys.2.2 _ ⟨o, ho, rfl⟩ _ (.inl rfl) hk⟩

end Resolving

section Versions

variable {w w' : World} {ph ph' : Phases} {obs : Observed X} {after : Log (machine X)} {t : ℕ}
  {o u v c : SSHHost} {id : String}

/-- A version of the host that is stored under the claim of `v` still: nobody has cleared the claim
since. -/
structure HeldSince (w : World) (v u : SSHHost) : Prop where
  stored : u ∈ w.versions v.key
  since : v.resourceVersion ≤ u.resourceVersion
  unbroken : ∀ x ∈ w.versions v.key, v.resourceVersion ≤ x.resourceVersion →
    x.resourceVersion ≤ u.resourceVersion → x.status.claimRef ≠ none

/-- Another providerID is recorded for the host, under the same claim. -/
def Renames (v : SSHHost) (obs : Observed X) : Prop :=
  ∃ t o id a, obs = .call t (.patchStatus o (.set (.providerID id))) a ∧
    carriedOut a = true ∧ o.key = v.key ∧ o.status.claimRef = v.status.claimRef ∧
    id ≠ v.status.providerID

def Lasts (w : World) (after : Log (machine X)) (v : SSHHost) : Prop :=
  v ∈ w.versions v.key ∧ ((∀ y ∈ after, ¬ Renames v y.obs) →
    ∀ u, HeldSince w v u → u.status.claimRef = v.status.claimRef ∧
    u.status.providerID = v.status.providerID)

lemma HeldSince.claimed (h : HeldSince w v u) : u.status.claimRef ≠ none :=
  h.unbroken u h.stored h.since le_rfl

lemma HeldSince.earlier (hl : w.Later w') (h : HeldSince w' v u) (hu : u ∈ w.versions v.key) :
    HeldSince w v u :=
  ⟨hu, h.since, fun x hx => h.unbroken x (hl.versions _ x hx)⟩

lemma HeldSince.previous (hv : w.Valid) (hp : w.Pushed w' v.key u) (hc : w.current v.key = some c)
    (hm : v ∈ w.versions v.key) (h : HeldSince w' v u) : HeldSince w v c := by
  have hcm := World.current_mem hc
  have hnewer : c.resourceVersion ≤ u.resourceVersion := (hv.rev_of_mem hcm).trans hp.newer.le
  refine ⟨hcm, World.rev_le_current hm hc, fun x hx hvx hxc => ?_⟩
  exact h.unbroken x (hp.later.versions _ x hx) hvx (hxc.trans hnewer)

lemma lasts_step (hv : w.Valid) (hf : ∀ t φ, ph t = some φ → φ.Facts w) (hm : Moves w ph obs w' ph')
    (h : Lasts w after v) : Lasts w' (⟨w, obs⟩ :: after) v := by
  obtain ⟨hmem, hall⟩ := h
  have hl := Protocol.Moves.later hm hv
  refine ⟨hl.versions _ v hmem, fun hno u hu => ?_⟩
  obtain ⟨hnew, hold⟩ := List.forall_mem_cons.mp hno
  have hlast := hall hold
  by_cases hum : u ∈ w.versions v.key
  · exact hlast u (hu.earlier hl hum)
  cases (Moves.change hv hf hm).at v.key with
  | same _ hvs => exact absurd (hvs ▸ hu.stored) hum
  | edited c o' hc hp hst =>
    obtain rfl := ((hp.versions u).mp hu.stored).resolve_right hum
    rw [hst]
    exact hlast c (hu.previous hv hp hc hmem)
  | written t φ o s wr a o' hφ hfφ hw hobs ha hk hland =>
    rcases hland.after with ⟨_, hp⟩ | ⟨_, _, hs⟩
    · obtain rfl := ((hp.versions u).mp hu.stored).resolve_right hum
      have hheld := hu.previous hv hp hland.before hmem
      obtain ⟨hcs, hps⟩ := hlast s hheld
      have hcl := hu.claimed
      rw [hland.status] at hcl ⊢
      refine ⟨?_, ?_⟩
      · rcases hw.claimRef_cases hfφ.sound with he | ⟨he, _⟩ | ⟨_, _, _, _, _, hfree, _⟩
        · exact he.trans hcs
        · exact absurd he hcl
        · exact absurd (claimable_iff.mp hfree).2.1 hheld.claimed
      · rcases hw.providerID_cases hfφ.sound with he | ⟨_, he⟩ | ⟨_, _, id, _, rfl, he⟩
        · exact he.trans hps
        · exact absurd he hcl
        · by_contra hne
          exact hnew ⟨t, o, id, a, hobs.patched hm (by simp), carriedOut_of ha, hk,
            (hw.drifts hfφ.sound).claimRef.trans hcs, fun hid => hne (he.trans hid)⟩
    · exact absurd (hs.versions v.key ▸ hu.stored) hum

lemma lasts_recorded (hv : w.Valid) (hf : ∀ t φ, ph t = some φ → φ.Facts w)
    (hm : Moves (X := X) w ph (.call t (.patchStatus o (.set (.providerID id))) (.ok v)) w' ph') :
    Lasts (X := X) w' [] v ∧ ∃ φ nc, ph t = some φ ∧ φ.owner = .create nc ∧
    claimHeldBy v nc = true := by
  obtain ⟨φ, s, hφ, hfφ, hw, ha⟩ := Moves.answered hv hf hm (.inr rfl)
  have hland := ha.of_ok
  obtain ⟨hk, hmem⟩ := landed_mem hland
  refine ⟨⟨hmem, fun _ u hu => ?_⟩, ?_⟩
  · have hcur : w'.current v.key = some v := hk ▸ hland.current
    have hle := World.rev_le_current hu.stored hcur
    obtain rfl := World.eq_current hu.stored hcur (le_antisymm hle hu.since)
    exact ⟨rfl, rfl⟩
  · cases hw with
    | @set nc =>
      refine ⟨_, nc, hφ, rfl, ?_⟩
      have hc : v.status.claimRef = o.status.claimRef := by
        rw [hland.status, outcome_self]
        rfl
      have hheld := hfφ.sound.1.1
      rwa [claimHeldBy, ← hc] at hheld

end Versions

section Runs

variable {A : Log (machine X) → World → Observed X → Prop} {hosts : List SSHHost} {w w' : World}
  {ph ph' : Phases} {obs : Observed X} {l l' : Log (machine X)} {c : Run X} {t : ℕ}

def Employed (l : Log (machine X)) (ph : Phases) : Prop :=
  ∀ t φ, ph t = some φ → ∃ j : Job X, Log.job t l = some j ∧ j.owner = φ.owner

lemma employed_step (hv : w.Valid) (hf : ∀ t φ, ph t = some φ → φ.Facts w)
    (hm : Moves w ph obs w' ph') (h : Employed l ph) : Employed (⟨w, obs⟩ :: l) ph' := by
  refine Protocol.Moves.each hm h ?_ ?_ ?_
  · rintro t j _ rfl _
    exact ⟨j, if_pos rfl, (opening_owner j).symm⟩
  · rintro t φ e r ψ ch hφ ha hh rfl ⟨j, hj, ho⟩
    exact ⟨j, hj, ho.trans (owner_act hv (hf t φ hφ) ha hh).symm⟩
  · rintro t φ _ hact ⟨j, hj, ho⟩
    exact ⟨j, (Log.job_other hact).trans hj, ho⟩

def AllLast (l : Log (machine X)) (w : World) : Prop :=
  ∀ after before w₀ t o id v, l = after ++
    ⟨w₀, .call t (.patchStatus o (.set (.providerID id))) (.ok v)⟩ :: before → Lasts w after v ∧
    ∃ (j : Job X) (nc : NodeClaim), Log.job t before = some j ∧ j.owner = .create nc ∧
      claimHeldBy v nc = true

lemma allLast_step (hv : w.Valid) (hf : ∀ t φ, ph t = some φ → φ.Facts w)
    (hm : Moves w ph obs w' ph') (he : Employed l ph) (h : AllLast l w) :
    AllLast (⟨w, obs⟩ :: l) w' := by
  intro after before w₀ t o id v hl
  cases after with
  | nil =>
    cases hl
    obtain ⟨hlast, φ, nc, hφ, ho, hheld⟩ := lasts_recorded hv hf hm
    obtain ⟨j, hj, hjo⟩ := he t φ hφ
    exact ⟨hlast, j, nc, hj, hjo.trans ho, hheld⟩
  | cons y after =>
    cases hl
    obtain ⟨hlast, hjob⟩ := h after before w₀ t o id v rfl
    exact ⟨lasts_step hv hf hm hlast, hjob⟩

lemma allLast_run (hr : Logged A (idle X hosts) l c) : c.world.Valid ∧ AllLast l c.world := by
  obtain ⟨ph, ht, _, h⟩ := Protocol.run_admitted (S := namings X) (conforms X)
    (I := fun l w ph => Employed l ph ∧ AllLast l w)
    (fun _ _ _ o _ _ _ => by cases o <;> simp [Monitor.Admits, namings])
    (fun l w ph o w' ph' hv hf hI _ _ hm => ⟨employed_step hv hf hm hI.1,
      allLast_step hv hf hm hI.1 hI.2⟩)
    (valid_start hosts) ⟨fun _ _ hφ => (nomatch hφ), fun after _ _ _ _ _ _ hl => by simp at hl⟩ hr
  exact ⟨ht.valid, h⟩

lemma keepsID_answer {e : Eff} {r : Res e} (hv : w.Valid) (hf : ∀ t φ, ph t = some φ → φ.Facts w)
    (hm : Moves (X := X) w ph (.call t e r) w' ph') : keepsID e r = true := by
  cases e with
  | patchStatus o wr =>
    cases wr with
    | set x =>
      cases x with
      | providerID | markInUse =>
        cases r with
        | ok o' =>
          obtain ⟨φ, s, _, _, hw, ha⟩ := Moves.answered hv hf hm (.inr rfl)
          have hst := ha.of_ok.status
          cases hw
          rw [outcome_self] at hst
          exact decide_eq_true (by rw [hst]; rfl)
        | error e => rfl
      | _ => rfl
    | _ => rfl
  | _ => rfl

lemma named_answers (hr : Logged A (idle X hosts) l c) :
    Log.Meets (fun e r => faithful e r = true ∧ keepsID e r = true) l :=
  (Protocol.meets_run (conforms X)
      (fun _ _ _ _ _ _ _ hv hf hm => ⟨faithful_answer hv hf hm, keepsID_answer hv hf hm⟩)
    (valid_start hosts) hr).1

/-- The ids Get, Delete and Reboot are promised to resolve. -/
def Resolvable (nodeClass : SSHNodeClass X) (id : String) (u : SSHHost) (os : List SSHHost) :
    Prop :=
  '/' ∉ u.key.ns.toList ∧ (nodeClass.adoptsProviderID = true →
    cutText id providerPrefixText = none ∧ ∀ o ∈ os, o.status.providerID = id → o.key = u.key)

structure Visible (nodeClass : SSHNodeClass X) (nc : NodeClaim) (id : String) (u : SSHHost)
    (ans : (e : Eff) → Res e) (os : List SSHHost) : Prop where
  listed : ∃ is, ((Instance.list X).answered ans).2 = .ok is ∧
    is.filter (fun i => i.hostName = u.key.name) = [toInstance u nc.name]
  named : (toInstance u nc.name).nodeName = nc.name ∧ (toInstance u nc.name).providerID = id
  got : Resolvable nodeClass id u os →
    ((Instance.get X id).answered ans).2 = .ok (toInstance u nc.name)
  resolved : Resolvable nodeClass id u os → ((byProviderID X id).answered ans).2 = .ok u

def StaysVisible (nodeClass : SSHNodeClass X) (nc : NodeClaim) (inst : Instance) (t : ℕ)
    (l' l : Log (machine X)) (w : World) : Prop :=
  ∃ v after before, RecordedIn t inst.providerID v l after before ∧ inst.hostName = v.key.name ∧
    inst.nodeName = nc.name ∧ ((∀ y ∈ l' ++ after, ¬ Renames v y.obs) → ∀ u, HeldSince w v u →
      u.key = v.key ∧ claimHeldBy u nc = true ∧ u.status.claimRef = v.status.claimRef ∧
      u.status.providerID = inst.providerID ∧
      ∀ ans os, Shows X ans os → u ∈ os → Visible nodeClass nc inst.providerID u ans os)

variable {nodeClass : SSHNodeClass X} {nc : NodeClaim} {its : List InstanceType}
  {inst : Instance} {u : SSHHost} {id : String} {ans : (e : Eff) → Res e} {os : List SSHHost}

lemma claimName_of_heldBy (h : claimHeldBy u nc = true) : ∃ ref, u.status.claimRef = some ref ∧
    ref.name = nc.name := by
  unfold claimHeldBy at h
  split at h
  · cases h
  · rename_i ref hc
    simp only [ClaimReference.heldBy, Bool.and_eq_true, beq_iff_eq] at h
    exact ⟨ref, hc, h.1⟩

lemma visible_of_held (hheld : claimHeldBy u nc = true)
    (hid : u.status.providerID = id) (hne : id ≠ "")
    (hown : nodeClass.adoptsProviderID = false → id = providerID u)
    (hs : Shows X ans os) (hu : u ∈ os) :
    Visible nodeClass nc id u ans os := by
  obtain ⟨ref, hc, hname⟩ := claimName_of_heldBy hheld
  have hres (hr : Resolvable nodeClass id u os) : ((byProviderID X id).answered ans).2 = .ok u := by
    obtain ⟨hns, hext⟩ := hr
    cases ha : nodeClass.adoptsProviderID with
    | false =>
      rw [hown ha]
      exact resolves_own hs hu hns
    | true => exact resolves_adopted hs hu hid hne (hext ha).1 (hext ha).2
  refine ⟨?_, ⟨rfl, by simp [toInstance, hid, hne]⟩, fun hr => ?_, hres⟩
  · exact hname ▸ lists_once hs hu hc
  · exact hname ▸ get_of_resolves (hres hr) hc

/-- In every run that shows a Create, after its record, no version of its host without the recorded
providerID, the Instance it returns stays visible under that providerID. -/
theorem launched_instance_visible
    (hr : Logged (fun l _ obs => showsRecorded l obs = true) (idle X hosts) (l' ++ l) c)
    (hj : Log.job t l = some (.create nodeClass nc its))
    (hret : (create X nodeClass nc its).returns (Log.own t l) = some (.ok inst)) :
    StaysVisible nodeClass nc inst t l' l c.world := by
  obtain ⟨d, hrl⟩ := hr.earlier
  obtain ⟨v, after, before, hin, hid, hown, hv, hname, hnode⟩ :=
    recorded_of_returns (fun _ _ _ h => h) hrl (named_answers hrl) hj hret
  refine ⟨v, after, before, hin, hname, hnode, fun hno u hu => ?_⟩
  obtain ⟨hvalid, hall⟩ := allLast_run hr
  obtain ⟨w₀, o, hl⟩ := hin.entry
  obtain ⟨⟨_, hlast⟩, j, nc', hjob, ho, hheld⟩ :=
    hall (l' ++ after) before w₀ t o _ v (by rw [hl, List.append_assoc])
  rw [hin.job, hj] at hjob
  cases hjob
  cases ho
  obtain ⟨hcu, hpu⟩ := hlast hno u hu
  have hk : u.key = v.key := hvalid.key _ u hu.stored
  have hheldu : claimHeldBy u nc = true := by
    rwa [claimHeldBy, hcu]
  have hidu := hpu.trans hv
  refine ⟨hk, hheldu, hcu, hidu, fun ans os hs hm => visible_of_held hheldu hidu hid
    (fun ha => ?_) hs hm⟩
  exact (hown ha).trans (providerID_eq hk).symm

end Runs

section Sample

open Sample

def Sample.adoptingClass : SSHNodeClass externals := { nodeClass with adoptsProviderID := true }
def Sample.adoptedNode : Node := ⟨"n1", ["10.0.0.1"], "eks-hybrid:///x"⟩

def Sample.adopting : Script :=
  admitting 0 k1 1000 ++
    [.spawn 1 (.create adoptingClass claimA [⟨"default", []⟩]), .call 1 (.listing [(k1, 0)]),
      .call 1 (.listing [(k1, 0)]), .call 1 .ok] ++
    preparing 1 ++ installing 1 ++ joining 1 "id1" ++
    [.call 1 done, .call 1 (.nodes [adoptedNode]), .call 1 .ok]

def Sample.settled : Script :=
  adopting ++ [.call 1 .ok, .finish 1, .spawn 2 (.reconcile k1), .call 2 (.version 0),
      .call 2 (.nodeClaim "uid-a"),
    .call 2 (.nodes [adoptedNode]), .call 2 .ok, .call 2 (.time 9000), .call 2 .ok, .finish 2]

def Sample.refetched : Script :=
  adopting ++ [.outside (.edit k1 [] [("note", "x")] (host "h1" "10.0.0.1" 1).spec)] ++
    (List.replicate 4 [.call 1 .conflict, .call 1 (.version 2)]).flatten

def Sample.returned (l : Log (machine externals))
    (p : SSHNodeClass externals → NodeClaim → Instance → Bool) : Bool :=
  match Log.job 1 l with
  | some (.create cls nc its) =>
    match (create externals cls nc its).returns (Log.own 1 l) with
    | some (.ok inst) => p cls nc inst
    | _ => false
  | _ => false

lemma Sample.of_returned {l : Log (machine externals)}
    {p : SSHNodeClass externals → NodeClaim → Instance → Bool} (h : returned l p = true) :
    ∃ cls nc its inst, Log.job 1 l = some (.create cls nc its) ∧
      (create externals cls nc its).returns (Log.own 1 l) = some (.ok inst) ∧
      p cls nc inst = true := by
  unfold returned at h
  split at h
  · split at h
    · exact ⟨_, _, _, _, ‹_›, ‹_›, h⟩
    · cases h
  · cases h

theorem launched_instance_visible_adopted :
    ∃ (l' l : Log (machine externals)) (c : Run externals) (cls : SSHNodeClass
      externals) (nc : NodeClaim)
      (its : List InstanceType) (inst : Instance) (u : SSHHost),
      Logged (fun l _ obs => showsRecorded l obs = true) (idle externals hosts) (l' ++ l) c ∧
      Log.job 1 l = some (.create cls nc its) ∧
      (create externals cls nc its).returns (Log.own 1 l) = some (.ok inst) ∧
      cls.adoptsProviderID = true ∧ inst.providerID = "eks-hybrid:///x" ∧
      c.world.current k1 = some u ∧ u.status.bootstrapTokenID = "" ∧
      l.length + 9 = (l' ++ l).length ∧ StaysVisible cls nc inst 1 l' l c.world := by
  obtain ⟨L, c, hr, hq⟩ :=
    exists_logged (p := fun l _ obs => showsRecorded l obs) (c := idle externals hosts)
    (q := settled)
    (Q := fun L c => decide (9 ≤ L.length) &&
      (c.world.current k1).any (fun u => u.status.bootstrapTokenID = "") && returned (L.drop 9)
        fun cls _ inst => cls.adoptsProviderID && decide (inst.providerID = "eks-hybrid:///x"))
    (by decide +kernel)
  simp only [Bool.and_eq_true, Option.any_eq_true, decide_eq_true_eq] at hq
  obtain ⟨⟨hlen, u, hu, htok⟩, hret⟩ := hq
  obtain ⟨cls, nc, its, inst, hj, hi, hp⟩ := of_returned hret
  simp only [Bool.and_eq_true, decide_eq_true_eq] at hp
  rw [← List.take_append_drop 9 L] at hr
  refine ⟨L.take 9, L.drop 9, c, cls, nc, its, inst, u, hr, hj, hi, hp.1, hp.2, hu, htok, ?_,
    launched_instance_visible hr hj hi⟩
  rw [List.length_append, List.length_take, List.length_drop]
  omega

/-- The providerID that Create returns is not the one that is stored under its claim. -/
theorem returns_other_providerID :
    ∃ (l : Log (machine externals)) (c : Run externals) (cls : SSHNodeClass
      externals) (nc : NodeClaim)
      (its : List InstanceType) (inst : Instance) (v u : SSHHost),
      Logged (fun _ w obs => (orderly w obs && queuesHosts w obs && cacheAdvances w obs) = true)
        (idle externals hosts) l c ∧
      Log.job 1 l = some (.create cls nc its) ∧
      (create externals cls nc its).returns (Log.own 1 l) = some (.ok inst) ∧
      cls.adoptsProviderID = true ∧ inst.hostName = "h1" ∧ inst.providerID = "kpssh://pool/h1" ∧
      recordedID (Log.own 1 l) = some ("eks-hybrid:///x", v) ∧
      v.resourceVersion < u.resourceVersion ∧ c.world.current k1 = some u ∧
      claimHeldBy u nc = true ∧ u.status.providerID = "eks-hybrid:///x" := by
  obtain ⟨l, c, hr, hq⟩ := exists_logged
    (p := fun _ w obs => orderly w obs && queuesHosts w obs && cacheAdvances w obs)
      (c := idle externals hosts)
    (q := refetched)
    (Q := fun l c => returned l fun cls nc inst => cls.adoptsProviderID &&
      decide (inst.hostName = "h1") && decide (inst.providerID = "kpssh://pool/h1") &&
      (c.world.current k1).any fun u => claimHeldBy u nc &&
      decide (u.status.providerID = "eks-hybrid:///x") &&
        (recordedID (Log.own 1 l)).any fun p => decide (p.1 = "eks-hybrid:///x") &&
          decide (p.2.resourceVersion < u.resourceVersion))
    (by decide +kernel)
  obtain ⟨cls, nc, its, inst, hj, hi, hp⟩ := of_returned hq
  simp only [Bool.and_eq_true, Option.any_eq_true, decide_eq_true_eq, Prod.exists] at hp
  obtain ⟨⟨⟨ha, hn⟩, hid⟩, u, hu, ⟨hc, hpid⟩, _, v, hrec, rfl, hnew⟩ := hp
  exact ⟨l, c, cls, nc, its, inst, v, u, hr, hj, hi, ha, hn, hid, hrec, hnew, hu, hc, hpid⟩

end Sample

end KarpenterProviderSsh.Runs
