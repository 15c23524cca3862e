import KarpenterProviderSsh.Interleaving.Traces
import KarpenterProviderSsh.Providers.InstanceTypes
import KarpenterProviderSsh.Runs.Jobs

/-! Instance types and the members of their classes: the fold over the hosts, read without its
order. -/

namespace KarpenterProviderSsh.Offers

open Api Cluster Scripts Store Providers
open Interleaving.Prog (Runs runs_bind)

variable {X : Externals}

section Folding

variable {maxPods : Option ℤ} {members members' : List SSHHost} {ci ci' : ClassInfo}
  {h : SSHHost} {cls : String}

def archs (members : List SSHHost) : Set String :=
  {a | a ≠ "" ∧ ∃ h ∈ members, h.status.observedArch = a}

structure Describes (maxPods : Option ℤ) (members : List SSHHost) (ci : ClassInfo) : Prop where
  named : ∃ h ∈ members, hostClass h = ci.name
  capacity : ∀ r, IsLeast ((fun h => declared (withPods h.spec.capacity maxPods) r) ''
    {h | h ∈ members})
    (declared ci.capacity r)
  unprobed : ci.arch = "" → ∀ h ∈ members, h.status.observedArch = ""
  probed : ci.arch ≠ "" → ∃ h ∈ members, h.status.observedArch = ci.arch
  mixed : ci.mixedArch = true ↔ ∃ h ∈ members, h.status.observedArch ≠ "" ∧
    h.status.observedArch ≠ ci.arch
  available : ci.available = members.countP free
  total : ci.total = members.length

lemma describes_first (h : SSHHost) : Describes maxPods [h] (ClassInfo.observe maxPods h none) := by
  unfold ClassInfo.observe
  by_cases ha : h.status.observedArch = ""
  · constructor <;> simp [ha, List.countP_cons, IsLeast, lowerBounds]
  · constructor <;> simp [ha, List.countP_cons, IsLeast, lowerBounds]

lemma Describes.observe (hd : Describes maxPods members ci) (h : SSHHost) :
    Describes maxPods (members ++ [h]) (ClassInfo.observe maxPods h (some ci)) := by
  have hset : {x | x ∈ members ++ [h]} = insert h {x | x ∈ members} := by
    ext x
    simp [or_comm]
  have hcap (r : String) : IsLeast
      ((fun h => declared (withPods h.spec.capacity maxPods) r) '' {x | x ∈ members ++ [h]})
      (declared (minCapacity ci.capacity (withPods h.spec.capacity maxPods)) r) := by
    rw [declared_minCapacity, hset, Set.image_insert_eq]
    exact (hd.capacity r).insert _
  have hcount :
      (members ++ [h]).countP free = if free h then ci.available + 1 else ci.available := by
    rw [hd.available, List.countP_append, List.countP_singleton]
    split_ifs <;> rfl
  have hlen : (members ++ [h]).length = ci.total + 1 := by
    rw [hd.total, List.length_append, List.length_singleton]
  have hmixed := hd.mixed
  have hun := hd.unprobed
  have hpr := hd.probed
  have hnamed := hd.named
  -- the three cases of the switch over the architecture
  by_cases ha : h.status.observedArch = ""
  · constructor <;> grind [ClassInfo.observe]
  · by_cases hc : ci.arch = ""
    · constructor <;> grind [ClassInfo.observe]
    · constructor <;> grind [ClassInfo.observe]

variable (maxPods) in
lemma describes_foldl (hm : members ≠ []) :
    ∃ ci, members.foldl (fun v h => some (ClassInfo.observe maxPods h v)) none = some ci ∧
      Describes maxPods members ci := by
  induction members using List.reverseRecOn with
  | nil => exact absurd rfl hm
  | append_singleton members h ih =>
    rw [List.foldl_append, List.foldl_cons, List.foldl_nil]
    by_cases hn : members = []
    · subst hn
      exact ⟨_, rfl, describes_first h⟩
    · obtain ⟨ci, hci, hd⟩ := ih hn
      exact ⟨_, by rw [hci], hd.observe h⟩

lemma Describes.archs_eq (hd : Describes maxPods members ci) (ha : ci.advertised = true) :
    archs members = {ci.arch} := by
  simp only [ClassInfo.advertised, Bool.and_eq_true, decide_eq_true_eq, Bool.not_eq_true'] at ha
  have hmix : ¬ ∃ h ∈ members, h.status.observedArch ≠ "" ∧ h.status.observedArch ≠ ci.arch := by
    rw [← hd.mixed, ha.2]
    exact Bool.false_ne_true
  ext a
  constructor
  · rintro ⟨hne, h, hh, rfl⟩
    by_contra hc
    exact hmix ⟨h, hh, hne, hc⟩
  · rintro rfl
    exact ⟨ha.1, hd.probed ha.1⟩

lemma Describes.advertised_of_archs (hd : Describes maxPods members ci) {a : String}
    (ha : archs members = {a}) :
    ci.advertised = true := by
  obtain ⟨hne, h, hh, rfl⟩ : a ∈ archs members := ha ▸ rfl
  have hci : ci.arch ≠ "" := fun hc => hne (hd.unprobed hc h hh)
  have hmem : ci.arch ∈ archs members := ⟨hci, hd.probed hci⟩
  have heq : ci.arch = h.status.observedArch := by simpa [ha] using hmem
  have hmix : ¬ ci.mixedArch = true := by
    rw [hd.mixed]
    rintro ⟨h', hh', hne', hc⟩
    have hm' : h'.status.observedArch ∈ archs members := ⟨hne', h', hh', rfl⟩
    rw [ha] at hm'
    exact hc (hm'.trans heq.symm)
  simp [ClassInfo.advertised, hci, hmix]

lemma Describes.agree (hd : Describes maxPods members ci) (hd' : Describes maxPods members' ci')
    (hp : members.Perm members') (ha : ci.advertised = true) :
    ci'.advertised = true ∧ ci'.arch = ci.arch ∧ ci'.available = ci.available ∧
      ∀ r, ci'.capacity.lookup r = ci.capacity.lookup r := by
  have harchs : archs members' = {ci.arch} := by
    rw [← hd.archs_eq ha]
    ext a
    simp [archs, hp.mem_iff]
  have ha' := hd'.advertised_of_archs harchs
  refine ⟨ha', ?_, ?_, fun r => ?_⟩
  · exact Set.singleton_injective ((hd'.archs_eq ha').symm.trans harchs)
  · rw [hd.available, hd'.available, hp.countP_eq]
  · have hset : {h | h ∈ members'} = {h | h ∈ members} := by
      ext h
      exact hp.mem_iff.symm
    exact (hset ▸ hd'.capacity r).unique (hd.capacity r)

end Folding

section Types

variable {F : Floats} {it it' : Iteration (String × ClassInfo)} {n : SSHNodeClassSpec X}
  {hosts hosts' : List SSHHost}
  {types : List AdvertisedType} {t : AdvertisedType} {cls : String} {ci : ClassInfo} {price : ℚ}

def members (hosts : List SSHHost) (cls : String) : List SSHHost :=
  (hosts.filter fun h => usableCapacity h.spec.capacity).filter (hostClass · = cls)

lemma mem_members {h : SSHHost} :
    h ∈ members hosts cls ↔ h ∈ hosts ∧ usableCapacity h.spec.capacity = true ∧
    hostClass h = cls := by
  simp only [members, List.mem_filter, decide_eq_true_eq, and_assoc]

lemma lookup_classes (hm : members hosts cls ≠ []) :
    ∃ ci, (classes n hosts).lookup cls = some ci ∧ Describes n.maxPods (members hosts cls) ci := by
  obtain ⟨ci, hci, hd⟩ := describes_foldl n.maxPods hm
  exact ⟨ci, (lookup_group _ _ _ _).trans hci, hd⟩

lemma describes_of_lookup (hl : (classes n hosts).lookup cls = some ci) :
    Describes n.maxPods (members hosts cls) ci := by
  have hm : members hosts cls ≠ [] := by
    intro hm
    have hg := lookup_group hostClass (ClassInfo.observe n.maxPods)
      (hosts.filter fun h => usableCapacity h.spec.capacity) cls
    change (classes n hosts).lookup cls = (members hosts cls).foldl _ none at hg
    rw [hm, hl] at hg
    cases hg
  obtain ⟨ci', hl', hd⟩ := lookup_classes (n := n) hm
  cases hl.symm.trans hl'
  exact hd

lemma Describes.name_eq (hd : Describes n.maxPods (members hosts cls) ci) : ci.name = cls := by
  obtain ⟨h, hh, hn⟩ := hd.named
  exact hn.symm.trans (mem_members.mp hh).2.2

lemma instanceTypes_ok (hi : instanceTypes F it n hosts = .ok types) :
    ∃ price, pricePerCPU F n = .ok price ∧
      types = (((it.order (classes n hosts)).map Prod.snd).filter ClassInfo.advertised).map
        (instanceTypeOf F n price) := by
  unfold instanceTypes at hi
  cases hp : pricePerCPU F n with
  | error e => simp [hp] at hi
  | ok price =>
    rw [hp] at hi
    cases hi
    exact ⟨price, rfl, rfl⟩

lemma mem_instanceTypes (it : Iteration (String × ClassInfo)) :
    t ∈ (((it.order (classes n hosts)).map Prod.snd).filter ClassInfo.advertised).map
      (instanceTypeOf F n price) ↔ ∃ cls ci, (classes n hosts).lookup cls = some ci ∧
      ci.advertised = true ∧ instanceTypeOf F n price ci = t := by
  have hmem (cls : String) (ci : ClassInfo) :
      (cls, ci) ∈ it.order (classes n hosts) ↔ (classes n hosts).lookup cls = some ci := by
    rw [(it.perm _).mem_iff]
    exact mem_iff_lookup (nodup_group _ _ _)
  simp only [List.mem_map, List.mem_filter, Prod.exists, ← hmem]
  constructor
  · rintro ⟨ci, ⟨⟨cls, _, hm, rfl⟩, ha⟩, rfl⟩
    exact ⟨cls, _, hm, ha, rfl⟩
  · rintro ⟨cls, ci, hm, ha, rfl⟩
    exact ⟨ci, ⟨⟨cls, ci, hm, rfl⟩, ha⟩, rfl⟩

lemma name_of_mem_order {p : String × ClassInfo} (hp : p ∈ it.order (classes n hosts)) :
    p.2.name = p.1 := by
  rw [(it.perm _).mem_iff] at hp
  exact (describes_of_lookup ((mem_iff_lookup (nodup_group _ _ _)).mp hp)).name_eq

lemma nodup_names (it : Iteration (String × ClassInfo)) :
    (((((it.order (classes n hosts)).map Prod.snd).filter ClassInfo.advertised).map
      (instanceTypeOf F n price)).map AdvertisedType.name).Nodup := by
  have hkeys : ((it.order (classes n hosts)).map Prod.fst).Nodup :=
    ((it.perm _).map Prod.fst).nodup_iff.mpr (nodup_group _ _ _)
  have hnames : ((it.order (classes n hosts)).map Prod.snd).map ClassInfo.name =
      (it.order (classes n hosts)).map Prod.fst := by
    rw [List.map_map]
    exact List.map_congr_left fun p hp => name_of_mem_order hp
  rw [List.map_map]
  exact ((hnames ▸ hkeys).sublist ((List.filter_sublist).map _))

def SameType (t t' : AdvertisedType) : Prop :=
  t'.name = t.name ∧ t'.requirements = t.requirements ∧ t'.offerings = t.offerings ∧
    t'.kubeReserved = t.kubeReserved ∧ ∀ r, t'.capacity.lookup r = t.capacity.lookup r

def Meet (maxPods : Option ℤ) (members : List SSHHost) (capacity : ResourceList) : Prop :=
  ∀ r q, capacity.lookup r = some q ↔
    (∀ h ∈ members, ∃ q', (withPods h.spec.capacity maxPods).lookup r = some q' ∧ q ≤ q') ∧
      ∃ h ∈ members, (withPods h.spec.capacity maxPods).lookup r = some q

lemma Describes.meet {maxPods : Option ℤ} {members : List SSHHost}
    (hd : Describes maxPods members ci) :
    Meet maxPods members ci.capacity := by
  intro r q
  have hle (h : SSHHost) : (q : WithBot ℤ) ≤ declared (withPods h.spec.capacity maxPods) r ↔
      ∃ q', (withPods h.spec.capacity maxPods).lookup r = some q' ∧ q ≤ q' := WithBot.coe_le_iff
  constructor
  · intro hq
    have hl := hd.capacity r
    rw [declared_eq_coe.mpr hq] at hl
    obtain ⟨⟨h, hh, hq'⟩, hlow⟩ := hl
    exact ⟨fun h hh => (hle h).mp (hlow ⟨h, hh, rfl⟩), h, hh, hq'⟩
  · rintro ⟨hlow, h, hh, hq⟩
    refine declared_eq_coe.mp ((hd.capacity r).unique ⟨⟨h, hh, hq⟩, ?_⟩)
    rintro _ ⟨h', hh', rfl⟩
    exact (hle h').mpr (hlow h' hh')

/-- One type for each class that can be advertised, of the shape its smallest members can
deliver. -/
structure Folded (n : SSHNodeClassSpec X) (hosts : List SSHHost) (types : List AdvertisedType) :
    Prop where
  once : (types.map AdvertisedType.name).Nodup
  classes : ∀ cls, cls ∈ types.map AdvertisedType.name ↔ ∃ arch, archs (members hosts cls) = {arch}
  capacity : ∀ t ∈ types, Meet n.maxPods (members hosts t.name) t.capacity
  arch : ∀ t ∈ types, ∃ arch, archs (members hosts t.name) = {arch} ∧
    t.requirements.lookup labelArchStable = some arch
  offering : ∀ t ∈ types, ∃ o, t.offerings = [o] ∧
    (o.available = true ↔ ∃ h ∈ members hosts t.name, free h = true)

lemma Folded.member (hf : Folded n hosts types) (ht : t ∈ types) :
    ∃ h, h ∈ members hosts t.name := by
  obtain ⟨arch, harch⟩ := (hf.classes t.name).mp (List.mem_map_of_mem ht)
  obtain ⟨_, h, hh, _⟩ : arch ∈ archs (members hosts t.name) := harch ▸ rfl
  exact ⟨h, hh⟩

lemma folded (hi : instanceTypes F it n hosts = .ok types) : Folded n hosts types := by
  obtain ⟨price, _, rfl⟩ := instanceTypes_ok hi
  have hof (t : AdvertisedType) (ht : t ∈ (((it.order (classes n hosts)).map Prod.snd).filter
      ClassInfo.advertised).map (instanceTypeOf F n price)) : ∃ ci, ci.advertised = true ∧
        Describes n.maxPods (members hosts t.name) ci ∧ instanceTypeOf F n price ci = t := by
    obtain ⟨cls, ci, hl, ha, rfl⟩ := (mem_instanceTypes it).mp ht
    have hd := describes_of_lookup hl
    refine ⟨ci, ha, ?_, rfl⟩
    change Describes n.maxPods (members hosts ci.name) ci
    rwa [hd.name_eq]
  refine ⟨nodup_names it, fun cls => ?_, fun t ht => ?_, fun t ht => ?_, fun t ht => ?_⟩
  · constructor
    · intro hc
      obtain ⟨t, ht, rfl⟩ := List.mem_map.mp hc
      obtain ⟨ci, ha, hd, _⟩ := hof t ht
      exact ⟨ci.arch, hd.archs_eq ha⟩
    · rintro ⟨arch, harch⟩
      obtain ⟨_, h, hh, _⟩ : arch ∈ archs (members hosts cls) := harch ▸ rfl
      obtain ⟨ci, hl, hd⟩ := lookup_classes (n := n) (List.ne_nil_of_mem hh)
      exact List.mem_map.mpr ⟨_,
        (mem_instanceTypes it).mpr ⟨cls, ci, hl, hd.advertised_of_archs harch, rfl⟩, hd.name_eq⟩
  · obtain ⟨ci, _, hd, rfl⟩ := hof t ht
    exact hd.meet
  · obtain ⟨ci, ha, hd, rfl⟩ := hof t ht
    exact ⟨ci.arch, hd.archs_eq ha, rfl⟩
  · obtain ⟨ci, _, hd, rfl⟩ := hof t ht
    refine ⟨_, rfl, ?_⟩
    change decide (0 < ci.available) = true ↔ _
    rw [decide_eq_true_eq, hd.available, List.countP_pos_iff]

lemma same_types (hi : instanceTypes F it n hosts = .ok types) {types' : List AdvertisedType}
    (hi' : instanceTypes F it' n hosts' = .ok types') (hp : hosts.Perm hosts') :
    ∀ t ∈ types, ∃ t' ∈ types', SameType t t' := by
  obtain ⟨price, hprice, rfl⟩ := instanceTypes_ok hi
  obtain ⟨price', hprice', rfl⟩ := instanceTypes_ok hi'
  cases hprice.symm.trans hprice'
  intro t ht
  obtain ⟨cls, ci, hl, ha, rfl⟩ := (mem_instanceTypes it).mp ht
  have hd := describes_of_lookup hl
  have hpm : (members hosts cls).Perm (members hosts' cls) := (hp.filter _).filter _
  obtain ⟨h, hh, _⟩ := hd.named
  obtain ⟨ci', hl', hd'⟩ := lookup_classes (n := n) (List.ne_nil_of_mem (hpm.mem_iff.mp hh))
  obtain ⟨ha', harch, havail, hcap⟩ := hd.agree hd' hpm ha
  have hname : ci'.name = ci.name := hd'.name_eq.trans hd.name_eq.symm
  have hcpu : quantity ci'.capacity "cpu" = quantity ci.capacity "cpu" := by
    rw [quantity, hcap, quantity]
  refine ⟨_, (mem_instanceTypes it').mpr ⟨cls, ci', hl', ha', rfl⟩, hname, ?_, ?_, rfl, hcap⟩
  · simp [instanceTypeOf, hname, harch]
  · simp [instanceTypeOf, hname, hcpu, havail]

/-- Whenever `All` returns hosts, `List` returns their fold, and another order of the hosts or of
the map makes no difference. -/
theorem class_folding (F : Floats) (it : Iteration (String × ClassInfo))
    (n : SSHNodeClassSpec X) {p : ℚ} (hp : pricePerCPU F n = .ok p) (hosts : List SSHHost) :
    ∃ types, (∀ l, Runs (list X n.hostSelector) l (.ok hosts) →
      Runs (listInstanceTypes F it n) l (.ok types)) ∧ Folded n hosts types ∧
      ∀ hosts' it', hosts.Perm hosts' → ∃ types', instanceTypes F it' n hosts' = .ok types' ∧
        (∀ t ∈ types, ∃ t' ∈ types', SameType t t') ∧
        ∀ t' ∈ types', ∃ t ∈ types, SameType t' t := by
  have hok (it : Iteration (String × ClassInfo)) (hosts : List SSHHost) :
      ∃ types, instanceTypes F it n hosts = .ok types := ⟨_, by rw [instanceTypes, hp]⟩
  obtain ⟨types, hi⟩ := hok it hosts
  refine ⟨types, fun l hl => ?_, folded hi, fun hosts' it' hperm => ?_⟩
  · refine runs_bind.mpr ⟨l, _, [], (List.append_nil l).symm, hl, ?_⟩
    rw [← hi]
    exact .ret _
  · obtain ⟨types', hi'⟩ := hok it' hosts'
    exact ⟨types', hi', same_types hi hi' hperm, same_types hi' hi hperm.symm⟩

end Types

section Sample

open Runs.Sample

def floats : Floats := ⟨fun _ => .ok 1, fun price cpu => price * cpu⟩
def firstSeen : Iteration (String × ClassInfo) := ⟨id, List.Perm.refl⟩
def spec : SSHNodeClassSpec externals :=
  ⟨"c", none, "p", .empty, none, .unset, "", [], none, none, []⟩

def probed (name arch : String) (cpu memory : ℤ) (annotations : List (String × String)) : SSHHost :=
  { host name "10.0.0.9" 1 with
    annotations := annotations
    spec := { (host name "10.0.0.9" 1).spec with
      capacity := [("cpu", wholeUnits cpu), ("memory", wholeUnits memory)] }
    status := { SSHHostStatus.empty with state := .available, observedArch := arch } }

def pair : List SSHHost := [probed "a" "amd64" 4 8 [], probed "b" "" 8 4 []]

lemma members_pair : members pair "default" = pair := by decide +kernel

theorem class_folding_pair :
    pricePerCPU floats spec = .ok (2 / 100) ∧ ∃ types, Folded spec pair types ∧
      ∃ t ∈ types, t.capacity.lookup "cpu" = some (wholeUnits 4) ∧
      t.capacity.lookup "memory" = some (wholeUnits 4) := by
  obtain ⟨types, _, hf, _⟩ := class_folding floats firstSeen spec (p := 2 / 100) rfl pair
  have harch : archs (members pair "default") = {"amd64"} := by
    rw [members_pair]
    ext a
    constructor
    · rintro ⟨hne, h, hh, rfl⟩
      fin_cases hh
      · rfl
      · exact absurd rfl hne
    · rintro rfl
      exact ⟨by decide, _, List.mem_cons_self, rfl⟩
  obtain ⟨t, ht, hn⟩ := List.mem_map.mp ((hf.classes "default").mpr ⟨_, harch⟩)
  have hmeet := hf.capacity t ht
  rw [hn, members_pair] at hmeet
  refine ⟨rfl, types, hf, t, ht, (hmeet _ _).mpr ?_, (hmeet _ _).mpr ?_⟩
  · refine ⟨fun h hh => ?_, _, List.mem_cons_self, by decide +kernel⟩
    fin_cases hh
    · exact ⟨wholeUnits 4, by decide +kernel, by decide⟩
    · exact ⟨wholeUnits 8, by decide +kernel, by decide⟩
  · refine ⟨fun h hh => ?_, _, List.mem_cons_of_mem _ List.mem_cons_self, by decide +kernel⟩
    fin_cases hh
    · exact ⟨wholeUnits 8, by decide +kernel, by decide⟩
    · exact ⟨wholeUnits 4, by decide +kernel, by decide⟩

end Sample

end KarpenterProviderSsh.Offers
