import KarpenterProviderSsh.Offers.Classes

/-! What is advertised against what a Create may claim, on one snapshot of the pool. -/

namespace KarpenterProviderSsh.Offers

open Api Cluster Scripts Store Providers
open Interleaving.Prog (Runs Trace runs_bind runs_call runs_ret)

variable {X : Externals} {F : Floats} {it : Iteration (String × ClassInfo)} {n : SSHNodeClassSpec X}
  {pool hosts candidates : List SSHHost} {types : List AdvertisedType}
  {t : AdvertisedType} {h : SSHHost}
  {selector : Option X.LabelSelector} {cls : String} {l : Trace Eff Res}

def snapshot (X : Externals) (pool : List SSHHost) : Trace Eff Res := [⟨.listHosts X.ns, .ok pool⟩]

def selects (X : Externals) (selector : Option X.LabelSelector) (h : SSHHost) : Bool :=
  selectsLabels selector h.labels

lemma runs_list (hr : Runs (list X selector) l (.ok hosts)) :
    ∃ pool, l = snapshot X pool ∧ hosts = pool.filter (selects X selector) := by
  unfold list at hr
  cases selector with
  | none =>
    obtain ⟨r, l', rfl, hret⟩ := runs_call.mp hr
    obtain ⟨rfl, rfl⟩ := runs_ret.mp hret
    exact ⟨hosts, rfl, (List.filter_eq_self.mpr fun _ _ => rfl).symm⟩
  | some s =>
    dsimp only at hr
    cases hs : X.labelSelectorAsSelector s with
    | error e =>
      rw [hs] at hr
      cases (runs_ret.mp hr).2
    | ok matchesLabels =>
      rw [hs] at hr
      obtain ⟨r, l', rfl, hret⟩ := runs_call.mp hr
      cases r with
      | error e => cases (runs_ret.mp hret).2
      | ok pool =>
        obtain ⟨rfl, he⟩ := runs_ret.mp hret
        cases he
        refine ⟨pool, rfl, List.filter_congr fun h _ => ?_⟩
        simp only [selects, selectsLabels, hs]

def candidatesOf (X : Externals) (selector : Option X.LabelSelector) (cls : String)
    (pool : List SSHHost) :
    List SSHHost :=
  ((pool.filter (selects X selector)).filter
    (fun h => claimable h && (cls == "" || hostClass h == cls))).insertionSort oldestFirst

lemma runs_available (hr : Runs (available X selector cls) l (.ok candidates)) :
    ∃ pool, l = snapshot X pool ∧ candidates = candidatesOf X selector cls pool := by
  obtain ⟨l₁, a, l₂, rfl, hl, hret⟩ := runs_bind.mp hr
  cases a with
  | error e => cases (runs_ret.mp hret).2
  | ok hosts =>
    obtain ⟨rfl, he⟩ := runs_ret.mp hret
    cases he
    obtain ⟨pool, rfl, rfl⟩ := runs_list hl
    exact ⟨pool, rfl, rfl⟩

lemma runs_listInstanceTypes (hr : Runs (listInstanceTypes F it n) l (.ok types)) :
    ∃ pool, l = snapshot X pool ∧
    instanceTypes F it n (pool.filter (selects X n.hostSelector)) = .ok types := by
  obtain ⟨l₁, a, l₂, rfl, hl, hret⟩ := runs_bind.mp hr
  cases a with
  | error e => cases (runs_ret.mp hret).2
  | ok hosts =>
    obtain ⟨rfl, he⟩ := runs_ret.mp hret
    obtain ⟨pool, rfl, rfl⟩ := runs_list hl
    exact ⟨pool, rfl, he.symm⟩

lemma snapshot_inj {pool' : List SSHHost} (hp : snapshot X pool = snapshot X pool') :
    pool = pool' := by
  simpa [snapshot] using hp

lemma hostClass_ne (h : SSHHost) : hostClass h ≠ "" := by
  unfold hostClass
  cases h.labels.lookup hostClassLabel with
  | none => decide
  | some c =>
    dsimp only
    split_ifs with hc
    · exact hc
    · decide

lemma mem_candidatesOf (hc : cls ≠ "") :
    h ∈ candidatesOf X selector cls pool ↔
      h ∈ pool.filter (selects X selector) ∧ claimable h = true ∧ hostClass h = cls := by
  simp only [candidatesOf, List.mem_insertionSort, List.mem_filter,
    Bool.and_eq_true, Bool.or_eq_true, beq_iff_eq, hc, false_or]

lemma claimable_eq (h : SSHHost) : claimable h = (free h && !h.maintenance) := rfl

lemma offered (ht : Runs (listInstanceTypes F it n) (snapshot X pool) (.ok types))
    (hc : Runs (available X n.hostSelector t.name) (snapshot X pool) (.ok candidates))
    (hm : t ∈ types) :
    Folded n (pool.filter (selects X n.hostSelector)) types ∧ ∀ h, h ∈ candidates ↔
      h ∈ pool.filter (selects X n.hostSelector) ∧ claimable h = true ∧ hostClass h = t.name := by
  obtain ⟨_, hp, hi⟩ := runs_listInstanceTypes ht
  obtain rfl := snapshot_inj hp
  have hf := folded hi
  obtain ⟨_, hp, rfl⟩ := runs_available hc
  obtain rfl := snapshot_inj hp
  refine ⟨hf, fun h => mem_candidatesOf ?_⟩
  obtain ⟨h, hh⟩ := hf.member hm
  rw [← (mem_members.mp hh).2.2]
  exact hostClass_ne h

def Delivers (n : SSHNodeClassSpec X) (t : AdvertisedType) (h : SSHHost) : Prop :=
  (∀ r q, t.capacity.lookup r = some q → ∃ q', (withPods h.spec.capacity n.maxPods).lookup r =
      some q' ∧ q ≤ q') ∧
    (h.status.observedArch ≠ "" →
      t.requirements.lookup labelArchStable = some h.status.observedArch)

lemma Folded.delivers (hf : Folded n hosts types) (hm : t ∈ types) (hh : h ∈ members hosts t.name) :
    Delivers n t h := by
  constructor
  · intro r q hq
    exact ((hf.capacity t hm r q).mp hq).1 h hh
  · intro hne
    obtain ⟨arch, harch, hreq⟩ := hf.arch t hm
    have hmem : h.status.observedArch ∈ archs (members hosts t.name) := ⟨hne, h, hh, rfl⟩
    rw [harch] at hmem
    rw [hreq, hmem]

lemma Folded.quantity_pos (hf : Folded n hosts types) (hm : t ∈ types) {r : String}
    (hr : r ≠ "pods") (hpos : ∀ h ∈ members hosts t.name, 0 < quantity h.spec.capacity r) :
    ∃ q, t.capacity.lookup r = some q ∧ 0 < q := by
  have hsome (h : SSHHost) (hh : h ∈ members hosts t.name) :
      ∃ q, (withPods h.spec.capacity n.maxPods).lookup r = some q ∧ 0 < q := by
    rw [lookup_withPods n.maxPods hr]
    have hq := hpos h hh
    unfold quantity at hq
    cases hl : h.spec.capacity.lookup r with
    | none => simp [hl] at hq
    | some q => exact ⟨q, rfl, by simpa [hl] using hq⟩
  obtain ⟨h, hh, hmin⟩ := Set.exists_min_image {h | h ∈ members hosts t.name}
    (fun h => quantity (withPods h.spec.capacity n.maxPods) r) (List.finite_toSet _) (hf.member hm)
  obtain ⟨q, hq, hq0⟩ := hsome h hh
  refine ⟨q, (hf.capacity t hm r q).mpr ⟨fun h' hh' => ?_, h, hh, hq⟩, hq0⟩
  obtain ⟨q', hq', _⟩ := hsome h' hh'
  have hle := hmin h' hh'
  simp only [quantity, hq, hq', Option.getD_some] at hle
  exact ⟨q', hq', hle⟩

/-- A host that a Create may claim for the type delivers what was advertised exactly when it was not
skipped for its capacity. -/
theorem delivers_iff_usable (ht : Runs (listInstanceTypes F it n) (snapshot X pool) (.ok types))
    (hc : Runs (available X n.hostSelector t.name) (snapshot X pool) (.ok candidates))
    (hm : t ∈ types) (hh : h ∈ candidates) :
    Delivers n t h ↔ usableCapacity h.spec.capacity = true := by
  obtain ⟨hf, hcand⟩ := offered ht hc hm
  obtain ⟨hin, _, hcls⟩ := (hcand h).mp hh
  constructor
  · intro hd
    have hpos {r : String} (hr : r ≠ "pods")
        (hall : ∀ h ∈ members (pool.filter (selects X n.hostSelector)) t.name, 0 <
          quantity h.spec.capacity r) :
        0 < quantity h.spec.capacity r := by
      obtain ⟨q, hq, hq0⟩ := hf.quantity_pos hm hr hall
      obtain ⟨q', hq', hle⟩ := hd.1 r q hq
      rw [lookup_withPods n.maxPods hr] at hq'
      rw [quantity, hq']
      exact hq0.trans_le hle
    have husable (h : SSHHost) (hh : h ∈ members (pool.filter (selects X n.hostSelector)) t.name) :
        0 < quantity h.spec.capacity "cpu" ∧ 0 < quantity h.spec.capacity "memory" := by
      simpa [usableCapacity] using (mem_members.mp hh).2.1
    simp only [usableCapacity, Bool.and_eq_true, decide_eq_true_eq]
    exact ⟨hpos (by decide) fun h hh => (husable h hh).1,
      hpos (by decide) fun h hh => (husable h hh).2⟩
  · intro hu
    exact hf.delivers hm (mem_members.mpr ⟨hin, hu, hcls⟩)

def Free (n : SSHNodeClassSpec X) (t : AdvertisedType) (h : SSHHost) : Prop :=
  selects X n.hostSelector h = true ∧ hostClass h = t.name ∧ free h = true

/-- The offering agrees with the candidates exactly when a host that both count is there, or neither
a maintained host is advertised nor an unusable one claimable, or both happen. -/
theorem available_iff_claimable_iff
    (ht : Runs (listInstanceTypes F it n) (snapshot X pool) (.ok types))
    (hc : Runs (available X n.hostSelector t.name) (snapshot X pool) (.ok candidates))
    (hm : t ∈ types) :
    ((∃ o ∈ t.offerings, o.available = true) ↔ candidates ≠ []) ↔
      ((∃ h ∈ pool, Free n t h ∧ usableCapacity h.spec.capacity = true ∧ h.maintenance = false) ∨
        ((∃ h ∈ pool, Free n t h ∧ usableCapacity h.spec.capacity = true ∧ h.maintenance = true) ↔
          ∃ h ∈ pool, Free n t h ∧ usableCapacity h.spec.capacity = false ∧
          h.maintenance = false)) := by
  obtain ⟨hf, hcand⟩ := offered ht hc hm
  have hoffer : (∃ o ∈ t.offerings, o.available = true) ↔
      ∃ h ∈ pool, Free n t h ∧ usableCapacity h.spec.capacity = true := by
    obtain ⟨o, ho, hav⟩ := hf.offering t hm
    rw [ho]
    simp only [List.mem_singleton, exists_eq_left, hav, mem_members, List.mem_filter, Free]
    grind
  have hne : candidates ≠ [] ↔ ∃ h ∈ pool, Free n t h ∧ h.maintenance = false := by
    have hex : candidates ≠ [] ↔ ∃ h, h ∈ candidates :=
      ⟨List.exists_mem_of_ne_nil _, fun ⟨_, hh⟩ => List.ne_nil_of_mem hh⟩
    rw [hex]
    simp only [hcand, List.mem_filter, claimable_eq, Free]
    grind
  rw [hoffer, hne]
  grind

section Sample

open Runs.Sample

lemma sample_types (pool : List SSHHost) {p : AdvertisedType → Bool}
    (hp : (match instanceTypes floats firstSeen spec pool with
      | .ok types => types.any p
      | .error _ => false) = true) :
    ∃ types t, Runs (listInstanceTypes floats firstSeen spec) (snapshot externals pool)
      (.ok types) ∧ t ∈ types ∧ p t = true := by
  cases hi : instanceTypes floats firstSeen spec pool with
  | error e => simp [hi] at hp
  | ok types =>
    rw [hi] at hp
    obtain ⟨t, ht, hpt⟩ := List.any_eq_true.mp hp
    exact ⟨types, t, hi ▸ .call (.ret _), ht, hpt⟩

lemma sample_candidates (pool : List SSHHost) (cls : String) :
    Runs (available externals spec.hostSelector cls) (snapshot externals pool)
      (.ok (candidatesOf externals none cls pool)) := by
  have hs : pool.filter (selects externals none) = pool := List.filter_eq_self.mpr fun _ _ => rfl
  rw [candidatesOf, hs]
  exact .call (.ret _)

theorem delivers_iff_usable_pair :
    ∃ types t candidates h, (Runs (listInstanceTypes floats firstSeen spec)
      (snapshot externals pair) (.ok types) ∧ Runs (available externals spec.hostSelector t.name)
        (snapshot externals pair) (.ok candidates) ∧
      t ∈ types ∧ h ∈ candidates) ∧ Delivers spec t h := by
  obtain ⟨types, t, ht, hm, hn⟩ :=
    sample_types pair (p := fun t => t.name = "default") (by decide +kernel)
  have hc := sample_candidates pair t.name
  have hh : probed "b" "" 8 4 [] ∈ candidatesOf externals none t.name pair := by
    rw [of_decide_eq_true hn]
    decide +kernel
  exact ⟨types, t, _, _, ⟨ht, hc, hm, hh⟩,
    (delivers_iff_usable ht hc hm hh).mpr (by decide +kernel)⟩

/-- The host without a cpu is no member of its class, and yet a candidate for the class's type. -/
theorem unusable_host_claimable :
    ∃ pool types t candidates h, Runs (listInstanceTypes floats firstSeen spec)
      (snapshot externals pool) (.ok types) ∧ Runs (available externals spec.hostSelector t.name)
        (snapshot externals pool) (.ok candidates) ∧
      t ∈ types ∧ h ∈ candidates ∧ ¬ Delivers spec t h := by
  obtain ⟨types, t, ht, hm, hp⟩ :=
    sample_types [probed "a" "amd64" 4 8 [], probed "b" "amd64" 0 4 []]
    (p := fun t => t.name = "default" && t.capacity.lookup "cpu" = some (wholeUnits 4))
      (by decide +kernel)
  simp only [Bool.and_eq_true, decide_eq_true_eq] at hp
  refine ⟨_, types, t, _, probed "b" "amd64" 0 4 [], ht, sample_candidates _ _, hm,
    ?_, fun hd => ?_⟩
  · rw [hp.1]
    decide +kernel
  · obtain ⟨q', hq', hle⟩ := hd.1 _ _ hp.2
    have hq :
        (withPods (probed "b" "amd64" 0 4 []).spec.capacity spec.maxPods).lookup
        "cpu" = some 0 := by
      decide +kernel
    rw [hq] at hq'
    cases hq'
    exact absurd hle (by decide)

theorem available_iff_claimable_iff_pair :
    ∃ types t candidates, (Runs (listInstanceTypes floats firstSeen spec)
      (snapshot externals pair) (.ok types) ∧ Runs (available externals spec.hostSelector t.name)
        (snapshot externals pair) (.ok candidates) ∧ t ∈ types) ∧
      ((∃ o ∈ t.offerings, o.available = true) ↔ candidates ≠ []) := by
  obtain ⟨types, t, ht, hm, hn⟩ :=
    sample_types pair (p := fun t => t.name = "default") (by decide +kernel)
  have hc := sample_candidates pair t.name
  refine ⟨types, t, _, ⟨ht, hc, hm⟩, (available_iff_claimable_iff ht hc hm).mpr (.inl ?_)⟩
  exact ⟨_, List.mem_cons_self, ⟨rfl, (of_decide_eq_true hn).symm, rfl⟩, by decide +kernel, rfl⟩

/-- The one host of the class is Available and annotated for maintenance. -/
theorem maintained_host_advertised :
    ∃ pool types t candidates, Runs (listInstanceTypes floats firstSeen spec)
      (snapshot externals pool) (.ok types) ∧ Runs (available externals spec.hostSelector t.name)
        (snapshot externals pool) (.ok candidates) ∧ t ∈ types ∧
      (∃ o ∈ t.offerings, o.available = true) ∧ candidates = [] := by
  obtain ⟨types, t, ht, hm, hp⟩ :=
    sample_types [probed "a" "amd64" 4 8 [( maintenanceAnnotation, "")]]
    (p := fun t => t.name = "default" && t.offerings.any Offering.available) (by decide +kernel)
  simp only [Bool.and_eq_true, decide_eq_true_eq, List.any_eq_true] at hp
  refine ⟨_, types, t, _, ht, sample_candidates _ _, hm, hp.2, ?_⟩
  rw [hp.1]
  decide +kernel

end Sample

end KarpenterProviderSsh.Offers
