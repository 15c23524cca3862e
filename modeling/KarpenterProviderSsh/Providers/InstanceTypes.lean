import KarpenterProviderSsh.Providers.NodeClasses
import KarpenterProviderSsh.Store.Groups

/-! Instance types (`pkg/providers/instancetype`): the pool folded into one shape per host class. -/

namespace KarpenterProviderSsh.Providers

open Api Cluster Scripts Store

/-- `strconv.ParseFloat`, and the product of a price with the approximate number of cpus of a
quantity. -/
structure Floats where
  parseFloat : String → Except String ℚ
  times : ℚ → ℤ → ℚ

/-- The order a `range` over a map takes. -/
structure Iteration (α : Type) where
  order : List α → List α
  perm : ∀ l, (order l).Perm l

def poolZone : String := "pool"
def defaultPricePerCPUHour : ℚ := 2 / 100
def defaultMaxPods : ℤ := 110

/-- Quantities are in billionths. -/
def wholeUnits (n : ℤ) : ℤ := n * 10 ^ 9

def defaultKubeReserved : ResourceList :=
  [("cpu", 80 * 10 ^ 6), ("memory", wholeUnits (300 * 2 ^ 20))]

abbrev Requirements := List (String × String)

def labelInstanceTypeStable : String := "node.kubernetes.io/instance-type"
def labelTopologyZone : String := "topology.kubernetes.io/zone"
def labelArchStable : String := "kubernetes.io/arch"
def labelOSStable : String := "kubernetes.io/os"
def capacityTypeLabelKey : String := "karpenter.sh/capacity-type"

structure Offering where
  price : ℚ
  available : Bool
  requirements : Requirements
deriving DecidableEq

structure AdvertisedType where
  name : String
  requirements : Requirements
  offerings : List Offering
  capacity : ResourceList
  kubeReserved : ResourceList
deriving DecidableEq

def AdvertisedType.priced (t : AdvertisedType) : InstanceType :=
  ⟨t.name, t.offerings.map Offering.price⟩

structure ClassInfo where
  name : String
  capacity : ResourceList
  arch : String
  mixedArch : Bool
  available : ℕ
  total : ℕ
deriving DecidableEq

def quantity (c : ResourceList) (r : String) : ℤ := (c.lookup r).getD 0

def usableCapacity (c : ResourceList) : Bool := 0 < quantity c "cpu" && 0 < quantity c "memory"

def minCapacity (a b : ResourceList) : ResourceList :=
  a.filterMap fun p => (b.lookup p.1).map fun q => (p.1, if q < p.2 then q else p.2)

def withPods (c : ResourceList) (maxPods : Option ℤ) : ResourceList :=
  match maxPods with
  | some n => upsert "pods" (fun _ => wholeUnits n) c
  | none =>
    if (c.lookup "pods").isSome then c else upsert "pods" (fun _ => wholeUnits defaultMaxPods) c

def free (h : SSHHost) : Bool := h.status.state == .available && h.status.claimRef.isNone

def ClassInfo.observe (maxPods : Option ℤ) (h : SSHHost) (found : Option ClassInfo) : ClassInfo :=
  let capacity := withPods h.spec.capacity maxPods
  let ci : ClassInfo := match found with
    | none => ⟨hostClass h, capacity, "", false, 0, 0⟩
    | some ci => { ci with capacity := minCapacity ci.capacity capacity }
  let ci :=
    if h.status.observedArch = "" then ci
    else if ci.arch = "" then { ci with arch := h.status.observedArch }
    else if ci.arch ≠ h.status.observedArch then { ci with mixedArch := true }
    else ci
  { ci with
    total := ci.total + 1
    available := if free h then ci.available + 1 else ci.available }

variable {X : Externals}

def classes (n : SSHNodeClassSpec X) (hosts : List SSHHost) : List (String × ClassInfo) :=
  group hostClass (ClassInfo.observe n.maxPods)
      (hosts.filter fun h => usableCapacity h.spec.capacity)

def pricePerCPU (F : Floats) (n : SSHNodeClassSpec X) : Except Err ℚ :=
  if n.pricePerCPUHour = "" then .ok defaultPricePerCPUHour
  else
    match F.parseFloat n.pricePerCPUHour with
    | .error e =>
      .error { message := "invalid pricePerCPUHour " ++ n.pricePerCPUHour.quote ++
        " on nodeClass " ++ n.name ++ ": " ++ e }
    | .ok f => .ok f

/-- No type for a class without a probed host, nor for one of several architectures. -/
def ClassInfo.advertised (ci : ClassInfo) : Bool := ci.arch ≠ "" && !ci.mixedArch

def instanceTypeOf (F : Floats) (n : SSHNodeClassSpec X) (price : ℚ) (ci : ClassInfo) :
    AdvertisedType where
  name := ci.name
  requirements :=
    [(labelInstanceTypeStable, ci.name), (labelArchStable, ci.arch), (labelOSStable, "linux"),
        (labelTopologyZone, poolZone), (capacityTypeLabelKey, "on-demand")]
  offerings := [
    { price := F.times price (quantity ci.capacity "cpu")
      available := 0 < ci.available
      requirements := [(labelInstanceTypeStable, ci.name), (labelTopologyZone, poolZone),
        (capacityTypeLabelKey, "on-demand")] }]
  capacity := ci.capacity
  kubeReserved := if n.kubeReserved = [] then defaultKubeReserved else n.kubeReserved

def instanceTypes (F : Floats) (it : Iteration (String × ClassInfo)) (n : SSHNodeClassSpec X)
    (hosts : List SSHHost) : Except Err (List AdvertisedType) :=
  match pricePerCPU F n with
  | .error e => .error e
  | .ok price =>
    .ok ((((it.order (classes n hosts)).map Prod.snd).filter ClassInfo.advertised).map
      (instanceTypeOf F n price))

def listInstanceTypes (F : Floats) (it : Iteration (String × ClassInfo)) (n : SSHNodeClassSpec X) :
    Prog (Except Err (List AdvertisedType)) := do
  match ← list X n.hostSelector with
  | .error e => return .error e
  | .ok hosts => return instanceTypes F it n hosts

section Capacities

variable {a b c : ResourceList} {r : String} {q : ℤ}

def declared (c : ResourceList) (r : String) : WithBot ℤ := c.lookup r

lemma declared_eq_coe : declared c r = q ↔ c.lookup r = some q := Iff.rfl

lemma lookup_minCapacity (a b : ResourceList) (r : String) :
    (minCapacity a b).lookup r =
      (a.lookup r).bind fun qa => (b.lookup r).map fun qb => if qb < qa then qb else qa := by
  induction a with
  | nil => rfl
  | cons p a ih =>
    rw [lookup_cons_if]
    cases hb : b.lookup p.1 with
    | none =>
      have hcons : minCapacity (p :: a) b = minCapacity a b := by simp [minCapacity, hb]
      rw [hcons, ih]
      by_cases hr : r = p.1
      · simp [hr, hb]
      · simp [hr]
    | some q =>
      have hcons :
          minCapacity (p :: a) b = (p.1, if q < p.2 then q else p.2) :: minCapacity a b := by
        simp [minCapacity, hb]
      rw [hcons, lookup_cons_if, ih]
      by_cases hr : r = p.1
      · simp [hr, hb]
      · simp [hr]

/-- A capacity is a point of a product of chains, and `minCapacity` the meet there. -/
lemma declared_minCapacity (a b : ResourceList) (r : String) :
    declared (minCapacity a b) r = min (declared b r) (declared a r) := by
  rw [declared, lookup_minCapacity]
  unfold declared
  cases ha : a.lookup r with
  | none => exact (min_eq_right (bot_le (α := WithBot ℤ))).symm
  | some qa =>
    cases hb : b.lookup r with
    | none => exact (min_eq_left (bot_le (α := WithBot ℤ))).symm
    | some qb =>
      have hmin : (if qb < qa then qb else qa) = min qb qa := by
        rcases lt_or_ge qb qa with h | h
        · rw [if_pos h, min_eq_left h.le]
        · rw [if_neg h.not_gt, min_eq_right h]
      exact (congrArg (fun q : ℤ => (q : WithBot ℤ)) hmin).trans (WithBot.coe_min qb qa)

lemma lookup_withPods (maxPods : Option ℤ) (hr : r ≠ "pods") :
    (withPods c maxPods).lookup r = c.lookup r := by
  unfold withPods
  cases maxPods with
  | none =>
    dsimp only
    split_ifs
    · rfl
    · rw [lookup_upsert, if_neg hr]
  | some n => rw [lookup_upsert, if_neg hr]

end Capacities

end KarpenterProviderSsh.Providers
