import KarpenterProviderSsh.CloudProvider.Plugin
import KarpenterProviderSsh.Cluster.Answers
import KarpenterProviderSsh.Offers.Selection

/-! What a Create that fails has left behind, told by the verdict core is given. Core deletes the
NodeClaim on some verdicts and calls no Delete for it, as it knows no providerID. -/

namespace KarpenterProviderSsh.CloudProvider

open Api Cluster Scripts Providers Controllers Catalogs Offers
open Runs (Asks CoversJoin quiet_adoptProviderID asks_setStatus asks_join asks_list asks_available
  asks_claimCheapest)
open Interleaving.Prog (Runs Trace runs_bind runs_call runs_ret runs_lift)

variable {X : Externals} {T : Toolkit} {lc : LaunchClaim} {n : NodeClass X}
  {nodeClass : SSHNodeClass X} {nc : NodeClaim} {h : SSHHost} {its : List InstanceType}

def onHosts (l : Trace Eff Res) : Trace (ClassEff X) (ClassRes X) :=
  l.map fun x => ⟨.cluster x.1, x.2⟩

lemma runs_onCluster {α : Type} {p : Cluster.Prog α} {l : Trace (ClassEff X) (ClassRes X)} {a : α} :
    Runs (onCluster X p) l a ↔ ∃ l₀, l = onHosts l₀ ∧ Runs p l₀ a := by
  have hid (l₀ : Trace Eff Res) : l₀.map (fun x => (⟨x.1, x.2⟩ : (e : Eff) × Res e)) = l₀ :=
    List.map_id l₀
  refine runs_lift.trans ⟨?_, ?_⟩
  · rintro ⟨l₀, hl, hr⟩
    exact ⟨l₀, hl, hid l₀ ▸ hr⟩
  · rintro ⟨l₀, hl, hr⟩
    exact ⟨l₀, hl, (hid l₀).symm ▸ hr⟩

lemma forall_onHosts {P : (e : ClassEff X) × ClassRes X e → Prop} {l : Trace Eff Res}
    (hl : ∀ x ∈ l, P ⟨.cluster x.1, x.2⟩) : ∀ x ∈ onHosts l, P x := by
  intro x hx
  obtain ⟨y, hy, rfl⟩ := List.mem_map.mp hx
  exact hl y hy

section Inert

/-- A world that gives this answer is left with the hosts, the tokens and the sessions it had. -/
def Inert : (e : ClassEff X) × ClassRes X e → Prop
  | ⟨.getNodeClass _, _⟩ => True
  | ⟨.cluster e, r⟩ => ∀ (w : World) t ch w', w.handle t e ch = some (r, w') →
      w.SameStore w' ∧ w'.tokens = w.tokens ∧ w'.sessions = w.sessions
  | _ => False

lemma inert_listHosts (ns : String) (r : Res (.listHosts ns)) :
    Inert (X := X) ⟨.cluster (.listHosts ns), r⟩ := by
  intro w t ch w' hh
  have hf := World.handle_frame hh
  exact ⟨hf.store (by simp) (by simp), hf.tokens (by simp) (by simp),
    hf.sessions (by simp) (by simp)⟩

lemma inert_conflict {o : SSHHost} {wr : StatusWrite} {e : Err} (he : e.isConflict = true) :
    Inert (X := X) ⟨.cluster (.updateStatus o wr), .error e⟩ := by
  intro w t ch w' hh
  simp only [World.handle] at hh
  rcases World.write_cases hh with ⟨_, _, _, ⟨hr, _⟩ | ⟨m, hr, _⟩⟩ | ⟨rfl, _⟩
  · cases hr
  · cases hr
    cases he
  · exact ⟨.refl _, rfl, rfl⟩

end Inert

section Choosing

def Passes : (e : Eff) × Res e → Prop
  | ⟨.listHosts _, _⟩ => True
  | ⟨.updateStatus _ _, .error e⟩ => e.isConflict = true
  | _ => False

lemma Passes.inert {x : (e : Eff) × Res e} (hx : Passes x) :
    Inert (X := X) ⟨.cluster x.1, x.2⟩ := by
  unfold Passes at hx
  split at hx
  · exact inert_listHosts _ _
  · exact inert_conflict hx
  · exact hx.elim

def Lists : Eff → Prop
  | .listHosts _ => True
  | _ => False

lemma Lists.passes {x : (e : Eff) × Res e} (hx : Lists x.1) : Passes x := by
  obtain ⟨e, r⟩ := x
  cases e <;> first | exact hx.elim | trivial

end Choosing

section Releasing

def GivenUp (l : Trace Eff Res) : Prop :=
  ∃ l₀ h healthy reason r, l = l₀ ++ [⟨.patchStatus h (.release healthy reason), r⟩] ∧
    (h.status.bootstrapTokenID ≠ "" → ∃ l₁ r₁, l₀ = l₁ ++
      [⟨.deleteToken h.status.bootstrapTokenID, r₁⟩])

lemma GivenUp.append {l l' : Trace Eff Res} (h : GivenUp l) : GivenUp (l' ++ l) := by
  obtain ⟨l₀, h, healthy, reason, r, rfl, ht⟩ := h
  refine ⟨l' ++ l₀, h, healthy, reason, r, (List.append_assoc ..).symm, fun hne => ?_⟩
  obtain ⟨l₁, r₁, rfl⟩ := ht hne
  exact ⟨l' ++ l₁, r₁, (List.append_assoc ..).symm⟩

def Retains : Eff → Prop
  | .patchStatus _ (.release _ _) => False
  | _ => True

lemma Passes.retains {x : (e : Eff) × Res e} (hx : Passes x) : Retains x.1 := by
  unfold Passes at hx
  split at hx
  · trivial
  · trivial
  · exact hx.elim

lemma Asks.retains {α : Type} {p : Cluster.Prog α} {l : Trace Eff Res} {a : α} (hp : Asks Retains p)
    (hr : Runs p l a) :
    ∀ x ∈ l, Retains x.1 := (hp.runs hr fun _ _ => trivial).1

inductive Fails (l : Trace Eff Res) : CloudError → Prop
  | out {text} : (∀ x ∈ l, Passes x) → Fails l (.insufficientCapacity text)
  | givenUp {e reason message} : (reason = "JoinFailed" ∨ reason = "AdoptFailed") → GivenUp l →
      Fails l (.createError e reason message)
  | kept {e} : (∀ x ∈ l, Retains x.1) → Fails l (.plain e)

end Releasing

section Creates

/-- Verdicts that tell core no host was claimed. -/
def Failure.hostless : Failure → Bool
  | .nodeClassNotReady _ | .cloud (.insufficientCapacity _) => true
  | .cloud (.createError _ reason _) => reason == "NodeClassReadinessUnknown"
  | _ => false

/-- Verdicts on a host that was claimed. -/
def Failure.onHost : Failure → Bool
  | .cloud (.createError _ reason _) => reason == "JoinFailed" || reason == "AdoptFailed"
  | _ => false

def Retained : ClassEff X → Prop
  | .cluster e => Retains e
  | _ => True

def Consults (x : (e : ClassEff X) × ClassRes X e) : Prop := Inert x ∧ Retained x.1

lemma Passes.consults {x : (e : Eff) × Res e} (hx : Passes x) :
    Consults (X := X) ⟨.cluster x.1, x.2⟩ :=
  ⟨hx.inert, hx.retains⟩

def Released (l : Trace (ClassEff X) (ClassRes X)) : Prop :=
  ∃ l₀ h healthy reason r, l = l₀ ++ [⟨.cluster (.patchStatus h (.release healthy reason)), r⟩] ∧
    (h.status.bootstrapTokenID ≠ "" →
      ∃ l₁ r₁, l₀ = l₁ ++ [⟨.cluster (.deleteToken h.status.bootstrapTokenID), r₁⟩])

lemma GivenUp.released {l : Trace Eff Res} (h : GivenUp l) (l' : Trace (ClassEff X) (ClassRes X)) :
    Released (l' ++ onHosts l) := by
  obtain ⟨l₀, h, healthy, reason, r, rfl, ht⟩ := h
  refine ⟨l' ++ onHosts l₀, h, healthy, reason, r, by simp [onHosts], fun hne => ?_⟩
  obtain ⟨l₁, r₁, rfl⟩ := ht hne
  exact ⟨l' ++ onHosts l₁, r₁, by simp [onHosts]⟩

structure Verdict (l : Trace (ClassEff X) (ClassRes X)) (v : Failure) : Prop where
  hostless : v.hostless = true → ∀ x ∈ l, Inert x
  onHost : v.onHost = true → Released l
  kept : v.onHost = false → ∀ x ∈ l, Retained x.1

lemma verdict_consults {l : Trace (ClassEff X) (ClassRes X)} {v : Failure} (hv : v.onHost = false)
    (hl : ∀ x ∈ l, Consults x) : Verdict l v :=
  ⟨fun _ x hx => (hl x hx).1, fun ht => by simp [hv] at ht, fun _ x hx => (hl x hx).2⟩

lemma Fails.verdict {l : Trace Eff Res} {e : CloudError} (hf : Fails l e)
    {l₀ : Trace (ClassEff X) (ClassRes X)} (h₀ : ∀ x ∈ l₀, Consults x) :
    Verdict (l₀ ++ onHosts l) (.cloud e) := by
  cases hf with
  | out hp =>
    exact verdict_consults rfl
      (List.forall_mem_append.mpr ⟨h₀, forall_onHosts fun x hx => (hp x hx).consults⟩)
  | givenUp hreason hg =>
    -- neither reason is the one that names no host
    rcases hreason with rfl | rfl <;> exact ⟨nofun, fun _ => hg.released l₀, nofun⟩
  | kept hk =>
    exact ⟨nofun, nofun, fun _ => List.forall_mem_append.mpr ⟨fun x hx => (h₀ x hx).2,
    forall_onHosts hk⟩⟩

end Creates

section Sample

open Runs.Sample
open Interleaving.Prog (answered runs_answered)

/-- SHA-256 of `{}`, the document of a class that sets none of the fields. -/
def digest (s : List UInt8) : List UInt8 :=
  if s = [0x7b, 0x7d] then
    [0x44, 0x13, 0x6f, 0xa3, 0x55, 0xb3, 0x67, 0x8a, 0x11, 0x46, 0xad, 0x16, 0xf7, 0xe8, 0x64, 0x9e,
      0x94, 0xfb, 0x4f, 0xc2, 0x1f, 0xe7, 0x7e, 0x83, 0x10, 0xc0, 0x60, 0xf6, 0x1c,
      0xaa, 0xff, 0x8a]
  else List.replicate 32 0

def toolkit : Toolkit where
  floats := floats
  iteration := firstSeen
  allocatable := AdvertisedType.capacity
  sha256 := digest
  has reqs key := reqs.any (·.key == key)
  getHas reqs key value := reqs.all fun r => r.key != key || r.values.contains value
  compatible reqs labels := labels.all fun p => reqs.all fun r => r.key != p.1 ||
    r.values.contains p.2
  fits requests total := requests.all fun p => p.2 ≤ quantity total p.1

def readyClass : NodeClass externals :=
  ⟨spec, 1, 1, false, [], some ⟨"Ready", .true, "Ready", "", 1, 0⟩⟩

def launchA : LaunchClaim :=
  { claim := claimA
    nodeClassRef := some ⟨nodeClassGroup, nodeClassKind, "c"⟩
    requirements := [⟨labelArchStable, "In", ["amd64"], none⟩]
    requests := [("cpu", wholeUnits 1)]
    annotations := [] }

def classIs (n : NodeClass externals) (f : (e : Eff) → Res e) : (e : ClassEff externals) →
    ClassRes externals e
  | .cluster e => f e
  | .getNodeClass _ => .ok n
  | .updateNodeClass n => .ok n
  | .patchReady _ _ => .ok ()
  | .listNodeClaims _ => .ok []

def classReady (f : (e : Eff) → Res e) : (e : ClassEff externals) → ClassRes externals e :=
  classIs readyClass f

def adoptingClass : NodeClass externals :=
  { readyClass with spec := { spec with providerIDSource := .adopt } }

def claims : (e : ClassEff externals) → Bool
  | .cluster (.updateStatus _ _) => true
  | _ => false

def failed : Except Failure ClaimView → Option Failure
  | .error v => some v
  | .ok _ => none

end Sample

end KarpenterProviderSsh.CloudProvider
