import KarpenterProviderSsh.CloudProvider.Launches

/-! What Create stamps on a NodeClaim against what IsDrifted reads of it later. -/

namespace KarpenterProviderSsh.CloudProvider

open Api Cluster Scripts Providers Controllers Catalogs Offers Drift
open Interleaving.Prog (Runs Trace runs_bind runs_call runs_ret)

variable {X : Externals} {T : Toolkit} {lc₀ lc : LaunchClaim} {n₀ : NodeClass X}
  {l₀ l : Trace (ClassEff X) (ClassRes X)} {view : ClaimView} {reason : DriftReason}
  {a b : SSHNodeClassSpec X}

section Hashes

end Hashes

section Sample

open Runs.Sample
open Interleaving.Prog (answered runs_answered)

def settled : (e : Eff) → Res e
  | .getHost _ => .ok { probed "a" "amd64" 4 8 [] with
      status :=
        { SSHHostStatus.empty with
          state := .claimed
          claimRef := some ⟨"a", "u1"⟩
          installedProfile := "p@1" } }
  | e => smooth e

def reads : ClassEff externals → Bool
  | .getNodeClass _ => true
  | _ => false

end Sample

end KarpenterProviderSsh.CloudProvider
