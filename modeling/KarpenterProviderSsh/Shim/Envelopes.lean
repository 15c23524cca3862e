import KarpenterProviderSsh.Codec.Base64
import KarpenterProviderSsh.Shim.Gate

/-! The envelope the controller streams to the shim. -/

namespace KarpenterProviderSsh.Shim

open Codec

structure Envelope where
  phase : Bytes
  script : Bytes
  sig : Bytes
  params : List (Bytes × Bytes)
  distinct : (params.map Prod.fst).Nodup

namespace Envelope

def validPhase (p : Bytes) : Bool := p = utf8 "probe" || p ∈ signedPhases

def paramNameRE (name : Bytes) : Bool :=
  (utf8 "KPSSH_").isPrefixOf name && name.drop 6 ≠ [] && (name.drop 6).all nameChar

def sorted (e : Envelope) : List (Bytes × Bytes) := e.params.insertionSort (fun a b => a.1 ≤ b.1)

/-- `quote` is the `%q` verb. -/
def paramBlock (quote : Bytes → Bytes) : List (Bytes × Bytes) → Except Bytes Bytes
  | [] => .ok []
  | (k, v) :: ps =>
    if paramNameRE k = false then
      .error (utf8 "invalid param name " ++ quote k ++
        utf8 ": verified-exec params must match ^KPSSH_[A-Za-z0-9_]+$")
    else if 10 ∈ v then .error (utf8 "param " ++ quote k ++ utf8 " value contains a newline")
    else do
      let rest ← paramBlock quote ps
      return k ++ 61 :: v ++ 10 :: rest

def field (name value : Bytes) : Bytes := name ++ value ++ [10]

def marshal (quote : Bytes → Bytes) (e : Envelope) : Except Bytes Bytes :=
  if validPhase e.phase = false then .error (utf8 "invalid phase " ++ quote e.phase)
  else if e.phase ≠ utf8 "probe" ∧ (e.script = [] ∨ e.sig = []) then
    .error (utf8 "phase " ++ quote e.phase ++ utf8 " requires script and signature")
  else do
    let params ←
      if e.params = [] then pure []
      else do
        let block ← paramBlock quote e.sorted
        pure (field (utf8 "params-b64: ") (Base64.encode block))
    return field (utf8 "kpssh-envelope: ") (utf8 "1") ++ field (utf8 "phase: ") e.phase ++ params ++
      (if e.sig = [] then [] else field (utf8 "sig-b64: ") (Base64.encode e.sig)) ++
      (if e.script = [] then [] else field (utf8 "script-b64: ") (Base64.encode e.script))

end Envelope

end KarpenterProviderSsh.Shim
