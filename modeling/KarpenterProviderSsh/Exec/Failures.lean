import KarpenterProviderSsh.Profiles.Redaction
import KarpenterProviderSsh.Text.Strikes

/-! The text of a failed phase: `runSession` quotes the end of stderr, `redactPhaseErr` redacts what
it quoted. -/

namespace KarpenterProviderSsh.Exec

open Profiles Shim Text
open Scripts (minRedactableLen)

def spaces : List Bytes :=
  [[9], [10], [11], [12], [13], [32], [194, 133], [194, 160], [225, 154, 128]] ++
  (List.range 11).map (fun i => [226, 128, 128 + i.toUInt8]) ++
  [[226, 128, 168], [226, 128, 169], [226, 128, 175], [226, 129, 159], [227, 128, 128]]

section Quoting

-- The texts are of bytes, or of bytes that also know where they stood in stderr.
variable {γ : Type} (read : γ → UInt8) (put : UInt8 → γ)

def trimLeft (runes : List Bytes) : ℕ → List γ → List γ
  | 0, s => s
  | n + 1, s =>
    match runes.find? (·.isPrefixOf (s.map read)) with
    | none => s
    | some r => trimLeft runes n (s.drop r.length)

def trimSpace (s : List γ) : List γ :=
  let s := trimLeft read spaces s.length s
  (trimLeft read (spaces.map List.reverse) s.length s.reverse).reverse

def tail (s : List γ) (n : ℕ) : List γ :=
  let s := trimSpace read s
  if s.length ≤ n then s else (utf8 "…").map put ++ s.drop (s.length - n)

def scriptFailed (stderr : List γ) (err : Bytes) : List γ :=
  (utf8 "script failed (stderr tail: ").map put ++ tail read put stderr 800 ++
    (utf8 "): " ++ err).map put

end Quoting

/-- The message, each byte with its place in stderr if it comes from there. -/
def quoted (stderr err : Bytes) : List (UInt8 × Option ℕ) :=
  scriptFailed Prod.fst (fun b => (b, none)) (trace stderr) err

section Naturality

variable {γ δ : Type} {read : γ → UInt8} {put : UInt8 → γ} {r : δ → UInt8}
  {p : UInt8 → δ} {g : γ → δ}

end Naturality

section Window

variable {stderr err : Bytes}

end Window

section Published

variable {vs : List Bytes} {host phase stderr err v : Bytes}

end Published

namespace Sample

end Sample

end KarpenterProviderSsh.Exec
