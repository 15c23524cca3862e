import KarpenterProviderSsh.Codec.Framing
import KarpenterProviderSsh.Shim.Gate

/-! The controller's own check of a phase script's SSHSIG, before it connects. -/

namespace KarpenterProviderSsh.Signatures

open Codec.Framing
open Shim (Bytes utf8)

structure Signature where
  format : Bytes
  blob : Bytes
  rest : Bytes := []
deriving DecidableEq, Repr

/-- What the verifier takes from `encoding/pem`, `x/crypto/ssh`, the hash packages and `fmt`
(`quote` is the `%q` verb). A PEM block is its type and its bytes. -/
structure Lib where
  Key : Type
  pemDecode : Bytes → Option (Bytes × Bytes)
  parsePublicKey : Bytes → Except Bytes Key
  marshal : Key → Bytes
  verify : Key → Bytes → Signature → Except Bytes Unit
  sha256 : Bytes → Bytes
  sha512 : Bytes → Bytes
  quote : Bytes → Bytes

def require (p : Prop) [Decidable p] (message : Bytes) : Except Bytes Unit :=
  if p then .ok () else .error message

def wrap {α : Type} (what : String) : Except Bytes α → Except Bytes α :=
  Except.mapError (utf8 (what ++ ": ") ++ ·)

def defaultSignNamespace : Bytes := utf8 "kpssh"

def sshsigMagic : Bytes := utf8 "SSHSIG"

def readSSHString (b : Bytes) : Except Bytes (Bytes × Bytes) :=
  match uint32 b with
  | none => .error (utf8 "truncated length prefix")
  | some (n, b) =>
    if b.length < n then .error (utf8 "truncated string body") else .ok (b.take n, b.drop n)

/-- `uint32(len(s))` wraps at 2^32, as `frame` does. -/
def appendSSHString (dst s : Bytes) : Bytes := dst ++ frame s

def signatureAlgorithms : List Bytes :=
  [utf8 "ssh-ed25519", utf8 "rsa-sha2-256", utf8 "rsa-sha2-512", utf8 "ecdsa-sha2-nistp256",
      utf8 "ecdsa-sha2-nistp384",
    utf8 "ecdsa-sha2-nistp521", utf8 "sk-ssh-ed25519@openssh.com",
    utf8 "sk-ecdsa-sha2-nistp256@openssh.com"]

structure Fields where
  publickey : Bytes
  ns : Bytes
  hash : Bytes
  signature : Bytes
deriving DecidableEq, Repr

/-- The blob inside the armor. The reserved string and what follows the signature are dropped. -/
def readFields (b : Bytes) : Except Bytes Fields := do
  require (10 ≤ b.length ∧ b.take 6 = sshsigMagic) (utf8 "sshsig: bad magic")
  let version := ((uint32 (b.drop 6)).map Prod.fst).getD 0
  require (version = 1) (utf8 "sshsig: unsupported version " ++ utf8 (toString version))
  let (pkBytes, rest) ← wrap "sshsig: publickey" (readSSHString (b.drop 10))
  let (nsBytes, rest) ← wrap "sshsig: namespace" (readSSHString rest)
  let (_, rest) ← wrap "sshsig: reserved" (readSSHString rest)
  let (hashBytes, rest) ← wrap "sshsig: hash_algorithm" (readSSHString rest)
  let (sigBytes, _) ← wrap "sshsig: signature" (readSSHString rest)
  return ⟨pkBytes, nsBytes, hashBytes, sigBytes⟩

def preimage (ns hash mh : Bytes) : Bytes :=
  appendSSHString (appendSSHString (appendSSHString (appendSSHString sshsigMagic ns) []) hash) mh

def effective (ns : Bytes) : Bytes := if ns = [] then defaultSignNamespace else ns

namespace Lib

variable (L : Lib)

def digest (hash message : Bytes) : Except Bytes Bytes :=
  if hash = utf8 "sha256" then .ok (L.sha256 message)
  else if hash = utf8 "sha512" then .ok (L.sha512 message)
  else .error (utf8 "sshsig: unsupported hash " ++ L.quote hash)

/-- A nil entry of the list never matches. -/
def authorized (allowed : List (Option L.Key)) (pub : L.Key) : Bool :=
  allowed.any fun a => a.any fun a => L.marshal a = L.marshal pub

/-- The inner signature: its format and blob, with nothing read after them. -/
def readSignature (sigBytes : Bytes) : Except Bytes Signature := do
  let (sigFormat, srest) ← wrap "sshsig: inner signature format" (readSSHString sigBytes)
  let (sigBlob, _) ← wrap "sshsig: inner signature blob" (readSSHString srest)
  require (sigFormat ∈ signatureAlgorithms)
    (utf8 "sshsig: signature algorithm " ++ L.quote sigFormat ++ utf8 " is not permitted")
  return { format := sigFormat, blob := sigBlob }

def verifySSHSIG (message armored : Bytes) (allowed : List (Option L.Key)) (ns : Bytes) :
    Except Bytes Unit := do
  let ns := effective ns
  require (allowed.length ≠ 0) (utf8 "sshsig: no trusted signers configured")
  let blk := L.pemDecode armored
  require (blk.map Prod.fst = some (utf8 "SSH SIGNATURE"))
    (utf8 "sshsig: not an armored SSH signature")
  let f ← readFields ((blk.map Prod.snd).getD [])
  require (f.ns = ns) (utf8 "sshsig: namespace " ++ L.quote f.ns ++ utf8 ", want " ++ L.quote ns)
  let pub ← wrap "sshsig: parse publickey" (L.parsePublicKey f.publickey)
  require (L.authorized allowed pub = true) (utf8 "sshsig: signer not in the trusted set")
  let mh ← L.digest f.hash message
  let sig ← L.readSignature f.signature
  wrap "sshsig: signature verification failed" (L.verify pub (preimage f.ns f.hash mh) sig)

end Lib

section Steps

variable {α β : Type} {p : Prop} [Decidable p] {e : Bytes}

@[simp] lemma require_ok {u : Unit} : require p e = .ok u ↔ p := by
  by_cases hp : p <;> simp [require, hp]

@[simp] lemma wrap_ok {what : String} {x : Except Bytes α} {a : α} :
    wrap what x = .ok a ↔ x = .ok a := by
  cases x <;> simp [wrap, Except.mapError]

@[simp] lemma bind_ok {x : Except Bytes α} {f : α → Except Bytes β} {b : β} :
    x >>= f = .ok b ↔ ∃ a, x = .ok a ∧ f a = .ok b := by
  cases x <;> simp [bind, Except.bind]

lemma readSSHString_ok {b s t : Bytes} : readSSHString b = .ok (s, t) ↔ b = frame s ++ t ∧
    s.length < 2 ^ 32 := by
  constructor
  · intro h
    unfold readSSHString at h
    cases hu : uint32 b with
    | none => simp [hu] at h
    | some v =>
      obtain ⟨n, r⟩ := v
      obtain ⟨rfl, hn⟩ := uint32_some hu
      simp only [hu] at h
      split at h
      · cases h
      · obtain ⟨rfl, rfl⟩ := Prod.mk.inj (Except.ok.inj h)
        have hl : (r.take n).length = n := by
          rw [List.length_take]
          omega
        refine ⟨?_, by omega⟩
        rw [frame, hl, List.append_assoc, List.take_append_drop]
  · rintro ⟨rfl, hs⟩
    rw [readSSHString, frame, List.append_assoc, uint32_be32, Nat.mod_eq_of_lt hs]
    simp

end Steps

end KarpenterProviderSsh.Signatures
