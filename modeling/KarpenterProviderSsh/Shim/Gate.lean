import KarpenterProviderSsh.Shell.Patterns
import KarpenterProviderSsh.Interleaving.Traces

/-! `kpssh-shim`, the forced command of a Verified host: it reads an envelope on stdin, has the
signature over the script verified, exports the params and runs the script. -/

namespace KarpenterProviderSsh.Shim

open Shell Interleaving

abbrev Bytes := List UInt8

instance : LawfulBEq Bytes := inferInstanceAs (LawfulBEq (List UInt8))

def utf8 (s : String) : Bytes := s.toUTF8.data.toList

abbrev Env := List (Bytes × Bytes)

def setVar (env : Env) (v : Bytes × Bytes) : Env := v :: env.filter (fun u => u.1 ≠ v.1)

/-- `${name:-word}` -/
def varOr (env : Env) (name word : Bytes) : Bytes :=
  match env.find? (fun u => u.1 = name) with
  | some (_, v) => if v = [] then word else v
  | none => word

/-- The shell drops NUL bytes as it reads. -/
def inputLines (s : Bytes) : List Bytes := lines 10 (· = 0) s

structure Fields where
  ver : Bytes := []
  phase : Bytes := []
  params_b64 : Bytes := []
  sig_b64 : Bytes := []
  script_b64 : Bytes := []
deriving DecidableEq, Repr

def startsWith (name line : Bytes) : Bool := Glob.fits (Glob.quoted name ++ [.star]) line

def header (f : Fields) (line : Bytes) : Fields :=
  if startsWith (utf8 "kpssh-envelope: ") line then
    { f with ver := dropHead (Glob.quoted (utf8 "kpssh-envelope: ")) line }
  else if startsWith (utf8 "phase: ") line then
    { f with phase := dropHead (Glob.quoted (utf8 "phase: ")) line }
  else if startsWith (utf8 "params-b64: ") line then
    { f with params_b64 := dropHead (Glob.quoted (utf8 "params-b64: ")) line }
  else if startsWith (utf8 "sig-b64: ") line then
    { f with sig_b64 := dropHead (Glob.quoted (utf8 "sig-b64: ")) line }
  else if startsWith (utf8 "script-b64: ") line then
    { f with script_b64 := dropHead (Glob.quoted (utf8 "script-b64: ")) line }
  else f

def parse (stdin : Bytes) : Fields := (inputLines stdin).foldl header {}

inductive Decoder
  | gnu
  | bsd
  | openssl
deriving DecidableEq, Repr

inductive File
  | script
  | sig
  | params
deriving DecidableEq, Repr

inductive Fact
  | nproc
  | memTotal
  | machine
  | kubelet
deriving DecidableEq, Repr

inductive Cmd
  | id
  | sudo
  | tryDecoder (d : Decoder)
  | decode (d : Decoder) (b64 : Bytes) (file : File)
  | fact (f : Fact)
  | mktemp (template : Bytes)
  | sshKeygen (signers principal scope sig script : Bytes)
  | bash (script : Bytes) (env : Env)
  | printf (line : Bytes)
  | rm
deriving DecidableEq, Repr

/-- How they end. `sudo` exits with 1 or starts the shim anew as root, in an environment of its
choice. -/
abbrev Ans : Cmd → Type
  | .id | .fact _ | .bash _ _ | .printf _ | .rm => ℕ
  | .sudo => Option Env
  | .tryDecoder _ | .mktemp _ => Bool
  | .decode _ _ _ => Option Bytes
  | .sshKeygen _ _ _ _ _ => Bool × Bytes

abbrev Sh := Prog Cmd Ans

def run (c : Cmd) : Sh (Ans c) := Prog.request c

def log (message : Bytes) : Sh ℕ := run (.printf (utf8 "kpssh-shim: " ++ message))

-- under `set -e` a log line that cannot be written ends the shim with that status
def die (status : ℕ) (message : Bytes) : Sh ℕ := do
  let rc ← log message
  return if rc = 0 then status else rc

def pickDecoder : Sh (Option Decoder) := do
  if (← run (.tryDecoder .gnu)) = true then return some .gnu
  else if (← run (.tryDecoder .bsd)) = true then return some .bsd
  else if (← run (.tryDecoder .openssl)) = true then return some .openssl
  else return none

def probe : Sh ℕ := do
  let rc ← run (.fact .nproc)
  if rc ≠ 0 then return rc else
  let rc ← run (.fact .memTotal)
  if rc ≠ 0 then return rc else
  let rc ← run (.fact .machine)
  if rc ≠ 0 then return rc else
  let _ ← run (.fact .kubelet)
  return 0

def nameChar (c : UInt8) : Bool :=
  (65 ≤ c && c ≤ 90) || (97 ≤ c && c ≤ 122) || (48 ≤ c && c ≤ 57) || c == 95

def hasEquals (p : Bytes) : Bool := Glob.fits [.star, .one (· = 61), .star] p

def paramKey (p : Bytes) : Bytes := dropTails [.one (· = 61), .star] p

def hasStem (k : Bytes) : Bool :=
  Glob.fits (Glob.quoted (utf8 "KPSSH_") ++ [.one (fun _ => true), .star]) k

def hasForeign (k : Bytes) : Bool := Glob.fits [.star, .one (fun c => !nameChar c), .star] k

def exportParams (env : Env) : List Bytes → Sh (Except ℕ Env)
  | [] => return .ok env
  | p :: ps =>
    if p = [] then exportParams env ps
    else if hasEquals p = false then do
      return .error (← die 3 (utf8 "param missing '=': " ++ p))
    else if hasStem (paramKey p) = false then do
      return .error (← die 3 (utf8 "param name must start with KPSSH_: " ++ paramKey p))
    else if hasForeign (paramKey p) = true then do
      return .error (← die 3 (utf8 "invalid param name: " ++ paramKey p))
    else exportParams (setVar env (paramKey p, p.drop ((paramKey p).length + 1))) ps

def unsetNames : List Bytes :=
  ["BASH_ENV", "ENV", "BASHOPTS", "SHELLOPTS", "PS4", "LD_PRELOAD", "LD_LIBRARY_PATH", "IFS",
      "GLOBIGNORE"].map utf8

/-- Names that /bin/sh keeps readonly are `locked` and survive the unset. -/
def unsetVars (locked : List Bytes) (env : Env) : Env :=
  env.filter (fun u => u.1 ∉ unsetNames ∨ u.1 ∈ locked)

def runScript (locked : List Bytes) (env : Env) (script : Bytes) : Sh ℕ := do
  let rc ← run (.bash script (unsetVars locked env))
  if rc = 0 then return 0
  else die 10 (utf8 "script exited " ++ utf8 (toString rc))

def applyParams (locked : List Bytes) (env : Env) (d : Decoder) (f : Fields) (script : Bytes) :
    Sh ℕ := do
  if f.params_b64 = [] then runScript locked env script
  else
    match ← run (.decode d f.params_b64 .params) with
    | none => die 4 (utf8 "params decode failed")
    | some ps =>
      match ← exportParams env (inputLines ps) with
      | .error n => return n
      | .ok env' => runScript locked env' script

def signers (env : Env) : Bytes :=
  varOr env (utf8 "KPSSH_ALLOWED_SIGNERS") (utf8 "/etc/kpssh/allowed_signers")
def scope (env : Env) : Bytes := varOr env (utf8 "KPSSH_NAMESPACE") (utf8 "kpssh")
def principal (env : Env) : Bytes := varOr env (utf8 "KPSSH_PRINCIPAL") (utf8 "kpssh")

def rejected (reason : Bytes) : Sh ℕ := do
  if reason = [] then die 2 (utf8 "signature rejected")
  else
    let rc ← log (utf8 "verify: " ++ reason)
    if rc = 0 then die 2 (utf8 "signature rejected") else return rc

def verify (locked : List Bytes) (env : Env) (d : Decoder) (f : Fields) : Sh ℕ := do
  match ← run (.decode d f.script_b64 .script) with
  | none => die 4 (utf8 "script decode failed")
  | some script =>
    match ← run (.decode d f.sig_b64 .sig) with
    | none => die 4 (utf8 "signature decode failed")
    | some sig =>
      match ← run (.sshKeygen (signers env) (principal env) (scope env) sig script) with
      | (true, _) => applyParams locked env d f script
      | (false, reason) => rejected reason

def signed (locked : List Bytes) (env : Env) (d : Decoder) (f : Fields) : Sh ℕ := do
  if f.sig_b64 = [] then die 4 (utf8 "missing signature for phase " ++ f.phase)
  else if f.script_b64 = [] then die 4 (utf8 "missing script for phase " ++ f.phase)
  else
    let made ← run (.mktemp (varOr env (utf8 "TMPDIR") (utf8 "/tmp") ++ utf8 "/kpssh.XXXXXX"))
    if made = false then die 1 (utf8 "mktemp failed")
    else
      -- the EXIT trap removes the directory; its failure becomes the exit status
      let n ← verify locked env d f
      let rc ← run .rm
      return if rc = 0 then n else rc

def signedPhases : List Bytes := ["install", "join", "leave", "uninstall", "reboot"].map utf8

def execute (locked : List Bytes) (env : Env) (stdin : Bytes) : Sh ℕ := do
  match ← pickDecoder with
  | none => die 1 (utf8 "no base64 decoder")
  | some d =>
    let f := parse stdin
    if f.ver ≠ utf8 "1" then die 4 (utf8 "unsupported or missing envelope version")
    else if f.phase = [] then die 4 (utf8 "missing phase")
    else if f.phase = utf8 "probe" then probe
    else if f.phase ∉ signedPhases then die 5 (utf8 "unknown phase: " ++ f.phase)
    else signed locked env d f

def kpsshShim (locked : List Bytes) (env : Env) (stdin : Bytes) : Sh ℕ := do
  if varOr env (utf8 "KPSSH_SHIM_SUDO") (utf8 "1") = utf8 "1" then
    let uid ← run .id
    if uid ≠ 0 then
      match ← run .sudo with
      | none => return 1
      | some env' => execute locked env' stdin
    else execute locked env stdin
  else execute locked env stdin

end KarpenterProviderSsh.Shim
