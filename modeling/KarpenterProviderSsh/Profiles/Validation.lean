import KarpenterProviderSsh.Runs.Jobs
import KarpenterProviderSsh.Templates.Semantics

/-! `profile.Validate` renders `leave` and `reboot` against the empty context, while the release
path and the zombie guard render them against the host's two addresses. -/

namespace KarpenterProviderSsh.Profiles

open Api Cluster Scripts Templates

def parseScripts (X : Externals) (p : SSHJoinProfile) : List ScriptPhase → Except Err Unit
  | [] => .ok ()
  | phase :: rest =>
    let raw := script p phase
    if raw = "" then
      if phase = .uninstall ∨ phase = .reboot then parseScripts X p rest
      else .error { message := "profile " ++ p.name ++ " has no " ++ phase.text ++ " script" }
    else
      match X.parse phase.text raw with
      | .error e => .error { message := "parsing " ++ phase.text ++ " script: " ++ e }
      | .ok _ => parseScripts X p rest

def validate (X : Externals) (p : SSHJoinProfile) : Except Err Unit :=
  match parseScripts X p [.install, .join, .leave, .uninstall, .reboot] with
  | .error e => .error e
  | .ok () =>
    match render X p .leave {} with
    | .error e => .error (e.wrap
      "leave script must render without a node class (it runs on release and zombie-guard paths): ")
    | .ok _ =>
      if script p .reboot ≠ "" then
        match render X p .reboot {} with
        | .error e => .error (e.wrap
            "reboot script must render without a node class (repair runs it with the host alone): ")
        | .ok _ => .ok ()
      else .ok ()

def data (c : Context) : Value :=
  .record [
    ("ClusterEndpoint", .text c.clusterEndpoint),
    ("ClusterCACert", .text c.clusterCACert),
    ("BootstrapToken", .text ((c.bootstrapToken.map BootstrapToken.text).getD "")),
    ("NodeName", .text c.nodeName),
    ("ProviderID", .text c.providerID),
    ("NodeLabels", .text c.nodeLabels),
    ("RegisterWithTaints", .text c.registerWithTaints),
    ("HostAddress", .text c.hostAddress),
    ("NodeAddress", .text c.nodeAddress),
    ("Vars", .dict c.vars),
    ("Secrets", .dict c.secrets)]

/-- The provider with the template engine written out; only the parser stays a parameter. -/
def engine (X : Externals) (parse : String → String → Except String Template) : Externals :=
  { X with
    Template := Template
    parse := parse
    execute := fun t c => (t.exec (data c) (data c)).mapError Fault.text }

def addresses (a n : String) : Context := { hostAddress := a, nodeAddress := n }

def Leavable (X : Externals) (p : SSHJoinProfile) (c : Context) : Prop :=
  (∃ text, render X p .leave c = .ok text) ∧
    (script p .reboot ≠ "" → ∃ text, render X p .reboot c = .ok text)

variable {X : Externals} {parse : String → String → Except String Template} {p : SSHJoinProfile}

lemma execute_ok_iff {t : Template} {c : Context} :
    (∃ text, (engine X parse).execute t c = .ok text) ↔ Succeeds (t.exec (data c) (data c)) := by
  simp only [engine, Succeeds]
  cases t.exec (data c) (data c) with
  | error e => exact ⟨nofun, nofun⟩
  | ok text => exact ⟨fun _ => ⟨text, rfl⟩, fun _ => ⟨text, rfl⟩⟩

lemma render_ok_iff {phase : ScriptPhase} {c : Context} :
    (∃ text, render X p phase c = .ok text) ↔
      phase ≠ .probe ∧ script p phase ≠ "" ∧
        ∃ tpl, X.parse phase.text (script p phase) = .ok tpl ∧
        ∃ text, X.execute tpl c = .ok text := by
  unfold render
  by_cases hp : phase = .probe
  · simp [hp]
  by_cases hs : script p phase = ""
  · simp [hp, hs]
  cases ht : X.parse phase.text (script p phase) with
  | error e => simp [hp, hs, ht]
  | ok tpl =>
    cases he : X.execute tpl c with
    | error e => simp [hp, hs, ht, he]
    | ok text => simp [hp, hs, ht, he]

lemma similar_addresses {a n a' n' : String} (ha : a = "" ↔ a' = "") (hn : n = "" ↔ n' = "") :
    (data (addresses a n)).Similar (data (addresses a' n')) := by
  refine .record ?_
  simp only [addresses, List.forall₂_cons, true_and, List.forall₂_nil_left_iff, and_true]
  exact ⟨.refl _, .refl _, .refl _, .refl _, .refl _, .refl _, .refl _, .text ha, .text hn, .refl _,
    .refl _⟩

lemma render_addresses_iff {phase : ScriptPhase} {a n a' n' : String} (ha : a = "" ↔ a' = "")
    (hn : n = "" ↔ n' = "") :
    (∃ text, render (engine X parse) p phase (addresses a n) = .ok text) ↔
      ∃ text, render (engine X parse) p phase (addresses a' n') = .ok text := by
  have hs := similar_addresses ha hn
  have hex (t : Template) := (t.exec_together hs hs).succeeds_iff
  simp only [render_ok_iff]
  refine and_congr_right fun _ => and_congr_right fun _ => exists_congr fun t => ?_
  exact and_congr_right fun _ => execute_ok_iff.trans ((hex t).trans execute_ok_iff.symm)

lemma leavable_iff {a n a' n' : String} (ha : a = "" ↔ a' = "") (hn : n = "" ↔ n' = "") :
    Leavable (engine X parse) p (addresses a n) ↔ Leavable (engine X parse) p (addresses a' n') :=
  and_congr (render_addresses_iff ha hn) (imp_congr_right fun _ => render_addresses_iff ha hn)

lemma leavable_of_validate (hv : validate X p = .ok ()) : Leavable X p {} := by
  unfold validate at hv
  split at hv
  · exact absurd hv nofun
  · split at hv
    · exact absurd hv nofun
    · rename_i text hl
      refine ⟨⟨text, hl⟩, fun hs => ?_⟩
      rw [if_pos hs] at hv
      split at hv
      · exact absurd hv nofun
      · rename_i text hr
        exact ⟨text, hr⟩

/-- A validated profile can be left from every host exactly when `leave` and `reboot` also render
with some host address set, some node address set, and both. -/
theorem validated_profile_leavable_iff (hv : validate (engine X parse) p = .ok ()) :
    (∀ a n, Leavable (engine X parse) p (addresses a n)) ↔
      ∀ c ∈ [addresses "x" "", addresses "" "x", addresses "x" "x"],
        Leavable (engine X parse) p c := by
  have hx : "x" ≠ "" := by decide
  constructor
  · intro h c hc
    simp only [List.mem_cons, List.not_mem_nil, or_false] at hc
    obtain rfl | rfl | rfl := hc
    · exact h "x" ""
    · exact h "" "x"
    · exact h "x" "x"
  · intro h a n
    have he : Leavable (engine X parse) p (addresses "" "") := leavable_of_validate hv
    -- the four cases are which of the two addresses is empty
    by_cases ha : a = "" <;> by_cases hn : n = ""
    · exact (leavable_iff (by simp [ha]) (by simp [hn])).mpr he
    · exact (leavable_iff (by simp [ha]) (by simp [hn, hx])).mpr (h (addresses "" "x") (by simp))
    · exact (leavable_iff (by simp [ha, hx]) (by simp [hn])).mpr (h (addresses "x" "") (by simp))
    · exact (leavable_iff (by simp [ha, hx]) (by simp [hn, hx])).mpr
        (h (addresses "x" "x") (by simp))

namespace Sample

def guarded : String := "\x7b\x7bif .HostAddress\x7d\x7d\x7b\x7b.Vars.x\x7d\x7d\x7b\x7bend\x7d\x7d"
def addressed : String := "disconnect \x7b\x7b.HostAddress\x7d\x7d"

def parsed (_phase raw : String) : Except String Template :=
  if raw = guarded then
    .ok (.ifElse ⟨false, ["HostAddress"]⟩ (.print ⟨false, ["Vars", "x"]⟩) .empty)
  else if raw = addressed then
    .ok (.seq (.text "disconnect ") (.print ⟨false, ["HostAddress"]⟩))
  else .ok (.text raw)

def naming : SSHJoinProfile where
  name := "p"
  version := "1"
  scripts := { install := "i", join := "j", leave := addressed, uninstall := "", reboot := "r" }
  signatures := none

def reaching : SSHJoinProfile :=
  { naming with scripts := { naming.scripts with leave := guarded } }

end Sample

open Sample

theorem validated_profile_leavable_iff_naming :
    validate (engine Runs.Sample.externals parsed) naming = .ok () ∧
      ∀ a n, Leavable (engine Runs.Sample.externals parsed) naming (addresses a n) := by
  have hv : validate (engine Runs.Sample.externals parsed) naming = .ok () := by decide +kernel
  refine ⟨hv, (validated_profile_leavable_iff hv).mpr fun c hc => ?_⟩
  simp only [List.mem_cons, List.not_mem_nil, or_false] at hc
  obtain rfl | rfl | rfl := hc <;> exact ⟨⟨_, rfl⟩, fun _ => ⟨_, rfl⟩⟩

/-- The guard keeps `Validate` out of the branch that every host's address enters. -/
theorem validated_profile_stuck :
    validate (engine Runs.Sample.externals parsed) reaching = .ok () ∧
      ∃ e, render (engine Runs.Sample.externals parsed) reaching .leave
        (addresses "10.0.0.1" "10.0.0.1") = .error e :=
  ⟨by decide +kernel, _, rfl⟩

end KarpenterProviderSsh.Profiles
