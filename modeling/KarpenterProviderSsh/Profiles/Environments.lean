import KarpenterProviderSsh.Scripts.Runners
import Mathlib.Tactic

/-! The environment of a phase script: three families of names in one map. -/

namespace KarpenterProviderSsh.Profiles

open Api Cluster Scripts

variable {c : Context} {env l seen : List (String × String)}

/-- `[-._A-Za-z0-9]+` -/
def secretKeyOk (key : String) : Bool :=
  !key.toList.isEmpty && key.toList.all (fun c => c.isAlphanum || c == '-' || c == '.' || c == '_')

def fixedEntries (c : Context) : List (String × String) := [
  ("KPSSH_CLUSTER_ENDPOINT", c.clusterEndpoint),
  ("KPSSH_CLUSTER_CA_B64", c.clusterCACert),
  ("KPSSH_BOOTSTRAP_TOKEN", (c.bootstrapToken.map BootstrapToken.text).getD ""),
  ("KPSSH_NODE_NAME", c.nodeName),
  ("KPSSH_PROVIDER_ID", c.providerID),
  ("KPSSH_NODE_LABELS", c.nodeLabels),
  ("KPSSH_TAINTS", c.registerWithTaints),
  ("KPSSH_HOST_ADDRESS", c.hostAddress),
  ("KPSSH_NODE_ADDRESS", c.nodeAddress)]

def fixedNames : List String :=
  ["KPSSH_CLUSTER_ENDPOINT", "KPSSH_CLUSTER_CA_B64", "KPSSH_BOOTSTRAP_TOKEN", "KPSSH_NODE_NAME",
      "KPSSH_PROVIDER_ID", "KPSSH_NODE_LABELS", "KPSSH_TAINTS", "KPSSH_HOST_ADDRESS",
  "KPSSH_NODE_ADDRESS"]

lemma fixedEntries_names : (fixedEntries c).map Prod.fst = fixedNames := rfl

def varEntries (vars : List (String × String)) : List (String × String) :=
  vars.map fun p => ("KPSSH_VAR_" ++ p.1, p.2)

def secretEntries (secrets : List (String × String)) : List (String × String) :=
  secrets.map fun p => (secretEnvName p.1, p.2)

section Assignments

lemma lookup_eq_none {m : List (String × String)} {k : String} : m.lookup k = none ↔
    k ∉ m.map Prod.fst := by
  rw [List.lookup_eq_none_iff, List.mem_map, not_exists]
  refine forall_congr' fun p => ?_
  rw [not_and, bne_iff_ne]
  exact imp_congr_right fun _ => ne_comm

lemma setEntry_fresh {k v : String} (hk : k ∉ env.map Prod.fst) :
    setEntry env k v = env ++ [(k, v)] := by
  rw [setEntry, lookup_eq_none.mpr hk]
  rfl

lemma foldl_setEntry (hn : ((env ++ l).map Prod.fst).Nodup) :
    l.foldl (fun env p => setEntry env p.1 p.2) env = env ++ l := by
  induction l generalizing env with
  | nil => simp
  | cons p l ih =>
    have hfresh : p.1 ∉ env.map Prod.fst := by
      rw [List.map_append, List.nodup_append] at hn
      exact fun hp => hn.2.2 _ hp p.1 (by simp) rfl
    rw [List.foldl_cons, setEntry_fresh hfresh, ih (by simpa using hn)]
    simp

def Untaken (seen l : List (String × String)) : Prop :=
  (l.map fun p => secretEnvName p.1).Nodup ∧ ∀ p ∈ l, secretEnvName p.1 ∉ seen.map Prod.fst

lemma untaken_cons {p : String × String} : Untaken seen (p :: l) ↔
    secretEnvName p.1 ∉ seen.map Prod.fst ∧ Untaken ((secretEnvName p.1, p.1) :: seen) l := by
  simp only [Untaken, List.map_cons, List.nodup_cons, List.mem_cons, forall_eq_or_imp,
    not_or, List.mem_map]
  grind

lemma addSecrets_error (hl : ¬ Untaken seen l) : ∃ e, addSecrets seen env l = .error e := by
  induction l generalizing seen env with
  | nil => exact absurd ⟨List.nodup_nil, by simp⟩ hl
  | cons p l ih =>
    rw [addSecrets]
    cases htaken : seen.lookup (secretEnvName p.1) with
    | some prev => exact ⟨_, rfl⟩
    | none => exact ih fun h => hl (untaken_cons.mpr ⟨lookup_eq_none.mp htaken, h⟩)

lemma addSecrets_ok (hl : Untaken seen l) (henv : ∀ p ∈ l, secretEnvName p.1 ∉ env.map Prod.fst) :
    addSecrets seen env l = .ok (env ++ secretEntries l) := by
  induction l generalizing seen env with
  | nil => simp [addSecrets, secretEntries]
  | cons p l ih =>
    obtain ⟨hfresh, hrest⟩ := untaken_cons.mp hl
    rw [addSecrets, lookup_eq_none.mpr hfresh]
    dsimp only
    rw [setEntry_fresh (henv p List.mem_cons_self), ih hrest ?_]
    · simp [secretEntries]
    · intro q hq
      have hne : secretEnvName q.1 ≠ secretEnvName p.1 :=
          fun h => hrest.2 q hq (h ▸ List.mem_cons_self)
      simpa using ⟨by simpa using henv q (List.mem_cons_of_mem _ hq), hne⟩

end Assignments

section Names

variable {key : String}

lemma accepted {rest : String} (hne : rest.toList ≠ [])
    (hrest : rest.toList.all isWordChar = true) :
    envNameOk ("KPSSH_" ++ rest) = true ∧ paramNameOk ("KPSSH_" ++ rest) = true := by
  have hlist : ("KPSSH_" ++ rest).toList = 'K' :: 'P' :: 'S' :: 'S' :: 'H' :: '_' ::
      rest.toList := by
    rw [String.toList_append]
    rfl
  constructor
  · rw [envNameOk, hlist]
    simpa [isWordChar] using hrest
  · rw [paramNameOk, hlist]
    simpa [hne] using hrest

lemma word_of_identifier (hk : envNameOk key = true) : key.toList.all isWordChar = true := by
  unfold envNameOk at hk
  split at hk
  · next c cs hlist =>
    rw [hlist, List.all_cons]
    simp only [Bool.and_eq_true, Bool.or_eq_true] at hk ⊢
    exact ⟨by rcases hk.1 with h | h <;> simp [isWordChar, Char.isAlphanum, h], hk.2⟩
  · cases hk

lemma accepted_var (hk : envNameOk key = true) :
    envNameOk ("KPSSH_VAR_" ++ key) = true ∧ paramNameOk ("KPSSH_VAR_" ++ key) = true := by
  have hname : "KPSSH_VAR_" ++ key = "KPSSH_" ++ ("VAR_" ++ key) := by
    rw [← String.append_assoc]
    rfl
  rw [hname]
  refine accepted (by simp) ?_
  rw [String.toList_append, List.all_append, word_of_identifier hk]
  rfl

lemma ascii_of_word {a : Char} (ha : a.isAlphanum = true ∨ a = '_') : a.toNat < 128 := by
  rcases ha with ha | rfl
  · delta Char.isAlphanum Char.isAlpha Char.isUpper Char.isLower at ha
    simp only [Char.isDigit, Bool.or_eq_true, Bool.and_eq_true, decide_eq_true_eq,
      UInt32.le_iff_toNat_le, ge_iff_le, Char.toNat] at ha ⊢
    have hZ : 'Z'.val.toNat = 90 := rfl
    have hz : 'z'.val.toNat = 122 := rfl
    have h9 : '9'.val.toNat = 57 := rfl
    omega
  · decide

lemma word_toUpper {a : Char} (ha : a.isAlphanum = true ∨ a = '_') :
    isWordChar a.toUpper = true := by
  have hall : ∀ n < 128, ((Char.ofNat n).isAlphanum = true ∨ Char.ofNat n = '_') →
      isWordChar (Char.ofNat n).toUpper = true := by
    decide +kernel
  have hword := hall a.toNat (ascii_of_word ha)
  rw [Char.ofNat_toNat] at hword
  exact hword ha

lemma accepted_secret (hk : secretKeyOk key = true) :
    envNameOk (secretEnvName key) = true ∧ paramNameOk (secretEnvName key) = true := by
  simp only [secretKeyOk, Bool.and_eq_true, Bool.or_eq_true, List.all_eq_true, beq_iff_eq] at hk
  rw [secretEnvName, show "KPSSH_SECRET_" = "KPSSH_" ++ "SECRET_" from rfl, String.append_assoc]
  refine accepted (by simp) ?_
  rw [String.toList_append, List.all_append, Bool.and_eq_true, String.toList_map, List.all_map]
  refine ⟨rfl, List.all_eq_true.mpr fun a ha => ?_⟩
  rw [Function.comp_apply]
  split_ifs with hdash
  · decide
  · rcases hk.2 a ha with ((halnum | hd) | hd) | hunder
    · exact word_toUpper (.inl halnum)
    · exact absurd (.inl hd) hdash
    · exact absurd (.inr hd) hdash
    · exact word_toUpper (.inr hunder)

lemma fixed_apart : ∀ n ∈ fixedNames, ¬ "KPSSH_VAR_".toList <+: n.toList ∧
    ¬ "KPSSH_SECRET_".toList <+: n.toList := by
  decide

lemma fixed_accepted : ∀ n ∈ fixedNames, envNameOk n = true ∧ paramNameOk n = true := by
  decide

lemma var_not_fixed : "KPSSH_VAR_" ++ key ∉ fixedNames := by
  intro h
  exact (fixed_apart _ h).1 (by simp)

lemma secret_not_fixed : secretEnvName key ∉ fixedNames := by
  intro h
  exact (fixed_apart _ h).2 (by simp [secretEnvName])

lemma var_ne_secret (a b : String) : "KPSSH_VAR_" ++ a ≠ secretEnvName b := by
  intro h
  simpa [secretEnvName] using congrArg String.toList h

lemma var_injective : Function.Injective ("KPSSH_VAR_" ++ ·) := by
  intro a b h
  exact String.toList_inj.mp (by simpa using congrArg String.toList h)

end Names

section Assembly

variable {vars secrets : List (String × String)}

lemma mem_varNames {n : String} : n ∈ (varEntries vars).map Prod.fst ↔ ∃ p ∈ vars, "KPSSH_VAR_" ++
    p.1 = n := by
  simp [varEntries]

lemma mem_secretNames {n : String} : n ∈ (secretEntries secrets).map Prod.fst ↔
    ∃ p ∈ secrets, secretEnvName p.1 = n := by
  simp [secretEntries]

lemma names_nodup (hv : (vars.map Prod.fst).Nodup)
    (hs : (secrets.map fun p => secretEnvName p.1).Nodup) :
    ((fixedEntries c ++ (varEntries vars ++ secretEntries secrets)).map Prod.fst).Nodup := by
  have hvars : ((varEntries vars).map Prod.fst).Nodup := by
    simpa [varEntries, Function.comp_def] using hv.map var_injective
  have hsecrets : ((secretEntries secrets).map Prod.fst).Nodup := by
    simpa [secretEntries, Function.comp_def] using hs
  rw [List.map_append, List.map_append, fixedEntries_names]
  refine List.Nodup.append (by decide) (hvars.append hsecrets ?_) ?_
  · intro n hn hn'
    obtain ⟨p, _, rfl⟩ := mem_varNames.mp hn
    obtain ⟨q, _, hq⟩ := mem_secretNames.mp hn'
    exact var_ne_secret _ _ hq.symm
  · intro n hn hn'
    rcases List.mem_append.mp hn' with hn' | hn'
    · obtain ⟨p, _, rfl⟩ := mem_varNames.mp hn'
      exact var_not_fixed hn
    · obtain ⟨p, _, rfl⟩ := mem_secretNames.mp hn'
      exact secret_not_fixed hn

lemma env_eq (hv : (c.vars.map Prod.fst).Nodup) :
    c.env = addSecrets [] (fixedEntries c ++ varEntries c.vars) (sortedEntries c.secrets) := by
  have hnames : ((fixedEntries c ++ varEntries c.vars).map Prod.fst).Nodup := by
    have hnone : (([] : List (String × String)).map fun p => secretEnvName p.1).Nodup :=
      List.nodup_nil
    simpa [secretEntries] using names_nodup (c := c) hv hnone
  rw [← foldl_setEntry hnames, varEntries, List.foldl_map]
  rfl

lemma sorted_perm : (sortedEntries secrets).Perm secrets := List.perm_insertionSort _ _

lemma env_ok (hv : (c.vars.map Prod.fst).Nodup)
    (hs : (c.secrets.map fun p => secretEnvName p.1).Nodup) :
    c.env = .ok (fixedEntries c ++ varEntries c.vars ++
      secretEntries (sortedEntries c.secrets)) := by
  have hsorted : ((sortedEntries c.secrets).map fun p => secretEnvName p.1).Nodup :=
    (sorted_perm.map _).nodup_iff.mpr hs
  have hnames := names_nodup (c := c) hv hsorted
  rw [← List.append_assoc, List.map_append, List.nodup_append] at hnames
  rw [env_eq hv]
  refine addSecrets_ok ⟨hsorted, by simp⟩ fun p hp hm => ?_
  exact hnames.2.2 _ hm _ (mem_secretNames.mpr ⟨p, hp, rfl⟩) rfl

lemma env_error (hv : (c.vars.map Prod.fst).Nodup)
    (hs : ¬ (c.secrets.map fun p => secretEnvName p.1).Nodup) :
    ∃ e, c.env = .error e := by
  rw [env_eq hv]
  exact addSecrets_error fun h => hs ((sorted_perm.map _).nodup_iff.mp h.1)

lemma secretNames_nodup (hs : (secrets.map Prod.fst).Nodup) :
    (secrets.map fun p => secretEnvName p.1).Nodup ↔
    ¬ ∃ p ∈ secrets, ∃ q ∈ secrets, p.1 ≠ q.1 ∧ secretEnvName p.1 = secretEnvName q.1 := by
  have hmap :
      (secrets.map fun p => secretEnvName p.1) = (secrets.map Prod.fst).map secretEnvName := by simp
  rw [hmap, List.nodup_map_iff_inj_on hs]
  simp only [List.forall_mem_map, not_exists, not_and]
  grind

end Assembly

section Executors

variable {env : List (String × String)}

lemma run_accepted (henv : ∀ p ∈ env, envNameOk p.1 = true) (k : NamespacedName)
    (phase : ScriptPhase) (target : Target) (text : String) :
    run k phase target text env = session k phase target (.script text env) := by
  have hnone : (sortedEntries env).find? (fun p => !envNameOk p.1) = none := by
    refine List.find?_eq_none.mpr fun p hp => ?_
    simp [henv p (sorted_perm.subset hp)]
  rw [run, hnone]

lemma check_accepted (henv : ∀ p ∈ env, paramNameOk p.1 = true) {e : Envelope}
    (he : e.params = env) {err : Err} (hc : Envelope.check e = .error err) :
    (e.phase ≠ .probe ∧ (e.script = "" ∨ e.sig = "")) ∨ ∃ p ∈ env, '\n' ∈ p.2.toList := by
  unfold Envelope.check at hc
  split_ifs at hc with hscript
  · exact .inl hscript
  · split at hc
    · next p hfind =>
      have hm : p ∈ env := he ▸ sorted_perm.subset (List.mem_of_find?_eq_some hfind)
      have hbad := List.find?_some hfind
      rw [henv p hm] at hbad
      exact .inr ⟨p, hm, by simpa using hbad⟩
    · cases hc

end Executors

lemma entries_accepted (hvk : ∀ p ∈ c.vars, envNameOk p.1 = true)
    (hsk : ∀ p ∈ c.secrets, secretKeyOk p.1 = true) :
    ∀ p ∈ fixedEntries c ++ varEntries c.vars ++ secretEntries c.secrets,
      envNameOk p.1 = true ∧ paramNameOk p.1 = true := by
  intro p hp
  rcases List.mem_append.mp hp with hp | hp
  · rcases List.mem_append.mp hp with hp | hp
    · exact fixed_accepted _ (List.mem_map_of_mem hp)
    · obtain ⟨q, hq, rfl⟩ := List.mem_map.mp hp
      exact accepted_var (hvk q hq)
  · obtain ⟨q, hq, rfl⟩ := List.mem_map.mp hp
    exact accepted_secret (hsk q hq)

/-- Env fails exactly on two secrets of one name. Otherwise every entry is in the map, none over
another, whatever the order the two maps are ranged over, and neither executor refuses a name. -/
theorem environment_assembled (c : Context) (vars secrets : List (String × String))
    (hvars : vars.Perm c.vars) (hsecrets : secrets.Perm c.secrets)
    (hv : (c.vars.map Prod.fst).Nodup) (hs : (c.secrets.map Prod.fst).Nodup)
    (hvk : ∀ p ∈ c.vars, envNameOk p.1 = true) (hsk : ∀ p ∈ c.secrets, secretKeyOk p.1 = true) :
    ((∃ e, { c with vars := vars, secrets := secrets }.env = .error e) ↔
      ∃ p ∈ c.secrets, ∃ q ∈ c.secrets, p.1 ≠ q.1 ∧ secretEnvName p.1 = secretEnvName q.1) ∧
    ∀ env, { c with vars := vars, secrets := secrets }.env = .ok env →
      env.Perm (fixedEntries c ++ varEntries c.vars ++ secretEntries c.secrets) ∧
      (env.map Prod.fst).Nodup ∧ (∀ p ∈ env, envNameOk p.1 = true ∧ paramNameOk p.1 = true) ∧
      (∀ k phase target text, run k phase target text env = session k phase target
        (.script text env)) ∧
      ∀ e : Envelope, e.params = env → ∀ err, Envelope.check e = .error err →
        (e.phase ≠ .probe ∧ (e.script = "" ∨ e.sig = "")) ∨ ∃ p ∈ env, '\n' ∈ p.2.toList := by
  have hv' : (vars.map Prod.fst).Nodup := (hvars.map _).nodup_iff.mpr hv
  have hnames : (secrets.map fun p => secretEnvName p.1).Nodup ↔
      (c.secrets.map fun p => secretEnvName p.1).Nodup :=
    (hsecrets.map _).nodup_iff
  by_cases hn : (secrets.map fun p => secretEnvName p.1).Nodup
  · have hok := env_ok (c := { c with vars := vars, secrets := secrets }) hv' hn
    have hperm : (fixedEntries c ++ varEntries vars ++ secretEntries (sortedEntries secrets)).Perm
        (fixedEntries c ++ varEntries c.vars ++ secretEntries c.secrets) :=
      ((hvars.map _).append_left _).append ((sorted_perm.trans hsecrets).map _)
    refine ⟨⟨fun ⟨e, he⟩ => ?_, fun hdup => ?_⟩, fun env henv => ?_⟩
    · cases hok.symm.trans he
    · exact absurd hdup ((secretNames_nodup hs).mp (hnames.mp hn))
    · obtain rfl := Except.ok.inj (hok.symm.trans henv)
      have haccepted := fun p hp => entries_accepted hvk hsk p (hperm.subset hp)
      refine ⟨hperm, ?_, haccepted, run_accepted fun p hp => (haccepted p hp).1,
        fun e he err hc => ?_⟩
      · refine (hperm.map Prod.fst).nodup_iff.mpr ?_
        rw [List.append_assoc]
        exact names_nodup hv (hnames.mp hn)
      · exact check_accepted (fun p hp => (haccepted p hp).2) he hc
  · obtain ⟨e, he⟩ := env_error (c := { c with vars := vars, secrets := secrets }) hv' hn
    refine ⟨⟨fun _ => ?_, fun _ => ⟨e, he⟩⟩, fun env henv => ?_⟩
    · exact not_not.mp ((secretNames_nodup hs).not.mp (hnames.not.mp hn))
    · cases he.symm.trans henv

def keyed : Context where
  nodeName := "n"
  vars := [("pool", "a"), ("_z", "b")]
  secrets := [("tls.key", "one"), ("api-token", "two")]

lemma secretEnvName_eq {key name : String} (h : "KPSSH_SECRET_".toList ++
    key.toList.map (fun c => if c = '-' ∨ c = '.' then '_' else c.toUpper) = name.toList) :
    secretEnvName key = name := by
  rw [← String.toList_inj, secretEnvName, String.toList_append, String.toList_map, h]

theorem environment_assembled_keyed : (∀ e, keyed.env ≠ .error e) ∧
    ∀ env, keyed.env = .ok env → (env.map Prod.fst).Nodup ∧ ("KPSSH_SECRET_TLS_KEY", "one") ∈ env ∧
      ("KPSSH_VAR__z", "b") ∈ env := by
  have htls : secretEnvName "tls.key" = "KPSSH_SECRET_TLS_KEY" := secretEnvName_eq (by decide)
  have hapi : secretEnvName "api-token" = "KPSSH_SECRET_API_TOKEN" := secretEnvName_eq (by decide)
  obtain ⟨hiff, hok⟩ := environment_assembled keyed keyed.vars keyed.secrets (.refl _) (.refl _)
    (by decide) (by decide)
    (by decide) (by decide)
  refine ⟨fun e he => absurd (hiff.mp ⟨e, he⟩) (by simp [keyed, htls, hapi]), fun env henv => ?_⟩
  obtain ⟨hperm, hnodup, _⟩ := hok env henv
  refine ⟨hnodup, hperm.symm.subset ?_, hperm.symm.subset ?_⟩
  · exact List.mem_append_right _
      (List.mem_map.mpr ⟨("tls.key", "one"), by decide, Prod.ext htls rfl⟩)
  · exact List.mem_append_left _ (by decide)

end KarpenterProviderSsh.Profiles
