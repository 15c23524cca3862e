import KarpenterProviderSsh.Shim.Gate

/-! What a run of the shim may do: when it runs a script, and what its exit status tells. -/

namespace KarpenterProviderSsh.Shim

open Shell Interleaving Prog

def ParamName (k : Bytes) : Prop := ∃ rest, k = utf8 "KPSSH_" ++ rest ∧ rest ≠ [] ∧
    ∀ c ∈ rest, nameChar c = true

def ParamLine (p : Bytes) : Prop := ∃ k v, p = k ++ 61 :: v ∧ ParamName k

section Params

lemma hasEquals_iff (p : Bytes) : hasEquals p = true ↔ 61 ∈ p := by
  simp [hasEquals, Glob.fits_somewhere]

lemma paramKey_eq (p : Bytes) : paramKey p = p.takeWhile (· ≠ 61) := dropTails_from 61 p

lemma hasStem_iff (k : Bytes) : hasStem k = true ↔ ∃ rest, k = utf8 "KPSSH_" ++
    rest ∧ rest ≠ [] := by
  rw [hasStem, Glob.fits_quoted]
  constructor
  · rintro ⟨v, rfl, hv⟩
    obtain ⟨c, u, rfl, _⟩ := (Glob.fits_one _ _ _).mp hv
    exact ⟨c :: u, rfl, by simp⟩
  · rintro ⟨rest, rfl, hr⟩
    cases rest with
    | nil => exact absurd rfl hr
    | cons c u => exact ⟨c :: u, rfl, by simp⟩

lemma hasForeign_iff (k : Bytes) : hasForeign k = true ↔ ∃ c ∈ k, nameChar c = false := by
  simp [hasForeign, Glob.fits_somewhere]

lemma stem_nameChar : ∀ c ∈ utf8 "KPSSH_", nameChar c = true := by
  decide +kernel

lemma names_iff (k : Bytes) : hasStem k = true ∧ hasForeign k = false ↔ ParamName k := by
  rw [hasStem_iff, ← Bool.not_eq_true, hasForeign_iff]
  constructor
  · rintro ⟨⟨rest, rfl, hr⟩, hn⟩
    refine ⟨rest, rfl, hr, fun c hc => ?_⟩
    by_contra hne
    exact hn ⟨c, by simp [hc], by simpa using hne⟩
  · rintro ⟨rest, rfl, hr, hc⟩
    refine ⟨⟨rest, rfl, hr⟩, ?_⟩
    rintro ⟨c, hm, hf⟩
    rcases List.mem_append.mp hm with hm | hm
    · rw [stem_nameChar c hm] at hf
      cases hf
    · rw [hc c hm] at hf
      cases hf

lemma ParamName.nameChar {k : Bytes} (h : ParamName k) : ∀ c ∈ k, nameChar c = true := by
  obtain ⟨rest, rfl, _, hr⟩ := h
  intro c hc
  rcases List.mem_append.mp hc with hc | hc
  · exact stem_nameChar c hc
  · exact hr c hc

lemma takeWhile_stop {k v : Bytes} (h : 61 ∉ k) : (k ++ 61 :: v).takeWhile (· ≠ 61) = k := by
  induction k with
  | nil => rfl
  | cons c k ih =>
    simp only [List.mem_cons, not_or] at h
    have hc : c ≠ 61 := fun he => h.1 he.symm
    simp only [List.cons_append, List.takeWhile_cons, ih h.2]
    simp [hc]

lemma split_stop {p : Bytes} (h : 61 ∈ p) :
    p = p.takeWhile (· ≠ 61) ++ 61 :: p.drop ((p.takeWhile (· ≠ 61)).length + 1) := by
  induction p with
  | nil => simp at h
  | cons c p ih =>
    by_cases hc : c = 61
    · simp [hc]
    · have hm : 61 ∈ p := (List.mem_cons.mp h).resolve_left (Ne.symm hc)
      have ih' := ih hm
      simp only [List.takeWhile_cons, ne_eq, hc, not_false_eq_true, decide_true, if_true,
        List.cons_append, List.length_cons, List.drop_succ_cons]
      simp only [ne_eq] at ih'
      rw [← ih']

lemma key_of_paramLine {k v : Bytes} (h : ParamName k) : paramKey (k ++ 61 :: v) = k := by
  rw [paramKey_eq]
  apply takeWhile_stop
  intro hm
  have := h.nameChar 61 hm
  revert this
  decide

def assigned (ps : List Bytes) : List (Bytes × Bytes) :=
  (ps.filter (· ≠ [])).map (fun p => (paramKey p, p.drop ((paramKey p).length + 1)))

lemma accepted_iff (p : Bytes) :
    hasEquals p = true ∧ hasStem (paramKey p) = true ∧ hasForeign (paramKey p) = false ↔
    ParamLine p := by
  rw [names_iff]
  constructor
  · rintro ⟨he, hn⟩
    rw [paramKey_eq] at hn
    exact ⟨_, _, split_stop ((hasEquals_iff p).mp he), hn⟩
  · rintro ⟨k, v, rfl, hn⟩
    rw [key_of_paramLine hn]
    exact ⟨(hasEquals_iff _).mpr (by simp), hn⟩

lemma exportParams_ok {env : Env} {ps : List Bytes} (h : ∀ p ∈ ps, p = [] ∨ ParamLine p) :
    exportParams env ps = .ret (.ok ((assigned ps).foldl setVar env)) := by
  induction ps generalizing env with
  | nil => rfl
  | cons p ps ih =>
    have hps := fun e => @ih e (fun q hq => h q (by simp [hq]))
    by_cases hp : p = []
    · simpa [exportParams, assigned, hp] using hps env
    · have hl := (h p (by simp)).resolve_left hp
      obtain ⟨he, hs, hf⟩ := (accepted_iff p).mpr hl
      simp only [exportParams, hp, he, hs, hf, if_false, Bool.true_eq_false, Bool.false_eq_true]
      rw [hps]
      simp [assigned, hp]

lemma assigned_names {ps : List Bytes} (h : ∀ p ∈ ps, p = [] ∨ ParamLine p) :
    ∀ v ∈ assigned ps, ParamName v.1 := by
  intro v hv
  simp only [assigned, List.mem_map, List.mem_filter, ne_eq, decide_not, Bool.not_eq_true',
    decide_eq_false_iff_not] at hv
  obtain ⟨p, ⟨hp, hne⟩, rfl⟩ := hv
  obtain ⟨k, w, rfl, hn⟩ := (h p hp).resolve_left hne
  rw [key_of_paramLine hn]
  exact hn

end Params

def isBash : Cmd → Bool
  | .bash _ _ => true
  | _ => false

def Idle (l : Trace Cmd Ans) : Prop := ∀ x ∈ l, isBash x.1 = false

def Ran (l : Trace Cmd Ans) : Prop := ∃ x ∈ l, isBash x.1 = true

def works : ((c : Cmd) × Ans c) → Bool
  | ⟨.printf _, rc⟩ => decide (rc = 0)
  | ⟨.rm, rc⟩ => decide (rc = 0)
  | _ => true

def Works (l : Trace Cmd Ans) : Prop := ∀ x ∈ l, works x = true

section Runs

variable {l l₁ l₂ : Trace Cmd Ans} {n : ℕ} {locked : List Bytes} {env : Env}
  {d : Decoder} {f : Fields}

lemma Idle.not_ran (h : Idle l) : ¬ Ran l := by
  rintro ⟨x, hx, hb⟩
  rw [h x hx] at hb
  cases hb

lemma ran_append : Ran (l₁ ++ l₂) ↔ Ran l₁ ∨ Ran l₂ := by
  simp only [Ran, List.mem_append, or_and_right, exists_or]

lemma Idle.extends {x : (c : Cmd) × Ans c} {l' : Trace Cmd Ans} (h : Idle l)
    (hx : isBash x.1 = true) (he : l ++ l' = l₁ ++ x :: l₂) : ∃ m, l₁ = l ++ m ∧
    l' = m ++ x :: l₂ := by
  rcases List.append_eq_append_iff.mp he with hm | ⟨m, rfl, hm⟩
  · exact hm
  · cases m with
    | nil => exact ⟨[], by simp, hm.symm⟩
    | cons y m =>
      cases hm
      rw [h x (by simp)] at hx
      cases hx

lemma Works.left (h : Works (l₁ ++ l₂)) : Works l₁ := fun x hx => h x (by simp [hx])

lemma Works.right (h : Works (l₁ ++ l₂)) : Works l₂ := fun x hx => h x (by simp [hx])

lemma runs_run {c : Cmd} {β : Type} {k : Ans c → Sh β} {b : β} :
    Runs (run c >>= k) l b ↔ ∃ r l', l = ⟨c, r⟩ :: l' ∧ Runs (k r) l' b := by
  rw [run, request_bind, runs_call]

lemma runs_die {m : Bytes} {status : ℕ} (h : Runs (die status m) l n) :
    Idle l ∧ (Works l → n = status) := by
  obtain ⟨rc, l', rfl, hr⟩ := runs_run.mp h
  obtain ⟨rfl, rfl⟩ := runs_ret.mp hr
  refine ⟨by simp [Idle, isBash], fun hw => ?_⟩
  have hrc : rc = 0 := of_decide_eq_true (hw ⟨.printf _, rc⟩ (List.mem_singleton.mpr rfl))
  simp [hrc]

lemma runs_exportParams_bad {ps : List Bytes} {r : Except ℕ Env}
    (h : Runs (exportParams env ps) l r) (hb : ¬ ∀ p ∈ ps, p = [] ∨ ParamLine p) :
    Idle l ∧ ∃ n, r = .error n ∧ (Works l → n = 3) := by
  induction ps generalizing env with
  | nil => simp at hb
  | cons p ps ih =>
    have hdie {m : Bytes}
        (h : Runs (die 3 m >>= fun n => pure (Except.error n : Except ℕ Env)) l r) :
        Idle l ∧ ∃ n, r = .error n ∧ (Works l → n = 3) := by
      obtain ⟨l₁, n, l₂, rfl, hd, hr⟩ := runs_bind.mp h
      obtain ⟨rfl, rfl⟩ := runs_ret.mp hr
      rw [List.append_nil]
      obtain ⟨hi, hn⟩ := runs_die hd
      exact ⟨hi, n, rfl, hn⟩
    simp only [exportParams] at h
    split_ifs at h with hp he hs hf
    · apply ih h
      intro hall
      exact hb (by simpa [hp] using hall)
    · exact hdie h
    · exact hdie h
    · exact hdie h
    · apply ih h
      intro hall
      apply hb
      have hl : ParamLine p :=
        (accepted_iff p).mp ⟨by simpa using he, by simpa using hs, by simpa using hf⟩
      intro q hq
      rcases List.mem_cons.mp hq with rfl | hq
      · exact .inr hl
      · exact hall q hq

/-- What has to have happened before a script is run in the environment `env'`. -/
structure Sanctioned (locked : List Bytes) (env : Env) (f : Fields)
    (acc : Trace Cmd Ans) (script : Bytes) (env' : Env) : Prop where
  phase : f.phase ∈ signedPhases
  verified : ∃ d sig reason, ⟨.decode d f.script_b64 .script, some script⟩ ∈ acc ∧
    ⟨.decode d f.sig_b64 .sig, some sig⟩ ∈ acc ∧
    ⟨.sshKeygen (signers env) (principal env) (scope env) sig script, (true, reason)⟩ ∈ acc
  exported : ∃ vars, env' = unsetVars locked (vars.foldl setVar env) ∧ (∀ v ∈ vars, ParamName v.1) ∧
    ((f.params_b64 = [] ∧ vars = []) ∨ ∃ d ps, ⟨.decode d f.params_b64 .params, some ps⟩ ∈ acc ∧
      vars = assigned (inputLines ps))
  params : ∀ d ps, ⟨.decode d f.params_b64 .params, some ps⟩ ∈ acc → ∀ p ∈ inputLines ps, p = [] ∨
    ParamLine p

def Admitted (locked : List Bytes) (env : Env) (f : Fields) (acc : Trace Cmd Ans)
    (x : (c : Cmd) × Ans c) : Prop :=
  ∀ script env' rc, x = ⟨.bash script env', rc⟩ → Sanctioned locked env f acc script env'

structure Good (locked : List Bytes) (env : Env) (f : Fields) (acc l : Trace Cmd Ans)
    (n : ℕ) : Prop where
  admits : Admits (Admitted locked env f) acc l
  exits : Works l → Ran l → n = 0 ∨ n = 10

variable {acc : Trace Cmd Ans}

lemma admits_idle (h : Idle l) : Admits (Admitted locked env f) acc l := by
  intro l₁ x l₂ hl script env' rc hx
  have hb := h x (by simp [hl])
  rw [hx] at hb
  cases hb

lemma Good.idle (h : Idle l) : Good locked env f acc l n :=
  ⟨admits_idle h, fun _ hr => absurd hr h.not_ran⟩

lemma Good.before {x y : Trace Cmd Ans} (hi : Idle x) (h : Good locked env f (acc ++ x) y n) :
    Good locked env f acc (x ++ y) n := by
  refine ⟨admits_append.mpr ⟨admits_idle hi, h.admits⟩, fun hw hr => ?_⟩
  exact h.exits hw.right ((ran_append.mp hr).resolve_left hi.not_ran)

lemma runs_runScript {script : Bytes} (h : Runs (runScript locked env script) l n) :
    ∃ rc l', l = ⟨.bash script (unsetVars locked env), rc⟩ :: l' ∧ Idle l' ∧
    (Works l → n = 0 ∨ n = 10) := by
  obtain ⟨rc, l', rfl, hr⟩ := runs_run.mp h
  refine ⟨rc, l', rfl, ?_⟩
  split_ifs at hr
  · obtain ⟨rfl, rfl⟩ := runs_ret.mp hr
    exact ⟨by simp [Idle], fun _ => .inl rfl⟩
  · obtain ⟨hi, hn⟩ := runs_die hr
    exact ⟨hi, fun hw => .inr (hn fun x hx => hw x (by simp [hx]))⟩

lemma good_runScript {script : Bytes} {v : List (Bytes × Bytes)}
    (h : Runs (runScript locked (v.foldl setVar env) script) l n)
    (hs : Sanctioned locked env f acc script (unsetVars locked (v.foldl setVar env))) :
    Good locked env f acc l n := by
  obtain ⟨rc, l', rfl, hi, hn⟩ := runs_runScript h
  refine ⟨admits_cons.mpr ⟨?_, admits_idle hi⟩, fun hw _ => hn hw⟩
  intro script' env' rc' hx
  cases hx
  exact hs

def Unread (acc : Trace Cmd Ans) : Prop :=
  ∀ d b r, (⟨.decode d b .params, r⟩ : (c : Cmd) × Ans c) ∉ acc

lemma good_applyParams {script s r : Bytes} (h : Runs (applyParams locked env d f script) l n)
    (hp : f.phase ∈ signedPhases) (hu : Unread acc)
    (hscript : ⟨.decode d f.script_b64 .script, some script⟩ ∈ acc)
    (hsig : ⟨.decode d f.sig_b64 .sig, some s⟩ ∈ acc)
    (hv : ⟨.sshKeygen (signers env) (principal env) (scope env) s script, (true, r)⟩ ∈ acc) :
    Good locked env f acc l n := by
  simp only [applyParams] at h
  split_ifs at h with hb
  · refine good_runScript (v := []) h ⟨hp, ⟨d, s, r, hscript, hsig, hv⟩,
      ⟨[], rfl, by simp, .inl ⟨hb, rfl⟩⟩, ?_⟩
    intro d' ps hm
    exact absurd hm (hu _ _ _)
  · obtain ⟨r, l', rfl, hr⟩ := runs_run.mp h
    apply Good.before (x := [_]) (by simp [Idle, isBash])
    cases r with
    | none => exact .idle (runs_die hr).1
    | some ps =>
      obtain ⟨l₁, r, l₂, rfl, he, hk⟩ := runs_bind.mp hr
      by_cases hall : ∀ p ∈ inputLines ps, p = [] ∨ ParamLine p
      · rw [exportParams_ok hall] at he
        obtain ⟨rfl, rfl⟩ := runs_ret.mp he
        refine good_runScript hk ⟨hp, ⟨d, s, r, by simp [hscript], by simp [hsig], by simp [hv]⟩,
          ⟨_, rfl, assigned_names hall, .inr ⟨d, ps, by simp, rfl⟩⟩, ?_⟩
        intro d' ps' hm
        rcases List.mem_append.mp hm with hm | hm
        · exact absurd hm (hu _ _ _)
        · simp only [List.mem_singleton, Sigma.mk.injEq, Cmd.decode.injEq, and_true] at hm
          obtain ⟨rfl, hm⟩ := hm
          cases eq_of_heq hm
          exact hall
      · obtain ⟨hi, m, rfl, _⟩ := runs_exportParams_bad he hall
        obtain ⟨rfl, rfl⟩ := runs_ret.mp hk
        rw [List.append_nil]
        exact .idle hi

lemma only_run {Q : Cmd → Prop} {c : Cmd} {β : Type} {k : Ans c → Sh β} (hc : Q c)
    (hk : ∀ r, Only Q (k r)) :
    Only Q (run c >>= k) :=
  ⟨hc, hk⟩

lemma only_die {Q : Cmd → Prop} (status : ℕ) (m : Bytes) (h : ∀ m, Q (.printf m)) :
    Only Q (die status m) :=
  ⟨h _, fun _ => trivial⟩

lemma idle_rejected {reason : Bytes} (h : Runs (rejected reason) l n) : Idle l := by
  have ho : Only (fun c => isBash c = false) (rejected reason) := by
    unfold rejected
    split_ifs
    · exact only_die _ _ fun _ => rfl
    · refine only_run rfl ?_
      intro rc
      split_ifs
      · exact only_die _ _ fun _ => rfl
      · trivial
  exact ho.runs h

lemma good_verify (h : Runs (verify locked env d f) l n) (hp : f.phase ∈ signedPhases)
    (hu : Unread acc) :
    Good locked env f acc l n := by
  obtain ⟨r, l₁, rfl, h₁⟩ := runs_run.mp h
  apply Good.before (x := [_]) (by simp [Idle, isBash])
  cases r with
  | none => exact .idle (runs_die h₁).1
  | some script =>
    obtain ⟨r, l₂, rfl, h₂⟩ := runs_run.mp h₁
    apply Good.before (x := [_]) (by simp [Idle, isBash])
    cases r with
    | none => exact .idle (runs_die h₂).1
    | some sig =>
      obtain ⟨⟨ok, reason⟩, l₃, rfl, h₃⟩ := runs_run.mp h₂
      apply Good.before (x := [_]) (by simp [Idle, isBash])
      cases ok with
      | false => exact .idle (idle_rejected h₃)
      | true =>
        refine good_applyParams (s := sig) (r := reason) h₃ hp ?_ (by simp) (by simp) (by simp)
        intro d' b r hm
        simp only [List.append_assoc, List.mem_append, List.mem_singleton] at hm
        rcases hm with hm | hm | hm | hm
        · exact hu _ _ _ hm
        · cases hm
        · cases hm
        · cases hm

lemma good_signed (h : Runs (signed locked env d f) l n) (hp : f.phase ∈ signedPhases)
    (hu : Unread acc) :
    Good locked env f acc l n := by
  simp only [signed] at h
  split_ifs at h
  · exact .idle (runs_die h).1
  · exact .idle (runs_die h).1
  · obtain ⟨made, l', rfl, h₁⟩ := runs_run.mp h
    apply Good.before (x := [_]) (by simp [Idle, isBash])
    split_ifs at h₁
    · exact .idle (runs_die h₁).1
    · obtain ⟨l₁, m, l₂, rfl, hv, h₂⟩ := runs_bind.mp h₁
      obtain ⟨rc, l₃, rfl, h₃⟩ := runs_run.mp h₂
      obtain ⟨rfl, rfl⟩ := runs_ret.mp h₃
      have hu' : Unread (acc ++ [⟨.mktemp _, made⟩]) := by
        intro d' b r hm
        rcases List.mem_append.mp hm with hm | hm
        · exact hu _ _ _ hm
        · simp at hm
      have hg := good_verify hv hp hu'
      refine ⟨admits_append.mpr ⟨hg.admits, admits_idle (by simp [Idle, isBash])⟩,
        fun hw hran => ?_⟩
      have hrc : rc = 0 := of_decide_eq_true (hw.right ⟨.rm, rc⟩ (List.mem_singleton.mpr rfl))
      have hm := hg.exits hw.left
        ((ran_append.mp hran).resolve_right (Idle.not_ran (by simp [Idle, isBash])))
      simpa [hrc] using hm

lemma idle_probe (h : Runs probe l n) : Idle l := by
  have ho : Only (fun c => isBash c = false) probe := by
    refine only_run rfl ?_
    intro rc
    split_ifs
    · trivial
    · refine only_run rfl ?_
      intro rc
      split_ifs
      · trivial
      · refine only_run rfl ?_
        intro rc
        split_ifs
        · trivial
        · exact only_run rfl fun _ => trivial
  exact ho.runs h

lemma runs_pickDecoder {r : Option Decoder} (h : Runs pickDecoder l r) :
    ∀ x ∈ l, ∃ d, x.1 = .tryDecoder d := by
  have ho : Only (fun c => ∃ d, c = .tryDecoder d) pickDecoder := by
    refine only_run ⟨_, rfl⟩ ?_
    intro b
    split_ifs
    · trivial
    · refine only_run ⟨_, rfl⟩ ?_
      intro b
      split_ifs
      · trivial
      · refine only_run ⟨_, rfl⟩ ?_
        intro b
        split_ifs <;> trivial
  exact ho.runs h

lemma good_execute {stdin : Bytes} (h : Runs (execute locked env stdin) l n) (hu : Unread acc) :
    Good locked env (parse stdin) acc l n := by
  obtain ⟨l₁, r, l₂, rfl, hd, hr⟩ := runs_bind.mp h
  have ht := runs_pickDecoder hd
  have hi : Idle l₁ := by
    intro x hx
    obtain ⟨d, he⟩ := ht x hx
    rw [he]
    rfl
  apply Good.before hi
  have hu' : Unread (acc ++ l₁) := by
    intro d b r hm
    rcases List.mem_append.mp hm with hm | hm
    · exact hu _ _ _ hm
    · obtain ⟨d', he⟩ := ht _ hm
      cases he
  cases r with
  | none => exact .idle (runs_die hr).1
  | some d =>
    dsimp only at hr
    split_ifs at hr with hver hph hpr hsp
    · exact .idle (runs_die hr).1
    · exact .idle (runs_die hr).1
    · exact .idle (idle_probe hr)
    · exact good_signed hr hsp hu'
    · exact .idle (runs_die hr).1

end Runs

lemma good_kpsshShim {locked : List Bytes} {env : Env} {stdin : Bytes} {l : Trace Cmd Ans} {n : ℕ}
    (h : Runs (kpsshShim locked env stdin) l n) :
    ∃ acc l' env₀, l = acc ++ l' ∧ Idle acc ∧ (env₀ = env ∨ ⟨.sudo, some env₀⟩ ∈ acc) ∧
      Good locked env₀ (parse stdin) acc l' n ∧
      (Runs (execute locked env₀ stdin) l' n ∨ n = 1) := by
  simp only [kpsshShim] at h
  split_ifs at h
  · obtain ⟨uid, l₁, rfl, h₁⟩ := runs_run.mp h
    split_ifs at h₁
    · obtain ⟨r, l₂, rfl, h₂⟩ := runs_run.mp h₁
      cases r with
      | none =>
        obtain ⟨rfl, rfl⟩ := runs_ret.mp h₂
        exact ⟨[⟨.id, uid⟩, ⟨.sudo, none⟩], [], env, rfl, by simp [Idle, isBash], .inl rfl,
          .idle (by simp [Idle]), .inr rfl⟩
      | some env₀ =>
        refine ⟨[⟨.id, uid⟩, ⟨.sudo, some env₀⟩], l₂, env₀, rfl, by simp [Idle, isBash],
          .inr (by simp), ?_, .inl h₂⟩
        apply good_execute h₂
        simp [Unread]
    · refine ⟨[⟨.id, uid⟩], l₁, env, rfl, by simp [Idle, isBash], .inl rfl, ?_, .inl h₁⟩
      apply good_execute h₁
      simp [Unread]
  · refine ⟨[], l, env, rfl, by simp [Idle], .inl rfl, ?_, .inl h⟩
    apply good_execute h
    simp [Unread]

/-- A script of the caller's is run only after the signature over it was accepted, for a signed
phase and in an environment to which the params add names of the documented grammar only; a param
line outside it stops the shim. Where the shim can log and clean up, an exit status of its own means
that nothing was run, and a script that was run is told by 0 or 10. -/
theorem script_runs_only_verified {locked : List Bytes} {env : Env} {stdin : Bytes}
    {l : Trace Cmd Ans} {n : ℕ} (h : Runs (kpsshShim locked env stdin) l n) :
    (∀ l₁ script env' rc l₂, l = l₁ ++ ⟨.bash script env', rc⟩ :: l₂ →
      ∃ env₀, (env₀ = env ∨ ⟨.sudo, some env₀⟩ ∈ l₁) ∧
      Sanctioned locked env₀ (parse stdin) l₁ script env') ∧
    (Works l → n ∈ [2, 3, 4, 5] → ¬ Ran l) ∧ (Works l → Ran l → n = 0 ∨ n = 10) := by
  obtain ⟨acc, l', env₀, rfl, hi, henv, hg, _⟩ := good_kpsshShim h
  have hexit : Works (acc ++ l') → Ran (acc ++ l') → n = 0 ∨ n = 10 := fun hw hr =>
    hg.exits hw.right ((ran_append.mp hr).resolve_left hi.not_ran)
  refine ⟨?_, fun hw hn hr => ?_, hexit⟩
  · intro l₁ script env' rc l₂ hl
    obtain ⟨m, rfl, rfl⟩ := hi.extends rfl hl
    refine ⟨env₀, henv.imp_right fun hm => by simp [hm], ?_⟩
    exact hg.admits m _ l₂ rfl script env' rc rfl
  · rcases hexit hw hr with rfl | rfl <;> simp at hn

section Sample

def sampleWire : Bytes :=
  utf8 "x: y\nphase: probe\nscript-b64: dHJ1ZQ==\nparams-b64: S1BTU0hfQT1i\nsig-b64: AQ==\n" ++
    utf8 "phase: join\nkpssh-envelope: 1"

def sampleTools : (c : Cmd) → Ans c
  | .id | .fact _ | .printf _ | .rm => 0
  | .sudo => none
  | .tryDecoder _ | .mktemp _ => true
  | .decode _ _ .script => some (utf8 "true")
  | .decode _ _ .sig => some [1]
  | .decode _ _ .params => some (utf8 "KPSSH_A=b")
  | .sshKeygen _ _ _ _ _ => (true, [])
  | .bash _ _ => 2

theorem script_runs_only_verified_failing :
    ∃ l, Runs (kpsshShim [] [] sampleWire) l 10 ∧ Works l ∧ Ran l ∧
      (∀ l₁ script env' rc l₂, l = l₁ ++ ⟨.bash script env', rc⟩ :: l₂ →
        ∃ env₀, (env₀ = [] ∨ ⟨.sudo, some env₀⟩ ∈ l₁) ∧
        Sanctioned [] env₀ (parse sampleWire) l₁ script env') := by
  have h := runs_answered sampleTools (kpsshShim [] [] sampleWire)
  have hn : (answered sampleTools (kpsshShim [] [] sampleWire)).2 = 10 := by decide +kernel
  rw [hn] at h
  refine ⟨_, h, ?_, ?_, (script_runs_only_verified h).1⟩
  · unfold Works
    decide +kernel
  · unfold Ran
    decide +kernel

end Sample

end KarpenterProviderSsh.Shim
