import KarpenterProviderSsh.Shim.Envelopes
import KarpenterProviderSsh.Shim.Verdicts

/-! What Marshal writes is what the shim reads. -/

namespace KarpenterProviderSsh.Shim

open Shell Interleaving Prog Codec

def Plain (s : Bytes) : Prop := ∀ c ∈ s, c ≠ 10 ∧ c ≠ 0

lemma Plain.append {s t : Bytes} (hs : Plain s) (ht : Plain t) : Plain (s ++ t) := by
  intro c hc
  rcases List.mem_append.mp hc with hc | hc
  · exact hs c hc
  · exact ht c hc

lemma plain_encode (s : Bytes) : Plain (Base64.encode s) := Base64.encode_printable s

lemma inputLines_append {l : Bytes} (hl : Plain l) (s : Bytes) :
    inputLines (l ++ 10 :: s) = l :: inputLines s := by
  apply lines_append
  intro c hc
  exact ⟨(hl c hc).1, by simpa using (hl c hc).2⟩

lemma inputLines_field {name value : Bytes} (hn : Plain name) (hv : Plain value) (s : Bytes) :
    inputLines (Envelope.field name value ++ s) = (name ++ value) :: inputLines s := by
  have h := inputLines_append (hn.append hv) s
  simpa [Envelope.field] using h

section Headers

variable (f : Fields) (v : Bytes)

lemma header_version : header f (utf8 "kpssh-envelope: " ++ v) = { f with ver := v } := by
  have h : startsWith (utf8 "kpssh-envelope: ") (utf8 "kpssh-envelope: " ++ v) = true :=
    (Glob.fits_quoted _ _ _).mpr ⟨v, rfl, Glob.fits_rest v⟩
  simp [header, h, dropHead_quoted]

lemma header_phase : header f (utf8 "phase: " ++ v) = { f with phase := v } := by
  have h₁ : startsWith (utf8 "kpssh-envelope: ") (utf8 "phase: " ++ v) = false := rfl
  have h : startsWith (utf8 "phase: ") (utf8 "phase: " ++ v) = true :=
    (Glob.fits_quoted _ _ _).mpr ⟨v, rfl, Glob.fits_rest v⟩
  simp [header, h₁, h, dropHead_quoted]

lemma header_params : header f (utf8 "params-b64: " ++ v) = { f with params_b64 := v } := by
  have h₁ : startsWith (utf8 "kpssh-envelope: ") (utf8 "params-b64: " ++ v) = false := rfl
  have h₂ : startsWith (utf8 "phase: ") (utf8 "params-b64: " ++ v) = false := rfl
  have h : startsWith (utf8 "params-b64: ") (utf8 "params-b64: " ++ v) = true :=
    (Glob.fits_quoted _ _ _).mpr ⟨v, rfl, Glob.fits_rest v⟩
  simp [header, h₁, h₂, h, dropHead_quoted]

lemma header_sig : header f (utf8 "sig-b64: " ++ v) = { f with sig_b64 := v } := by
  have h₁ : startsWith (utf8 "kpssh-envelope: ") (utf8 "sig-b64: " ++ v) = false := rfl
  have h₂ : startsWith (utf8 "phase: ") (utf8 "sig-b64: " ++ v) = false := rfl
  have h₃ : startsWith (utf8 "params-b64: ") (utf8 "sig-b64: " ++ v) = false := rfl
  have h : startsWith (utf8 "sig-b64: ") (utf8 "sig-b64: " ++ v) = true :=
    (Glob.fits_quoted _ _ _).mpr ⟨v, rfl, Glob.fits_rest v⟩
  simp [header, h₁, h₂, h₃, h, dropHead_quoted]

lemma header_script : header f (utf8 "script-b64: " ++ v) = { f with script_b64 := v } := by
  have h₁ : startsWith (utf8 "kpssh-envelope: ") (utf8 "script-b64: " ++ v) = false := rfl
  have h₂ : startsWith (utf8 "phase: ") (utf8 "script-b64: " ++ v) = false := rfl
  have h₃ : startsWith (utf8 "params-b64: ") (utf8 "script-b64: " ++ v) = false := rfl
  have h₄ : startsWith (utf8 "sig-b64: ") (utf8 "script-b64: " ++ v) = false := rfl
  have h : startsWith (utf8 "script-b64: ") (utf8 "script-b64: " ++ v) = true :=
    (Glob.fits_quoted _ _ _).mpr ⟨v, rfl, Glob.fits_rest v⟩
  simp [header, h₁, h₂, h₃, h₄, h, dropHead_quoted]

end Headers

section Params

lemma paramNameRE_iff (k : Bytes) : Envelope.paramNameRE k = true ↔ ParamName k := by
  simp only [Envelope.paramNameRE, Bool.and_eq_true, List.isPrefixOf_iff_prefix, decide_eq_true_eq,
    List.all_eq_true, and_assoc]
  have hlen : (utf8 "KPSSH_").length = 6 := rfl
  constructor
  · rintro ⟨⟨rest, rfl⟩, hne, hall⟩
    rw [← hlen, List.drop_left] at hne hall
    exact ⟨rest, rfl, hne, hall⟩
  · rintro ⟨rest, rfl, hne, hall⟩
    rw [← hlen, List.drop_left]
    exact ⟨⟨rest, rfl⟩, hne, hall⟩

lemma plain_nameChar (c : UInt8) (h : nameChar c = true) : c ≠ 10 ∧ c ≠ 0 := by
  constructor
  · rintro rfl
    cases h
  · rintro rfl
    cases h

lemma ParamName.plain {k : Bytes} (h : ParamName k) :
    Plain k := fun c hc => plain_nameChar c (h.nameChar c hc)

def entry (kv : Bytes × Bytes) : Bytes := kv.1 ++ 61 :: kv.2

lemma paramBlock_ok {quote : Bytes → Bytes} {ps : List (Bytes × Bytes)} {block : Bytes}
    (h : Envelope.paramBlock quote ps = .ok block) (hnul : ∀ kv ∈ ps, 0 ∉ kv.2) :
    (∀ kv ∈ ps, ParamName kv.1) ∧ inputLines block = ps.map entry := by
  induction ps generalizing block with
  | nil =>
    cases h
    exact ⟨by simp, rfl⟩
  | cons kv ps ih =>
    obtain ⟨k, v⟩ := kv
    simp only [Envelope.paramBlock] at h
    split_ifs at h with hk hv
    cases hr : Envelope.paramBlock quote ps with
    | error e =>
      rw [hr] at h
      cases h
    | ok rest =>
      rw [hr] at h
      cases h
      obtain ⟨hn, hl⟩ := ih hr (fun kv hkv => hnul kv (by simp [hkv]))
      have hkn : ParamName k := (paramNameRE_iff k).mp (by simpa using hk)
      refine ⟨by simpa [hkn] using hn, ?_⟩
      have hplain : Plain (k ++ 61 :: v) := by
        apply hkn.plain.append
        intro c hc
        rcases List.mem_cons.mp hc with rfl | hc
        · decide
        · exact ⟨fun he => hv (he ▸ hc), fun he => hnul (k, v) (by simp) (he ▸ hc)⟩
      rw [inputLines_append hplain, hl]
      rfl

lemma assigned_entries {ps : List (Bytes × Bytes)} (h : ∀ kv ∈ ps, ParamName kv.1) :
    (∀ p ∈ ps.map entry, p = [] ∨ ParamLine p) ∧ assigned (ps.map entry) = ps := by
  induction ps with
  | nil => exact ⟨by simp, rfl⟩
  | cons kv ps ih =>
    obtain ⟨k, v⟩ := kv
    obtain ⟨hl, ha⟩ := ih (fun kv hkv => h kv (by simp [hkv]))
    have hk : ParamName k := h (k, v) (by simp)
    constructor
    · intro p hp
      rcases List.mem_cons.mp hp with rfl | hp
      · exact .inr ⟨k, v, rfl, hk⟩
      · exact hl p hp
    · have hne : entry (k, v) ≠ [] := by simp [entry]
      have hkey : paramKey (entry (k, v)) = k := key_of_paramLine hk
      simp only [assigned] at ha
      simp only [assigned, List.map_cons, List.filter_cons, hne, ne_eq, not_false_eq_true,
        decide_true, if_true, hkey, ha]
      congr
      simp [entry]

lemma foldl_setVar {ps : List (Bytes × Bytes)} {env : Env} (h : (ps.map Prod.fst).Nodup)
    (hd : ∀ kv ∈ ps, ∀ u ∈ env, u.1 ≠ kv.1) : ps.foldl setVar env = ps.reverse ++ env := by
  induction ps generalizing env with
  | nil => rfl
  | cons kv ps ih =>
    have hf : env.filter (fun u => u.1 ≠ kv.1) = env := by
      apply List.filter_eq_self.mpr
      intro u hu
      simpa using hd kv (by simp) u hu
    rw [List.map_cons, List.nodup_cons] at h
    have hs : setVar env kv = kv :: env := by rw [setVar, hf]
    rw [List.foldl_cons, hs, ih h.2]
    · simp
    · intro kv' hkv' u hu
      rcases List.mem_cons.mp hu with rfl | hu
      · intro he
        exact h.1 (he ▸ List.mem_map_of_mem hkv')
      · exact hd kv' (by simp [hkv']) u hu

end Params

section Wire

variable {quote : Bytes → Bytes} {e : Envelope} {wire : Bytes}

lemma plain_phases : ∀ p ∈ signedPhases, ∀ c ∈ p, c ≠ 10 ∧ c ≠ 0 := by
  decide +kernel

structure Framed (e : Envelope) (f : Fields) : Prop where
  ver : f.ver = utf8 "1"
  phase : f.phase = e.phase
  signed : e.phase ∈ signedPhases
  sig : f.sig_b64 = Base64.encode e.sig ∧ e.sig ≠ []
  script : f.script_b64 = Base64.encode e.script ∧ e.script ≠ []
  params : (e.params = [] ∧ f.params_b64 = []) ∨ ∃ block, f.params_b64 = Base64.encode block ∧
    f.params_b64 ≠ [] ∧ (∀ p ∈ inputLines block, p = [] ∨ ParamLine p) ∧
    assigned (inputLines block) = e.sorted

lemma block_ne_nil {block : Bytes} (h : Envelope.paramBlock quote e.sorted = .ok block)
    (hp : e.params ≠ []) :
    block ≠ [] := by
  cases hs : e.sorted with
  | nil =>
    have hl := congrArg List.length hs
    rw [Envelope.sorted, List.length_insertionSort] at hl
    exact absurd (List.length_eq_zero_iff.mp hl) hp
  | cons kv ps =>
    obtain ⟨k, v⟩ := kv
    rw [hs] at h
    simp only [Envelope.paramBlock] at h
    split_ifs at h
    cases hr : Envelope.paramBlock quote ps with
    | error _ =>
      rw [hr] at h
      cases h
    | ok rest =>
      rw [hr] at h
      cases h
      simp

lemma mem_sorted (e : Envelope) (kv : Bytes × Bytes) : kv ∈ e.sorted ↔ kv ∈ e.params :=
  (List.perm_insertionSort _ _).mem_iff

lemma wire_of_marshal (hm : e.marshal quote = .ok wire) (hp : e.phase ≠ utf8 "probe") :
    e.phase ∈ signedPhases ∧ e.script ≠ [] ∧ e.sig ≠ [] ∧ ∃ params : Bytes,
      wire = Envelope.field (utf8 "kpssh-envelope: ") (utf8 "1") ++
      (Envelope.field (utf8 "phase: ") e.phase ++ (params ++
        (Envelope.field (utf8 "sig-b64: ") (Base64.encode e.sig) ++
          Envelope.field (utf8 "script-b64: ") (Base64.encode e.script)))) ∧
      ((e.params = [] ∧ params = []) ∨
        (e.params ≠ [] ∧ ∃ block, Envelope.paramBlock quote e.sorted = .ok block ∧
          params = Envelope.field (utf8 "params-b64: ") (Base64.encode block))) := by
  unfold Envelope.marshal at hm
  by_cases hvalid : Envelope.validPhase e.phase = false
  · rw [if_pos hvalid] at hm
    cases hm
  · rw [if_neg hvalid] at hm
    have hsp : e.phase ∈ signedPhases := by
      simpa [Envelope.validPhase, hp] using hvalid
    by_cases hreq : e.script = [] ∨ e.sig = []
    · rw [if_pos ⟨hp, hreq⟩] at hm
      cases hm
    · rw [if_neg (fun h => hreq h.2)] at hm
      rw [not_or] at hreq
      rw [if_neg hreq.1, if_neg hreq.2] at hm
      refine ⟨hsp, hreq.1, hreq.2, ?_⟩
      by_cases hpar : e.params = []
      · rw [if_pos hpar] at hm
        cases hm
        exact ⟨[], by simp, .inl ⟨hpar, rfl⟩⟩
      · rw [if_neg hpar] at hm
        cases hb : Envelope.paramBlock quote e.sorted with
        | error m =>
          rw [hb] at hm
          cases hm
        | ok block =>
          rw [hb] at hm
          cases hm
          exact ⟨_, by simp, .inr ⟨hpar, block, rfl, rfl⟩⟩

lemma plain_names :
    ∀ s ∈ ["kpssh-envelope: ", "1", "phase: ", "params-b64: ", "sig-b64: ", "script-b64: "],
    ∀ c ∈ utf8 s, c ≠ 10 ∧ c ≠ 0 := by
  decide +kernel

theorem framed_of_marshal (hm : e.marshal quote = .ok wire) (hp : e.phase ≠ utf8 "probe")
    (hnul : ∀ kv ∈ e.params, 0 ∉ kv.2) : Framed e (parse wire) := by
  obtain ⟨hsp, hscript, hsig, params, rfl, hpar⟩ := wire_of_marshal hm hp
  have hl (s : String) (hs : s ∈ ["kpssh-envelope: ", "1", "phase: ", "params-b64: ", "sig-b64: ",
      "script-b64: "]) :
      Plain (utf8 s) := plain_names s hs
  have hend : inputLines (Envelope.field (utf8 "sig-b64: ") (Base64.encode e.sig) ++
      Envelope.field (utf8 "script-b64: ") (Base64.encode e.script)) =
        [utf8 "sig-b64: " ++ Base64.encode e.sig, utf8 "script-b64: " ++
          Base64.encode e.script] := by
    rw [inputLines_field (hl _ (by simp)) (plain_encode _),
      ← List.append_nil (Envelope.field (utf8 "script-b64: ") _),
      inputLines_field (hl _ (by simp)) (plain_encode _)]
    rfl
  rw [parse, inputLines_field (hl _ (by simp)) (hl _ (by simp)),
    inputLines_field (hl _ (by simp)) (plain_phases _ hsp)]
  rcases hpar with ⟨hnone, rfl⟩ | ⟨hsome, block, hb, rfl⟩
  · rw [List.nil_append, hend]
    simp only [List.foldl_cons, List.foldl_nil, header_version, header_phase,
      header_sig, header_script]
    exact ⟨rfl, rfl, hsp, ⟨rfl, hsig⟩, ⟨rfl, hscript⟩, .inl ⟨hnone, rfl⟩⟩
  · rw [inputLines_field (hl _ (by simp)) (plain_encode _), hend]
    simp only [List.foldl_cons, List.foldl_nil, header_version, header_phase, header_params,
      header_sig, header_script]
    obtain ⟨hn, hlines⟩ := paramBlock_ok hb fun kv hkv => hnul kv ((mem_sorted e kv).mp hkv)
    obtain ⟨hall, has⟩ := assigned_entries hn
    rw [← hlines] at hall has
    exact ⟨rfl, rfl, hsp, ⟨rfl, hsig⟩, ⟨rfl, hscript⟩,
      .inr ⟨block, rfl, Base64.encode_ne_nil (block_ne_nil hb hsome), hall, has⟩⟩

def Decodes (l : Trace Cmd Ans) : Prop :=
  ∀ d b file r, (⟨.decode d (Base64.encode b) file, r⟩ : (c : Cmd) × Ans c) ∈ l → r = some b

lemma Decodes.left {l₁ l₂ : Trace Cmd Ans} (h : Decodes (l₁ ++ l₂)) : Decodes l₁ :=
  fun d b file r hm => h d b file r (by simp [hm])

lemma Decodes.right {l₁ l₂ : Trace Cmd Ans} (h : Decodes (l₁ ++ l₂)) : Decodes l₂ :=
  fun d b file r hm => h d b file r (by simp [hm])

section Exits

variable {locked : List Bytes} {env : Env} {d : Decoder} {f : Fields} {l : Trace Cmd Ans} {n : ℕ}

lemma exit_rejected {reason : Bytes} (h : Runs (rejected reason) l n) (hw : Works l) : n = 2 := by
  simp only [rejected] at h
  split_ifs at h
  · exact (runs_die h).2 hw
  · obtain ⟨rc, l', rfl, h₁⟩ := runs_run.mp h
    have hrc : rc = 0 := of_decide_eq_true (hw ⟨.printf _, rc⟩ (by simp))
    rw [if_pos hrc] at h₁
    exact (runs_die h₁).2 fun x hx => hw x (by simp [hx])

lemma exit_applyParams {script : Bytes} (h : Runs (applyParams locked env d f script) l n)
    (hf : Framed e f) (hw : Works l) (hd : Decodes l) : n = 0 ∨ n = 10 := by
  simp only [applyParams] at h
  split_ifs at h with hb
  · obtain ⟨rc, l', rfl, _, hn⟩ := runs_runScript h
    exact hn hw
  · obtain ⟨r, l', rfl, h₁⟩ := runs_run.mp h
    rcases hf.params with ⟨_, hp⟩ | ⟨block, hp, _, hall, _⟩
    · exact absurd hp hb
    · have hr : r = some block := hd d block .params r (by simp [hp])
      rw [hr] at h₁
      obtain ⟨l₁, s, l₂, rfl, he, h₂⟩ := runs_bind.mp h₁
      rw [exportParams_ok hall] at he
      obtain ⟨rfl, rfl⟩ := runs_ret.mp he
      obtain ⟨rc, l', rfl, _, hn⟩ := runs_runScript h₂
      exact hn fun x hx => hw x (List.mem_cons_of_mem _ hx)

lemma exit_verify (h : Runs (verify locked env d f) l n) (hf : Framed e f) (hw : Works l)
    (hd : Decodes l) :
    n = 0 ∨ n = 2 ∨ n = 10 := by
  obtain ⟨r, l₁, rfl, h₁⟩ := runs_run.mp h
  have hr : r = some e.script := hd d e.script .script r (by simp [hf.script.1])
  rw [hr] at h₁
  obtain ⟨s, l₂, rfl, h₂⟩ := runs_run.mp h₁
  have hs : s = some e.sig := hd d e.sig .sig s (by simp [hf.sig.1])
  rw [hs] at h₂
  obtain ⟨⟨ok, reason⟩, l₃, rfl, h₃⟩ := runs_run.mp h₂
  have hw₃ : Works l₃ := fun x hx => hw x (by simp [hx])
  have hd₃ : Decodes l₃ := fun d b file r hm => hd d b file r (by simp [hm])
  cases ok with
  | false => exact .inr (.inl (exit_rejected h₃ hw₃))
  | true => exact (exit_applyParams h₃ hf hw₃ hd₃).imp_right .inr

lemma exit_signed (h : Runs (signed locked env d f) l n) (hf : Framed e f) (hw : Works l)
    (hd : Decodes l) :
    n ∉ [3, 4, 5] := by
  have hsig : f.sig_b64 ≠ [] := hf.sig.1 ▸ Base64.encode_ne_nil hf.sig.2
  have hscript : f.script_b64 ≠ [] := hf.script.1 ▸ Base64.encode_ne_nil hf.script.2
  simp only [signed, if_neg hsig, if_neg hscript] at h
  obtain ⟨made, l₁, rfl, h₁⟩ := runs_run.mp h
  have hw₁ : Works l₁ := fun x hx => hw x (by simp [hx])
  split_ifs at h₁
  · rw [(runs_die h₁).2 hw₁]
    decide
  · obtain ⟨l₂, m, l₃, rfl, hv, h₂⟩ := runs_bind.mp h₁
    obtain ⟨rc, l₄, rfl, h₃⟩ := runs_run.mp h₂
    obtain ⟨rfl, rfl⟩ := runs_ret.mp h₃
    have hrc : rc = 0 := of_decide_eq_true (hw₁.right ⟨.rm, rc⟩ (List.mem_singleton.mpr rfl))
    have hm := exit_verify hv hf hw₁.left fun d b file r hx => hd d b file r (by simp [hx])
    rw [if_pos hrc]
    rcases hm with rfl | rfl | rfl <;> decide

lemma exit_execute {stdin : Bytes} (h : Runs (execute locked env stdin) l n)
    (hf : Framed e (parse stdin)) (hp : e.phase ≠ utf8 "probe") (hw : Works l) (hd : Decodes l) :
    n ∉ [3, 4, 5] := by
  obtain ⟨l₁, r, l₂, rfl, _, h₁⟩ := runs_bind.mp h
  cases r with
  | none =>
    rw [(runs_die h₁).2 hw.right]
    decide
  | some d =>
    have hne : e.phase ≠ [] := by
      intro he
      have := hf.signed
      rw [he] at this
      revert this
      decide +kernel
    dsimp only at h₁
    rw [hf.ver, hf.phase, if_neg (by simp), if_neg hne, if_neg hp,
      if_neg (by simp [hf.signed])] at h₁
    exact exit_signed h₁ hf hw.right hd.right

end Exits

/-- The shim recovers from Marshal's output the phase, the script, the signature and the params,
byte for byte, and refuses none of it as malformed; and the two sides agree on the names of
params. -/
theorem envelope_round_trip (hm : e.marshal quote = .ok wire) (hp : e.phase ≠ utf8 "probe")
    (hnul : ∀ kv ∈ e.params, 0 ∉ kv.2) :
    ((parse wire).ver = utf8 "1" ∧ (parse wire).phase = e.phase ∧
      ∀ decode : Bytes → Option Bytes, (∀ b, decode (Base64.encode b) = some b) →
        decode (parse wire).script_b64 = some e.script ∧ decode (parse wire).sig_b64 = some e.sig ∧
        ((e.params = [] ∧ (parse wire).params_b64 = []) ∨
          ((parse wire).params_b64 ≠ [] ∧ ∃ block env, decode (parse wire).params_b64 = some block ∧
            exportParams [] (inputLines block) = .ret (.ok env) ∧
          env.Perm e.params))) ∧
    (∀ locked env l n, Runs (kpsshShim locked env wire) l n → Decodes l →
      (∀ l₁ script env' rc l₂, l = l₁ ++ ⟨.bash script env', rc⟩ :: l₂ → script = e.script ∧
        ∃ (env₀ : Env) (vars : List (Bytes × Bytes)), (env₀ = env ∨ ⟨.sudo, some env₀⟩ ∈ l₁) ∧
        vars.Perm e.params ∧
          env' = unsetVars locked (vars.foldl setVar env₀)) ∧
      (Works l → n ∉ [3, 4, 5])) ∧
    ∀ name : Bytes, 61 ∉ name → 10 ∉ name → 0 ∉ name →
      (Envelope.paramNameRE name = true ↔ hasStem name = true ∧ hasForeign name = false) := by
  have hf := framed_of_marshal hm hp hnul
  have hperm : e.sorted.Perm e.params := List.perm_insertionSort _ _
  refine ⟨⟨hf.ver, hf.phase, fun decode hdec => ?_⟩, fun locked env l n h hd => ?_,
    fun name _ _ _ => ?_⟩
  · refine ⟨by rw [hf.script.1, hdec], by rw [hf.sig.1, hdec], ?_⟩
    rcases hf.params with hnone | ⟨block, hb, hne, hall, has⟩
    · exact .inl hnone
    · refine .inr ⟨hne, block, _, by rw [hb, hdec], exportParams_ok hall, ?_⟩
      rw [has, foldl_setVar ((hperm.map _).nodup_iff.mpr e.distinct) (by simp), List.append_nil]
      exact (List.reverse_perm _).trans hperm
  · obtain ⟨acc, l', env₀, rfl, hi, hsudo, hg, hr⟩ := good_kpsshShim h
    constructor
    · intro l₁ script env' rc l₂ hl
      obtain ⟨m, rfl, rfl⟩ := hi.extends rfl hl
      have hs := hg.admits m _ l₂ rfl script env' rc rfl
      obtain ⟨d, sig, reason, hscript, _⟩ := hs.verified
      have hin (x : (c : Cmd) × Ans c) (hx : x ∈ acc ++ m) :
          x ∈ acc ++ (m ++ ⟨.bash script env', rc⟩ :: l₂) := by
        rw [← List.append_assoc]
        exact List.mem_append_left _ hx
      have he := hd d e.script .script (some script) (hin _ (hf.script.1 ▸ hscript))
      refine ⟨Option.some.inj he, env₀, ?_⟩
      obtain ⟨vars, henv, _, hv⟩ := hs.exported
      refine ⟨vars, hsudo.imp_right fun hx => by simp [hx], ?_, henv⟩
      rcases hv with ⟨hb, rfl⟩ | ⟨d', ps, hps, rfl⟩
      · rcases hf.params with ⟨hnone, _⟩ | ⟨block, _, hne, _⟩
        · rw [hnone]
        · exact absurd hb hne
      · rcases hf.params with ⟨hnone, hb⟩ | ⟨block, hb, _, _, has⟩
        · rw [hb] at hps
          have hempty := hd d' [] .params (some ps) (hin _ hps)
          rw [Option.some.inj hempty, hnone]
          exact .refl _
        · have hblock := hd d' block .params (some ps) (hin _ (hb ▸ hps))
          rw [Option.some.inj hblock, has]
          exact hperm
    · intro hw
      rcases hr with hr | rfl
      · exact exit_execute hr hf hp hw.right hd.right
      · decide
  · rw [paramNameRE_iff, names_iff]

section Sample

def sampleEnvelope : Envelope where
  phase := utf8 "join"
  script := utf8 "true"
  sig := [1, 0, 255]
  params := [(utf8 "KPSSH_B", utf8 "x=y \\ \r"), (utf8 "KPSSH_A", [])]
  distinct := by decide +kernel

theorem envelope_round_trip_binary :
    ∃ wire, sampleEnvelope.marshal id = .ok wire ∧ (parse wire).phase = utf8 "join" ∧
      Base64.decode (parse wire).script_b64 = some (utf8 "true") ∧
      Base64.decode (parse wire).sig_b64 = some [1, 0, 255] ∧
      ∃ block env, Base64.decode (parse wire).params_b64 = some block ∧
        exportParams [] (inputLines block) = .ret (.ok env) ∧ env.Perm sampleEnvelope.params := by
  have hok : (sampleEnvelope.marshal id).toOption.isSome = true := by decide +kernel
  cases hm : sampleEnvelope.marshal id with
  | error m =>
    rw [hm] at hok
    cases hok
  | ok wire =>
    obtain ⟨⟨_, hphase, hdec⟩, _⟩ := envelope_round_trip hm (by decide +kernel) (by decide +kernel)
    obtain ⟨hscript, hsig, hpar⟩ := hdec Base64.decode Base64.decode_encode
    refine ⟨wire, rfl, hphase, hscript, hsig, ?_⟩
    rcases hpar with ⟨hnone, _⟩ | ⟨_, hpar⟩
    · cases hnone
    · exact hpar

end Sample

end Wire

end KarpenterProviderSsh.Shim
