import KarpenterProviderSsh.Interleaving.Interference
import KarpenterProviderSsh.Runs.Changes

/-! The field setters of the host provider, one call at a time, with anything going on around it. -/

namespace KarpenterProviderSsh.Runs

open Api Cluster Scripts Providers Controllers Interleaving

variable {X : Externals}

def Interferes (w w' : World) : Prop := (w.Valid → w'.Valid) ∧ w.Later w'

lemma Interferes.refl (w : World) : Interferes w w := ⟨id, .refl w⟩

lemma Interferes.trans {u v w : World} (h : Interferes u v) (h' : Interferes v w) :
    Interferes u w :=
  ⟨h'.1 ∘ h.1, h.2.trans h'.2⟩

abbrev Alongside (X : Externals) (t : ℕ) {α : Type} (w : World) (p : Cluster.Prog α)
    (l : List (Own (machine X))) (w' : World) (q : Cluster.Prog α) : Prop :=
  Amid (M := machine X) Interferes t w p l w' q

/-- The object was once read or written as this version, and still shows the claim of that
version. -/
def Held (w : World) (o : SSHHost) : Prop :=
  ∃ s ∈ w.versions o.key, s.resourceVersion = o.resourceVersion ∧
    s.status.claimRef = o.status.claimRef

def Unchanged (l : List (Own (machine X))) : Prop := ∀ y ∈ l, y.after.store = y.before.store

def Under (C : Option ClaimReference) (k : NamespacedName) (y : Own (machine X)) : Prop :=
  (∃ c, World.current y.before k = some c ∧ c.status.claimRef = C) ∧ ∀ j, j ≠ k →
    y.after.store j = y.before.store j

/-- At most the last of these requests takes effect, and then under the claim. -/
def Fenced (C : Option ClaimReference) (k : NamespacedName) (l : List (Own (machine X))) : Prop :=
  Unchanged l ∨ ∃ l₁ y, l = l₁ ++ [y] ∧ Unchanged l₁ ∧ Under C k y

/-- At the last of these requests the claim is no longer the one stored on the host. -/
def Gone (C : Option ClaimReference) (k : NamespacedName) (l : List (Own (machine X))) : Prop :=
  ∀ y ∈ l.getLast?, ∀ c, World.current y.before k = some c → c.status.claimRef ≠ C

section Requests

variable {C : Option ClaimReference} {k : NamespacedName} {l l₁ l₂ : List (Own (machine X))}
  {y : Own (machine X)}

lemma Fenced.nil : Fenced (X := X) C k [] := .inl (by simp [Unchanged])

lemma Unchanged.append (h₁ : Unchanged l₁) (h₂ : Unchanged l₂) : Unchanged (l₁ ++ l₂) := by
  intro y hy
  rcases List.mem_append.mp hy with hy | hy
  · exact h₁ y hy
  · exact h₂ y hy

lemma unchanged_singleton : Unchanged [y] ↔ y.after.store = y.before.store := by simp [Unchanged]

lemma Unchanged.then (h₁ : Unchanged l₁) (h₂ : Fenced C k l₂) : Fenced C k (l₁ ++ l₂) := by
  rcases h₂ with h₂ | ⟨l, y, rfl, hl, hy⟩
  · exact .inl (h₁.append h₂)
  · exact .inr ⟨l₁ ++ l, y, by simp, h₁.append hl, hy⟩

lemma Fenced.unchanged (h : Fenced C k l) (hg : Gone C k l) : Unchanged l := by
  rcases h with h | ⟨l₁, y, rfl, _, ⟨c, hc, hC⟩, _⟩
  · exact h
  · exact absurd hC (hg y (by simp) c hc)

lemma gone_append (h : l₂ ≠ []) : Gone C k (l₁ ++ l₂) ↔ Gone C k l₂ := by
  simp [Gone, List.getLast?_append_of_ne_nil l₁ h]

lemma gone_singleton : Gone C k [y] ↔ ∀ c, World.current y.before k = some c →
    c.status.claimRef ≠ C := by
  simp [Gone]

end Requests

section Worlds

variable {w w' : World} {o : SSHHost} {C : Option ClaimReference} {k : NamespacedName}

lemma Held.later (h : Held w o) (hl : w.Later w') : Held w' o := by
  obtain ⟨s, hs, hr, hc⟩ := h
  exact ⟨s, hl.versions _ s hs, hr, hc⟩

lemma Superseded.of_gone (h : Held w o)
    (hg : ∀ c, w.current o.key = some c → c.status.claimRef ≠ o.status.claimRef) :
    Superseded w o := by
  obtain ⟨s, hs, hr, hc⟩ := h
  obtain ⟨c, hcur⟩ := World.current_of_mem hs
  refine ⟨c, World.current_mem hcur, ?_⟩
  have hle := World.rev_le_current hs hcur
  rcases hle.lt_or_eq with hlt | heq
  · omega
  · exact absurd (World.eq_current hs hcur heq ▸ hc) (hg c hcur)

lemma patch_own {t : ℕ} {wr : StatusWrite} {ch : Choice} {r : Except Err SSHHost} (hv : w.Valid)
    (hh : w.handle t (.patchStatus o wr) ch = some (r, w')) :
    (∃ c, w.current o.key = some c ∧ c.resourceVersion = o.resourceVersion ∧
      (∀ j, j ≠ o.key → w'.store j = w.store j) ∧ (∀ e, r = .error e → e.isConflict = false) ∧
      ∀ h', r = .ok h' → ∃ st, w.Landed w' o.key c st h' ∧
      st = mergePatch o.status (wr.apply o.status) c.status) ∨ (w' = w ∧ ∃ e, r = .error e) := by
  simp only [World.handle] at hh
  rcases World.write_answer hv hh with ⟨c, o', hc, hl, ha⟩ | ⟨hw, e, he, _⟩
  · refine .inl ⟨c, hl.before, hc, fun j hj => ?_, fun e hr => ?_, fun h' hr => ?_⟩
    · rcases hl.after with ⟨_, hp⟩ | ⟨_, _, hs⟩
      · exact hp.others j hj
      · rw [hs.store]
    · rcases ha with ⟨ha, _⟩ | ⟨⟨m, ha⟩, _⟩
      · rw [ha] at hr
        cases hr
      · rw [ha] at hr
        cases hr
        rfl
    · rcases ha with ⟨ha, _⟩ | ⟨⟨m, ha⟩, _⟩
      · rw [ha] at hr
        cases hr
        exact ⟨_, hl, rfl⟩
      · rw [ha] at hr
        cases hr
  · exact .inr ⟨hw, e, he⟩

lemma patch_superseded {t : ℕ} {wr : StatusWrite} {ch : Choice}
    {r : Except Err SSHHost} (hv : w.Valid) (hs : Superseded w o)
    (hh : w.handle t (.patchStatus o wr) ch = some (r, w')) : w' = w ∧ ∃ e, r = .error e := by
  rcases patch_own hv hh with ⟨c, hc, hr, _⟩ | h
  · obtain ⟨v, hvm, hlt⟩ := hs
    have := World.rev_le_current hvm hc
    omega
  · exact h

lemma patch_conflict {t : ℕ} {wr : StatusWrite} {ch : Choice} {e : Err} (hv : w.Valid)
    (hh : w.handle t (.patchStatus o wr) ch = some (.error e, w')) (he : e.isConflict = true) :
    w' = w := by
  rcases patch_own hv hh with ⟨_, _, _, _, hn, _⟩ | h
  · rw [hn e rfl] at he
    cases he
  · exact h.1

lemma patch_fenced {t : ℕ} {wr : StatusWrite} {ch : Choice} {r : Except Err SSHHost}
    (hv : w.Valid) (ho : Held w o) (hh : w.handle t (.patchStatus o wr) ch = some (r, w')) :
    Fenced (X := X) o.status.claimRef o.key [⟨w, .patchStatus o wr, w'⟩] := by
  rcases patch_own hv hh with ⟨c, hc, hr, hoth, _⟩ | ⟨rfl, _⟩
  · obtain ⟨s, hs, hsr, hsc⟩ := ho
    refine .inr ⟨[], _, rfl, by simp [Unchanged], ⟨c, hc, ?_⟩, hoth⟩
    rw [← World.eq_current hs hc (hsr.trans hr.symm), hsc]
  · exact .inl (unchanged_singleton.mpr rfl)

end Worlds

structure Returned (C : Option ClaimReference) (k : NamespacedName)
    (l : List (Own (machine X))) (w : World) (a : SSHHost × Option Err) : Prop where
  asked : l ≠ []
  valid : w.Valid
  held : Held w a.1
  key : a.1.key = k
  claim : a.1.status.claimRef = C
  conflict : ∀ e, a.2 = some e → e.isConflict = true → Unchanged l
  gone : Gone C k l → a.2 ≠ none ∧ Superseded w a.1

section Calls

variable {t : ℕ} {w w' : World} {o : SSHHost} {x : Setter} {C : Option ClaimReference}
  {k : NamespacedName} {l : List (Own (machine X))}

lemma setter_claimRef (x : Setter) (st : SSHHostStatus) : (x.apply st).claimRef = st.claimRef := by
  cases x <;> rfl

lemma Held.of_mem (hm : o ∈ w.versions o.key) : Held w o := ⟨o, hm, rfl, rfl⟩

lemma alongside_call {α : Type} {e : Eff} {f : Res e → Cluster.Prog α} {q : Cluster.Prog α}
    (h : Alongside X t w (request e >>= f) l w' q) :
    (l = [] ∧ q = request e >>= f) ∨
    ∃ (w₁ w₂ : World) (ch : Choice) (r : Res e) (l' : List (Own (machine X))),
      l = ⟨w₁, e, w₂⟩ :: l' ∧ Interferes w w₁ ∧ w₁.handle t e ch = some (r, w₂) ∧
      Alongside X t w₂ (f r) l' w' q :=
  Amid.call_inv h

lemma Returned.later {a : SSHHost × Option Err} (h : Returned C k l w a) (hi : Interferes w w') :
    Returned C k l w' a :=
  ⟨h.asked, hi.1 h.valid, h.held.later hi.2, h.key, h.claim, h.conflict,
    fun hg => ⟨(h.gone hg).1, (h.gone hg).2.later hi.2⟩⟩

lemma Returned.prepend {a : SSHHost × Option Err} {l₁ : List (Own (machine X))}
    (h : Returned C k l w a) (h₁ : Unchanged l₁) : Returned C k (l₁ ++ l) w a := by
  refine ⟨by simp [h.asked], h.valid, h.held, h.key, h.claim,
    fun e he hc => h₁.append (h.conflict e he hc), ?_⟩
  rw [gone_append h.asked]
  exact h.gone

lemma Returned.unsaved {e : Err} {m : List (Own (machine X))} {y : Own (machine X)}
    (ho : Held y.before o) (hv : w.Valid) (hl : World.Later y.before w)
    (hc : e.isConflict = true → Unchanged (m ++ [y])) :
    Returned o.status.claimRef o.key (m ++ [y]) w ((StatusWrite.set x).applyTo o, some e) := by
  obtain ⟨s, hs, hr, hsc⟩ := ho.later hl
  refine ⟨by simp, hv, ⟨s, hs, hr, hsc.trans (setter_claimRef x _).symm⟩, rfl, setter_claimRef x _,
    ?_, fun hg => ?_⟩
  · rintro _ ⟨⟩
    exact hc
  · rw [gone_append (by simp), gone_singleton] at hg
    exact ⟨by simp, (Superseded.of_gone ho hg).later hl⟩

lemma Returned.saved {h' : SSHHost} {y : Own (machine X)} {ch : Choice} (hv : World.Valid y.before)
    (ho : Held y.before o) (hh : World.handle y.before t (.patchStatus o (.set x)) ch = some
      (.ok h', y.after)) (hi : Interferes y.after w) :
      Returned o.status.claimRef o.key [y] w (h', none) := by
  rcases patch_own hv hh with ⟨c, hc, hr, _, _, hok⟩ | ⟨_, e, he⟩
  · obtain ⟨st, hld, hst⟩ := hok h' rfl
    obtain ⟨hkey, hmem⟩ := landed_mem hld
    obtain ⟨s, hsm, hsr, hsc⟩ := ho
    have hcs := World.eq_current hsm hc (hsr.trans hr.symm)
    have hclaim : h'.status.claimRef = o.status.claimRef := by
      rw [hld.status, hst, ← hsc, hcs]
      simp [mergePatch, StatusWrite.apply, setter_claimRef]
    refine ⟨by simp, hi.1 (hld.valid hv), (Held.of_mem hmem).later hi.2, hkey,
      hclaim, by simp, fun hg => ?_⟩
    exact absurd (hcs ▸ hsc) (gone_singleton.mp hg c hc)
  · cases he

lemma Returned.fresh {o' : SSHHost} {e : Err} {y y' : Own (machine X)} {ch : Choice}
    (hv : World.Valid y'.before)
    (hh : World.handle y'.before t (.getHost o.key) ch = some (.ok o', y'.after))
    (hc : o'.status.claimRef = o.status.claimRef) (hi : Interferes y'.after w)
    (hu : Unchanged [y, y']) :
    Returned o.status.claimRef o.key [y, y'] w (o', some e) := by
  -- a fresh read that shows the same claim although the store does not is itself out of date
  obtain ⟨hv', hl⟩ := World.handle_later hv hh
  obtain ⟨_, ho', _, hmem, hkey⟩ | ⟨_, g, hg, _⟩ := World.getHost_answer hv hh
  · cases ho'
    have hheld := Held.of_mem hmem
    refine ⟨by simp, hi.1 hv', hheld.later (hl.trans hi.2), hkey, hc, fun _ _ _ => hu,
      fun hg => ⟨by simp, ?_⟩⟩
    refine (Superseded.of_gone hheld fun c hcur => ?_).later (hl.trans hi.2)
    rw [hkey] at hcur
    rw [hc]
    have hlast : Gone (X := X) o.status.claimRef o.key [y'] :=
      (gone_append (by simp)).mp (show Gone _ _ ([y] ++ [y']) from hg)
    exact gone_singleton.mp hlast c hcur
  · cases hg

lemma setStatusOnce_fenced {q : Cluster.Prog (SSHHost × Option Err)} (hv : w.Valid) (ho : Held w o)
    (hrun : Alongside X t w (setStatusOnce o.status.claimRef x o) l w' q) :
    Fenced o.status.claimRef o.key l ∧ ∀ a, q = .ret a →
    Returned o.status.claimRef o.key l w' a := by
  -- one attempt: the patch, and after a conflict the read that decides whether to go on
  rcases alongside_call hrun with ⟨rfl, rfl⟩ | ⟨w₁, w₂, ch, r, l, rfl, he, hh, hl⟩
  · exact ⟨.nil, fun a ha => by cases ha⟩
  have hv₁ := he.1 hv
  have ho₁ := ho.later he.2
  obtain ⟨hv₂, hl₂⟩ := World.handle_later hv₁ hh
  have hf : Fenced (X := X) o.status.claimRef o.key [⟨w₁, .patchStatus o (.set x), w₂⟩] :=
    patch_fenced hv₁ ho₁ hh
  cases r with
  | ok h' =>
    obtain ⟨rfl, rfl, hi⟩ := Amid.ret_inv hl
    refine ⟨hf, fun a ha => ?_⟩
    cases ha
    exact .saved hv₁ ho₁ hh hi
  | error e =>
    dsimp only at hl
    split_ifs at hl with hcf
    · have hsame := patch_conflict hv₁ hh hcf
      subst hsame
      rcases alongside_call hl with ⟨rfl, rfl⟩ | ⟨w₃, w₄, ch', r', l', rfl, he', hh', hl'⟩
      · exact ⟨hf, fun a ha => by cases ha⟩
      have hv₃ := he'.1 hv₂
      obtain ⟨hv₄, hl₄⟩ := World.handle_later hv₃ hh'
      have hu :
          Unchanged (X := X) [⟨w₂, .patchStatus o (.set x), w₂⟩, ⟨w₃, .getHost o.key, w₄⟩] := by
        simpa [Unchanged] using ((World.handle_frame hh').store (by simp) (by simp)).store
      have hend {b : SSHHost × Option Err} (hl' : Alongside X t w₄ (.ret b) l' w' q)
          (hb : Interferes w₄ w' → Returned (X := X) o.status.claimRef o.key
            [⟨w₂, .patchStatus o (.set x), w₂⟩, ⟨w₃, .getHost o.key, w₄⟩] w' b) :
          Fenced (X := X) o.status.claimRef o.key
            (⟨w₂, .patchStatus o (.set x), w₂⟩ :: ⟨w₃, .getHost o.key, w₄⟩ :: l') ∧
          ∀ a, q = .ret a → Returned (X := X) o.status.claimRef o.key
            (⟨w₂, .patchStatus o (.set x), w₂⟩ :: ⟨w₃, .getHost o.key, w₄⟩ :: l') w' a := by
        obtain ⟨rfl, rfl, hi⟩ := Amid.ret_inv hl'
        refine ⟨.inl hu, fun a ha => ?_⟩
        cases ha
        exact hb hi
      have hold {g : Err} (hi : Interferes w₄ w') : Returned (X := X) o.status.claimRef o.key
          ([⟨w₂, .patchStatus o (.set x), w₂⟩] ++ [⟨w₃, .getHost o.key, w₄⟩]) w'
          ((StatusWrite.set x).applyTo o, some g) :=
        .unsaved (ho₁.later he'.2) (hi.1 hv₄) (hl₄.trans hi.2) fun _ => hu
      cases r' with
      | error g => exact hend hl' hold
      | ok fresh =>
        dsimp only at hl'
        split_ifs at hl' with hclaim
        · exact hend hl' fun hi => .fresh hv₃ hh' ((sameClaim_iff _ _).mp hclaim).symm hi hu
        · exact hend hl' hold
    · obtain ⟨rfl, rfl, hi⟩ := Amid.ret_inv hl
      refine ⟨hf, fun a ha => ?_⟩
      cases ha
      exact Returned.unsaved (m := []) ho₁ (hi.1 hv₂) (hl₂.trans hi.2) fun hc => absurd hc hcf

lemma alongside_retry {σ : Type} {fn : σ → Cluster.Prog (σ × Option Err)} {n : ℕ} {s : σ}
    {q : Cluster.Prog (σ × Option Err)}
    (h : Alongside X t w (retryOnConflict fn (n + 1) s) l w' q) :
    (∃ p, (∀ b, q ≠ .ret b) ∧ Alongside X t w (fn s) l w' p) ∨
      ∃ l₁ l₂ w₁ a, l = l₁ ++ l₂ ∧ Alongside X t w (fn s) l₁ w₁ (.ret a) ∧
        ((l₂ = [] ∧ q = .ret a ∧ Interferes w₁ w') ∨ ∃ m e, n = m + 1 ∧ a.2 = some e ∧
          e.isConflict = true ∧ Alongside X t w₁ (retryOnConflict fn (m + 1) a.1) l₂ w' q) := by
  rcases Amid.bind Interferes.refl h with hp | ⟨l₁, l₂, w₁, ⟨s', e⟩, hl, hfn, hrest⟩
  · exact .inl hp
  · refine .inr ⟨l₁, l₂, w₁, (s', e), hl, hfn, ?_⟩
    cases e with
    | none => exact .inl (Amid.ret_inv hrest)
    | some e =>
      dsimp only at hrest
      split_ifs at hrest with hc
      · simp only [ne_eq, Bool.and_eq_true, decide_not, Bool.not_eq_eq_eq_not, Bool.not_true,
          decide_eq_false_iff_not] at hc
        obtain ⟨m, rfl⟩ := Nat.exists_eq_succ_of_ne_zero hc.2
        exact .inr ⟨m, e, rfl, rfl, hc.1, hrest⟩
      · exact .inl (Amid.ret_inv hrest)

lemma retry_fenced (n : ℕ) {q : Cluster.Prog (SSHHost × Option Err)} (hv : w.Valid) (ho : Held w o)
    (hk : o.key = k) (hC : o.status.claimRef = C)
    (hrun : Alongside X t w (retryOnConflict (setStatusOnce C x) (n + 1) o) l w' q) :
    Fenced C k l ∧ ∀ a, q = .ret a → Returned C k l w' a := by
  -- every retry starts again from an object that was read under the same claim
  induction n using Nat.strong_induction_on generalizing w o l with
  | _ n ih =>
    rcases alongside_retry hrun with ⟨p, hp, hl⟩ | ⟨l₁, l₂, w₁, a, rfl, hl, hrest⟩
    · subst hk hC
      exact ⟨(setStatusOnce_fenced hv ho hl).1, fun a ha => absurd ha (hp a)⟩
    obtain ⟨hf, hret⟩ : Fenced C k l₁ ∧ ∀ b, Prog.ret a = .ret b → Returned C k l₁ w₁ b := by
      subst hk hC
      exact setStatusOnce_fenced hv ho hl
    have ha := hret a rfl
    rcases hrest with ⟨rfl, rfl, hi⟩ | ⟨m, e, rfl, he, hc, hrest⟩
    · refine ⟨by simpa using hf, fun b hb => ?_⟩
      cases hb
      simpa using ha.later hi
    · -- the lost attempts changed nothing, so what counts is the rest
      have hu := ha.conflict e he hc
      obtain ⟨hf₂, hret₂⟩ := ih m (by omega) ha.valid ha.held ha.key ha.claim hrest
      exact ⟨hu.then hf₂, fun b hb => (hret₂ b hb).prepend hu⟩

lemma release_fenced {healthy : Bool} {reason : String} {q : Cluster.Prog (Option Err)}
    (hv : w.Valid) (ho : Held w o) (hrun : Alongside X t w (release o healthy reason) l w' q) :
    Fenced o.status.claimRef o.key l ∧
      (Superseded w o ∨ Gone o.status.claimRef o.key l → Unchanged l ∧
        ∀ e, q = .ret e → e ≠ none) := by
  rcases alongside_call hrun with ⟨rfl, rfl⟩ | ⟨w₁, w₂, ch, r, l, rfl, he, hh, hl⟩
  · exact ⟨.nil, fun _ => ⟨by simp [Unchanged], nofun⟩⟩
  have hv₁ := he.1 hv
  have ho₁ := ho.later he.2
  have hend {e : Option Err} (hl : Alongside X t w₂ (.ret e) l w' q)
      (hne : Superseded w₁ o → e ≠ none) :
      Fenced (X := X) o.status.claimRef o.key
        (⟨w₁, .patchStatus o (.release healthy reason), w₂⟩ :: l) ∧
      (Superseded w o ∨ Gone (X := X) o.status.claimRef o.key
        (⟨w₁, .patchStatus o (.release healthy reason), w₂⟩ :: l) →
        Unchanged (X := X) (⟨w₁, .patchStatus o (.release healthy reason), w₂⟩ :: l) ∧
          ∀ e, q = .ret e → e ≠ none) := by
    obtain ⟨rfl, rfl, _⟩ := Amid.ret_inv hl
    refine ⟨patch_fenced hv₁ ho₁ hh, fun h => ?_⟩
    have hs : Superseded w₁ o := by
      rcases h with hs | hg
      · exact hs.later he.2
      · exact .of_gone ho₁ (gone_singleton.mp hg)
    refine ⟨unchanged_singleton.mpr ?_, fun e' he' => ?_⟩
    · exact congrArg World.store (patch_superseded hv₁ hs hh).1
    · cases he'
      exact hne hs
  cases r with
  | ok h' =>
    refine hend hl fun hs => ?_
    obtain ⟨_, e, he⟩ := patch_superseded hv₁ hs hh
    cases he
  | error e => exact hend hl fun _ => by simp

/-- A setter takes effect only under the claim of the object it was issued on. Once the claim is
gone from the store the call fails and changes nothing, and so does a release of the object it
leaves behind. -/
theorem late_writes_fenced {h : SSHHost} {q : Cluster.Prog (SSHHost × Option Err)}
    (hv : w.Valid) (hh : Held w h) (hrun : Alongside X t w (setStatus h x) l w' q) :
    Fenced h.status.claimRef h.key l ∧ (Gone h.status.claimRef h.key l → Unchanged l) ∧
    ∀ h' e, q = .ret (h', e) → (Gone h.status.claimRef h.key l → e ≠ none) ∧
      ∀ healthy reason l₂ w₂ q₂, Alongside X t w' (release h' healthy reason) l₂ w₂ q₂ →
        Fenced h.status.claimRef h.key l₂ ∧
        (Gone h.status.claimRef h.key l ∨ Gone h.status.claimRef h.key l₂ →
          Unchanged l₂ ∧ ∀ e₂, q₂ = .ret e₂ → e₂ ≠ none) := by
  obtain ⟨hf, hret⟩ := retry_fenced 3 hv hh rfl rfl hrun
  refine ⟨hf, hf.unchanged, fun h' e hq => ?_⟩
  have hr := hret _ hq
  refine ⟨fun hg => (hr.gone hg).1, fun healthy reason l₂ w₂ q₂ hrel => ?_⟩
  rw [← hr.key, ← hr.claim]
  obtain ⟨hf₂, hs⟩ := release_fenced hr.valid hr.held hrel
  refine ⟨hf₂, fun hg => hs ?_⟩
  rw [hr.key, hr.claim] at hg ⊢
  exact hg.imp (fun hg => (hr.gone hg).2) id

end Calls

section Pool

variable {A : World → Observed X → Prop} {hosts : List SSHHost} {c d : Run X}

lemma run_valid (hr : Config.Reaches A (idle X hosts) c) : World.Valid c.world := by
  obtain ⟨ph, ht, _⟩ :=
    reached (I := fun _ _ => True) (fun _ _ _ _ _ _ _ _ _ _ => trivial) trivial hr
  exact ht.valid

theorem run_alongside {t : ℕ} {p : Cluster.Prog Unit}
    (hA : ∀ w o, A w o → o ≠ .finish t ∧ o ≠ .crash t) (hv : World.Valid c.world)
    (hp : c.pool t = some p) (hr : Config.Reaches A c d) :
    ∃ l q, d.pool t = some q ∧ Alongside X t c.world p l d.world q := by
  refine (Config.Reaches.amid (M := machine X) (V := Interferes) (I := World.Valid) Interferes.refl
    Interferes.trans ?_ hA hr hv hp).2
  intro c d ev o hv hs
  obtain ⟨hv', hl⟩ := Protocol.step_later (P := protocol X) hv hs
  exact ⟨hv', fun _ => hv', hl⟩

theorem run_setter_fenced {t : ℕ} {h : SSHHost} {x : Setter}
    {f : SSHHost × Option Err → Cluster.Prog Unit}
    (hA : ∀ w o, A w o → o ≠ .finish t ∧ o ≠ .crash t) (hv : World.Valid c.world)
    (hh : Held c.world h) (hp : c.pool t = some (setStatus h x >>= f)) (hr : Config.Reaches A c d) :
    ∃ l₁ l₂ w₁ p, Alongside X t c.world (setStatus h x) l₁ w₁ p ∧
    Fenced h.status.claimRef h.key l₁ ∧
      ((l₂ = [] ∧ w₁ = d.world) ∨ ∃ a q, p = .ret a ∧ d.pool t = some q ∧
        Alongside X t w₁ (f a) l₂ d.world q) := by
  obtain ⟨l, q, hq, hl⟩ := run_alongside hA hv hp hr
  rcases Amid.bind Interferes.refl hl with ⟨p, _, hp⟩ | ⟨l₁, l₂, w₁, a, rfl, hl₁, hl₂⟩
  · exact ⟨l, [], _, p, hp, (retry_fenced 3 hv hh rfl rfl hp).1, .inl ⟨rfl, rfl⟩⟩
  · exact ⟨l₁, l₂, w₁, _, hl₁, (retry_fenced 3 hv hh rfl rfl hl₁).1, .inr ⟨a, q, rfl, hq, hl₂⟩⟩

end Pool

section Sample

open Sample

def Sample.failed : Cluster.Prog (SSHHost × Option Err) → Bool
  | .ret (_, some _) => true
  | _ => false

lemma Sample.of_failed {q : Cluster.Prog (SSHHost × Option Err)} (h : failed q = true) :
    ∃ h' e, q = .ret (h', some e) := by
  unfold failed at h
  split at h
  · exact ⟨_, _, rfl⟩
  · cases h

theorem late_writes_fenced_released :
    ∃ (w : World) (h : SSHHost) (l : List (Own (machine externals))) (w' : World)
    (h' : SSHHost) (e : Err), (w.Valid ∧ Held w h ∧ h.status.claimRef = some ⟨"a", "uid-a"⟩) ∧
      Alongside externals 1 w (setStatus h .markInUse) l w' (.ret (h', some e)) ∧
      Gone h.status.claimRef h.key l ∧ Unchanged l ∧
      ∀ l₂ w₂ q₂, Alongside externals 1 w' (release h' true "") l₂ w₂ q₂ → Unchanged l₂ := by
  obtain ⟨c, hr, hc⟩ := Config.exists_of_replay (p := fun _ _ => true) (c := idle externals hosts)
    (l := admitting 0 k1 1000 ++ claiming 1 claimA k1 ++
      [.call 1 (.fail false "no profile"), .call 1 .ok])
    (Q := fun c => (World.versions c.world k1).any fun h =>
      decide (h.key = k1 ∧ h.status.claimRef = some ⟨"a", "uid-a"⟩) &&
      ((machine externals).drive 1 [.conflict, .version 0] c.world (setStatus h .markInUse)).any
        fun r => failed r.2.2 &&
        r.1.getLast?.all fun y => (World.current y.before h.key).all fun s => s.status.claimRef ≠
        h.status.claimRef)
    (by decide +kernel)
  simp only [List.any_eq_true, Bool.and_eq_true, Option.any_eq_true, decide_eq_true_eq] at hc
  obtain ⟨h, hm, ⟨hk, hC⟩, ⟨l, w', q⟩, hd, hq, hg⟩ := hc
  obtain ⟨h', e, hq'⟩ := of_failed hq
  have hv : World.Valid c.world := run_valid hr
  have hrun : Alongside externals 1 c.world (setStatus h .markInUse) l w' q :=
    amid_of_drive Interferes.refl hd
  have hh : Held c.world h := .of_mem (hk ▸ hm)
  have hgone : Gone h.status.claimRef h.key l := by simpa [Gone, Option.all_eq_true] using hg
  obtain ⟨_, hu, hret⟩ := late_writes_fenced hv hh hrun
  subst hq'
  refine ⟨c.world, h, l, w', h', e, ⟨hv, hh, hC⟩, hrun, hgone, hu hgone, fun l₂ w₂ q₂ hrel => ?_⟩
  exact (((hret h' (some e) rfl).2 _ _ _ _ _ hrel).2 (.inl hgone)).1

end Sample

end KarpenterProviderSsh.Runs
