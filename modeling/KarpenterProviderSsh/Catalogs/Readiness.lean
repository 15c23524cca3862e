import KarpenterProviderSsh.Catalogs.Worlds
import KarpenterProviderSsh.Runs.Jobs

/-! The Ready condition converges: once a class is neither queued nor being reconciled and the
watches have delivered everything, the condition says of the stored profile and hosts what is true
of them. -/

namespace KarpenterProviderSsh.Catalogs

open Api Cluster Scripts Providers Controllers Profiles Control Interleaving Interleaving.Prog

variable {X : Externals}

def verdict (spec : SSHNodeClassSpec X) (profile : Option SSHJoinProfile) (labels : List Labels) :
    Verdict :=
  match profile with
  | none => .profileNotFound spec.joinProfileRef
  | some prof =>
    match validate X prof with
    | .error e => .profileInvalid e
    | .ok () =>
      match parseSelector spec.hostSelector with
      | .error e => .selectorError e
      | .ok () => if labels.filter (selectsLabels spec.hostSelector) = [] then .noHosts else .ready

def NodeClass.Reports (n : NodeClass X) (v : Verdict) : Prop :=
  ∃ t, n.ready = some ⟨"Ready", v.status, v.reason, v.message, n.generation, t⟩

namespace Catalog

variable {w w' : Catalog X} {cls : String} {fans : Prop}

def Wf (w : Catalog X) : Prop := ∀ name n, some n ∈ w.classes.versions name → n.spec.name = name

lemma wf_empty : (empty X).Wf := by
  intro name n hn
  simp [empty, Watched.empty, Watched.versions, Feed.none, Feed.versions] at hn

def cachedVerdict (w : Catalog X) (spec : SSHNodeClassSpec X) : Verdict :=
  verdict spec (w.profiles.cached spec.joinProfileRef) ((w.listedHosts X.ns).map Prod.snd)

def Settled (fans : Prop) (cls : String) (w : Catalog X) : Prop :=
  w.classes.pending cls ≠ [] ∨ ∀ n, w.classes.cached cls = some n →
    (n.deleting → terminationFinalizer ∈ n.finalizers → w.referencing cls ≠ []) ∧
    (fans → ¬n.deleting → terminationFinalizer ∈ n.finalizers ∧ n.Reports (w.cachedVerdict n.spec))

structure Calm (fans : Prop) (cls : String) (w w' : Catalog X) : Prop where
  cached : w'.classes.cached cls = w.classes.cached cls
  pending : w.classes.pending cls ≠ [] → w'.classes.pending cls ≠ []
  profiles : fans → (w.classes.cached cls).isSome →
    ∀ name, w'.profiles.cached name = w.profiles.cached name
  hosts : fans → (w.classes.cached cls).isSome → w'.listedHosts X.ns = w.listedHosts X.ns
  claims : (w.classes.cached cls).isSome → w'.referencing cls = w.referencing cls

lemma Calm.refl (cls : String) (w : Catalog X) : Calm fans cls w w :=
  ⟨rfl, id, fun _ _ _ => rfl, fun _ _ => rfl, fun _ => rfl⟩

lemma Calm.trans {u v w : Catalog X} (huv : Calm fans cls u v) (hvw : Calm fans cls v w) :
    Calm fans cls u w where
  cached := hvw.cached.trans huv.cached
  pending h := hvw.pending (huv.pending h)
  profiles hf h name := (hvw.profiles hf (huv.cached ▸ h) name).trans (huv.profiles hf h name)
  hosts hf h := (hvw.hosts hf (huv.cached ▸ h)).trans (huv.hosts hf h)
  claims h := (hvw.claims (huv.cached ▸ h)).trans (huv.claims h)

lemma Calm.cachedVerdict (h : Calm fans cls w w') (hf : fans) {n : NodeClass X}
    (hn : w.classes.cached cls = some n) :
    w'.cachedVerdict n.spec = w.cachedVerdict n.spec := by
  have hsome : (w.classes.cached cls).isSome := by simp [hn]
  simp only [Catalog.cachedVerdict, h.profiles hf hsome, h.hosts hf hsome]

lemma Calm.settled (h : Calm fans cls w w') (hs : Settled fans cls w) : Settled fans cls w' := by
  rcases hs with hp | hs
  · exact .inl (h.pending hp)
  · refine .inr fun n hn => ?_
    rw [h.cached] at hn
    obtain ⟨hdel, hlive⟩ := hs n hn
    refine ⟨?_, fun hf hd => ?_⟩
    · rw [h.claims (by simp [hn])]
      exact hdel
    · rw [h.cachedVerdict hf hn]
      exact hlive hf hd

lemma calm_putClass (w : Catalog X) (cls name : String) (o : Option (NodeClass X)) :
    Calm fans cls w (w.putClass name o) where
  cached := Watched.cached_put cls _
  pending hp := Watched.pending_put _ hp
  profiles _ _ _ := rfl
  hosts _ _ := rfl
  claims _ := rfl

lemma calm_answer {e : ClassEff X} {ch : ApiChoice} {r : ClassRes X e}
    (h : w.answer e ch = some (r, w')) (cls : String) : Calm fans cls w w' := by
  cases e with
  | cluster e =>
    obtain rfl := cluster_eq h
    exact .refl cls w'
  | getNodeClass name =>
    obtain ⟨rfl, _⟩ := served_eq h
    exact .refl cls w'
  | updateNodeClass n =>
    rcases update_eq h with ⟨rfl, _⟩ | ⟨cur, _, _, rfl, _⟩
    · exact .refl cls w'
    · exact calm_putClass w cls _ _
  | patchReady orig ready =>
    rcases patch_eq h with ⟨rfl, _⟩ | ⟨cur, _, rfl, _⟩
    · exact .refl cls w'
    · unfold patched
      split
      · exact .refl cls w
      · exact calm_putClass w cls _ _
  | listNodeClaims c =>
    obtain ⟨rfl, _⟩ := served_eq h
    exact .refl cls w'

end Catalog

open Catalog

section Settling

variable {fans : Prop} {cls : String} {w : Catalog X} {n : NodeClass X} {v : Verdict}

def aim (X : Externals) (fans : Prop) : Aim (nodeClassController X) where
  calm := Calm fans
  Settled := Settled fans
  refl := Calm.refl
  trans _ := Calm.trans
  stays := Calm.settled
  answer := calm_answer

abbrev Settles (fans : Prop) (cls : String) (p : ClassProg X (Except Err Result))
    (w : Catalog X) : Prop :=
  (aim X fans).OnTrack cls p w

lemma settles_error (e : Err) : Settles fans cls (.ret (.error e)) w := Aim.onTrack_retry rfl

lemma settles_done {a : Except Err Result} (h : Settled fans cls w) : Settles fans cls (.ret a) w :=
  Aim.onTrack_of_settled h

lemma settles_step {e : ClassEff X} {f : ClassRes X e → ClassProg X (Except Err Result)}
    (h : ∀ w₁ ch r w₂, Calm fans cls w w₁ → w₁.answer e ch = some (r, w₂) →
      Settles fans cls (f r) w₂) :
    Settles fans cls (classRequest e >>= f) w := Aim.onTrack_step h

lemma settles_of_pending {p : ClassProg X (Except Err Result)} (h : w.classes.pending cls ≠ []) :
    Settles fans cls p w :=
  Aim.onTrack_of_settled (.inl h)

lemma report_settles (hc : w.classes.cached cls = some n) (hname : n.spec.name = cls)
    (hd : ¬n.deleting) (hf : terminationFinalizer ∈ n.finalizers)
    (hv : fans → v = w.cachedVerdict n.spec) :
    Settles fans cls (report n v) w := by
  refine settles_step fun w₁ ch now w₂ h₁ hr => ?_
  obtain rfl := cluster_eq hr
  have hc₁ : w₂.classes.cached cls = some n := h₁.cached.trans hc
  dsimp only
  split
  · rename_i hsame
    refine settles_done (.inr fun m hm => ?_)
    obtain rfl : n = m := Option.some.inj (hc₁.symm.trans hm)
    refine ⟨fun h => absurd h hd, fun hfan _ => ⟨hf, transitionTime n.ready v.status now, ?_⟩⟩
    rw [h₁.cachedVerdict hfan hc, ← hv hfan]
    exact hsame.symm
  · rename_i hnew
    refine settles_step fun w₃ ch r w₄ h₃ hr => ?_
    rcases patch_eq hr with ⟨_, e, rfl⟩ | ⟨cur, hcur, rfl, rfl | ⟨e, rfl⟩⟩
    · exact settles_error e
    · apply settles_of_pending
      by_cases hp : w₃.classes.pending cls = []
      · -- the patch went onto the version it was made from, so it stored a new one
        have hcn : cur = n := by
          rw [hname, Watched.stored_eq_cached hp, h₃.cached, hc₁] at hcur
          exact (Option.some.inj hcur).symm
        subst hcn
        have hm :
            mergeField cur.ready (setReady cur now v).ready cur.ready =
            (setReady cur now v).ready := by
          simp [mergeField, hnew]
        rw [patched, hm, if_neg hnew, hname]
        exact Watched.pending_put_self _
      · exact (calm_answer hr cls : Calm fans cls _ _).pending hp
    · exact settles_error e

lemma list_settles {f : Except Err (List SSHHost) → ClassProg X (Except Err Result)}
    (selector : Option X.LabelSelector)
    (herr : ∀ w₁ e, Calm fans cls w w₁ → Settles fans cls (f (.error e)) w₁)
    (hok : ∀ w₁ hosts, Calm fans cls w w₁ →
      hosts.map SSHHost.labels = ((w₁.listedHosts X.ns).map Prod.snd).filter
        (selectsLabels selector) → Settles fans cls (f (.ok hosts)) w₁) :
    Settles fans cls (onCluster X (list X selector) >>= f) w := by
  cases selector with
  | none =>
    refine settles_step fun w₁ ch r w₂ h₁ hr => ?_
    obtain rfl := cluster_eq hr
    rcases listHosts_eq hr with ⟨l, rfl, hl⟩ | ⟨e, rfl⟩
    · refine hok w₂ l h₁ ?_
      rw [hl]
      exact (List.filter_eq_self.mpr fun _ _ => rfl).symm
    · exact herr w₂ e h₁
  | some s =>
    unfold list
    dsimp only
    cases hs : X.labelSelectorAsSelector s with
    | error e => exact herr w _ (.refl cls w)
    | ok matchesLabels =>
      refine settles_step fun w₁ ch r w₂ h₁ hr => ?_
      obtain rfl := cluster_eq hr
      rcases listHosts_eq hr with ⟨l, rfl, hl⟩ | ⟨e, rfl⟩
      · refine hok w₂ _ h₁ ?_
        have hsel : selectsLabels (some s) = matchesLabels := by
          funext labels
          simp [selectsLabels, hs]
        rw [← hl, hsel, List.filter_map]
        rfl
      · exact herr w₂ e h₁

lemma reportReadiness_settles (hc : w.classes.cached cls = some n) (hname : n.spec.name = cls)
    (hd : ¬n.deleting) (hf : terminationFinalizer ∈ n.finalizers) :
    Settles fans cls (reportReadiness X n) w := by
  refine settles_step fun w₁ ch r w₂ h₁ hr => ?_
  obtain ⟨rfl, rfl | ⟨m, rfl⟩⟩ := served_eq hr
  · have hc₁ : w₂.classes.cached cls = some n := h₁.cached.trans hc
    have hreport : ∀ {v}, v = w₂.cachedVerdict n.spec →
        Settles fans cls (report n v) w₂ := fun hv =>
      report_settles hc₁ hname hd hf fun _ => hv
    cases hp : w₂.profiles.cached n.spec.joinProfileRef with
    | none => exact hreport (by simp [cachedVerdict, verdict, hp])
    | some prof =>
      simp only [cachedOr]
      cases hval : validate X prof with
      | error e => exact hreport (by simp [cachedVerdict, verdict, hp, hval])
      | ok _ =>
        cases hsel : parseSelector n.spec.hostSelector with
        | error e => exact hreport (by simp [cachedVerdict, verdict, hp, hval, hsel])
        | ok _ =>
          refine list_settles n.spec.hostSelector (fun w₁ e _ => settles_error e)
            fun w₃ hosts h₃ hl => ?_
          refine report_settles (h₃.cached.trans hc₁) hname hd hf fun hfan => ?_
          have hp₃ := (h₃.profiles hfan (by simp [hc₁]) n.spec.joinProfileRef).trans hp
          simp only [cachedVerdict, verdict, hp₃, hval, hsel, ← hl, List.map_eq_nil_iff]
  · exact settles_error _

lemma finalize_settles (hc : w.classes.cached cls = some n) (hname : n.spec.name = cls)
    (hd : n.deleting) :
    Settles fans cls (finalize n) w := by
  unfold finalize
  split
  · rename_i hf
    refine settles_done (.inr fun m hm => ?_)
    obtain rfl : n = m := Option.some.inj (hc.symm.trans hm)
    exact ⟨fun _ h => absurd h hf, fun _ h => absurd hd h⟩
  · refine settles_step fun w₁ ch r w₂ h₁ hr => ?_
    obtain ⟨rfl, rfl | ⟨m, rfl⟩⟩ := served_eq hr
    · dsimp only
      split
      · rename_i hne
        refine settles_done (.inr fun m hm => ?_)
        obtain rfl : n = m := Option.some.inj (hc.symm.trans (h₁.cached.symm.trans hm))
        exact ⟨fun _ _ => hname ▸ hne, fun _ h => absurd hd h⟩
      · refine settles_step fun w₃ ch r w₄ h₃ hr => ?_
        rcases update_eq hr with ⟨_, e, rfl⟩ | ⟨cur, _, _, rfl, rfl | ⟨e, rfl⟩⟩
        · exact settles_error e
        · exact settles_of_pending (hname ▸ Watched.pending_put_self _)
        · exact settles_error e
    · exact settles_error _

lemma reconcileNodeClass_settles (hw : w.Wf) (cls : String) :
    Settles fans cls (reconcileNodeClass X cls) w := by
  refine settles_step fun w₁ ch r w₂ h₁ hr => ?_
  obtain ⟨rfl, rfl | ⟨m, rfl⟩⟩ := served_eq hr
  · cases hc : w₂.classes.cached cls with
    | none =>
      refine settles_done (.inr fun n hn => ?_)
      rw [hc] at hn
      cases hn
    | some n =>
      have hname : n.spec.name = cls :=
        hw cls n ((h₁.cached.symm.trans hc) ▸ Watched.cached_mem _ _)
      simp only [cachedOr]
      split
      · exact finalize_settles hc hname ‹_›
      · rename_i hd
        unfold addFinalizer
        split
        · exact reportReadiness_settles hc hname hd ‹_›
        · refine settles_step fun w₃ ch r w₄ h₃ hr => ?_
          rcases update_eq hr with ⟨_, e, rfl⟩ | ⟨cur, _, _, rfl, rfl | ⟨e, rfl⟩⟩
          · exact settles_error e
          · exact settles_of_pending (hname ▸ Watched.pending_put_self _)
          · exact settles_error e
  · exact settles_error _

end Settling

/-- The classes can be listed when a profile or host event is fanned out. -/
def FansOut (_ : Catalog X) : CatalogEvent X → Prop
  | .seeProfile _ _ listed => listed = true
  | .seeHost _ _ listed => listed = true
  | _ => True

instance (w : Catalog X) (x : CatalogEvent X) : Decidable (FansOut w x) :=
  match x with
  | .seeProfile _ _ listed | .seeHost _ _ listed => inferInstanceAs (Decidable (listed = true))
  | .createClass _ | .editClass _ | .setFinalizers _ _ | .setStatus _ _ | .deleteClass _
    | .putProfile _ _ | .putHost _ _
  | .putClaim _ _ | .seeClass _ _ | .seeClaim _ _ => isTrue trivial

namespace Catalog

variable {w w' : Catalog X} {fans : Prop}

lemma Wf.putClass (h : w.Wf) (name : String) {o : Option (NodeClass X)}
    (ho : ∀ n ∈ o, n.spec.name = name) :
    (w.putClass name o).Wf := by
  intro m n hn
  rcases Watched.mem_versions_put hn with hold | ⟨rfl, hnew⟩
  · exact h m n hold
  · obtain ⟨n', hn', rfl⟩ := Option.map_eq_some_iff.mp hnew.symm
    exact ho n' hn'

lemma Wf.stored (h : w.Wf) {name : String} {n : NodeClass X} (hn : w.classes.stored name = some n) :
    n.spec.name = name := h name n (hn ▸ Watched.stored_mem _ _)

lemma eq_of_mem_kept {n m : NodeClass X} (h : m ∈ kept n) : m = n := by
  unfold kept at h
  split at h <;> cases h
  rfl

lemma Wf.answer (h : w.Wf) {e : ClassEff X} {ch : ApiChoice} {r : ClassRes X e}
    (hr : w.answer e ch = some (r, w')) :
    w'.Wf := by
  cases e with
  | cluster e => exact cluster_eq hr ▸ h
  | getNodeClass name => exact (served_eq hr).1 ▸ h
  | updateNodeClass n =>
    rcases update_eq hr with ⟨rfl, _⟩ | ⟨cur, _, _, rfl, _⟩
    · exact h
    · exact h.putClass _ fun m hm => eq_of_mem_kept hm ▸ rfl
  | patchReady orig ready =>
    rcases patch_eq hr with ⟨rfl, _⟩ | ⟨cur, hcur, rfl, _⟩
    · exact h
    · unfold patched
      split
      · exact h
      · refine h.putClass _ ?_
        rintro m ⟨⟩
        exact (h.stored hcur :)
  | listNodeClaims c => exact (served_eq hr).1 ▸ h

lemma Wf.see (h : w.Wf) {name : String} {n : ℕ} {W : Watched String (NodeClass X)}
    (hW : w.classes.see name n = some W) :
    ({ w with classes := W } : Catalog X).Wf :=
  fun m n hn => h m n ((Watched.sublist_see hW m).subset hn)

lemma Wf.outside (h : w.Wf) {x : CatalogEvent X} (hx : w.outside x = some w') : w'.Wf := by
  cases x with
  | createClass spec =>
    simp only [Catalog.outside] at hx
    split at hx <;> cases hx
    refine h.putClass _ ?_
    rintro m ⟨⟩
    rfl
  | editClass spec =>
    obtain ⟨cur, _, rfl⟩ := Option.map_eq_some_iff.mp hx
    refine h.putClass _ ?_
    rintro m ⟨⟩
    rfl
  | setFinalizers name l =>
    obtain ⟨cur, hcur, rfl⟩ := Option.map_eq_some_iff.mp hx
    have hname := h.stored hcur
    exact h.putClass _ fun m hm => eq_of_mem_kept hm ▸ hname
  | setStatus name ready =>
    obtain ⟨cur, hcur, rfl⟩ := Option.map_eq_some_iff.mp hx
    refine h.putClass _ ?_
    rintro m ⟨⟩
    exact (h.stored hcur :)
  | deleteClass name =>
    obtain ⟨cur, hcur, rfl⟩ := Option.map_eq_some_iff.mp hx
    have hname := h.stored hcur
    split
    · exact h
    · exact h.putClass _ fun m hm => eq_of_mem_kept hm ▸ hname
  | putProfile name o | putHost k o | putClaim name o =>
    cases hx
    exact h
  | seeClass name n =>
    obtain ⟨W, hW, rfl⟩ := Option.map_eq_some_iff.mp hx
    exact h.see hW
  | seeProfile name n listed | seeHost k n listed | seeClaim name n =>
    obtain ⟨W, hW, rfl⟩ := Option.map_eq_some_iff.mp hx
    exact h

lemma wakes_or_calm {x : CatalogEvent X} (ha : fans → FansOut w x)
    (hx : w.outside x = some w') (cls : String) :
    wakes w x w' cls = true ∨ Calm fans cls w w' := by
  cases x with
  | createClass spec =>
    simp only [Catalog.outside] at hx
    split at hx <;> cases hx
    exact .inr (calm_putClass _ _ _ _)
  | editClass spec | setFinalizers name l | setStatus name ready =>
    obtain ⟨cur, _, rfl⟩ := Option.map_eq_some_iff.mp hx
    exact .inr (calm_putClass _ _ _ _)
  | deleteClass name =>
    obtain ⟨cur, _, rfl⟩ := Option.map_eq_some_iff.mp hx
    split
    · exact .inr (.refl cls w)
    · exact .inr (calm_putClass _ _ _ _)
  | putProfile name o =>
    cases hx
    exact .inr ⟨rfl, id, fun _ _ name => Watched.cached_put name _, fun _ _ => rfl, fun _ => rfl⟩
  | putHost k o =>
    cases hx
    refine .inr ⟨rfl, id, fun _ _ _ => rfl, fun _ _ => ?_, fun _ => rfl⟩
    simp [listedHosts]
  | putClaim name o =>
    cases hx
    refine .inr ⟨rfl, id, fun _ _ _ => rfl, fun _ _ => rfl, fun _ => ?_⟩
    simp [referencing]
  | seeClass name n =>
    obtain ⟨W, hW, rfl⟩ := Option.map_eq_some_iff.mp hx
    by_cases hc : name = cls
    · exact .inl (by simp [wakes, hc])
    · have hf := Watched.see_of_ne hW (Ne.symm hc)
      refine .inr ⟨?_, ?_, fun _ _ _ => rfl, fun _ _ => rfl, fun _ => rfl⟩
      · rw [Watched.cached, hf, Watched.cached]
      · rw [Watched.pending, Watched.pending, hf]
        exact id
  | seeProfile name n listed =>
    obtain ⟨W, hW, rfl⟩ := Option.map_eq_some_iff.mp hx
    by_cases hf : fans
    · obtain rfl : listed = true := ha hf
      cases hs : (w.classes.cached cls).isSome with
      | true => exact .inl (by simp [wakes, allNodeClasses, hs])
      | false => exact .inr ⟨rfl, id, by simp [hs], by simp [hs], by simp [hs]⟩
    · exact .inr ⟨rfl, id, fun h => absurd h hf, fun h => absurd h hf, fun _ => rfl⟩
  | seeHost k n listed =>
    obtain ⟨W, hW, rfl⟩ := Option.map_eq_some_iff.mp hx
    by_cases hf : fans
    · obtain rfl : listed = true := ha hf
      by_cases hk : W.cached k = w.hosts.cached k
      · refine .inr ⟨rfl, id, fun _ _ _ => rfl, fun _ _ => ?_, fun _ => rfl⟩
        simp only [listedHosts, Watched.listed_see hW hk]
      · cases hs : (w.classes.cached cls).isSome with
        | true => exact .inl (by simp [wakes, allNodeClasses, hs, Ne.symm hk])
        | false => exact .inr ⟨rfl, id, by simp [hs], by simp [hs], by simp [hs]⟩
    · exact .inr ⟨rfl, id, fun h => absurd h hf, fun h => absurd h hf, fun _ => rfl⟩
  | seeClaim name n =>
    obtain ⟨W, hW, rfl⟩ := Option.map_eq_some_iff.mp hx
    cases hold : nodeClassForClaim (w.claims.cached name) cls with
    | true => exact .inl (by simp [wakes, hold])
    | false =>
      cases hnew : nodeClassForClaim (W.cached name) cls with
      | true => exact .inl (by simp [wakes, hnew])
      | false =>
        refine .inr ⟨rfl, id, fun _ _ _ => rfl, fun _ _ => rfl, fun _ => ?_⟩
        have hnone : ∀ o : Option ClassClaim, nodeClassForClaim o cls = false →
            (o.map (name, ·)).filter (·.2.refersTo cls) = none := by
          intro o ho
          cases o with
          | none => rfl
          | some c => simpa [nodeClassForClaim] using ho
        simp only [referencing]
        rw [Watched.filter_listed_see hW (by rw [hnone _ hnew, hnone _ hold])]

end Catalog

def tending (X : Externals) (fans : Prop) :
    Tending (nodeClassController X) (fun w x => fans → FansOut w x) where
  toAim := aim X fans
  Inv := Wf
  boots _ hk := .inr fun n hn => by simp [hn] at hk
  settles cls w hw := reconcileNodeClass_settles hw cls
  keeps hw hr := hw.answer hr
  outside hw ha hx := ⟨hw.outside hx, fun cls => (wakes_or_calm ha hx cls).imp_right .inl⟩

/-- The verdict that is true of what is stored. -/
inductive Catalog.Explains (w : Catalog X) (spec : SSHNodeClassSpec X) : Verdict → Prop
  | profileNotFound : w.profiles.stored spec.joinProfileRef = none →
      Explains w spec (.profileNotFound spec.joinProfileRef)
  | profileInvalid {prof : SSHJoinProfile} {e : Err} :
      w.profiles.stored spec.joinProfileRef = some prof → validate X prof = .error e →
      Explains w spec (.profileInvalid e)
  | selectorError {prof : SSHJoinProfile} {e : String} :
      w.profiles.stored spec.joinProfileRef = some prof → validate X prof = .ok () →
      parseSelector spec.hostSelector = .error e → Explains w spec (.selectorError e)
  | noHosts {prof : SSHJoinProfile} : w.profiles.stored spec.joinProfileRef = some prof →
      validate X prof = .ok () → parseSelector spec.hostSelector = .ok () →
      (∀ k labels, w.hosts.stored k = some labels → k.ns = X.ns →
        selectsLabels spec.hostSelector labels = false) →
      Explains w spec .noHosts
  | ready {prof : SSHJoinProfile} {k : NamespacedName} {labels : Labels} :
      w.profiles.stored spec.joinProfileRef = some prof → validate X prof = .ok () →
      w.hosts.stored k = some labels → k.ns = X.ns → selectsLabels spec.hostSelector labels = true →
      Explains w spec .ready

section Quiet

variable {w : Catalog X} {c : State (nodeClassController X)} {cls : String} {n : NodeClass X}

structure Catalog.Delivered (w : Catalog X) : Prop where
  classes : w.classes.Delivered
  profiles : w.profiles.Delivered
  hosts : w.hosts.Delivered
  claims : w.claims.Delivered

instance : Decidable w.Delivered :=
  decidable_of_iff (w.classes.Delivered ∧ w.profiles.Delivered ∧ w.hosts.Delivered ∧
      w.claims.Delivered)
    ⟨fun h => ⟨h.1, h.2.1, h.2.2.1, h.2.2.2⟩, fun h => ⟨h.classes, h.profiles, h.hosts, h.claims⟩⟩

lemma mem_listedHosts (hd : w.hosts.Delivered) {k : NamespacedName} {labels : Labels} :
    (k, labels) ∈ w.listedHosts X.ns ↔ w.hosts.stored k = some labels ∧ k.ns = X.ns := by
  simp only [listedHosts, List.mem_filter, Watched.mem_listed, decide_eq_true_eq,
    Watched.stored_eq_cached (hd k)]

lemma explains_cachedVerdict (hd : w.Delivered) (spec : SSHNodeClassSpec X) :
    w.Explains spec (w.cachedVerdict spec) := by
  have hprof := Watched.stored_eq_cached (hd.profiles spec.joinProfileRef)
  unfold cachedVerdict verdict
  cases hp : w.profiles.cached spec.joinProfileRef with
  | none => exact .profileNotFound (hprof.trans hp)
  | some prof =>
    dsimp only
    cases hval : validate X prof with
    | error e => exact .profileInvalid (hprof.trans hp) hval
    | ok _ =>
      dsimp only
      cases hsel : parseSelector spec.hostSelector with
      | error e => exact .selectorError (hprof.trans hp) hval hsel
      | ok _ =>
        dsimp only
        split
        · rename_i hnil
          refine .noHosts (hprof.trans hp) hval hsel fun k labels hk hns => ?_
          have hmem := (mem_listedHosts hd.hosts).mpr ⟨hk, hns⟩
          simpa using List.filter_eq_nil_iff.mp hnil labels (List.mem_map_of_mem hmem)
        · rename_i hne
          obtain ⟨labels, hl⟩ := List.exists_mem_of_ne_nil _ hne
          obtain ⟨hl, hs⟩ := List.mem_filter.mp hl
          obtain ⟨⟨k, _⟩, hk, rfl⟩ := List.mem_map.mp hl
          obtain ⟨hk, hns⟩ := (mem_listedHosts hd.hosts).mp hk
          exact .ready (hprof.trans hp) hval hk hns hs

/-- In a quiet state the condition of a class gives the verdict that is true of what is stored, on
its present generation, and the finalizer is in place. -/
theorem readiness_converges (hr : State.Reaches FansOut (State.boot (Catalog.empty X)) c)
    (hq : c.queued cls = false) (ha : c.active cls = none) (hd : c.world.Delivered)
    (hn : c.world.classes.stored cls = some n) (hlive : n.deleting = false) :
    terminationFinalizer ∈ n.finalizers ∧ ∃ v, n.Reports v ∧ c.world.Explains n.spec v := by
  have hset := Tending.settled_of_idle (T := tending X True) wf_empty
    (hr.mono fun _ _ h _ => h) hq ha
  rw [Watched.stored_eq_cached (hd.classes cls)] at hn
  obtain ⟨hf, hrep⟩ := ((hset.resolve_left (· (hd.classes cls))) n hn).2 trivial (by simp [hlive])
  exact ⟨hf, _, hrep, explains_cachedVerdict hd n.spec⟩

namespace Sample

open Runs.Sample

abbrev CatalogRun := List (Event (nodeClassController externals))

def spec : SSHNodeClassSpec externals :=
  ⟨"c", none, "p", .empty, none, .unset, "", [], none, none, []⟩

def profile : SSHJoinProfile := ⟨"p", "1", ⟨"install", "join", "leave", "", ""⟩, none⟩

def stocking : CatalogRun :=
  [.outside (.createClass spec), .outside (.putProfile "p" (some profile)),
      .outside (.putHost ⟨"pool", "h"⟩ (some [])),
    .outside (.seeProfile "p" 0 true), .outside (.seeHost ⟨"pool", "h"⟩ 0 true),
    .outside (.seeClass "c" 0)]

def readying : CatalogRun :=
  [.start "c", .call "c" .ok, .call "c" .ok, .call "c" .ok,
      .call "c" (.hosts [host "h" "10.0.0.1" 1]), .call "c" (.time 5),
    .call "c" .ok, .finish "c", .outside (.seeClass "c" 1)]

def confirming : CatalogRun :=
  [.start "c", .call "c" .ok, .call "c" .ok, .call "c" (.hosts [host "h" "10.0.0.1" 1]),
      .call "c" (.time 9), .finish "c"]

lemma fansOut_of_decide (w : Catalog X) (x : CatalogEvent X) (h : decide (FansOut w x) = true) :
    FansOut w x := of_decide_eq_true h

def quiet (c : State (nodeClassController externals)) : Bool :=
  !c.queued "c" && (c.active "c").isNone && decide c.world.Delivered

lemma quiet_iff {c : State (nodeClassController externals)} :
    quiet c = true ↔ c.queued "c" = false ∧ c.active "c" = none ∧ c.world.Delivered := by
  simp [quiet, and_assoc]

end Sample

open Sample Runs.Sample in
theorem readiness_converges_ready :
    ∃ (c : State (nodeClassController externals)) (n : NodeClass externals),
    State.Reaches FansOut (State.boot (Catalog.empty externals)) c ∧
    c.world.classes.stored "c" = some n ∧
      terminationFinalizer ∈ n.finalizers ∧ ∃ v, n.Reports v ∧ c.world.Explains n.spec v := by
  obtain ⟨c, hr, hc⟩ :=
    State.exists_of_replay fansOut_of_decide (c := State.boot (Catalog.empty externals))
    (l := stocking ++ readying ++ confirming)
    (Q := fun c => quiet c && (c.world.classes.stored "c").any fun n => !n.deleting)
      (by decide +kernel)
  obtain ⟨hquiet, hn⟩ := Bool.and_eq_true_iff.mp hc
  obtain ⟨hq, ha, hd⟩ := quiet_iff.mp hquiet
  obtain ⟨n, hn, hlive⟩ := (Option.any_eq_true _ _).mp hn
  exact ⟨c, n, hr, hn, readiness_converges hr hq ha hd hn (by simpa using hlive)⟩

/-- In a quiet state a class under deletion that still has the finalizer is referenced by a stored
NodeClaim. -/
theorem deletion_converges (hr : State.Reaches (fun _ _ => True) (State.boot (Catalog.empty X)) c)
    (hq : c.queued cls = false) (ha : c.active cls = none) (hd : c.world.Delivered)
    (hn : c.world.classes.stored cls = some n) (hdel : n.deleting = true)
    (hf : terminationFinalizer ∈ n.finalizers) :
    ∃ name claim, c.world.claims.stored name = some claim ∧ claim.refersTo cls = true := by
  have hset := Tending.settled_of_idle (T := tending X False) wf_empty
    (hr.mono fun _ _ _ h => h.elim) hq ha
  rw [Watched.stored_eq_cached (hd.classes cls)] at hn
  have hne := ((hset.resolve_left (· (hd.classes cls))) n hn).1 hdel hf
  obtain ⟨name, hname⟩ := List.exists_mem_of_ne_nil _ hne
  obtain ⟨⟨_, claim⟩, hmem, rfl⟩ := List.mem_map.mp hname
  obtain ⟨hmem, href⟩ := List.mem_filter.mp hmem
  exact ⟨_, claim, (Watched.stored_eq_cached (hd.claims _)).trans (Watched.mem_listed.mp hmem),
    href⟩

namespace Sample

def holding : CatalogRun :=
  [.outside (.putClaim "a" (some ⟨some ⟨nodeClassGroup, nodeClassKind, "c"⟩⟩)),
      .outside (.deleteClass "c"),
    .outside (.seeClaim "a" 0), .outside (.seeClass "c" 0), .start "c", .call "c" .ok,
    .call "c" .ok, .finish "c"]

end Sample

open Sample Runs.Sample in
theorem deletion_converges_claimed :
    ∃ (c : State (nodeClassController externals)) (n : NodeClass externals),
    State.Reaches (fun _ _ => True) (State.boot (Catalog.empty externals)) c ∧
      c.world.classes.stored "c" = some n ∧ n.deleting = true ∧
      ∃ name claim, c.world.claims.stored name = some claim ∧ claim.refersTo "c" = true := by
  obtain ⟨c, hr, hc⟩ := State.exists_of_replay (p := fun _ _ => true) (fun _ _ _ => trivial)
    (c := State.boot (Catalog.empty externals))
    (l := stocking ++ readying ++ confirming ++ holding)
    (Q := fun c => quiet c && (c.world.classes.stored "c").any fun n : NodeClass externals =>
      n.deleting && decide (terminationFinalizer ∈ n.finalizers)) (by decide +kernel)
  obtain ⟨hquiet, hn⟩ := Bool.and_eq_true_iff.mp hc
  obtain ⟨hq, ha, hd⟩ := quiet_iff.mp hquiet
  obtain ⟨n, hn, hdel⟩ := (Option.any_eq_true _ _).mp hn
  obtain ⟨hdel, hf⟩ := Bool.and_eq_true_iff.mp hdel
  exact ⟨c, n, hr, hn, hdel, deletion_converges hr hq ha hd hn hdel (by simpa using hf)⟩

end Quiet

end KarpenterProviderSsh.Catalogs
