import KarpenterProviderSsh.Catalogs.Readiness

/-! The finalizer holds a class for its NodeClaims: none is ever stored whose class is gone. The
reconciler reads caches that may lag, so this rests on the optimistic lock of its update and on what
the others do. -/

namespace KarpenterProviderSsh.Catalogs

open Api Cluster Scripts Providers Controllers Profiles Control Interleaving
  Interleaving.Prog Catalog

variable {X : Externals}

def NodeClass.isReady (n : NodeClass X) : Bool := n.ready.any (·.status = .true)

def NodeClass.Held (n : NodeClass X) : Prop := terminationFinalizer ∈ n.finalizers

instance (n : NodeClass X) : Decidable n.Held := inferInstanceAs (Decidable (_ ∈ _))

def HeldIn (o : Option (NodeClass X)) : Prop := ∃ n, o = some n ∧ n.Held

/-- The NodeClaims stored for the class have reached the cache: every version it may still show
references the class. -/
def Catalog.Seen (w : Catalog X) (cls : String) : Prop :=
  ∀ name claim, w.claims.stored name = some claim → claim.refersTo cls = true →
    ∀ v ∈ w.claims.versions name, ∃ claim', v = some claim' ∧ claim'.refersTo cls = true

/-- What the others do. The finalizer is not taken off by hand, nobody else says that a class is
Ready, a NodeClaim is made for a class that is Ready and not under deletion, and the deletion of a
class is seen only after the NodeClaims made for it before. -/
def Orderly (w : Catalog X) : CatalogEvent X → Prop
  | .setFinalizers name l => HeldIn (w.classes.stored name) → terminationFinalizer ∈ l
  | .setStatus _ ready => ready.any (·.status = .true) = false
  | .putClaim name o => ∀ claim ∈ o, ∀ cls, claim.refersTo cls = true →
      (∃ old, w.claims.stored name = some old ∧ old.refersTo cls = true) ∨
      ∃ n, w.classes.stored cls = some n ∧ n.isReady = true ∧ n.deleting = false
  | .seeClass cls i =>
    ∀ n, (w.classes.pending cls)[i]? = some (some n) → n.deleting = true → w.Seen cls
  | _ => True

namespace Catalog

variable {w w' : Catalog X} {cls : String} {m n : NodeClass X}

def before (a b : Option (NodeClass X)) : Prop :=
  ∀ x ∈ a, ∀ y ∈ b, x.resourceVersion < y.resourceVersion

def heldOn (a b : Option (NodeClass X)) : Prop :=
  ∀ x ∈ a, x.deleting = false → x.Held → HeldIn b

structure Sound (w : Catalog X) : Prop where
  named : w.Wf
  ordered : ∀ cls, (w.classes.versions cls).Pairwise before
  bounded : ∀ cls n, some n ∈ w.classes.versions cls → n.resourceVersion ≤ w.rev
  ready : ∀ cls n, w.classes.stored cls = some n → n.deleting = false → n.isReady = true → n.Held
  held : ∀ cls, (w.classes.versions cls).Pairwise heldOn
  claims : ∀ name claim cls, w.claims.stored name = some claim → claim.refersTo cls = true →
    HeldIn (w.classes.stored cls)
  seen : ∀ cls m n, w.classes.cached cls = some m → m.deleting = true →
    w.classes.stored cls = some n → n.resourceVersion = m.resourceVersion → w.Seen cls

structure Current (w : Catalog X) (cls : String) (m : NodeClass X) : Prop where
  bounded : m.resourceVersion ≤ w.rev
  cached : ∀ x, some x ∈ w.classes.versions cls → x.resourceVersion = m.resourceVersion → x = m ∧
    w.classes.cached cls = some m

def Clear (w : Catalog X) (cls : String) (m : NodeClass X) : Prop :=
  ∀ n, w.classes.stored cls = some n → n.resourceVersion = m.resourceVersion →
    ∀ name claim, w.claims.stored name = some claim → claim.refersTo cls = false

structure Spares (cls : String) (w w' : Catalog X) : Prop where
  sound : w.Sound → w'.Sound
  held : HeldIn (w.classes.stored cls) → HeldIn (w'.classes.stored cls)
  current : w.Sound → ∀ m, w.Current cls m → w'.Current cls m
  clear : w.Sound → ∀ m, m.deleting = true → w.Current cls m → w.Clear cls m → w'.Clear cls m

lemma Spares.refl (cls : String) (w : Catalog X) : Spares cls w w :=
  ⟨id, id, fun _ _ => id, fun _ _ _ _ => id⟩

lemma Spares.trans {u v w : Catalog X} (huv : Spares cls u v) (hvw : Spares cls v w) :
    Spares cls u w where
  sound := hvw.sound ∘ huv.sound
  held := hvw.held ∘ huv.held
  current hs m h := hvw.current (huv.sound hs) m (huv.current hs m h)
  clear hs m hd hc h := hvw.clear (huv.sound hs) m hd (huv.current hs m hc) (huv.clear hs m hd hc h)

lemma sound_empty : (empty X).Sound where
  named := wf_empty
  ordered _ := by simp [empty, Watched.empty, Watched.versions, Feed.none, Feed.versions]
  bounded _ n h := by simp [empty, Watched.empty, Watched.versions, Feed.none, Feed.versions] at h
  ready _ n h := by cases h
  held _ := by simp [empty, Watched.empty, Watched.versions, Feed.none, Feed.versions]
  claims _ _ _ h := by cases h
  seen _ m n h := by cases h

lemma Sound.current (h : w.Sound) (hm : w.classes.cached cls = some m) : w.Current cls m where
  bounded := h.bounded cls m (hm ▸ Watched.cached_mem _ _)
  cached x hx hrev := by
    have hord := h.ordered cls
    rw [Watched.versions_eq] at hx hord
    rcases List.mem_cons.mp hx with hx | hx
    · exact ⟨Option.some.inj (hx.trans hm), hm⟩
    · have := (List.pairwise_cons.mp hord).1 (some x) hx m hm x rfl
      omega

lemma Sound.held_of_mem (h : w.Sound) (hm : some m ∈ w.classes.versions cls)
    (hlive : m.deleting = false) (hheld : m.Held) :
    HeldIn (w.classes.stored cls) := by
  rcases Watched.eq_or_rel_stored (h.held cls) hm with hs | hs
  · exact ⟨m, hs.symm, hheld⟩
  · exact hs m rfl hlive hheld

lemma Current.putClass (h : w.Current cls m) (name : String) (o : Option (NodeClass X)) :
    (w.putClass name o).Current cls m where
  bounded := Nat.le_succ_of_le h.bounded
  cached x hx hrev := by
    rcases Watched.mem_versions_put hx with hold | ⟨rfl, hnew⟩
    · obtain ⟨hxm, hc⟩ := h.cached x hold hrev
      exact ⟨hxm, (Watched.cached_put cls _).trans hc⟩
    · obtain ⟨n, hn, rfl⟩ := Option.map_eq_some_iff.mp hnew.symm
      have := h.bounded
      simp only at hrev
      omega

lemma Clear.putClass (hc : w.Current cls m) (h : w.Clear cls m) (name : String)
    (o : Option (NodeClass X)) :
    (w.putClass name o).Clear cls m := by
  intro n hn hrev
  by_cases hname : cls = name
  · subst hname
    simp only [Catalog.putClass, Watched.stored_put_self] at hn
    obtain ⟨n', _, rfl⟩ := Option.map_eq_some_iff.mp hn
    have := hc.bounded
    simp only at hrev
    omega
  · exact h n ((Watched.stored_put_of_ne hname _).symm.trans hn) hrev

lemma heldIn_map_iff {o : Option (NodeClass X)} {r : ℕ} :
    HeldIn (o.map fun n => { n with resourceVersion := r }) ↔ HeldIn o := by
  cases o with
  | none => simp [HeldIn]
  | some n => simp [HeldIn, NodeClass.Held]

lemma Sound.putClass (h : w.Sound) (name : String) {o : Option (NodeClass X)}
    (hname : ∀ n ∈ o, n.spec.name = name)
    (hready : ∀ n ∈ o, n.deleting = false → n.isReady = true → n.Held)
    (hheld : ∀ x, some x ∈ w.classes.versions name → x.deleting = false → x.Held → HeldIn o)
    (hclaims : ∀ c claim, w.claims.stored c = some claim → claim.refersTo name = true → HeldIn o) :
    (w.putClass name o).Sound where
  named := h.named.putClass name hname
  ordered cls := by
    by_cases hc : cls = name
    · subst hc
      rw [Catalog.putClass, Watched.versions_put_self]
      refine List.pairwise_append.mpr ⟨h.ordered cls, List.pairwise_singleton _ _, ?_⟩
      intro a ha b hb x hx y hy
      obtain rfl := List.mem_singleton.mp hb
      obtain ⟨n, _, rfl⟩ := Option.map_eq_some_iff.mp hy
      exact Nat.lt_succ_of_le (h.bounded cls x (hx ▸ ha))
    · rw [Catalog.putClass, Watched.versions_put_of_ne hc]
      exact h.ordered cls
  bounded cls n hn := by
    rcases Watched.mem_versions_put hn with hold | ⟨_, hnew⟩
    · exact Nat.le_succ_of_le (h.bounded cls n hold)
    · obtain ⟨n', _, rfl⟩ := Option.map_eq_some_iff.mp hnew.symm
      exact le_refl _
  ready cls n hn hlive hr := by
    by_cases hc : cls = name
    · subst hc
      simp only [Catalog.putClass, Watched.stored_put_self] at hn
      obtain ⟨n', hn', rfl⟩ := Option.map_eq_some_iff.mp hn
      exact hready n' hn' hlive hr
    · exact h.ready cls n ((Watched.stored_put_of_ne hc _).symm.trans hn) hlive hr
  held cls := by
    by_cases hc : cls = name
    · subst hc
      rw [Catalog.putClass, Watched.versions_put_self]
      refine List.pairwise_append.mpr ⟨h.held cls, List.pairwise_singleton _ _, ?_⟩
      intro a ha b hb x hx hlive hx'
      obtain rfl := List.mem_singleton.mp hb
      exact heldIn_map_iff.mpr (hheld x (hx ▸ ha) hlive hx')
    · rw [Catalog.putClass, Watched.versions_put_of_ne hc]
      exact h.held cls
  claims c claim cls hs hr := by
    by_cases hc : cls = name
    · subst hc
      simp only [Catalog.putClass, Watched.stored_put_self]
      exact heldIn_map_iff.mpr (hclaims c claim hs hr)
    · simp only [Catalog.putClass, Watched.stored_put_of_ne hc]
      exact h.claims c claim cls hs hr
  seen cls m n hm hdel hn hrev := by
    simp only [Catalog.putClass, Watched.cached_put] at hm
    by_cases hc : cls = name
    · subst hc
      simp only [Catalog.putClass, Watched.stored_put_self] at hn
      obtain ⟨n', _, rfl⟩ := Option.map_eq_some_iff.mp hn
      have := (h.current hm).bounded
      simp only at hrev
      omega
    · exact h.seen cls m n hm hdel ((Watched.stored_put_of_ne hc _).symm.trans hn) hrev

lemma spares_putClass {cur : Option (NodeClass X)} {name : String} {o : Option (NodeClass X)}
    (hcur : w.classes.stored name = cur) (hname : w.Wf → ∀ n ∈ o, n.spec.name = name)
    (hready : (∀ n, cur = some n → n.deleting = false → n.isReady = true → n.Held) →
      ∀ n ∈ o, n.deleting = false → n.isReady = true → n.Held)
      (hheld : HeldIn cur → HeldIn o) (cls : String) :
    Spares cls w (w.putClass name o) where
  sound h := by
    subst hcur
    refine h.putClass name (hname h.named) (hready fun n hn => h.ready name n hn) ?_ ?_
    · intro x hx hlive hx'
      exact hheld (h.held_of_mem hx hlive hx')
    · intro c claim hs hr
      exact hheld (h.claims c claim name hs hr)
  held h := by
    by_cases hc : cls = name
    · subst hc
      simp only [Catalog.putClass, Watched.stored_put_self]
      exact heldIn_map_iff.mpr (hheld (hcur ▸ h))
    · simp only [Catalog.putClass, Watched.stored_put_of_ne hc]
      exact h
  current _ m h := h.putClass name o
  clear _ m _ hc h := h.putClass hc name o

lemma spares_seeClass {name : String} {i : ℕ} {W : Watched String (NodeClass X)}
    (hW : w.classes.see name i = some W) (ha : Orderly w (.seeClass name i)) (cls : String) :
    Spares cls w { w with classes := W } where
  sound h := by
    have hsub : ∀ c, (W.versions c).Sublist (w.classes.versions c) := Watched.sublist_see hW
    refine ⟨h.named.see hW, fun c => (h.ordered c).sublist (hsub c),
      fun c n hn => h.bounded c n ((hsub c).subset hn), ?_, fun c => (h.held c).sublist (hsub c),
      ?_, ?_⟩
    · intro c n hn
      exact h.ready c n ((Watched.stored_see hW c).symm.trans hn)
    · intro c claim k hs hr
      rw [show ({ w with classes := W } : Catalog X).classes.stored k = _
        from Watched.stored_see hW k]
      exact h.claims c claim k hs hr
    · intro c m n hm hdel hn hrev
      by_cases hc : c = name
      · subst hc
        exact ha m ((Watched.cached_see hW).trans (congrArg some hm)) hdel
      · have hf := Watched.see_of_ne hW hc
        refine h.seen c m n ?_ hdel ((Watched.stored_see hW c).symm.trans hn) hrev
        rw [Watched.cached, ← hf]
        exact hm
  held h := by
    rw [show ({ w with classes := W } : Catalog X).classes.stored cls = _
      from Watched.stored_see hW cls]
    exact h
  current hs m h := by
    refine ⟨h.bounded, fun x hx hrev => ?_⟩
    obtain ⟨hxm, hc⟩ := h.cached x ((Watched.sublist_see hW cls).subset hx) hrev
    by_cases hcn : cls = name
    · -- the cache has moved on from the version
      subst hcn
      have hlater := (List.pairwise_cons.mp (hs.ordered cls)).1 _
        ((Watched.versions_see hW).subset hx)
      have := hlater m hc x rfl
      omega
    · refine ⟨hxm, ?_⟩
      rw [Watched.cached, Watched.see_of_ne hW hcn]
      exact hc
  clear _ m _ _ h n hn hrev := h n ((Watched.stored_see hW cls).symm.trans hn) hrev

lemma Current.stored (h : w.Current cls m) (hn : w.classes.stored cls = some n)
    (hrev : n.resourceVersion = m.resourceVersion) :
    n = m ∧ w.classes.cached cls = some m :=
  h.cached n (hn ▸ Watched.stored_mem _ _) hrev

lemma spares_putClaim {name : String} {o : Option ClassClaim}
    (ha : Orderly w (.putClaim name o)) (cls : String) :
    Spares cls w { w with claims := w.claims.put name o } where
  sound h := by
    refine ⟨h.named, h.ordered, h.bounded, h.ready, h.held, ?_, ?_⟩
    · intro c claim k hs hr
      by_cases hc : c = name
      · subst hc
        simp only [Watched.stored_put_self] at hs
        rcases ha claim hs k hr with ⟨old, hold, hr'⟩ | ⟨n, hn, hready, hlive⟩
        · exact h.claims c old k hold hr'
        · exact ⟨n, hn, h.ready k n hn hlive hready⟩
      · exact h.claims c claim k ((Watched.stored_put_of_ne hc o).symm.trans hs) hr
    · intro k m n hm hdel hn hrev c claim hs hr v hv
      have hseen := h.seen k m n hm hdel hn hrev
      by_cases hc : c = name
      · subst hc
        simp only [Watched.stored_put_self] at hs
        rcases ha claim hs k hr with ⟨old, hold, hr'⟩ | ⟨n', hn', _, hlive⟩
        · rcases Watched.mem_versions_put hv with hv | ⟨_, rfl⟩
          · exact hseen c old hold hr' v hv
          · exact ⟨claim, hs, hr⟩
        · -- no NodeClaim is made for a class under deletion
          obtain ⟨rfl, _⟩ := (h.current hm).stored hn hrev
          obtain rfl : n = n' := Option.some.inj (hn.symm.trans hn')
          simp [hdel] at hlive
      · rw [show ({ w with claims := w.claims.put name o } : Catalog X).claims.versions c = _ from
          Watched.versions_put_of_ne hc o] at hv
        exact hseen c claim ((Watched.stored_put_of_ne hc o).symm.trans hs) hr v hv
  held := id
  current _ _ h := ⟨h.bounded, h.cached⟩
  clear _ m hdel hcur h n hn hrev c claim hs := by
    by_cases hc : c = name
    · subst hc
      simp only [Watched.stored_put_self] at hs
      cases hr : claim.refersTo cls with
      | false => rfl
      | true =>
        rcases ha claim hs cls hr with ⟨old, hold, hr'⟩ | ⟨n', hn', _, hlive⟩
        · simp [h n hn hrev c old hold] at hr'
        · obtain ⟨rfl, _⟩ := hcur.stored hn hrev
          obtain rfl : n = n' := Option.some.inj (hn.symm.trans hn')
          simp [hdel] at hlive
    · exact h n hn hrev c claim ((Watched.stored_put_of_ne hc o).symm.trans hs)

lemma spares_seeClaim {name : String} {i : ℕ} {W : Watched String ClassClaim}
    (hW : w.claims.see name i = some W) (cls : String) :
    Spares cls w { w with claims := W } where
  sound h := by
    refine ⟨h.named, h.ordered, h.bounded, h.ready, h.held, ?_, ?_⟩
    · intro c claim k hs hr
      exact h.claims c claim k ((Watched.stored_see hW c).symm.trans hs) hr
    · intro k m n hm hdel hn hrev c claim hs hr v hv
      exact h.seen k m n hm hdel hn hrev c claim ((Watched.stored_see hW c).symm.trans hs) hr v
        ((Watched.sublist_see hW c).subset hv)
  held := id
  current _ _ h := ⟨h.bounded, h.cached⟩
  clear _ m _ _ h n hn hrev c claim hs :=
    h n hn hrev c claim ((Watched.stored_see hW c).symm.trans hs)

lemma heldIn_kept (h : n.Held) : HeldIn (kept n) := by
  have hne : n.finalizers ≠ [] := List.ne_nil_of_mem h
  exact ⟨n, by simp [kept, hne], h⟩

lemma spares_others (P : Watched String SSHJoinProfile) (H : Watched NamespacedName Labels)
    (cls : String) : Spares cls w { w with profiles := P, hosts := H } :=
  ⟨fun h => ⟨h.named, h.ordered, h.bounded, h.ready, h.held, h.claims, h.seen⟩, id,
    fun _ _ h => ⟨h.bounded, h.cached⟩, fun _ _ _ _ => id⟩

lemma spares_outside {x : CatalogEvent X} (ha : Orderly w x) (hx : w.outside x = some w')
    (cls : String) : Spares cls w w' := by
  cases x with
  | createClass spec =>
    simp only [Catalog.outside] at hx
    split at hx <;> cases hx
    rename_i hnone
    refine spares_putClass hnone ?_ ?_ ?_ cls
    · rintro _ n ⟨⟩
      rfl
    · rintro _ n ⟨⟩ _ hr
      simp [NodeClass.isReady] at hr
    · rintro ⟨n, hn, _⟩
      cases hn
  | editClass spec =>
    obtain ⟨cur, hcur, rfl⟩ := Option.map_eq_some_iff.mp hx
    refine spares_putClass hcur ?_ ?_ ?_ cls
    · rintro _ n ⟨⟩
      rfl
    · rintro h n ⟨⟩ hlive hr
      exact h cur rfl hlive hr
    · rintro ⟨n, ⟨⟩, hn⟩
      exact ⟨_, rfl, hn⟩
  | setFinalizers name l =>
    obtain ⟨cur, hcur, rfl⟩ := Option.map_eq_some_iff.mp hx
    have hl : cur.Held → terminationFinalizer ∈ l := fun h => ha ⟨cur, hcur, h⟩
    refine spares_putClass hcur ?_ ?_ ?_ cls
    · intro h n hn
      obtain rfl := eq_of_mem_kept hn
      exact (h.stored hcur :)
    · intro h n hn hlive hr
      obtain rfl := eq_of_mem_kept hn
      exact hl (h cur rfl hlive hr)
    · rintro ⟨n, ⟨⟩, hn⟩
      exact heldIn_kept (hl hn)
  | setStatus name ready =>
    obtain ⟨cur, hcur, rfl⟩ := Option.map_eq_some_iff.mp hx
    refine spares_putClass hcur ?_ ?_ ?_ cls
    · rintro h n ⟨⟩
      exact (h.stored hcur :)
    · rintro h n ⟨⟩ _ hr
      rw [NodeClass.isReady, (ha : _ = false)] at hr
      cases hr
    · rintro ⟨n, ⟨⟩, hn⟩
      exact ⟨_, rfl, hn⟩
  | deleteClass name =>
    obtain ⟨cur, hcur, rfl⟩ := Option.map_eq_some_iff.mp hx
    split
    · exact .refl cls w
    · refine spares_putClass hcur ?_ ?_ ?_ cls
      · intro h n hn
        obtain rfl := eq_of_mem_kept hn
        exact (h.stored hcur :)
      · intro h n hn hlive
        obtain rfl := eq_of_mem_kept hn
        cases hlive
      · rintro ⟨n, ⟨⟩, hn⟩
        exact heldIn_kept hn
  | putProfile name o | putHost k o =>
    cases hx
    exact spares_others _ _ cls
  | putClaim name o =>
    cases hx
    exact spares_putClaim ha cls
  | seeClass name i =>
    obtain ⟨W, hW, rfl⟩ := Option.map_eq_some_iff.mp hx
    exact spares_seeClass hW ha cls
  | seeProfile name i listed | seeHost k i listed =>
    obtain ⟨W, hW, rfl⟩ := Option.map_eq_some_iff.mp hx
    exact spares_others _ _ cls
  | seeClaim name i =>
    obtain ⟨W, hW, rfl⟩ := Option.map_eq_some_iff.mp hx
    exact spares_seeClaim hW cls

def Issues (cls : String) (w : Catalog X) : ClassEff X → Prop
  | .updateNodeClass n => n.spec.name = cls ∧ (n.Held ∨ ∃ m, n.resourceVersion = m.resourceVersion ∧
      m.deleting = true ∧ w.Current cls m ∧ w.Clear cls m)
  | .patchReady orig _ => orig.spec.name = cls ∧ HeldIn (w.classes.stored cls)
  | _ => True

lemma Sound.eq_of_current (h : w.Sound) (hm : w.Current cls m) (hn : w.classes.stored cls = some n)
    (hrev : n.resourceVersion = m.resourceVersion) {x : NodeClass X}
    (hx : some x ∈ w.classes.versions cls) : x = m := by
  -- the version that was read is stored, so nothing older is shown and nothing newer waits
  obtain ⟨rfl, hc⟩ := hm.stored hn hrev
  rcases List.mem_cons.mp (Watched.versions_eq w.classes cls ▸ hx) with hxc | hxp
  · exact Option.some.inj (hxc.trans hc)
  · have hafter := (List.pairwise_cons.mp (h.ordered cls)).1 _ hxp n hc x rfl
    rcases Watched.eq_or_rel_stored (h.ordered cls) hx with hs | hs
    · exact Option.some.inj (hs.trans hn)
    · have := hs x rfl n hn
      omega

lemma spares_of_ne {name : String} {o : Option (NodeClass X)}
    (hs : w.Sound → (w.putClass name o).Sound) (hc : cls ≠ name) :
    Spares cls w (w.putClass name o) where
  sound := hs
  held h := by
    simp only [Catalog.putClass, Watched.stored_put_of_ne hc]
    exact h
  current _ m h := h.putClass name o
  clear _ m _ hcur h := h.putClass hcur name o

lemma Sound.update (h : w.Sound) {n cur : NodeClass X} (hi : Issues cls w (.updateNodeClass n))
    (hcur : w.classes.stored n.spec.name = some cur)
    (hrev : n.resourceVersion = cur.resourceVersion) :
    (w.putClass n.spec.name (kept (w.updated n cur))).Sound := by
  obtain ⟨rfl, hheld | ⟨m, hnm, hdel, hm, hclear⟩⟩ := hi
  · refine h.putClass _ ?_ ?_ ?_ ?_
    · intro n' hn'
      obtain rfl := eq_of_mem_kept hn'
      rfl
    · intro n' hn' _ _
      obtain rfl := eq_of_mem_kept hn'
      exact hheld
    · exact fun _ _ _ _ => heldIn_kept hheld
    · exact fun _ _ _ _ => heldIn_kept hheld
  · have hcm : cur.resourceVersion = m.resourceVersion := hrev.symm.trans hnm
    refine h.putClass _ ?_ ?_ ?_ ?_
    · intro n' hn'
      obtain rfl := eq_of_mem_kept hn'
      rfl
    · intro n' hn' hlive
      obtain rfl := eq_of_mem_kept hn'
      obtain ⟨rfl, _⟩ := hm.stored hcur hcm
      exact absurd (hdel.symm.trans hlive) (by decide)
    · intro x hx hlive
      obtain rfl := h.eq_of_current hm hcur hcm hx
      exact absurd (hdel.symm.trans hlive) (by decide)
    · intro c claim hs hr
      exact absurd (hr.symm.trans (hclear cur hcur hcm c claim hs)) (by decide)

lemma Sound.patched (h : w.Sound) {orig cur : NodeClass X} {ready : Option Condition}
    (hi : Issues cls w (.patchReady orig ready))
    (hcur : w.classes.stored orig.spec.name = some cur) :
    (w.patched orig ready cur).Sound := by
  obtain ⟨rfl, n, hn, hheld⟩ := hi
  obtain rfl : cur = n := Option.some.inj (hcur.symm.trans hn)
  unfold Catalog.patched
  split
  · exact h
  · refine h.putClass _ ?_ ?_ ?_ ?_
    · rintro n' ⟨⟩
      exact (h.named.stored hcur :)
    · rintro n' ⟨⟩ _ _
      exact hheld
    · exact fun _ _ _ _ => ⟨_, rfl, hheld⟩
    · exact fun _ _ _ _ => ⟨_, rfl, hheld⟩

lemma Sound.answer (h : w.Sound) {e : ClassEff X} {ch : ApiChoice} {r : ClassRes X e}
    (hi : Issues cls w e) (hr : w.answer e ch = some (r, w')) :
    w'.Sound ∧ ∀ cls' ≠ cls, Spares cls' w w' := by
  cases e with
  | cluster e =>
    obtain rfl := cluster_eq hr
    exact ⟨h, fun cls' _ => .refl cls' w'⟩
  | getNodeClass name =>
    obtain ⟨rfl, _⟩ := served_eq hr
    exact ⟨h, fun cls' _ => .refl cls' w'⟩
  | listNodeClaims c =>
    obtain ⟨rfl, _⟩ := served_eq hr
    exact ⟨h, fun cls' _ => .refl cls' w'⟩
  | updateNodeClass n =>
    rcases update_eq hr with ⟨rfl, _⟩ | ⟨cur, hcur, hrev, rfl, _⟩
    · exact ⟨h, fun cls' _ => .refl cls' w'⟩
    · have hs := h.update hi hcur hrev
      obtain ⟨rfl, _⟩ := hi
      exact ⟨hs, fun cls' hne => spares_of_ne (fun _ => hs) hne⟩
  | patchReady orig ready =>
    rcases patch_eq hr with ⟨rfl, _⟩ | ⟨cur, hcur, rfl, _⟩
    · exact ⟨h, fun cls' _ => .refl cls' w'⟩
    · have hs := h.patched hi hcur
      obtain ⟨rfl, _⟩ := hi
      refine ⟨hs, fun cls' hne => ?_⟩
      unfold Catalog.patched at hs ⊢
      split
      · exact .refl cls' w
      · rename_i hm
        rw [if_neg hm] at hs
        exact spares_of_ne (fun _ => hs) hne

end Catalog

section Programs

variable {cls : String} {w : Catalog X} {n : NodeClass X} {v : Verdict}

abbrev Keeps (cls : String) {α : Type} (p : ClassProg X α) (w : Catalog X) : Prop :=
  Under (classServer X) (Spares cls) (Issues cls) (fun _ _ => True) p w

lemma keeps_ret {α : Type} (a : α) : Keeps cls (.ret a) w := fun _ _ => trivial

lemma keeps_step {α : Type} {e : ClassEff X} {f : ClassRes X e → ClassProg X α} (hs : w.Sound)
    (h : ∀ w₁, w₁.Sound → Spares cls w w₁ → Issues cls w₁ e ∧ ∀ ch r w₂, w₁.answer e ch = some
      (r, w₂) → w₂.Sound → Keeps cls (f r) w₂) : Keeps cls (classRequest e >>= f) w := by
  intro w₁ h₁
  have hs₁ := h₁.sound hs
  obtain ⟨hi, hf⟩ := h w₁ hs₁ h₁
  exact ⟨hi, fun ch r w₂ hr => hf ch r w₂ hr (hs₁.answer hi hr).1⟩

lemma keeps_cluster {α : Type} {e : Eff} {f : Res e → ClassProg X α} (hs : w.Sound)
    (hheld : HeldIn (w.classes.stored cls))
    (h : ∀ r w₁, w₁.Sound → HeldIn (w₁.classes.stored cls) → Keeps cls (f r) w₁) :
    Keeps cls (classRequest (.cluster e) >>= f) w := by
  refine keeps_step hs fun w₁ hs₁ h₁ => ⟨trivial, fun ch r w₂ hr hs₂ => ?_⟩
  obtain rfl := cluster_eq hr
  exact h r w₂ hs₂ (h₁.held hheld)

lemma report_keeps (hs : w.Sound) (hheld : HeldIn (w.classes.stored cls))
    (hname : n.spec.name = cls) (v : Verdict) :
    Keeps cls (report n v) w := by
  refine keeps_cluster hs hheld fun now w₁ hs₁ hheld₁ => ?_
  dsimp only
  split
  · exact keeps_ret _
  · refine keeps_step hs₁ fun w₂ hs₂ h₂ => ⟨⟨hname, h₂.held hheld₁⟩, fun ch r w₃ hr _ => ?_⟩
    cases r <;> exact keeps_ret _

lemma list_keeps {α : Type} {f : Except Err (List SSHHost) → ClassProg X α} (hs : w.Sound)
    (hheld : HeldIn (w.classes.stored cls)) (selector : Option X.LabelSelector)
    (h : ∀ r w₁, w₁.Sound → HeldIn (w₁.classes.stored cls) → Keeps cls (f r) w₁) :
    Keeps cls (onCluster X (list X selector) >>= f) w := by
  cases selector with
  | none => exact keeps_cluster hs hheld fun r w₁ hs₁ hheld₁ => h r w₁ hs₁ hheld₁
  | some s =>
    unfold list
    dsimp only
    cases X.labelSelectorAsSelector s with
    | error e => exact h _ w hs hheld
    | ok matchesLabels =>
      refine keeps_cluster hs hheld fun r w₁ hs₁ hheld₁ => ?_
      cases r <;> exact h _ w₁ hs₁ hheld₁

lemma reportReadiness_keeps (hs : w.Sound) (hheld : HeldIn (w.classes.stored cls))
    (hname : n.spec.name = cls) :
    Keeps cls (reportReadiness X n) w := by
  refine keeps_cluster hs hheld fun r w₁ hs₁ hheld₁ => ?_
  cases r with
  | error e =>
    dsimp only
    split
    · exact report_keeps hs₁ hheld₁ hname _
    · exact keeps_ret _
  | ok prof =>
    dsimp only
    cases validate X prof with
    | error e => exact report_keeps hs₁ hheld₁ hname _
    | ok _ =>
      dsimp only
      cases parseSelector n.spec.hostSelector with
      | error e => exact report_keeps hs₁ hheld₁ hname _
      | ok _ =>
        refine list_keeps hs₁ hheld₁ n.spec.hostSelector fun r w₂ hs₂ hheld₂ => ?_
        cases r with
        | error e => exact keeps_ret _
        | ok hosts => exact report_keeps hs₂ hheld₂ hname _

lemma clear_of_referencing (hs : w.Sound) (hm : w.Current cls n) (hdel : n.deleting = true)
    (hnil : w.referencing cls = []) :
    w.Clear cls n := by
  -- the cache shows no NodeClaim of a class whose deletion it shows: none is stored, if this
  -- is still the version
  intro n' hn' hrev name claim hc
  obtain ⟨rfl, hcached⟩ := hm.stored hn' hrev
  by_contra hr
  obtain ⟨claim', hv, hr'⟩ :=
    hs.seen cls n' n' hcached hdel hn' rfl name claim hc (by simpa using hr) _
      (Watched.cached_mem _ _)
  have hmem : (name, claim') ∈ w.claims.listed.filter (·.2.refersTo cls) :=
    List.mem_filter.mpr ⟨Watched.mem_listed.mpr hv, hr'⟩
  rw [List.map_eq_nil_iff.mp hnil] at hmem
  cases hmem

lemma finalize_keeps (hs : w.Sound) (hm : w.Current cls n) (hname : n.spec.name = cls)
    (hdel : n.deleting = true) :
    Keeps cls (finalize n) w := by
  unfold finalize
  split
  · exact keeps_ret _
  · refine keeps_step hs fun w₁ hs₁ h₁ => ⟨trivial, fun ch r w₂ hr hs₂ => ?_⟩
    obtain ⟨rfl, rfl | ⟨m, rfl⟩⟩ := served_eq hr
    · dsimp only
      split
      · exact keeps_ret _
      · rename_i hnil
        have hm₂ := h₁.current hs n hm
        have hclear := clear_of_referencing hs₂ hm₂ hdel (by simpa [hname] using hnil)
        refine keeps_step hs₂ fun w₃ hs₃ h₃ =>
          ⟨⟨hname, .inr ⟨n, rfl, hdel, h₃.current hs₂ n hm₂, h₃.clear hs₂ n hdel hm₂ hclear⟩⟩, ?_⟩
        intro ch r w₄ hr _
        cases r <;> exact keeps_ret _
    · exact keeps_ret _

lemma reconcileNodeClass_keeps (hs : w.Sound) (cls : String) :
    Keeps cls (reconcileNodeClass X cls) w := by
  refine keeps_step hs fun w₁ hs₁ h₁ => ⟨trivial, fun ch r w₂ hr hs₂ => ?_⟩
  obtain ⟨rfl, rfl | ⟨m, rfl⟩⟩ := served_eq hr
  · cases hc : w₂.classes.cached cls with
    | none => exact keeps_ret _
    | some n =>
      have hname : n.spec.name = cls := hs₂.named cls n (hc ▸ Watched.cached_mem _ _)
      simp only [cachedOr]
      split
      · exact finalize_keeps hs₂ (hs₂.current hc) hname ‹_›
      · rename_i hlive
        unfold addFinalizer
        split
        · rename_i hheld
          have hin := hs₂.held_of_mem (hc ▸ Watched.cached_mem _ _) (by simpa using hlive) hheld
          exact reportReadiness_keeps hs₂ hin hname
        · have hheld : terminationFinalizer ∈ n.finalizers ++ [terminationFinalizer] := by simp
          refine keeps_step hs₂ fun w₃ hs₃ h₃ => ⟨⟨hname, .inl hheld⟩, fun ch r w₄ hr hs₄ => ?_⟩
          rcases update_eq hr with ⟨_, e, rfl⟩ | ⟨cur, _, _, rfl, rfl | ⟨e, rfl⟩⟩
          · exact keeps_ret _
          · refine reportReadiness_keeps hs₄ ?_ hname
            subst hname
            simp only [Catalog.putClass, Watched.stored_put_self]
            exact heldIn_map_iff.mpr (heldIn_kept hheld)
          · exact keeps_ret _
  · exact keeps_ret _

end Programs

def keeping (X : Externals) : Keeping (nodeClassController X) Orderly where
  Inv := Sound
  rely := Spares
  Issues := Issues
  refl := Spares.refl
  trans _ := Spares.trans
  program cls _ hs := reconcileNodeClass_keeps hs cls
  answer hs hi hr := hs.answer hi hr
  outside hs ha hx := ⟨(spares_outside ha hx "").sound hs, spares_outside ha hx⟩

/-- No NodeClaim is ever stored whose class is not stored with the finalizer. -/
theorem claims_never_dangle {c : State (nodeClassController X)}
    (hr : State.Reaches Orderly (State.boot (Catalog.empty X)) c) {name cls : String}
    {claim : ClassClaim} (hc : c.world.claims.stored name = some claim)
    (href : claim.refersTo cls = true) :
    ∃ n, c.world.classes.stored cls = some n ∧ terminationFinalizer ∈ n.finalizers :=
  ((keeping X).holds sound_empty hr).1.claims name claim cls hc href

namespace Sample

open Runs.Sample

def orderly (w : Catalog X) : CatalogEvent X → Bool
  | .setFinalizers _ _ => false
  | .setStatus _ _ => false
  | .putClaim _ o => o.all fun claim => claim.ref.all fun ref =>
      (w.classes.stored ref.name).any fun n => n.isReady && !n.deleting
  | .seeClass cls i =>
    decide w.claims.Delivered || (w.classes.pending cls)[i]?.all fun o => o.all fun n => !n.deleting
  | _ => true

lemma seen_of_delivered {w : Catalog X} (h : w.claims.Delivered) (cls : String) : w.Seen cls := by
  intro name claim hc href v hv
  rw [Watched.versions_eq, h name, List.mem_singleton, ← Watched.stored_eq_cached (h name)] at hv
  exact ⟨claim, hv.trans hc, href⟩

lemma orderly_of_decide (w : Catalog X) (x : CatalogEvent X) (h : orderly w x = true) :
    Orderly w x := by
  cases x with
  | putClaim name o =>
    intro claim hclaim cls href
    simp only [ClassClaim.refersTo, Bool.and_eq_true, beq_iff_eq] at href
    obtain ⟨ref, hr, rfl⟩ := Option.map_eq_some_iff.mp href.2
    simp only [orderly, Option.mem_def.mp hclaim, Option.all_some] at h
    rw [hr, Option.all_some] at h
    obtain ⟨n, hn, hready⟩ := (Option.any_eq_true _ _).mp h
    simp only [Bool.and_eq_true, Bool.not_eq_true'] at hready
    exact .inr ⟨n, hn, hready⟩
  | seeClass cls i =>
    intro n hn hdel
    rcases Bool.or_eq_true_iff.mp h with hd | hlive
    · exact seen_of_delivered (of_decide_eq_true hd) cls
    · simp [hn, hdel] at hlive
  | setFinalizers name l | setStatus name ready => cases h
  | _ => trivial

def Heedless (w : Catalog X) : CatalogEvent X → Prop
  | .seeClass _ _ => True
  | x => Orderly w x

def heedless (w : Catalog X) : CatalogEvent X → Bool
  | .seeClass _ _ => true
  | x => orderly w x

lemma heedless_of_decide (w : Catalog X) (x : CatalogEvent X) (h : heedless w x = true) :
    Heedless w x := by
  unfold heedless at h
  unfold Heedless
  split at h
  · trivial
  · exact orderly_of_decide w x h

def overtaking : CatalogRun :=
  [.outside (.putClaim "a" (some ⟨some ⟨nodeClassGroup, nodeClassKind, "c"⟩⟩)),
      .outside (.deleteClass "c"),
    .outside (.seeClass "c" 0), .start "c", .call "c" .ok, .call "c" .ok,
    .call "c" .ok, .finish "c"]

end Sample

open Sample Runs.Sample in
theorem claims_never_dangle_deleted :
    ∃ (c : State (nodeClassController externals)) (n : NodeClass externals),
    State.Reaches Orderly (State.boot (Catalog.empty externals)) c ∧ quiet c = true ∧
      c.world.classes.stored "c" = some n ∧ n.deleting = true ∧
      terminationFinalizer ∈ n.finalizers := by
  obtain ⟨c, hr, hc⟩ :=
    State.exists_of_replay (M := nodeClassController externals) orderly_of_decide
    (c := State.boot (Catalog.empty externals)) (l := stocking ++ readying ++ confirming ++ holding)
    (Q := fun c => quiet c && (c.world.classes.stored "c").any NodeClass.deleting &&
      (c.world.claims.stored "a").any fun claim : ClassClaim => claim.refersTo "c")
        (by decide +kernel)
  simp only [Bool.and_eq_true, Option.any_eq_true] at hc
  obtain ⟨⟨hq, m, hm, hdel⟩, claim, hclaim, href⟩ := hc
  obtain ⟨n, hn, hf⟩ := claims_never_dangle hr hclaim href
  obtain rfl : m = n := Option.some.inj (hm.symm.trans hn)
  exact ⟨c, m, hr, hq, hn, hdel, hf⟩

open Sample Runs.Sample in
/-- What is assumed of the order in which the watches deliver cannot be dropped. -/
theorem claim_dangles_when_overtaken :
    ∃ (c : State (nodeClassController externals)) (claim : ClassClaim),
    State.Reaches Heedless (State.boot (Catalog.empty externals)) c ∧
      c.world.claims.stored "a" = some claim ∧ claim.refersTo "c" = true ∧
      c.world.classes.stored "c" = none := by
  obtain ⟨c, hr, hc⟩ :=
    State.exists_of_replay (M := nodeClassController externals) heedless_of_decide
    (c := State.boot (Catalog.empty externals)) (l := stocking ++ readying ++
      confirming ++ overtaking)
    (Q := fun c => (c.world.claims.stored "a").any (fun claim : ClassClaim => claim.refersTo "c") &&
      (c.world.classes.stored "c").isNone) (by decide +kernel)
  simp only [Bool.and_eq_true, Option.any_eq_true, Option.isNone_iff_eq_none] at hc
  obtain ⟨⟨claim, hclaim, href⟩, hgone⟩ := hc
  exact ⟨c, claim, hr, hclaim, href, hgone⟩

end KarpenterProviderSsh.Catalogs
