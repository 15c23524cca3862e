import KarpenterProviderSsh.Cluster.Worlds

/-! What can be learnt from an answer, and what stays true of a world from then on. -/

namespace KarpenterProviderSsh.Cluster

open Api Store

namespace World

structure Valid (w : World) : Prop where
  key : ∀ k, ∀ v ∈ w.versions k, v.key = k
  rev : ∀ k c, w.current k = some c → c.resourceVersion ≤ w.rev
  keys : ∀ k c, w.current k = some c → k ∈ w.keys

structure Later (w w' : World) : Prop where
  versions : ∀ k, ∀ v ∈ w.versions k, v ∈ w'.versions k
  rev : w.rev ≤ w'.rev
  minted : ∀ id ∈ w.minted, id ∈ w'.minted
  seen : ∀ k, w.seen k ≤ w'.seen k

lemma Later.refl (w : World) : w.Later w := ⟨fun _ _ h => h, le_rfl, fun _ h => h, fun _ => le_rfl⟩

lemma Later.trans {u v w : World} (h : u.Later v) (h' : v.Later w) : u.Later w :=
  ⟨fun k o ho => h'.versions k o (h.versions k o ho), h.rev.trans h'.rev,
    fun id hid => h'.minted id (h.minted id hid), fun k => (h.seen k).trans (h'.seen k)⟩

section Store

variable {w : World} {k : NamespacedName} {h : HostHistory} {o : SSHHost}

lemma versions_of_store (hs : w.store k = some h) : w.versions k = h.versions := by
  simp [versions, hs]

lemma current_of_store (hs : w.store k = some h) : w.current k = some h.current := by
  simp [current, hs]

lemma store_of_current (hc : w.current k = some o) : ∃ h, w.store k = some h ∧ h.current = o := by
  simpa [current] using hc

lemma current_mem {c : SSHHost} (hc : w.current k = some c) : c ∈ w.versions k := by
  obtain ⟨h, hs, rfl⟩ := store_of_current hc
  simp [versions_of_store hs]

lemma current_of_mem (ho : o ∈ w.versions k) : ∃ c, w.current k = some c := by
  cases hs : w.store k with
  | none => simp [versions, hs] at ho
  | some h => exact ⟨_, current_of_store hs⟩

lemma rev_le_current {c : SSHHost} (ho : o ∈ w.versions k) (hc : w.current k = some c) :
    o.resourceVersion ≤ c.resourceVersion := by
  obtain ⟨h, hs, rfl⟩ := store_of_current hc
  rw [versions_of_store hs] at ho
  exact h.rev_le ho

lemma eq_current {c : SSHHost} (ho : o ∈ w.versions k) (hc : w.current k = some c)
    (hr : o.resourceVersion = c.resourceVersion) : o = c := by
  obtain ⟨h, hs, rfl⟩ := store_of_current hc
  rw [versions_of_store hs] at ho
  exact h.eq_current ho hr

lemma Valid.rev_of_mem (hv : w.Valid) (ho : o ∈ w.versions k) : o.resourceVersion ≤ w.rev := by
  obtain ⟨c, hc⟩ := current_of_mem ho
  exact (rev_le_current ho hc).trans (hv.rev k c hc)

end Store

structure SameStore (w w' : World) : Prop where
  keys : w'.keys = w.keys
  store : w'.store = w.store
  rev : w'.rev = w.rev
  seen : ∀ k, w.seen k ≤ w'.seen k
  minted : ∀ id ∈ w.minted, id ∈ w'.minted

lemma SameStore.later {w w' : World} (h : w.SameStore w') : w.Later w' :=
  ⟨fun k v hv => by simpa [versions, h.store] using hv, h.rev.ge, h.minted, h.seen⟩

lemma SameStore.current {w w' : World} (h : w.SameStore w') (k : NamespacedName) :
    w'.current k = w.current k := by
  simp [World.current, h.store]

lemma SameStore.versions {w w' : World} (h : w.SameStore w') (k : NamespacedName) :
    w'.versions k = w.versions k := by
  simp [World.versions, h.store]

lemma SameStore.valid {w w' : World} (h : w.SameStore w') (hv : w.Valid) : w'.Valid :=
  ⟨fun k => h.versions k ▸ hv.key k, fun k c hc => h.rev ▸ hv.rev k c (h.current k ▸ hc),
    fun k c hc => h.keys ▸ hv.keys k c (h.current k ▸ hc)⟩

lemma SameStore.trans {u v w : World} (h : u.SameStore v) (h' : v.SameStore w) : u.SameStore w :=
  ⟨h'.keys.trans h.keys, h'.store.trans h.store, h'.rev.trans h.rev,
    fun k => (h.seen k).trans (h'.seen k), fun id hid => h'.minted id (h.minted id hid)⟩

lemma SameStore.refl (w : World) : w.SameStore w := ⟨rfl, rfl, rfl, fun _ => le_rfl, fun _ h => h⟩

lemma sameStore_note (w : World) (t : ℕ) (f : Activity → Activity) : w.SameStore (w.note t f) :=
  ⟨rfl, rfl, rfl, fun _ => le_rfl, fun _ h => h⟩

section Seen

lemma le_foldl_seen (os : List SSHHost) (k : NamespacedName) (n : ℕ) :
    n ≤ os.foldl (fun n o => if o.key = k then max n o.resourceVersion else n) n := by
  induction os generalizing n with
  | nil => exact le_rfl
  | cons o os ih =>
    refine le_trans ?_ (ih _)
    by_cases hk : o.key = k <;> simp [hk]

lemma mem_le_foldl_seen {os : List SSHHost} {o : SSHHost} (ho : o ∈ os) (n : ℕ) :
    o.resourceVersion ≤
      os.foldl (fun n p => if p.key = o.key then max n p.resourceVersion else n) n := by
  induction os generalizing n with
  | nil => simp at ho
  | cons p os ih =>
    rcases List.mem_cons.mp ho with rfl | ho
    · refine le_trans ?_ (le_foldl_seen os o.key _)
      simp
    · exact ih ho _

lemma seen_serve {w : World} {t : ℕ} {os : List SSHHost} {o : SSHHost} (ho : o ∈ os) :
    o.resourceVersion ≤ (w.serve t os).seen o.key :=
  mem_le_foldl_seen ho _

lemma sameStore_serve (w : World) (t : ℕ) (os : List SSHHost) : w.SameStore (w.serve t os) :=
  ⟨rfl, rfl, rfl, fun k => le_foldl_seen os k _, fun _ h => h⟩

end Seen

section Reads

variable {w : World} {t : ℕ} {ch : Choice} {w' : World}

lemma failed_cases {α : Type} {r : Except Err α} (hf : w.failed ch = some (r, w')) :
    w' = w ∧ ∃ e, r = .error e ∧ (e = notFoundErr ∨ ∃ m, e = otherErr false m) := by
  cases ch <;> simp only [failed, Option.some.injEq, Prod.mk.injEq, reduceCtorEq] at hf
  · exact ⟨hf.2.symm, _, hf.1.symm, .inl rfl⟩
  · exact ⟨hf.2.symm, _, hf.1.symm, .inr ⟨_, rfl⟩⟩

lemma lookup_mem {k : NamespacedName} {n : ℕ} {o : SSHHost} (h : w.lookup k n = some o) :
    o ∈ w.versions k :=
  List.mem_of_getElem? h

lemma listed_mem {ns : String} {l : List (NamespacedName × ℕ)} {os : List SSHHost} {o : SSHHost}
    (hv : w.Valid) (h : w.listed ns l = some os) (ho : o ∈ os) : o ∈ w.versions o.key := by
  simp only [listed] at h
  split_ifs at h with hl
  clear hl
  induction l generalizing os with
  | nil =>
    simp only [List.mapM_nil] at h
    cases h
    simp at ho
  | cons p l ih =>
    simp only [List.mapM_cons, Option.bind_eq_bind, Option.bind_eq_some_iff] at h
    obtain ⟨o₁, h₁, os', hs, he⟩ := h
    cases he
    rcases List.mem_cons.mp ho with rfl | ho
    · have hm := lookup_mem h₁
      exact hv.key _ _ hm ▸ hm
    · exact ih ho hs

lemma listHosts_answer {ns : String} {r : Except Err (List SSHHost)} (hv : w.Valid)
    (hh : w.handle t (.listHosts ns) ch = some (r, w')) :
    (∃ os, r = .ok os ∧ w' = w.serve t os ∧ ∀ o ∈ os, o ∈ w.versions o.key) ∨
      (w' = w ∧ ∃ e, r = .error e) := by
  simp only [handle] at hh
  split at hh
  · simp only [Option.map_eq_some_iff, Prod.mk.injEq] at hh
    obtain ⟨os, hl, rfl, rfl⟩ := hh
    exact .inl ⟨os, rfl, rfl, fun o ho => listed_mem hv hl ho⟩
  · obtain ⟨rfl, e, he, _⟩ := failed_cases hh
    exact .inr ⟨rfl, e, he⟩

lemma getHost_answer {k : NamespacedName} {r : Except Err SSHHost} (hv : w.Valid)
    (hh : w.handle t (.getHost k) ch = some (r, w')) :
    (∃ o, r = .ok o ∧ w' = w.serve t [o] ∧ o ∈ w.versions o.key ∧ o.key = k) ∨
      (w' = w ∧ ∃ e, r = .error e ∧ e.isConflict = false ∧ e.config = false) := by
  simp only [handle] at hh
  split at hh
  · simp only [Option.map_eq_some_iff, Prod.mk.injEq] at hh
    obtain ⟨o, hl, rfl, rfl⟩ := hh
    have hm := lookup_mem hl
    have hk := hv.key _ _ hm
    exact .inl ⟨o, rfl, rfl, hk ▸ hm, hk⟩
  · obtain ⟨rfl, e, he, rfl | ⟨m, rfl⟩⟩ := failed_cases hh
    · exact .inr ⟨rfl, _, he, rfl, rfl⟩
    · exact .inr ⟨rfl, _, he, rfl, rfl⟩

end Reads

section Writes

variable {w : World} {t : ℕ} {o : SSHHost} {st : SSHHostStatus → SSHHostStatus}
  {mark won : Activity → Activity} {ch : Choice} {r : Except Err SSHHost} {w' : World}

lemma write_cases (hw : w.write t o st mark won ch = some (r, w')) :
    (∃ h, w.store o.key = some h ∧ o.resourceVersion = h.current.resourceVersion ∧
      ((r = .ok (w.save h (st h.current.status)).current ∧
          w' = ((w.commit o.key (w.save h (st h.current.status))).note t mark).note t won) ∨
        (∃ m, r = .error (otherErr true m) ∧
          w' = (w.commit o.key (w.save h (st h.current.status))).note t mark))) ∨
    (w' = w ∧ ∃ e, r = .error e ∧
      ((e = conflictErr ∧ ∀ c, w.current o.key = some c → o.resourceVersion ≠ c.resourceVersion) ∨
        e = notFoundErr ∨ ∃ m, e = otherErr false m)) := by
  unfold write at hw
  split at hw
  · obtain ⟨hw', e, he, hr⟩ := failed_cases hw
    exact .inr ⟨hw', e, he, .inr hr⟩
  · rename_i h hs
    split at hw
    · split_ifs at hw with hr
      cases hw
      exact .inl ⟨h, hs, hr, .inl ⟨rfl, rfl⟩⟩
    · split_ifs at hw with hr
      cases hw
      refine .inr ⟨rfl, _, rfl, .inl ⟨rfl, ?_⟩⟩
      intro c hc
      rw [current_of_store hs] at hc
      cases hc
      exact hr
    · split_ifs at hw with hr
      cases hw
      exact .inl ⟨h, hs, hr, .inr ⟨_, rfl, rfl⟩⟩
    · obtain ⟨hw', e, he, hr⟩ := failed_cases hw
      exact .inr ⟨hw', e, he, .inr hr⟩

structure Pushed (w w' : World) (k : NamespacedName) (o' : SSHHost) : Prop where
  keys : w'.keys = w.keys
  others : ∀ j, j ≠ k → w'.store j = w.store j
  current : w'.current k = some o'
  versions : ∀ v, v ∈ w'.versions k ↔ v = o' ∨ v ∈ w.versions k
  newer : w.rev < o'.resourceVersion
  rev : w'.rev = o'.resourceVersion
  seen : w'.seen = w.seen
  minted : w'.minted = w.minted

lemma pushed_commit {h : HostHistory} {k : NamespacedName}
    (hs : w.store k = some h) (o' : SSHHost) :
    w.Pushed (w.commit k (w.extend h o')) k
      { o' with resourceVersion := max w.rev h.current.resourceVersion + 1 } where
  keys := rfl
  others j hj := by simp [commit, Function.update_of_ne hj]
  current := by simp [World.current, commit, extend]
  versions v := by simp [World.versions, commit, extend, hs]
  newer := by simp only; omega
  rev := by simp [commit, extend]; omega
  seen := rfl
  minted := rfl

lemma commit_same {h : HostHistory} {k : NamespacedName} (hv : w.Valid) (hs : w.store k = some h) :
    w.commit k h = w := by
  have hr := hv.rev k _ (current_of_store hs)
  have hu : Function.update w.store k (some h) = w.store := by
    rw [← hs]
    exact Function.update_eq_self k w.store
  simp [commit, hu, hr]

lemma Pushed.later {k : NamespacedName} {o' : SSHHost} (h : w.Pushed w' k o') : w.Later w' where
  versions j v hv := by
    by_cases hj : j = k
    · subst hj
      exact (h.versions v).mpr (.inr hv)
    · simpa [World.versions, h.others j hj] using hv
  rev := by
    rw [h.rev]
    exact h.newer.le
  minted id hid := h.minted ▸ hid
  seen j := (congrFun h.seen j).ge

lemma Pushed.current_of_ne {k j : NamespacedName} {o' : SSHHost} (h : w.Pushed w' k o')
    (hj : j ≠ k) : w'.current j = w.current j := by
  simp [World.current, h.others j hj]

lemma Pushed.versions_of_ne {k j : NamespacedName} {o' : SSHHost} (h : w.Pushed w' k o')
    (hj : j ≠ k) : w'.versions j = w.versions j := by
  simp [World.versions, h.others j hj]

lemma Pushed.valid {k : NamespacedName} {o' c : SSHHost} (h : w.Pushed w' k o') (hv : w.Valid)
    (hk : o'.key = k) (hc : w.current k = some c) : w'.Valid where
  key j v hj := by
    by_cases hjk : j = k
    · subst hjk
      rcases (h.versions v).mp hj with rfl | hj
      · exact hk
      · exact hv.key _ v hj
    · exact hv.key j v (h.versions_of_ne hjk ▸ hj)
  rev j d hd := by
    by_cases hjk : j = k
    · subst hjk
      rw [h.current] at hd
      cases hd
      exact h.rev.ge
    · rw [h.current_of_ne hjk] at hd
      exact (hv.rev j d hd).trans h.later.rev
  keys j d hd := by
    rw [h.keys]
    by_cases hjk : j = k
    · exact hv.keys _ c (hjk ▸ hc)
    · exact hv.keys j d (h.current_of_ne hjk ▸ hd)

/-- Where a write from `o` with outcome `st'` has landed: the stored version was `c`, and it was
either replaced by one that differs in the status only or had that status already. -/
structure Landed (w w' : World) (k : NamespacedName) (c : SSHHost) (st' : SSHHostStatus)
    (o' : SSHHost) : Prop where
  key : c.key = k
  before : w.current k = some c
  status : o'.status = st'
  rest : o' = { c with status := o'.status, resourceVersion := o'.resourceVersion }
  after : (st' ≠ c.status ∧ w.Pushed w' k o') ∨ (st' = c.status ∧ o' = c ∧ w.SameStore w')

section Landed

variable {k : NamespacedName} {c o' : SSHHost} {st' : SSHHostStatus}

lemma Landed.valid (h : w.Landed w' k c st' o') (hv : w.Valid) : w'.Valid := by
  rcases h.after with ⟨_, hp⟩ | ⟨_, _, hs⟩
  · exact hp.valid hv (by rw [h.rest, h.key]) h.before
  · exact hs.valid hv

lemma Landed.later (h : w.Landed w' k c st' o') : w.Later w' := by
  rcases h.after with ⟨_, hp⟩ | ⟨_, _, hs⟩
  · exact hp.later
  · exact hs.later

lemma Landed.current (h : w.Landed w' k c st' o') : w'.current k = some o' := by
  rcases h.after with ⟨_, hp⟩ | ⟨_, rfl, hs⟩
  · exact hp.current
  · exact (hs.current _).trans h.before

lemma Landed.note (h : w.Landed w' k c st' o') (t : ℕ) (f : Activity → Activity) :
    w.Landed (w'.note t f) k c st' o' := by
  refine ⟨h.key, h.before, h.status, h.rest, ?_⟩
  rcases h.after with ⟨hne, hp⟩ | ⟨he, ho, hs⟩
  · exact .inl ⟨hne, ⟨hp.keys, hp.others, hp.current, hp.versions, hp.newer, hp.rev,
      hp.seen, hp.minted⟩⟩
  · exact .inr ⟨he, ho, hs.trans (sameStore_note w' t f)⟩

lemma landed_commit {h : HostHistory} (hv : w.Valid) (hs : w.store k = some h)
    (st' : SSHHostStatus) :
    w.Landed (w.commit k (w.save h st')) k h.current st' (w.save h st').current := by
  have hc := current_of_store hs
  have hk : h.current.key = k := hv.key _ _ (current_mem hc)
  by_cases he : st' = h.current.status
  · have hsave : w.save h st' = h := by simp [save, he]
    rw [hsave, commit_same hv hs]
    exact ⟨hk, hc, he.symm, rfl, .inr ⟨he, rfl, .refl w⟩⟩
  · have hsave : w.save h st' = w.extend h { h.current with status := st' } := by simp [save, he]
    rw [hsave]
    exact ⟨hk, hc, rfl, rfl, .inl ⟨he, pushed_commit hs _⟩⟩

end Landed

lemma write_answer (hv : w.Valid) (hw : w.write t o st mark won ch = some (r, w')) :
    (∃ c o', c.resourceVersion = o.resourceVersion ∧ w.Landed w' o.key c (st c.status) o' ∧
      ((r = .ok o' ∧ w'.threads = Function.update w.threads t ((w.threads t).map (won ∘ mark))) ∨
        ((∃ m, r = .error (otherErr true m)) ∧
          w'.threads = Function.update w.threads t ((w.threads t).map mark)))) ∨
    (w' = w ∧ ∃ e, r = .error e ∧
      ((e = conflictErr ∧ ∀ c, w.current o.key = some c → o.resourceVersion ≠ c.resourceVersion) ∨
        e = notFoundErr ∨ ∃ m, e = otherErr false m)) := by
  rcases write_cases hw with ⟨h, hs, hr, hw'⟩ | hn
  · refine .inl ⟨h.current, (w.save h (st h.current.status)).current, hr.symm, ?_, ?_⟩
    · rcases hw' with ⟨_, rfl⟩ | ⟨_, _, rfl⟩
      · exact ((landed_commit hv hs _).note t mark).note t won
      · exact (landed_commit hv hs _).note t mark
    · rcases hw' with ⟨hr, rfl⟩ | ⟨m, hr, rfl⟩
      · exact .inl ⟨hr, by simp [note, commit, Function.comp_def]⟩
      · exact .inr ⟨⟨m, hr⟩, by simp [note, commit]⟩
  · exact .inr hn

end Writes

section Sessions

variable {w : World} {t : ℕ} {ch : Choice} {w' : World}

lemma createToken_cases {r : Except Err BootstrapToken}
    (hh : w.handle t .createToken ch = some (r, w')) :
    (∃ tok, r = .ok tok ∧ w.fresh tok.id ∧
      w' = (w.mint tok.id).note t (fun a => { a with minting := some tok.id })) ∨
    ∃ e, r = .error e ∧ (w' = w ∨ ∃ id m, w.fresh id ∧ w' = w.mint id ∧ e = otherErr true m) := by
  simp only [handle] at hh
  split at hh
  · split_ifs at hh with hfr
    cases hh
    exact .inl ⟨_, rfl, hfr, rfl⟩
  · split_ifs at hh with hfr
    cases hh
    exact .inr ⟨_, rfl, .inr ⟨_, _, hfr, rfl, rfl⟩⟩
  · obtain ⟨rfl, e, he, _⟩ := failed_cases hh
    exact .inr ⟨e, he, .inl rfl⟩

lemma createToken_id {tok : BootstrapToken} (hh : w.handle t .createToken ch = some (.ok tok, w')) :
    tok.id ≠ "" := by
  rcases createToken_cases hh with ⟨tok', he, hf, _⟩ | ⟨_, he, _⟩ <;> cases he
  exact hf.1

lemma deleteToken_cases {id : String} {r : Except Err Unit}
    (hh : w.handle t (.deleteToken id) ch = some (r, w')) :
    w' = { w.note t (forget id) with tokens := w.tokens.filter (· ≠ id) } ∨
      (w' = w.note t (giveUp id) ∧ ∃ m, r = .error (otherErr false m)) := by
  simp only [handle] at hh
  split at hh
  · split_ifs at hh
    cases hh
    exact .inl rfl
  · split_ifs at hh
    cases hh
    exact .inl rfl
  · cases hh
    exact .inl rfl
  · rename_i hn _
    cases ch with
    | notFound => exact absurd rfl hn
    | fail landed m =>
      cases hh
      exact .inr ⟨rfl, m, rfl⟩
    | _ => cases hh

lemma sshStart_cases {k : NamespacedName} {p : ScriptPhase} {a : Target} {b : Payload}
    {r : Except Err Unit} (hh : w.handle t (.sshStart k p a b) ch = some (r, w')) :
    (r = .ok () ∧ w' = { w with sessions := ⟨t, k, p⟩ :: w.sessions }) ∨
    (w' = w ∧ ∃ e, r = .error e) := by
  simp only [handle] at hh
  split at hh <;> cases hh
  · exact .inl ⟨rfl, rfl⟩
  · exact .inr ⟨rfl, _, rfl⟩

lemma sshWait_cases {k : NamespacedName} {p : ScriptPhase} {r : Except Err ExecResult}
    (hh : w.handle t (.sshWait k p) ch = some (r, w')) :
    w'.sessions = w.sessions.filter (· ≠ Session.mk t k p) ∧
      ((∃ x, r = .ok x ∧ w'.kubelet = if p = .leave
        then Function.update w.kubelet k false else w.kubelet) ∨
        ((∃ e, r = .error e) ∧ w'.kubelet = w.kubelet)) := by
  simp only [handle] at hh
  split at hh <;> cases hh
  · refine ⟨?_, .inl ⟨_, rfl, ?_⟩⟩
    · split_ifs <;> rfl
    · split_ifs <;> rfl
  · exact ⟨rfl, .inr ⟨⟨_, rfl⟩, rfl⟩⟩

lemma sshWait_config {k : NamespacedName} {p : ScriptPhase} {e : Err}
    (hh : w.handle t (.sshWait k p) ch = some (.error e, w')) : e.config = false := by
  simp only [handle] at hh
  split at hh <;> cases hh
  rfl

end Sessions

section Frames

variable {w : World} {t : ℕ} {e : Eff} {ch : Choice} {r : Res e} {w' : World}

structure Frame (w w' : World) (t : ℕ) (e : Eff) : Prop where
  store : (∀ o wr, e ≠ .updateStatus o wr) → (∀ o wr, e ≠ .patchStatus o wr) → w.SameStore w'
  running : w'.running = w.running
  others : ∀ u, u ≠ t → w'.threads u = w.threads u
  tokens : e ≠ .createToken → (∀ id, e ≠ .deleteToken id) → w'.tokens = w.tokens
  minted : e ≠ .createToken → w'.minted = w.minted
  sessions : (∀ k p a b, e ≠ .sshStart k p a b) → (∀ k p, e ≠ .sshWait k p) →
    w'.sessions = w.sessions
  kubelet : (∀ k p, e ≠ .sshWait k p) → w'.kubelet = w.kubelet

lemma Frame.refl (w : World) (t : ℕ) (e : Eff) : w.Frame w t e :=
  ⟨fun _ _ => .refl w, rfl, fun _ _ => rfl, fun _ _ => rfl, fun _ => rfl,
      fun _ _ => rfl, fun _ => rfl⟩

lemma frame_failed {α : Type} {r : Except Err α} (e : Eff) (h : w.failed ch = some (r, w')) :
    w.Frame w' t e := by
  obtain ⟨rfl, _⟩ := failed_cases h
  exact .refl _ t e

lemma frame_write {o : SSHHost} {st : SSHHostStatus → SSHHostStatus}
    {mark won : Activity → Activity} {r : Except Err SSHHost}
    (he : (∃ o wr, e = .updateStatus o wr) ∨ ∃ o wr, e = .patchStatus o wr)
    (h : w.write t o st mark won ch = some (r, w')) : w.Frame w' t e := by
  have hs : (∀ o wr, e ≠ .updateStatus o wr) → (∀ o wr, e ≠ .patchStatus o wr) →
      w.SameStore w' := by
    intro hu hp
    rcases he with ⟨o, wr, rfl⟩ | ⟨o, wr, rfl⟩
    · exact absurd rfl (hu o wr)
    · exact absurd rfl (hp o wr)
  rcases write_cases h with ⟨h, _, _, ⟨_, rfl⟩ | ⟨_, _, rfl⟩⟩ | ⟨rfl, _⟩
  · exact ⟨hs, rfl, fun u hu => by simp [note, commit, hu], fun _ _ => rfl, fun _ => rfl,
      fun _ _ => rfl, fun _ => rfl⟩
  · exact ⟨hs, rfl, fun u hu => by simp [note, commit, hu], fun _ _ => rfl, fun _ => rfl,
      fun _ _ => rfl, fun _ => rfl⟩
  · exact .refl _ t e

lemma frame_serve (w : World) (t : ℕ) (os : List SSHHost) (e : Eff) : w.Frame (w.serve t os) t e :=
  ⟨fun _ _ => sameStore_serve w t os, rfl, fun u hu => by simp [serve, note, hu], fun _ _ => rfl,
    fun _ => rfl, fun _ _ => rfl, fun _ => rfl⟩

lemma handle_frame (hh : w.handle t e ch = some (r, w')) : w.Frame w' t e := by
  cases e with
  | updateStatus o wr =>
    simp only [handle] at hh
    exact frame_write (.inl ⟨_, _, rfl⟩) hh
  | patchStatus o wr =>
    simp only [handle] at hh
    exact frame_write (.inr ⟨_, _, rfl⟩) hh
  | createToken =>
    have hm (id : String) : w.SameStore (w.mint id) :=
      ⟨rfl, rfl, rfl, fun _ => le_rfl, fun _ h => List.mem_cons_of_mem _ h⟩
    simp only [handle] at hh
    split at hh
    · split_ifs at hh
      cases hh
      exact ⟨fun _ _ => (hm _).trans (sameStore_note _ _ _), rfl,
        fun u hu => by simp [note, mint, hu], by simp, by simp, by simp [note,
          mint], by simp [note, mint]⟩
    · split_ifs at hh
      cases hh
      exact ⟨fun _ _ => hm _, rfl,
        fun u hu => rfl, by simp, by simp, by simp [mint], by simp [mint]⟩
    · exact frame_failed _ hh
  | deleteToken id =>
    have hn (f : Activity → Activity) (l : List String) :
        w.Frame { w.note t f with tokens := l } t (.deleteToken id) :=
      ⟨fun _ _ => ⟨rfl, rfl, rfl, fun _ => le_rfl, fun _ h => h⟩, rfl,
          fun u hu => by simp [note, hu],
        by simp, by simp [note], by simp [note], by simp [note]⟩
    simp only [handle] at hh
    split at hh
    · split_ifs at hh
      cases hh
      exact hn _ _
    · split_ifs at hh
      cases hh
      exact hn _ _
    · cases hh
      exact hn _ _
    · obtain ⟨rfl, _⟩ := failed_cases hh
      exact hn _ w.tokens
  | sshStart k p a b =>
    simp only [handle] at hh
    split at hh <;> cases hh
    · exact ⟨fun _ _ => ⟨rfl, rfl, rfl, fun _ => le_rfl, fun _ h => h⟩, rfl, fun _ _ => rfl,
        by simp, by simp, by simp, by simp⟩
    · exact .refl _ t _
  | sshWait k p =>
    simp only [handle] at hh
    split at hh <;> cases hh
    · split_ifs <;>
        exact ⟨fun _ _ => ⟨rfl, rfl, rfl, fun _ => le_rfl, fun _ h => h⟩, rfl,
          fun u hu => by simp [note, hu], by simp [note], by simp [note], by simp, by simp⟩
    · exact ⟨fun _ _ => ⟨rfl, rfl, rfl, fun _ => le_rfl, fun _ h => h⟩, rfl,
        fun u hu => by simp [note, hu], by simp [note], by simp [note], by simp, by simp⟩
  | listHosts ns =>
    simp only [handle] at hh
    split at hh
    · simp only [Option.map_eq_some_iff, Prod.mk.injEq] at hh
      obtain ⟨os, _, _, rfl⟩ := hh
      exact frame_serve w t os _
    · exact frame_failed _ hh
  | getHost k =>
    simp only [handle] at hh
    split at hh
    · simp only [Option.map_eq_some_iff, Prod.mk.injEq] at hh
      obtain ⟨o, _, _, rfl⟩ := hh
      exact frame_serve w t [o] _
    · exact frame_failed _ hh
  | now | pollTick =>
    simp only [handle] at hh
    split at hh <;> cases hh
    exact .refl _ t _
  | deleteNode n =>
    simp only [handle] at hh
    split at hh
    · cases hh
      exact ⟨fun _ _ => ⟨rfl, rfl, rfl, fun _ => le_rfl, fun _ h => h⟩, rfl, fun _ _ => rfl,
        by simp, by simp, by simp, by simp⟩
    · exact frame_failed _ hh
  | getNodeClaim | listNodes | getProfile | getSecret | readClusterInfo =>
    simp only [handle] at hh
    split at hh
    · cases hh
      exact .refl _ t _
    · exact frame_failed _ hh

lemma other_session (hh : w.handle t e ch = some (r, w')) {s : Session} (hs : s ∈ w'.sessions)
    (ht : s.thread ≠ t) : s ∈ w.sessions := by
  by_cases hst : ∃ k p a b, e = .sshStart k p a b
  · obtain ⟨k, p, a, b, rfl⟩ := hst
    rcases sshStart_cases hh with ⟨_, rfl⟩ | ⟨rfl, _⟩
    · rcases List.mem_cons.mp hs with rfl | hs
      · exact absurd rfl ht
      · exact hs
    · exact hs
  by_cases hw : ∃ k p, e = .sshWait k p
  · obtain ⟨k, p, rfl⟩ := hw
    rw [(sshWait_cases hh).1] at hs
    exact List.mem_of_mem_filter hs
  · push Not at hst hw
    rwa [← (handle_frame hh).sessions hst hw]

end Frames

section Laws

variable {w : World}

lemma handle_later {t : ℕ} {e : Eff} {ch : Choice} {r : Res e} {w' : World} (hv : w.Valid)
    (hh : w.handle t e ch = some (r, w')) : w'.Valid ∧ w.Later w' := by
  have hf := handle_frame hh
  by_cases hu : ∃ o wr, e = .updateStatus o wr ∨ e = .patchStatus o wr
  · obtain ⟨o, wr, rfl | rfl⟩ := hu <;> simp only [handle] at hh <;>
      rcases write_answer hv hh with ⟨_, _, _, hl, _⟩ | ⟨rfl, _⟩
    · exact ⟨hl.valid hv, hl.later⟩
    · exact ⟨hv, .refl _⟩
    · exact ⟨hl.valid hv, hl.later⟩
    · exact ⟨hv, .refl _⟩
  · have hs := hf.store (fun o wr he => hu ⟨o, wr, .inl he⟩) (fun o wr he => hu ⟨o, wr, .inr he⟩)
    exact ⟨hs.valid hv, hs.later⟩

lemma enter_sameStore (w : World) (t : ℕ) (o : Owner) : w.SameStore (w.enter t o) :=
  ⟨rfl, rfl, rfl, fun _ => le_rfl, fun _ h => h⟩

lemma leave_sameStore (w : World) (t : ℕ) : w.SameStore (w.leave t) :=
  ⟨rfl, rfl, rfl, fun _ => le_rfl, fun _ h => h⟩

lemma outside_cases {x : Outer} {w' : World} (hv : w.Valid) (hx : w.outside x = some w') :
    (∃ k c o', w.current k = some c ∧ w.Pushed w' k o' ∧ o'.status = c.status ∧ o'.key = k ∧
      w'.kubelet = w.kubelet) ∨
    (w.SameStore w' ∧ (w'.kubelet = w.kubelet ∨ ∃ k, x = .kubeletUp k ∧
      (∃ s ∈ w.sessions, s.host = k ∧ s.phase = .join) ∧
      w'.kubelet = Function.update w.kubelet k true)) := by
  cases x with
  | edit k labels annotations spec =>
    simp only [outside] at hx
    split at hx
    · rename_i h hs
      have hc := current_of_store hs
      have hk : h.current.key = k := hv.key _ _ (current_mem hc)
      split at hx
      · cases hx
        exact .inl ⟨k, h.current, _, hc, pushed_commit hs _, rfl, hk, rfl⟩
      · cases hx
    · cases hx
  | kubeletUp k =>
    simp only [outside] at hx
    split_ifs at hx with hk
    cases hx
    exact .inr ⟨⟨rfl, rfl, rfl, fun _ => le_rfl, fun _ h => h⟩, .inr ⟨k, rfl, hk, rfl⟩⟩
  | addNode n =>
    cases hx
    exact .inr ⟨⟨rfl, rfl, rfl, fun _ => le_rfl, fun _ h => h⟩, .inl rfl⟩
  | dropNode n =>
    cases hx
    exact .inr ⟨⟨rfl, rfl, rfl, fun _ => le_rfl, fun _ h => h⟩, .inl rfl⟩

lemma outside_frame {x : Outer} {w' : World} (hx : w.outside x = some w') :
    w'.running = w.running ∧ w'.threads = w.threads ∧ w'.tokens = w.tokens ∧
      w'.minted = w.minted ∧ w'.sessions = w.sessions := by
  cases x <;> simp only [outside] at hx
  · split at hx
    · split at hx <;> cases hx
      exact ⟨rfl, rfl, rfl, rfl, rfl⟩
    · cases hx
  · split_ifs at hx
    cases hx
    exact ⟨rfl, rfl, rfl, rfl, rfl⟩
  · cases hx
    exact ⟨rfl, rfl, rfl, rfl, rfl⟩
  · cases hx
    exact ⟨rfl, rfl, rfl, rfl, rfl⟩

lemma outside_later {x : Outer} {w' : World} (hv : w.Valid) (hx : w.outside x = some w') :
    w'.Valid ∧ w.Later w' := by
  rcases outside_cases hv hx with ⟨k, c, o', hc, hp, _, hk, _⟩ | ⟨hs, _⟩
  · exact ⟨hp.valid hv hk hc, hp.later⟩
  · exact ⟨hs.valid hv, hs.later⟩

lemma nodes_failed {α : Type} {r : Except Err α} {w' : World} (h : w.failed ch = some (r, w')) :
    w'.nodes = w.nodes := by
  rw [(failed_cases h).1]

lemma nodes_write {o : SSHHost} {st : SSHHostStatus → SSHHostStatus}
    {mark won : Activity → Activity} {r : Except Err SSHHost} {w' : World}
    (h : w.write t o st mark won ch = some (r, w')) : w'.nodes = w.nodes := by
  rcases write_cases h with ⟨h, _, _, ⟨_, rfl⟩ | ⟨_, _, rfl⟩⟩ | ⟨rfl, _⟩ <;> rfl

lemma handle_nodes {e : Eff} {r : Res e} {w' : World} (hh : w.handle t e ch = some (r, w'))
    (hn : ∀ n, e ≠ .deleteNode n) : w'.nodes = w.nodes := by
  cases e with
  | updateStatus o wr =>
    simp only [handle] at hh
    exact nodes_write hh
  | patchStatus o wr =>
    simp only [handle] at hh
    exact nodes_write hh
  | deleteNode n => exact absurd rfl (hn n)
  | createToken =>
    simp only [handle] at hh
    split at hh
    · split_ifs at hh
      cases hh
      rfl
    · split_ifs at hh
      cases hh
      rfl
    · exact nodes_failed hh
  | deleteToken id =>
    simp only [handle] at hh
    split at hh
    · split_ifs at hh
      cases hh
      rfl
    · split_ifs at hh
      cases hh
      rfl
    · cases hh
      rfl
    · rw [nodes_failed hh]
      rfl
  | sshStart k p a b =>
    simp only [handle] at hh
    split at hh <;> cases hh <;> rfl
  | sshWait k p =>
    simp only [handle] at hh
    split at hh <;> cases hh
    · split_ifs <;> rfl
    · rfl
  | listHosts ns =>
    simp only [handle] at hh
    split at hh
    · simp only [Option.map_eq_some_iff, Prod.mk.injEq] at hh
      obtain ⟨os, _, _, rfl⟩ := hh
      rfl
    · exact nodes_failed hh
  | getHost k =>
    simp only [handle] at hh
    split at hh
    · simp only [Option.map_eq_some_iff, Prod.mk.injEq] at hh
      obtain ⟨o, _, _, rfl⟩ := hh
      rfl
    · exact nodes_failed hh
  | now | pollTick =>
    simp only [handle] at hh
    split at hh <;> cases hh
    rfl
  | getNodeClaim | listNodes | getProfile | getSecret | readClusterInfo =>
    simp only [handle] at hh
    split at hh
    · cases hh
      rfl
    · exact nodes_failed hh

lemma deleteNode_answer {n : Node} {r : Except Err Unit} {w' : World}
    (hh : w.handle t (.deleteNode n) ch = some (r, w')) :
    (r = .ok () ∧ w'.nodes = w.nodes.filter (· ≠ n)) ∨
    (w'.nodes = w.nodes ∧ ∃ e, r = .error e) := by
  simp only [handle] at hh
  split at hh
  · cases hh
    exact .inl ⟨rfl, rfl⟩
  · obtain ⟨rfl, e, he, _⟩ := failed_cases hh
    exact .inr ⟨rfl, e, he⟩

lemma outside_nodes {x : Outer} {w' : World} (hx : w.outside x = some w') {n : Node}
    (hn : n ∈ w.nodes) (hd : x ≠ .dropNode n) : n ∈ w'.nodes := by
  cases x with
  | edit k labels annotations spec =>
    simp only [outside] at hx
    split at hx
    · split at hx <;> cases hx
      exact hn
    · cases hx
  | kubeletUp k =>
    simp only [outside] at hx
    split_ifs at hx
    cases hx
    exact hn
  | addNode m =>
    cases hx
    exact List.mem_cons_of_mem _ hn
  | dropNode m =>
    cases hx
    refine List.mem_filter.mpr ⟨hn, ?_⟩
    have hne : n ≠ m := fun h => hd (by rw [h])
    simpa using hne

end Laws

end World

end KarpenterProviderSsh.Cluster
