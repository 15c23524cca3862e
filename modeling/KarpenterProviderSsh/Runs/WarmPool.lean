import KarpenterProviderSsh.Runs.HostStates
import KarpenterProviderSsh.Runs.Joins

/-! The warm pool: a host is Available only while no kubelet of a join script runs on it. -/

namespace KarpenterProviderSsh.Runs

open Api Cluster Scripts Providers Controllers Interleaving Config

variable {X : Externals}

section Promises

/-- A probe that reports no active kubelet is right. -/
def probesTruly (w : World) : Observed X → Bool
  | .call _ (.sshWait k .probe) (.ok x) =>
    !w.kubelet k || (parseProbeOutput x.stdout x.hostKeyFingerprint).kubeletActive
  | _ => true

/-- A Create that resumed its claim releases the host as healthy only if no kubelet runs there. -/
def releasesCold (w : World) : Observed X → Bool
  | .call t (.patchStatus o (.release true _)) r => decide (carriedOut r = true → ∀ a ∈ w.threads t,
      a.owner.launching.isSome = true → a.won = false → w.kubelet o.key = false)
  | _ => true

def keepsWarm (w : World) (obs : Observed X) : Bool := orderly w obs && probesTruly w obs &&
    releasesCold w obs

end Promises

namespace Phase

def cleans : Phase → Option SSHHost
  | .probed h false | .cleared h | .teardown _ h true _ => some h
  | _ => none

def fresh : Phase → Option (NodeClaim × NamespacedName)
  | .launch nc false h .prepare | .launch nc false h (.minted _)
    | .launch nc false h (.recorded _) =>
    some (nc, h.key)
  | .closing nc false cl => if cl.started then none else some (nc, cl.stored.key)
  | _ => none

def unwon : Phase → Bool
  | .lookup _ | .picking _ _ => true
  | .launch _ r _ _ | .closing _ r _ => r
  | _ => false

lemma mem_of_cleans {φ : Phase} {h : SSHHost} (hc : φ.cleans = some h) : h ∈ φ.objects := by
  unfold cleans at hc
  split at hc <;> cases hc <;> simp [objects]

lemma fresh_of_close {φ : Phase} {nc : NodeClaim} {cl : Closing}
    (hc : φ.close = some (nc, false, cl)) :
    φ.fresh = if cl.started then none else some (nc, cl.stored.key) := by
  unfold close at hc
  split at hc <;> cases hc <;> rfl

lemma unwon_of_close {φ : Phase} {nc : NodeClaim} {r : Bool} {cl : Closing}
    (hc : φ.close = some (nc, r, cl)) :
    φ.unwon = r := by
  unfold close at hc
  split at hc <;> cases hc <;> rfl

lemma owner_of_fresh {φ : Phase} {nc : NodeClaim} {k : NamespacedName}
    (h : φ.fresh = some (nc, k)) :
    φ.owner = .create nc := by
  unfold fresh at h
  split at h
  · cases h
    rfl
  · cases h
    rfl
  · cases h
    rfl
  · split_ifs at h
    cases h
    rfl
  · cases h

end Phase

lemma Writes.available {φ : Phase} {o s : SSHHost} {wr : StatusWrite}
    (h : Writes φ o s wr) (hs : φ.Sound) (ha : (outcome o s wr).state = .available) :
    s.status.state = .available ∨ φ.cleans = some s ∨
      ∃ nc r o started freed lost reason, φ.close = some
        (nc, r, ⟨s, o, started, none, freed, lost⟩) ∧ started = false ∧
        wr = .release true reason := by
  have he : (outcome o s wr).state = (wr.apply s.status).state := by
    rcases h.outcome_cases hs with he | ⟨_, _, _, _, _, _, _, _, _, _, _, he⟩ <;> rw [he]
  rw [he] at ha
  cases h with
  | claim => cases ha
  | set hst =>
    cases hst with
    | inUse => cases ha
    | _ => exact .inl ha
  | clear => exact .inl ha
  | @release _ nc r _ _ started freed lost healthy reason hc hh =>
    cases healthy with
    | true => exact .inr (.inr ⟨nc, r, o, started, freed, lost, reason, hc, hh rfl, rfl⟩)
    | false => cases ha
  | @teardown _ _ left =>
    cases left with
    | true => exact .inr (.inl rfl)
    | false => cases ha
  | probe ready hp =>
    obtain ⟨conds, he⟩ := apply_probe _ ready _
    rw [he] at ha
    cases hp with
    | ok | leaveOk => exact .inr (.inl rfl)
    | facts =>
      simp only [ProbeWrite.apply, recordFacts] at ha
      split_ifs at ha
      exact .inl ha
    | recheck | collect => exact .inl ha
    | _ => cases ha

def CleanHeld (w : World) (φ : Phase) : Prop :=
  ∀ h, φ.cleans = some h → w.current h.key = some h → w.kubelet h.key = false

def FreshHeld (w : World) (φ : Phase) : Prop :=
  ∀ nc k, φ.fresh = some (nc, k) → ∀ c, w.current k = some c → c.status.claimRef = some nc.ref →
    w.kubelet k = false

def UnwonHeld (w : World) (t : ℕ) (φ : Phase) : Prop :=
  φ.unwon = true → ∀ a, w.threads t = some a → a.won = false

structure WarmInv (w : World) (ph : Phases) : Prop extends JoinInv w ph where
  agree : AllAgree w
  warm : ∀ k c, w.current k = some c → c.status.state = .available → w.kubelet k = false
  clean : ∀ t φ, ph t = some φ → CleanHeld w φ
  fresh : ∀ t φ, ph t = some φ → FreshHeld w φ
  unwon : ∀ t φ, ph t = some φ → UnwonHeld w t φ

section Steps

variable {w w' : World} {ph ph' : Phases} {obs : Observed X}

lemma Moves.kubelet (hv : w.Valid) (hm : Moves w ph obs w' ph') {k : NamespacedName}
    (hk : w'.kubelet k = true) :
    w.kubelet k = true ∨ (w.SameStore w' ∧ obs.actor = none ∧ ∃ s ∈ w.sessions, s.host = k ∧
      s.phase = .join) := by
  rcases hm with _ | @⟨_, _, e, _, _, _, _, _, _, hh⟩ | _ | _ | hx
  · exact .inl hk
  · by_cases hw : ∃ j p, e = .sshWait j p
    · obtain ⟨j, p, rfl⟩ := hw
      rcases (World.sshWait_cases hh).2 with ⟨x, _, he⟩ | ⟨_, he⟩
      · rw [he] at hk
        split_ifs at hk
        · by_cases hkj : k = j
          · simp [hkj] at hk
          · rw [Function.update_of_ne hkj] at hk
            exact .inl hk
        · exact .inl hk
      · exact .inl (he ▸ hk)
    · push Not at hw
      exact .inl ((World.handle_frame hh).kubelet hw ▸ hk)
  · exact .inl hk
  · exact .inl hk
  · rcases World.outside_cases hv hx with ⟨_, _, _, _, _, _, _, he⟩ | ⟨hs, he | ⟨j, _, hj, he⟩⟩
    · exact .inl (he ▸ hk)
    · exact .inl (he ▸ hk)
    · by_cases hkj : k = j
      · exact .inr ⟨hs, rfl, hkj ▸ hj⟩
      · rw [he, Function.update_of_ne hkj] at hk
        exact .inl hk

lemma warm_step (hv : w.Valid) (hI : WarmInv w ph)
    (hA : releasesCold w obs = true) (hm : Moves w ph obs w' ph') (hch : Change w ph obs w') :
    ∀ k c, w'.current k = some c → c.status.state = .available → w'.kubelet k = false := by
  intro k c hc hav
  by_contra hk
  rw [Bool.not_eq_false] at hk
  rcases Moves.kubelet hv hm hk with hk | ⟨hs, _, s, hsm, rfl, hp⟩
  · -- the kubelet ran before: somebody has made the host Available
    cases hch.at k with
    | same hcur _ =>
      rw [hI.warm k c (hcur ▸ hc) hav] at hk
      cases hk
    | edited d o' hd hp hst =>
      rw [hp.current] at hc
      cases hc
      rw [hI.warm k d hd (hst ▸ hav)] at hk
      cases hk
    | written t φ o s wr a o' hφ hfφ hw hobs ha hkey hl =>
      rw [hl.current] at hc
      cases hc
      rw [hl.status] at hav
      rcases hw.available hfφ.sound hav with he | he |
        ⟨nc, r, o₂, started, freed, lost, reason, hcl, rfl, rfl⟩
      · rw [hI.warm k s hl.before he] at hk
        cases hk
      · rw [← hl.key, hI.clean t φ hφ s he (hl.key ▸ hl.before)] at hk
        cases hk
      · cases r with
        | false =>
          have hfr := Phase.fresh_of_close hcl
          rw [if_neg (by simp)] at hfr
          have hcr := (Phase.close_sound hcl hfφ.sound).1.2 rfl
          rw [← hl.key, hI.fresh t φ hφ nc s.key hfr s (hl.key ▸ hl.before) hcr] at hk
          cases hk
        | true =>
          obtain ⟨b, hb, hbo, _⟩ := hI.registered.record t φ hφ
          have hun := hI.unwon t φ hφ (Phase.unwon_of_close hcl) b hb
          obtain rfl := hobs.patched hm (by simp)
          simp only [releasesCold, decide_eq_true_eq] at hA
          have hoff := hA (carriedOut_of ha) b hb
            (by rw [hbo, (Phase.close_objects hcl).2]; rfl) hun
          rw [hkey, hk] at hoff
          cases hoff
  · -- a host that is being joined is claimed
    obtain ⟨nc, r, h, id, d, _, hd, hcr⟩ := hI.joining hsm hp
    rw [hs.current, hd] at hc
    cases hc
    have hag := (hI.agree _ _ (World.current_mem hd)).1.mp (by rw [hcr]; rfl)
    rw [hav] at hag
    rcases hag with h | h <;> cases h

lemma CleanHeld.other (hv : w.Valid) (hf : ∀ t φ, ph t = some φ → φ.Facts w) (hI : WarmInv w ph)
    (hm : Moves w ph obs w' ph') (hch : Change w ph obs w') {t : ℕ} {φ : Phase} (hφ : ph t = some φ)
    (h : CleanHeld w φ) : CleanHeld w' φ := by
  -- a version on which the kubelet was seen off is not the one a join script runs on
  intro o ho hcur'
  have hom := (hf t φ hφ).stored o (Phase.mem_of_cleans ho)
  have hcur : w.current o.key = some o := by
    by_contra hn
    exact hch.superseded hv hom hn hcur'
  by_contra hk
  rw [Bool.not_eq_false] at hk
  rcases Moves.kubelet hv hm hk with hk | ⟨_, _, s, hsm, hsk, hp⟩
  · rw [h o ho hcur] at hk
    cases hk
  · obtain ⟨nc, r, h', id, d, hu, hd, hcr⟩ := hI.joining hsm hp
    rw [hsk, hcur] at hd
    cases hd
    have hs := (hf t φ hφ).sound
    have hag := (hI.agree _ _ hom).1.mp (by rw [hcr]; rfl)
    unfold Phase.cleans at ho
    split at ho <;> cases ho
    · exact hs hag
    · rw [hs.2] at hcr
      cases hcr
    · have htu := hI.serial.holder_eq hI.registered hu hφ rfl rfl hs hcr
      rw [htu, hφ] at hu
      cases hu

lemma FreshHeld.step (hv : w.Valid) (hI : WarmInv w ph) (hm : Moves w ph obs w' ph')
    (hch : Change w ph obs w') {t : ℕ} {φ : Phase} (hφ : ph t = some φ) (h : FreshHeld w φ) :
    FreshHeld w' φ := by
  intro nc k hfr c hc hcr
  have hown : φ.owner.nodeClaim = some nc := by
    rw [Phase.owner_of_fresh hfr]
    rfl
  by_contra hk
  rw [Bool.not_eq_false] at hk
  rcases hch.claimed hc hcr with ⟨d, hd, hdr⟩ | ⟨u, nc', os, o, a, hu, hnc, _⟩
  · rcases Moves.kubelet hv hm hk with hk | ⟨_, _, s, hsm, rfl, hp⟩
    · rw [h nc k hfr d hd hdr] at hk
      cases hk
    · obtain ⟨nc', r, h', id, d', hu, hd', hcr'⟩ := hI.joining hsm hp
      rw [hd] at hd'
      cases hd'
      have htu := hI.serial.holder_eq hI.registered hu hφ rfl hown (s := d)
        (by simp [claimHeldBy, hdr, heldBy_ref]) hcr'
      rw [htu, hφ] at hu
      cases hu
      cases r <;> cases hfr
  · have htu := hI.serial.holder_eq (s := c) hI.registered hφ hu hown rfl
      (by simp [claimHeldBy, hcr, ← hnc, heldBy_ref])
      hcr
    rw [← htu, hφ] at hu
    cases hu
    cases hfr

end Steps

section Acts

variable {w w' : World} {ph ph' : Phases} {t : ℕ} {φ ψ : Phase} {e : Eff} {r : Res e} {ch : Choice}

lemma kubelet_wait {k : NamespacedName} {p : ScriptPhase} {x : ExecResult}
    (hh : w.handle t (.sshWait k p) ch = some (.ok x, w')) (h : p = .leave ∨ w.kubelet k = false) :
    w'.kubelet k = false := by
  rcases (World.sshWait_cases hh).2 with ⟨_, _, he⟩ | ⟨⟨_, he⟩, _⟩
  · rw [he]
    split_ifs with hp
    · simp
    · exact h.resolve_left hp
  · cases he

lemma cleanHeld_act (ha : Act φ e r ψ) (hh : w.handle t e ch = some (r, w'))
    (hA : probesTruly (X := X) w (.call t e r) = true) (hT' : CleanHeld w' φ) : CleanHeld w' ψ := by
  have hnone {χ : Phase} (h : χ.cleans = none) : CleanHeld w' χ := by
    intro o ho
    rw [h] at ho
    cases ho
  cases ha with
  | silent | look | list | quietStart | quietWait | startFailed | alive => exact hT'
  | update _ hψ =>
    cases hψ with
    | claimLost => exact hT'
    | _ => exact hnone rfl
  | patch _ _ hψ =>
    cases hψ with
    | claimLost | setLost => exact hT'
    | _ => exact hnone rfl
  | @probed h x =>
    intro o ho _
    cases hac : (parseProbeOutput x.stdout x.hostKeyFingerprint).kubeletActive with
    | true =>
      rw [hac] at ho
      cases ho
    | false =>
      rw [hac] at ho
      cases ho
      simp only [probesTruly, hac, Bool.or_false, Bool.not_eq_true'] at hA
      exact kubelet_wait hh (.inr hA)
  | forceOk | leaveOk =>
    intro o ho _
    cases ho
    exact kubelet_wait hh (.inl rfl)
  | @freeLeft nc h left freed =>
    intro o ho
    cases left <;> cases ho
    exact hT' h rfl
  | _ => exact hnone rfl

lemma Phase.fresh_launch {nc : NodeClaim} {r : Bool} {h h' : SSHHost} {st : Stage}
    (hk : h'.key = h.key) :
    (Phase.launch nc r h' st).fresh = (Phase.launch nc r h st).fresh := by
  cases r <;> cases st <;> simp [fresh, hk]

lemma Phase.fresh_closing {nc : NodeClaim} {r : Bool} {cl cl' : Closing}
    (hc : φ.close = some (nc, r, cl)) (hk : cl'.stored.key = cl.stored.key)
    (hs : cl'.started = cl.started) :
    (Phase.closing nc r cl').fresh = φ.fresh := by
  cases r with
  | false => rw [fresh_of_close hc, fresh_of_close rfl, hk, hs]
  | true =>
    unfold close at hc
    split at hc <;> cases hc <;> rfl

lemma fresh_after {o s : SSHHost} {wr : StatusWrite} {a : Except Err SSHHost}
    (hn : ∀ ref, wr ≠ .claim ref) (ha : Answered w o s wr a w') (hψ : After φ o s wr a ψ) :
    ψ.fresh = φ.fresh ∨ ψ.fresh = none := by
  cases hψ with
  | claimOk | claimLost | claimErr => exact absurd rfl (hn _)
  | setLost => exact .inl rfl
  | @setOk nc r h st x o' hst =>
    have hk := (landed_mem ha.of_ok).1
    refine .inl ?_
    cases hst <;> cases r <;> simp [Phase.fresh, Stage.next, hk]
  | setErr hst hj =>
    cases hst with
    | installed | token => exact .inl (Phase.fresh_closing rfl rfl rfl)
    | providerID | inUse => exact absurd rfl hj
  | clearOk hc => exact .inl (Phase.fresh_closing hc (landed_mem ha.of_ok).1 rfl)
  | clearLost hc | clearErr hc => exact .inl (Phase.fresh_closing hc rfl rfl)
  | lastErr | released | factsOk | fenceOk | probeEnd => exact .inr rfl

lemma freshHeld_act (hv : w.Valid) (hf : φ.Facts w) (hI : WarmInv w ph) (ha : Act φ e r ψ)
    (hh : w.handle t e ch = some (r, w')) (hT' : FreshHeld w' φ) : FreshHeld w' ψ := by
  have hkeep {χ : Phase} (h : χ.fresh = φ.fresh ∨ χ.fresh = none) : FreshHeld w' χ := by
    intro nc k hfr
    rcases h with h | h
    · exact hT' nc k (h ▸ hfr)
    · rw [h] at hfr
      cases hfr
  cases ha with
  | update hw hψ =>
    cases hψ with
    | claimOk =>
      -- what is claimed was Available
      have hl := (answered_update hv hf hw hh).of_ok
      intro nc' k hfr _ _ _
      cases hfr
      obtain ⟨hav, _⟩ := claimable_iff.mp (hf.sound _ hw.stored_mem)
      rw [(landed_mem hl).1, (World.handle_frame hh).kubelet (by simp)]
      exact hI.warm _ _ hl.before hav
    | claimLost => exact hT'
    | claimErr => exact hkeep (.inr rfl)
  | patch hw hn hψ => exact hkeep (fresh_after hn (answered_patch hv hf hw hh) hψ)
  | silent | look | list | quietStart | quietWait | startFailed | alive | mintFailed => exact hT'
  | @mint nc r => cases r <;> exact hkeep (.inl rfl)
  | refetch hst hcr hk => exact hkeep (.inl (Phase.fresh_launch hk))
  | abandon hst hj =>
    cases hst with
    | installed | token => exact hkeep (.inl (Phase.fresh_closing rfl rfl rfl))
    | providerID | inUse => exact absurd rfl hj
  | refetchClosing _ hk => exact hkeep (.inl (Phase.fresh_closing rfl hk rfl))
  | abandonClosing => exact hkeep (.inl (Phase.fresh_closing rfl rfl rfl))
  | discard hc | free hc => exact hkeep (.inl (Phase.fresh_closing hc rfl rfl))
  | @joinStart _ r | @joinOk _ r | @joinErr _ r => cases r <;> exact hkeep (.inr rfl)
  | _ => exact hkeep (.inr rfl)

lemma unwon_act (ha : Act φ e r ψ) (h : ψ.unwon = true) :
    φ.unwon = true ∧ ∀ a, (World.noted e r a).won = a.won := by
  cases ha with
  | update hw hψ =>
    cases hψ with
    | claimLost => exact ⟨h, World.noted_won_error _ _ _⟩
    | claimOk | claimErr => cases h
  | patch hw hn hψ =>
    refine ⟨?_, World.noted_won (by simp) fun o ref he => ?_⟩
    · cases hψ with
      | setLost | claimLost | setOk | setErr => exact h
      | clearOk hc | clearLost hc | clearErr hc => exact (Phase.unwon_of_close hc).trans h
      | _ => cases h
    · cases he
      exact hn _ rfl
  | @silent _ e _ hs =>
    refine ⟨h, World.noted_won ?_ ?_⟩ <;> rintro o wr rfl <;> cases hs
  | discard hc | free hc =>
    exact ⟨(Phase.unwon_of_close hc).trans h, World.noted_won (by simp) (by simp)⟩
  | _ => exact ⟨h, World.noted_won (by simp) (by simp)⟩

end Acts

theorem kept_warmInv : (protocol X).Kept (Passes keepsWarm) WarmInv := by
  intro w ph obs w' ph' hv hf hI ha hm
  have ho : keepsWarm w obs = true := ha
  simp only [keepsWarm, Bool.and_eq_true] at ho
  have hch := Moves.change hv hf hm
  have hj := kept_joinInv (X := X) (A := fun w o => orderly w o = true)
    (fun _ _ h => h) w ph obs w' ph' hv hf
    hI.toJoinInv ho.1.1 hm
  refine ⟨hj, kept_allAgree _ w ph obs w' ph' hv hf hI.agree ha hm, warm_step hv hI ho.2 hm hch, ?_,
    ?_, ?_⟩
  · refine Moves.threads (T := fun w _ φ => CleanHeld w φ) hm hI.clean ?_ ?_ ?_
    · rintro t j _ _ _ h hc
      cases j <;> cases hc
    · rintro t φ e r ψ ch hφ hact hh rfl hT
      exact cleanHeld_act hact hh ho.1.2 (hT.other hv hf hI hm hch hφ)
    · intro t φ hφ _ hT
      exact hT.other hv hf hI hm hch hφ
  · refine Moves.threads (T := fun w _ φ => FreshHeld w φ) hm hI.fresh ?_ ?_ ?_
    · rintro t j _ _ _ nc k hfr
      cases j <;> cases hfr
    · rintro t φ e r ψ ch hφ hact hh _ hT
      exact freshHeld_act hv (hf t φ hφ) hI hact hh (hT.step hv hI hm hch hφ)
    · intro t φ hφ _ hT
      exact hT.step hv hI hm hch hφ
  · refine Moves.threads (T := UnwonHeld) hm hI.unwon ?_ ?_ ?_
    · rintro t j _ _ rfl _ a ha
      simp only [World.enter, Function.update_self, Option.some.injEq] at ha
      rw [← ha]
    · rintro t φ e r ψ ch hφ hact hh _ hT hu a' ha'
      obtain ⟨a, hta, rfl⟩ := World.record_after hv hh ha'
      obtain ⟨huφ, hwon⟩ := unwon_act hact hu
      rw [hwon, hT huφ a hta]
    · intro t φ hφ hact hT hu a ha
      obtain ⟨b, hb, _⟩ := hI.registered.record t φ hφ
      rw [Moves.record_of_other hm hact hb] at ha
      cases ha
      exact hT hu _ hb

lemma warmInv_start (hosts : List SSHHost) : WarmInv (World.start hosts) (fun _ => none) :=
  ⟨joinInv_start hosts, allAgree_start hosts, fun _ _ _ _ => rfl, by simp, by simp, by simp⟩

/-- No kubelet runs on an Available host, in every run in which core is orderly (every NodeClaim has
a UID, at most one Create or Delete runs for it at a time, and it stays while its Create is in
flight), probes tell the truth and no resumed Create takes a failed preparation for a host nobody
has touched. -/
theorem available_hosts_cold {hosts : List SSHHost} {c : Run X}
    (hr : Reaches (Passes keepsWarm) (idle X hosts) c) {k : NamespacedName} {h : SSHHost}
    (hh : c.world.current k = some h) (hs : h.status.state = .available) :
    c.world.kubelet k = false := by
  obtain ⟨ph, _, hI⟩ := reached kept_warmInv (warmInv_start hosts) hr
  exact hI.warm k h hh hs

section Sample

open Sample

theorem available_hosts_cold_left :
    ∃ (c : Run externals) (h : SSHHost), Reaches (Passes keepsWarm) (idle externals hosts) c ∧
      c.world.current k1 = some h ∧ h.status.state = .available ∧ c.world.kubelet k1 = false := by
  obtain ⟨c, hr, hq⟩ := exists_of_replay (p := keepsWarm) (c := idle externals hosts)
    (l := admitting 0 k1 1000 ++ claiming 1 claimA k1 ++ preparing 1 ++ installing 1 ++
      joining 1 "id1" ++ [.outside (.kubeletUp k1)] ++ joined 1 ++ leaving 2 claimA 0 ++ left 2)
    (Q := fun c => (c.world.current k1).any (fun h => h.status.state = .available))
      (by decide +kernel)
  obtain ⟨h, hh, hs⟩ := (Option.any_eq_true _ _).mp hq
  exact ⟨c, h, hr, hh, of_decide_eq_true hs, available_hosts_cold hr hh (of_decide_eq_true hs)⟩

/-- A Create joins its host and fails on the last status write. The one that resumes the claim
cannot read the profile, takes the host for untouched and releases it as healthy. -/
theorem resumed_create_releases_warm :
    ∃ (c : Run externals) (h : SSHHost),
      Reaches (Passes fun w o => orderly w o && probesTruly w o) (idle externals hosts) c ∧
        c.world.current k1 = some h ∧ h.status.state = .available ∧ c.world.kubelet k1 = true := by
  obtain ⟨c, hr, hq⟩ := exists_of_replay (p := fun w o => orderly w o && probesTruly w o)
    (c := idle externals hosts)
    (l := admitting 0 k1 1000 ++ claiming 1 claimA k1 ++ preparing 1 ++ installing 1 ++
      joining 1 "id1" ++ [.outside (.kubeletUp k1), .call 1 done, .call 1 (.fail false "timeout"),
        .finish 1] ++
      resuming 2 claimA k1 ++ [.call 2 (.fail false "timeout"), .call 2 .ok, .call 2 .ok])
    (Q := fun c => (c.world.current k1).any (fun h => h.status.state = .available ∧
      c.world.kubelet k1 = true))
    (by decide +kernel)
  obtain ⟨h, hh, hs⟩ := (Option.any_eq_true _ _).mp hq
  exact ⟨c, h, hr, hh, of_decide_eq_true hs⟩

end Sample

end KarpenterProviderSsh.Runs
