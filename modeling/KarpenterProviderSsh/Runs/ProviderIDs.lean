import KarpenterProviderSsh.Runs.Installs

/-! The providerID a Create records, and the Instance it returns. -/

namespace KarpenterProviderSsh.Runs

open Api Cluster Scripts Providers Controllers Interleaving

variable {X : Externals}

def agrees (id : String) (v o : SSHHost) : Bool :=
  o.status.providerID = id || (o.status.providerID = "" && id = providerID v)

inductive Naming
  | unnamed
  | named (id : String) (v : SSHHost) (agreed : Bool)
  | renamed

namespace Naming

def recorded (id : String) : Naming → Except Err SSHHost → Naming
  | .unnamed, .ok v => .named id v true
  | .unnamed, .error _ => .unnamed
  | _, _ => .renamed

def shown : Naming → Except Err SSHHost → Naming
  | .named id v b, .ok o =>
    .named id v (b && (!sameClaim v.status.claimRef o.status.claimRef || agrees id v o))
  | σ, _ => σ

def next (σ : Naming) : (e : Eff) → Res e → Naming
  | .patchStatus _ (.set (.providerID id)), r => σ.recorded id r
  | .getHost _, r => σ.shown r
  | _, _ => σ

end Naming

def namings (X : Externals) : Monitor (machine X) where
  State := Naming
  init
    | .create _ _ _ => some .unnamed
    | _ => none
  see := Naming.next
  Allows _ _ := True

def keepsID : (e : Eff) → Res e → Bool
  | .patchStatus o (.set .markInUse), .ok o' => o'.status.providerID = o.status.providerID
  | .patchStatus _ (.set (.providerID id)), .ok v => v.status.providerID = id
  | _, _ => true

section Obeys

open Naming

variable {α β : Type} {σ : Naming} {id : String} {v h : SSHHost} {nc : NodeClaim}
  {nodeClass : SSHNodeClass X}

abbrev ObeysNaming (X : Externals) (Q : α → Naming → Prop) (σ : Naming) (q : Cluster.Prog α) :
    Prop :=
  (namings X).ObeysGiven (fun e r => faithful e r = true ∧ keepsID e r = true) Q σ q

lemma ObeysNaming.trivial (q : Cluster.Prog α) : ObeysNaming X (fun _ _ => True) σ q := by
  induction q generalizing σ with
  | ret a => exact True.intro
  | call e k ih => exact ⟨True.intro, fun r _ => ih r⟩

def Anonymous : Eff → Prop
  | .patchStatus _ (.set (.providerID _)) => False
  | _ => True

lemma Anonymous.next_eq {e : Eff} (he : Anonymous e) (r : Res e) :
    Naming.next .unnamed e r = .unnamed := by
  cases e with
  | patchStatus o wr =>
    cases wr with
    | set x =>
      cases x with
      | providerID id => exact he.elim
      | _ => rfl
    | _ => rfl
  | _ => rfl

lemma ObeysNaming.before {Q : β → Naming → Prop} {q : Cluster.Prog α} {f : α → Cluster.Prog β}
    (hq : Asks Anonymous q) (hf : ∀ a, ObeysNaming X Q .unnamed (f a)) :
    ObeysNaming X Q .unnamed (q >>= f) := by
  refine (Monitor.obeysGiven_of_abides hq.given fun e he => ⟨True.intro, he.next_eq⟩).bind ?_
  rintro a _ ⟨rfl, -⟩
  exact hf a

lemma anonymous_join : CoversJoin Anonymous := by
  refine ⟨fun e he => ?_, ?_, ?_, ?_, ?_, ?_, ?_, ?_⟩
  · cases he with
    | silent hs => cases e <;> first | exact True.intro | cases hs
    | start | wait => exact True.intro
  all_goals
    intros
    exact True.intro

lemma providerID_eq {g : SSHHost} (hk : g.key = h.key) : providerID g = providerID h := by
  simp [providerID, hk]

lemma obeys_setProviderID : ObeysNaming X (fun a τ => a.2 = none →
    τ = .named id a.1 true ∧ a.1.key = h.key ∧ a.1.status.providerID = id) .unnamed
      (setProviderID h id) := by
  refine obeys_retry (S := namings X) (I := fun g τ => g.key = h.key ∧ τ = Naming.unnamed) ?_
    (by simp [defaultBackoffSteps]) ⟨rfl, rfl⟩
  rintro g _ ⟨hg, rfl⟩
  refine Monitor.ObeysGiven.step True.intro fun a ha => ?_
  cases a with
  | ok g' =>
    refine ⟨fun _ => ⟨rfl, (of_decide_eq_true ha.1).trans hg, of_decide_eq_true ha.2⟩,
      fun _ he => by cases he⟩
  | error e =>
    change ObeysNaming X _ .unnamed _
    have hkeep (g' : SSHHost) (hk : g'.key = g.key) (e' : Err) : ((some e' = none →
        Naming.unnamed = .named id g' true ∧ g'.key = h.key ∧ g'.status.providerID = id) ∧
          ∀ e, some e' = some e → e.isConflict = true → g'.key = h.key ∧
          Naming.unnamed = .unnamed) :=
      ⟨fun he => (by cases he), fun _ _ _ => ⟨hk.trans hg, rfl⟩⟩
    dsimp only
    split_ifs
    · refine Monitor.ObeysGiven.step True.intro fun c hc => ?_
      change ObeysNaming X _ .unnamed _
      cases c with
      | error e' => exact hkeep (withSet g (.providerID id)) rfl _
      | ok fresh =>
        dsimp only
        split_ifs
        · exact hkeep _ (of_decide_eq_true hc.1) _
        · exact hkeep (withSet g (.providerID id)) rfl _
    · exact hkeep (withSet g (.providerID id)) rfl _

def Standing (id : String) (v g : SSHHost) (τ : Naming) : Prop :=
  ∃ b, τ = .named id v b ∧ g.key = v.key ∧ (b = true → agrees id v g = true)

lemma Standing.congr {g g' : SSHHost} {τ : Naming} (hs : Standing id v g τ) (hk : g'.key = g.key)
    (hp : g'.status.providerID = g.status.providerID) : Standing id v g' τ := by
  obtain ⟨b, rfl, hg, ha⟩ := hs
  exact ⟨b, rfl, hk.trans hg, by simpa [agrees, hp] using ha⟩

lemma obeys_markInUse (hv : v.status.providerID = id) :
    ObeysNaming X (fun a τ => Standing id v a.1 τ) (.named id v true) (markInUse v) := by
  refine obeys_retry (S := namings X) (I := fun g τ => Standing id v g τ) ?_
    (by simp [defaultBackoffSteps])
    ⟨true, rfl, rfl, fun _ => by simp [agrees, hv]⟩
  intro g τ hs
  refine Monitor.ObeysGiven.step True.intro fun a ha => ?_
  have hstay {τ : Naming} (hs : Standing id v g τ) (e : Err) :
      Standing id v (withSet g .markInUse) τ ∧ ∀ e', some e = some e' → e'.isConflict = true →
      Standing id v (withSet g .markInUse) τ := by
    have hset : Standing id v (withSet g .markInUse) τ := hs.congr rfl rfl
    exact ⟨hset, fun _ _ _ => hset⟩
  cases a with
  | ok g' =>
    refine ⟨hs.congr (of_decide_eq_true ha.1) (of_decide_eq_true ha.2), fun _ he => by cases he⟩
  | error e =>
    change ObeysNaming X _ τ _
    dsimp only
    split_ifs
    · refine Monitor.ObeysGiven.step True.intro fun c hc => ?_
      obtain ⟨b, rfl, hk, hb⟩ := hs
      cases c with
      | error e' => exact hstay ⟨b, rfl, hk, hb⟩ e'
      | ok fresh =>
        change ObeysNaming X _
          (.named id v (b && (!sameClaim v.status.claimRef fresh.status.claimRef ||
            agrees id v fresh))) _
        dsimp only
        split_ifs with hsame
        · have hfresh : Standing id v fresh
              (.named id v (b && (!sameClaim v.status.claimRef fresh.status.claimRef ||
                agrees id v fresh))) :=
            ⟨_, rfl, (of_decide_eq_true hc.1).trans hk, by simp [hsame]⟩
          exact ⟨hfresh, fun _ _ _ => hfresh⟩
        · refine hstay ⟨_, rfl, hk, fun hall => hb ?_⟩ _
          exact (Bool.and_eq_true _ _ ▸ hall).1
    · exact hstay hs e

lemma names_adopted : Prog.Abides (fun _ _ => True) Anonymous
    (fun a => ∀ id, a = .ok id → id ≠ "" ∧ (nodeClass.adoptsProviderID = false → id = providerID h))
    (if nodeClass.adoptsProviderID then adoptProviderID h else pure (.ok (providerID h))) := by
  have hpoll (ip : String) (n : ℕ) :
      Prog.Abides (fun _ _ => True) Anonymous (fun a => ∀ id, a = some id → id ≠ "")
      (pollNodes ip n) := by
    induction n with
    | zero => exact fun _ he => nomatch he
    | succ n ih =>
      refine .step True.intro fun a _ => ?_
      dsimp only
      split
      · rename_i id hid
        rintro _ ⟨⟩
        simpa using List.find?_some hid
      · refine .step True.intro fun b _ => ?_
        split_ifs
        · exact ih
        · exact fun _ he => nomatch he
  by_cases hadopt : nodeClass.adoptsProviderID = true
  · rw [if_pos hadopt]
    refine (hpoll _ _).bind fun a ha => ?_
    cases a with
    | none => exact fun _ he => nomatch he
    | some id =>
      rintro _ ⟨⟩
      exact ⟨ha id rfl, fun hno => absurd hadopt (by simp [hno])⟩
  · rw [if_neg hadopt]
    rintro _ ⟨⟩
    refine ⟨fun he => ?_, fun _ => rfl⟩
    have hlen := congrArg String.length he
    simp [providerID, providerPrefixText] at hlen

def Reports (nodeClass : SSHNodeClass X) (nc : NodeClaim) (a : Except CloudError Instance)
    (τ : Naming) : Prop :=
  ∀ inst, a = .ok inst → ∃ id v b, τ = .named id v b ∧ id ≠ "" ∧
    (nodeClass.adoptsProviderID = false → id = providerID v) ∧ v.status.providerID = id ∧
    inst.hostName = v.key.name ∧ inst.nodeName = nc.name ∧ (b = true → inst.providerID = id)

lemma reports_error (e : CloudError) (τ : Naming) : Reports nodeClass nc (.error e) τ :=
    fun _ he => nomatch he

lemma toInstance_providerID {g : SSHHost} {name : String} (hid : id ≠ "") (hk : g.key = v.key)
    (ha : agrees id v g = true) : (toInstance g name).providerID = id := by
  simp only [agrees, Bool.or_eq_true, Bool.and_eq_true, decide_eq_true_eq] at ha
  rcases ha with ha | ⟨hnone, rfl⟩
  · simp [toInstance, ha, hid]
  · simp [toInstance, hnone, providerID_eq hk]

lemma reports_launch : ObeysNaming X (Reports nodeClass nc) .unnamed (launch X nodeClass nc h) := by
  refine ObeysNaming.before (asks_join anonymous_join) fun r => ?_
  obtain ⟨g, e⟩ := r
  cases e with
  | some e => exact (ObeysNaming.trivial _).bind fun _ _ _ => reports_error _ _
  | none =>
    refine (Monitor.obeysGiven_of_abides names_adopted.given
      fun e he => ⟨True.intro, he.next_eq⟩).bind ?_
    rintro a _ ⟨rfl, ha⟩
    cases a with
    | error e => exact (ObeysNaming.trivial _).bind fun _ _ _ => reports_error _ _
    | ok id =>
      obtain ⟨hid, hown⟩ := ha id rfl
      refine obeys_setProviderID.bind fun r τ hr => ?_
      obtain ⟨v, e⟩ := r
      cases e with
      | some e => exact reports_error _ _
      | none =>
        obtain ⟨rfl, hk, hv⟩ := hr rfl
        refine (obeys_markInUse hv).bind fun r τ hs => ?_
        obtain ⟨b, rfl, hg, hagree⟩ := hs
        rintro _ ⟨⟩
        exact ⟨id, v, b, rfl, hid, fun hno => (hown hno).trans (providerID_eq hk).symm, hv,
          congrArg NamespacedName.name hg, rfl, fun hb => toInstance_providerID hid hg (hagree hb)⟩

lemma reports_create (its : List InstanceType) :
    ObeysNaming X (Reports nodeClass nc) .unnamed (create X nodeClass nc its) := by
  have hlist : Asks Anonymous (byClaim X nc) := by
    refine (asks_list (fun _ => True.intro) none).bind fun a _ => ?_
    cases a <;> exact True.intro
  refine ObeysNaming.before hlist fun a => ?_
  match a with
  | .error e => exact reports_error _ _
  | .ok (some h) => exact reports_launch
  | .ok none =>
    refine ObeysNaming.before
      (asks_claimCheapest (fun _ => True.intro) (fun _ _ => True.intro) nodeClass nc _) fun b => ?_
    match b with
    | .error e => exact reports_error _ _
    | .ok none => exact reports_error _ _
    | .ok (some h) => exact reports_launch

end Obeys

section Records

def recordedID : List (Reply (machine X)) → Option (String × SSHHost)
  | [] => none
  | ⟨_, .patchStatus _ (.set (.providerID id)), .ok v⟩ :: _ => some (id, v)
  | _ :: s => recordedID s

/-- What an operation that has recorded a providerID is shown of the host under the same claim
agrees with it. -/
def showsRecorded (l : Log (machine X)) : Observed X → Bool
  | .call t (.getHost _) (.ok o) =>
    (recordedID (l.own t)).all fun p => !sameClaim p.2.status.claimRef o.status.claimRef ||
      agrees p.1 p.2 o
  | _ => true

def RecordsID (t : ℕ) (obs : Observed X) : Prop :=
  ∃ o id a, obs = .call t (.patchStatus o (.set (.providerID id))) a

structure RecordedIn (t : ℕ) (id : String) (v : SSHHost) (l after before : Log (machine X)) :
    Prop where
  entry : ∃ w o, l = after ++
    ⟨w, .call t (.patchStatus o (.set (.providerID id))) (.ok v)⟩ :: before
  job : Log.job t before = Log.job t l
  last : ∀ y ∈ after, ¬ RecordsID t y.obs

variable {l after before : Log (machine X)} {w : World} {t : ℕ} {id : String}
  {v : SSHHost} {b : Bool}

lemma RecordedIn.cons {obs : Observed X} (h : RecordedIn t id v l after before)
    (hjob : Log.job t (⟨w, obs⟩ :: l) = Log.job t l) (hno : ¬ RecordsID t obs) :
    RecordedIn t id v (⟨w, obs⟩ :: l) (⟨w, obs⟩ :: after) before where
  entry := by
    obtain ⟨w, o, rfl⟩ := h.entry
    exact ⟨w, o, rfl⟩
  job := h.job.trans hjob.symm
  last := List.forall_mem_cons.mpr ⟨hno, h.last⟩

inductive Step (id : String) (v : SSHHost) (b : Bool) : Naming → (e : Eff) → Res e → Prop
  | record {o} (hb : b = true) :
      Step id v b .unnamed (.patchStatus o (.set (.providerID id))) (.ok v)
  | read {c k o}
      (hb : b = (c && (!sameClaim v.status.claimRef o.status.claimRef || agrees id v o))) :
      Step id v b (.named id v c) (.getHost k) (.ok o)
  | other {e r} (he : Anonymous e) : Step id v b (.named id v b) e r

lemma step_of_next {τ : Naming} {e : Eff} {r : Res e} (h : τ.next e r = .named id v b) :
    Step id v b τ e r := by
  cases e with
  | patchStatus o wr =>
    cases wr with
    | set x =>
      cases x with
      | providerID id' =>
        cases τ with
        | unnamed =>
          cases r with
          | ok v' =>
            cases h
            exact .record rfl
          | error e => cases h
        | named | renamed => cases h
      | _ =>
        cases h
        exact .other True.intro
    | _ =>
      cases h
      exact .other True.intro
  | getHost k =>
    cases r with
    | error e =>
      cases τ with
      | named =>
        cases h
        exact .other True.intro
      | unnamed | renamed => cases h
    | ok o =>
      cases τ with
      | named =>
        cases h
        exact .read rfl
      | unnamed | renamed => cases h
  | _ =>
    cases h
    exact .other True.intro

lemma recordedID_other {e : Eff} {r : Res e} (he : Anonymous e) (s : List (Reply (machine X))) :
    recordedID (⟨w, e, r⟩ :: s) = recordedID s := by
  cases e with
  | patchStatus o wr =>
    cases wr with
    | set x =>
      cases x with
      | providerID id => exact he.elim
      | _ => rfl
    | _ => rfl
  | _ => rfl

lemma not_recordsID {e : Eff} {r : Res e} (he : Anonymous e) :
    ¬ RecordsID t (Obs.call (M := machine X) t e r) := by
  rintro ⟨o, id, a, hobs⟩
  cases hobs
  exact he

lemma named_of_watch (h : (namings X).watch t l = some (.named id v b)) :
    recordedID (Log.own t l) = some (id, v) ∧ ∃ after before, RecordedIn t id v l after before := by
  induction l generalizing b with
  | nil => cases h
  | cons y l ih =>
    obtain ⟨w, obs⟩ := y
    rcases Monitor.watch_cases h with ⟨hact, hw⟩ | ⟨j, rfl, hj⟩ | ⟨e, r, τ, rfl, hw, hs⟩
    · obtain ⟨hrec, after, before, hin⟩ := ih hw
      rw [Log.own_other hact]
      refine ⟨hrec, _, before, hin.cons (Log.job_other hact) ?_⟩
      rintro ⟨o, id, a, rfl⟩
      exact hact rfl
    · cases j <;> cases hj
    · rw [Log.own_call]
      cases step_of_next hs with
      | record hb => exact ⟨rfl, [], l, ⟨w, _, rfl⟩, rfl, by simp⟩
      | read hb =>
        obtain ⟨hrec, after, before, hin⟩ := ih hw
        exact ⟨hrec, _, before, hin.cons rfl (not_recordsID True.intro)⟩
      | other he =>
        obtain ⟨hrec, after, before, hin⟩ := ih hw
        exact ⟨(recordedID_other he _).trans hrec, _, before, hin.cons rfl (not_recordsID he)⟩

lemma agreed_of_watch {A : Log (machine X) → World → Observed X → Prop} {c d : Run X}
    (hA : ∀ l w obs, A l w obs → showsRecorded l obs = true) (hr : Config.Logged A c l d)
    (h : (namings X).watch t l = some (.named id v b)) : b = true := by
  induction hr generalizing b with
  | nil => cases h
  | @cons l d ev obs e _ _ ha ih =>
    rcases Monitor.watch_cases h with ⟨_, hw⟩ | ⟨j, rfl, hj⟩ | ⟨e, r, τ, rfl, hw, hs⟩
    · exact ih hw
    · cases j <;> cases hj
    · cases step_of_next hs with
      | record hb => exact hb
      | other => exact ih hw
      | read hb =>
        have hshown := hA _ _ _ ha
        simp only [showsRecorded, (named_of_watch hw).1, Option.all_some] at hshown
        rw [hb, ih hw, hshown]
        rfl

lemma recorded_of_returns {A : Log (machine X) → World → Observed X → Prop} {c d : Run X}
    {nodeClass : SSHNodeClass X} {nc : NodeClaim} {its : List InstanceType} {inst : Instance}
    (hA : ∀ l w obs, A l w obs → showsRecorded l obs = true) (hr : Config.Logged A c l d)
    (hl : Log.Meets (fun e r => faithful e r = true ∧ keepsID e r = true) l)
    (hj : Log.job t l = some (.create nodeClass nc its))
    (hret : (create X nodeClass nc its).returns (Log.own t l) = some (.ok inst)) :
    ∃ v after before, RecordedIn t inst.providerID v l after before ∧ inst.providerID ≠ "" ∧
      (nodeClass.adoptsProviderID = false → inst.providerID = providerID v) ∧
      v.status.providerID = inst.providerID ∧ inst.hostName = v.key.name ∧
      inst.nodeName = nc.name := by
  obtain ⟨τ, hw, hτ⟩ := (reports_create its).returns hl hj rfl hret
  obtain ⟨id, v, b, rfl, hid, hown, hv, hname, hnode, hinst⟩ := hτ inst rfl
  obtain ⟨-, after, before, hin⟩ := named_of_watch hw
  obtain rfl := hinst (agreed_of_watch hA hr hw)
  exact ⟨v, after, before, hin, hid, hown, hv, hname, hnode⟩

end Records

end KarpenterProviderSsh.Runs
