import KarpenterProviderSsh.Interleaving.Relies

/-! Level-triggered controllers. A controller has a program for every key, which a worker runs while
other keys are worked on and the world changes; watches put the keys that a change bears on into a
queue. A key whose program asks to be run again goes back there. That every key is dealt with in the
end rests on two things: a run that nothing relevant disturbs settles its key or asks for another
one, and what puts no key into the queue does not disturb. -/

namespace KarpenterProviderSsh.Control

open Interleaving Interleaving.Prog

variable {E : Type} {R : E → Type} {α : Type}

structure Controller (E : Type) (R : E → Type) (α : Type) extends Server E R where
  Key : Type
  Outer : Type
  program : Key → Prog E R α
  retries : α → Bool
  outside : World → Outer → Option World
  wakes : World → Outer → World → Key → Bool
  known : World → Key → Bool

structure State (M : Controller E R α) where
  world : M.World
  queued : M.Key → Bool
  active : M.Key → Option (Prog E R α)

/-- A worker may take up a key at any time: from the queue, on a timer or in a resync. -/
inductive Event (M : Controller E R α)
  | outside (x : M.Outer)
  | start (k : M.Key)
  | call (k : M.Key) (c : M.Choice)
  | finish (k : M.Key)
  | crash

namespace State

variable {M : Controller E R α} [DecidableEq M.Key]

/-- After a restart every key the caches know of is in the queue. -/
def boot (w : M.World) : State M := ⟨w, M.known w, fun _ => none⟩

def step (c : State M) : Event M → Option (State M)
  | .outside x =>
    (M.outside c.world x).map fun w =>
      { c with world := w, queued := fun k => c.queued k || M.wakes c.world x w k }
  | .start k =>
    match c.active k with
    | none =>
      some { c with
        queued := Function.update c.queued k false
        active := Function.update c.active k (some (M.program k)) }
    | some _ => none
  | .call k ch =>
    match c.active k with
    | some (.call e f) =>
      (M.answer c.world e ch).map
        fun x => { c with world := x.2, active := Function.update c.active k (some (f x.1)) }
    | _ => none
  | .finish k =>
    match c.active k with
    | some (.ret a) =>
      some { c with
        queued := Function.update c.queued k (c.queued k || M.retries a)
        active := Function.update c.active k none }
    | _ => none
  | .crash => some (boot c.world)

def Allowed (A : M.World → M.Outer → Prop) (c : State M) : Event M → Prop
  | .outside x => A c.world x
  | _ => True

def Step (A : M.World → M.Outer → Prop) (c d : State M) : Prop :=
  ∃ ev, c.step ev = some d ∧ c.Allowed A ev

def Reaches (A : M.World → M.Outer → Prop) : State M → State M → Prop :=
  Relation.ReflTransGen (Step A)

lemma Reaches.mono {A B : M.World → M.Outer → Prop} {c d : State M} (hr : Reaches A c d)
    (h : ∀ w x, A w x → B w x) : Reaches B c d := by
  induction hr with
  | refl => exact .refl
  | tail _ hstep ih =>
    obtain ⟨ev, hs, ha⟩ := hstep
    refine ih.tail ⟨ev, hs, ?_⟩
    cases ev with
    | outside x => exact h _ _ ha
    | start | call | finish | crash => trivial

inductive Happens (A : M.World → M.Outer → Prop) (c : State M) : State M → Prop
  | outside {x w} : M.outside c.world x = some w → A c.world x →
      Happens A c { c with world := w, queued := fun k => c.queued k || M.wakes c.world x w k }
  | start {k} : c.active k = none →
      Happens A c { c with
        queued := Function.update c.queued k false
        active := Function.update c.active k (some (M.program k)) }
  | call {k e f ch r w} : c.active k = some (.call e f) → M.answer c.world e ch = some (r, w) →
      Happens A c { c with world := w, active := Function.update c.active k (some (f r)) }
  | finish {k a} : c.active k = some (.ret a) →
      Happens A c { c with
        queued := Function.update c.queued k (c.queued k || M.retries a)
        active := Function.update c.active k none }
  | crash : Happens A c (boot c.world)

lemma happens_of_step {A : M.World → M.Outer → Prop} {c d : State M} (h : Step A c d) :
    Happens A c d := by
  obtain ⟨ev, hs, ha⟩ := h
  cases ev with
  | outside x =>
    obtain ⟨w, hw, rfl⟩ := Option.map_eq_some_iff.mp hs
    exact .outside hw ha
  | start k =>
    simp only [step] at hs
    split at hs <;> cases hs
    exact .start ‹_›
  | call k ch =>
    simp only [step] at hs
    split at hs
    · obtain ⟨⟨r, w⟩, hw, rfl⟩ := Option.map_eq_some_iff.mp hs
      exact .call ‹_› hw
    · cases hs
  | finish k =>
    simp only [step] at hs
    split at hs <;> cases hs
    exact .finish ‹_›
  | crash =>
    cases hs
    exact .crash

section Replay

variable (p : M.World → M.Outer → Bool)

def passes (c : State M) : Event M → Bool
  | .outside x => p c.world x
  | _ => true

def replay (c : State M) : List (Event M) → Option (State M)
  | [] => some c
  | ev :: evs =>
    match c.step ev with
    | some d => if c.passes p ev = true then replay d evs else none
    | none => none

variable {p} {A : M.World → M.Outer → Prop} (hp : ∀ w x, p w x = true → A w x)
include hp

omit [DecidableEq M.Key] in
lemma allowed_of_passes {c : State M} {ev : Event M} (h : c.passes p ev = true) :
    c.Allowed A ev := by
  cases ev with
  | outside x => exact hp _ x h
  | _ => trivial

lemma reaches_of_replay {c d : State M} {evs : List (Event M)} (h : replay p c evs = some d) :
    Reaches A c d := by
  induction evs generalizing c with
  | nil =>
    cases h
    exact .refl
  | cons ev evs ih =>
    simp only [replay] at h
    split at h
    · split_ifs at h with ha
      exact .head ⟨ev, ‹_›, allowed_of_passes hp ha⟩ (ih h)
    · cases h

lemma exists_of_replay {c : State M} {l : List (Event M)} {Q : State M → Bool}
    (h : (replay p c l).any Q = true) :
    ∃ d, Reaches A c d ∧ Q d = true := by
  cases hr : replay p c l with
  | none => simp [hr] at h
  | some d => exact ⟨d, reaches_of_replay hp hr, by simpa [hr] using h⟩

end Replay

end State

/-- What a controller is to bring about: `Settled` says that there is nothing to do for a key,
`calm` what does not disturb its program. A request disturbs nobody. -/
structure Aim (M : Controller E R α) where
  calm : M.Key → M.World → M.World → Prop
  Settled : M.Key → M.World → Prop
  refl : ∀ k w, calm k w w
  trans : ∀ k {u v w}, calm k u v → calm k v w → calm k u w
  stays : ∀ {k w w'}, calm k w w' → Settled k w → Settled k w'
  answer : ∀ {w e ch r w'}, M.answer w e ch = some (r, w') → ∀ k, calm k w w'

namespace Aim

variable {M : Controller E R α} (T : Aim M) {k : M.Key} {w : M.World}

def OnTrack (k : M.Key) (p : Prog E R α) (w : M.World) : Prop :=
  Under M.toServer (T.calm k) (fun _ _ => True) (fun w a => M.retries a = true ∨ T.Settled k w) p w

variable {T}

lemma onTrack_retry {a : α} (h : M.retries a = true) : T.OnTrack k (.ret a) w := fun _ _ => .inl h

lemma onTrack_of_settled {p : Prog E R α} (h : T.Settled k w) : T.OnTrack k p w := by
  induction p generalizing w with
  | ret a => exact fun _ hw => .inr (T.stays hw h)
  | call e f ih =>
    intro w₁ hw
    exact ⟨trivial, fun ch r w₂ hr => ih r (T.stays (T.answer hr k) (T.stays hw h))⟩

lemma onTrack_step {e : E} {f : R e → Prog E R α}
    (h : ∀ w₁ ch r w₂, T.calm k w w₁ → M.answer w₁ e ch = some (r, w₂) → T.OnTrack k (f r) w₂) :
    T.OnTrack k (request e >>= f) w :=
  fun w₁ h₁ => ⟨trivial, fun ch r w₂ hr => h w₁ ch r w₂ h₁ hr⟩

end Aim

/-- What makes a controller tend its keys: what puts no key into the queue does not disturb, or
settles. -/
structure Tending (M : Controller E R α) (A : M.World → M.Outer → Prop) extends Aim M where
  Inv : M.World → Prop
  boots : ∀ {k w}, Inv w → M.known w k = false → Settled k w
  settles : ∀ k w, Inv w → toAim.OnTrack k (M.program k) w
  keeps : ∀ {w e ch r w'}, Inv w → M.answer w e ch = some (r, w') → Inv w'
  outside : ∀ {w x w'}, Inv w → A w x → M.outside w x = some w' →
    Inv w' ∧ ∀ k, M.wakes w x w' k = true ∨ calm k w w' ∨ Settled k w'

namespace Tending

variable {M : Controller E R α} {A : M.World → M.Outer → Prop} (T : Tending M A)

structure Minded (c : State M) (k : M.Key) : Prop where
  running : c.queued k = false → ∀ p, c.active k = some p → T.OnTrack k p c.world
  idle : c.queued k = false → c.active k = none → T.Settled k c.world

variable {T} {c d : State M} {k : M.Key}

lemma Minded.keep (h : T.Minded c k) (ha : d.active k = c.active k)
    (hq : d.queued k = false → c.queued k = false)
    (hw : d.queued k = false → T.calm k c.world d.world ∨ T.Settled k d.world) : T.Minded d k := by
  constructor
  · intro hd p hp
    rcases hw hd with hcalm | hset
    · exact (h.running (hq hd) p (ha ▸ hp)).later (T.trans k) hcalm
    · exact Aim.onTrack_of_settled hset
  · intro hd hn
    rcases hw hd with hcalm | hset
    · exact T.stays hcalm (h.idle (hq hd) (ha ▸ hn))
    · exact hset

lemma minded_boot {w : M.World} (hw : T.Inv w) (k : M.Key) : T.Minded (State.boot w) k := by
  constructor
  · intro _ p hp
    cases hp
  · intro hq _
    exact T.boots hw hq

variable [DecidableEq M.Key]

lemma minded_step (hc : T.Inv c.world) (h : ∀ k, T.Minded c k) (hs : State.Happens A c d) :
    T.Inv d.world ∧ ∀ k, T.Minded d k := by
  cases hs with
  | @outside x w hw ha =>
    obtain ⟨hinv, hcalm⟩ := T.outside hc ha hw
    refine ⟨hinv, fun k => (h k).keep rfl ?_ ?_⟩
    · intro hq
      exact (Bool.or_eq_false_iff.mp hq).1
    · intro hq
      exact (hcalm k).resolve_left (Bool.eq_false_iff.mp (Bool.or_eq_false_iff.mp hq).2)
  | @start k hk =>
    refine ⟨hc, fun k' => ?_⟩
    by_cases hkk : k' = k
    · subst hkk
      constructor
      · intro _ p hp
        simp only [Function.update_self, Option.some.injEq] at hp
        exact hp ▸ T.settles k' c.world hc
      · intro _ hn
        simp at hn
    · refine (h k').keep ?_ ?_ (fun _ => .inl (T.refl k' _))
      · exact Function.update_of_ne hkk _ _
      · intro hq
        simpa [Function.update_of_ne hkk] using hq
  | @call k e f ch r w hk hr =>
    refine ⟨T.keeps hc hr, fun k' => ?_⟩
    by_cases hkk : k' = k
    · subst hkk
      constructor
      · intro hq p hp
        simp only [Function.update_self, Option.some.injEq] at hp
        exact hp ▸ ((h k').running hq _ hk c.world (T.refl k' _)).2 ch r w hr
      · intro _ hn
        simp at hn
    · exact (h k').keep (Function.update_of_ne hkk _ _) id (fun _ => .inl (T.answer hr k'))
  | @finish k a hk =>
    refine ⟨hc, fun k' => ?_⟩
    by_cases hkk : k' = k
    · subst hkk
      constructor
      · intro _ p hp
        simp at hp
      · intro hq _
        simp only [Function.update_self, Bool.or_eq_false_iff] at hq
        refine ((h k').running hq.1 _ hk c.world (T.refl k' _)).resolve_left ?_
        simp [hq.2]
    · refine (h k').keep ?_ ?_ (fun _ => .inl (T.refl k' _))
      · exact Function.update_of_ne hkk _ _
      · intro hq
        simpa [Function.update_of_ne hkk] using hq
  | crash => exact ⟨hc, minded_boot hc⟩

theorem minded_of_reaches {w : M.World} (hw : T.Inv w) (hr : State.Reaches A (State.boot w) c) :
    T.Inv c.world ∧ ∀ k, T.Minded c k := by
  induction hr with
  | refl => exact ⟨hw, minded_boot hw⟩
  | tail _ hs ih => exact minded_step ih.1 ih.2 (State.happens_of_step hs)

/-- In every run, a key that is neither in the queue nor being worked on is settled. -/
theorem settled_of_idle {w : M.World} (hw : T.Inv w) (hr : State.Reaches A (State.boot w) c)
    (hq : c.queued k = false) (ha : c.active k = none) : T.Settled k c.world :=
  ((minded_of_reaches hw hr).2 k).idle hq ha

end Tending

/-- What makes an invariant of the world hold throughout: every request of a program keeps it,
whatever the others have done since the program started. -/
structure Keeping (M : Controller E R α) (A : M.World → M.Outer → Prop) where
  Inv : M.World → Prop
  rely : M.Key → M.World → M.World → Prop
  Issues : M.Key → M.World → E → Prop
  refl : ∀ k w, rely k w w
  trans : ∀ k {u v w}, rely k u v → rely k v w → rely k u w
  program : ∀ k w, Inv w → Under M.toServer (rely k) (Issues k) (fun _ _ => True) (M.program k) w
  answer : ∀ {k w e ch r w'}, Inv w → Issues k w e → M.answer w e ch = some (r, w') →
    Inv w' ∧ ∀ k' ≠ k, rely k' w w'
  outside : ∀ {w x w'}, Inv w → A w x → M.outside w x = some w' → Inv w' ∧ ∀ k, rely k w w'

namespace Keeping

variable {M : Controller E R α} {A : M.World → M.Outer → Prop} (K : Keeping M A)

def OnTrack (k : M.Key) (p : Prog E R α) (w : M.World) : Prop :=
  Under M.toServer (K.rely k) (K.Issues k) (fun _ _ => True) p w

variable [DecidableEq M.Key]

theorem holds {w : M.World} {c : State M} (hw : K.Inv w) (hr : State.Reaches A (State.boot w) c) :
    K.Inv c.world ∧ ∀ k p, c.active k = some p → K.OnTrack k p c.world := by
  induction hr with
  | refl =>
    refine ⟨hw, ?_⟩
    intro k p hp
    cases hp
  | @tail c d _ hs ih =>
    obtain ⟨hc, hact⟩ := ih
    cases State.happens_of_step hs with
    | outside hx ha =>
      obtain ⟨hinv, hrely⟩ := K.outside hc ha hx
      exact ⟨hinv, fun k p hp => (hact k p hp).later (K.trans k) (hrely k)⟩
    | @start k hk =>
      refine ⟨hc, fun k' p hp => ?_⟩
      by_cases hkk : k' = k
      · subst hkk
        simp only [Function.update_self, Option.some.injEq] at hp
        exact hp ▸ K.program k' c.world hc
      · simp only [Function.update_of_ne hkk] at hp
        exact hact k' p hp
    | @call k e f ch r w hk hr =>
      obtain ⟨hq, hf⟩ := hact k _ hk c.world (K.refl k _)
      obtain ⟨hinv, hrely⟩ := K.answer hc hq hr
      refine ⟨hinv, fun k' p hp => ?_⟩
      by_cases hkk : k' = k
      · subst hkk
        simp only [Function.update_self, Option.some.injEq] at hp
        exact hp ▸ hf ch r w hr
      · simp only [Function.update_of_ne hkk] at hp
        exact (hact k' p hp).later (K.trans k') (hrely k' hkk)
    | @finish k a hk =>
      refine ⟨hc, fun k' p hp => ?_⟩
      by_cases hkk : k' = k
      · subst hkk
        simp at hp
      · simp only [Function.update_of_ne hkk] at hp
        exact hact k' p hp
    | crash =>
      refine ⟨hc, ?_⟩
      intro k p hp
      cases hp

end Keeping

end KarpenterProviderSsh.Control
