import KarpenterProviderSsh.Text.Replacements

/-! Which letters go when words are struck out one after another, told from the text alone: those of
the occurrences that share no letter with one struck out before, as long as no word is found across
the edge of what was put in. -/

namespace KarpenterProviderSsh.Text

variable {α β γ : Type}

def OccursAt (s v : List α) (p : ℕ) : Prop := v <+: s.drop p

instance [DecidableEq α] (s v : List α) (p : ℕ) : Decidable (OccursAt s v p) :=
  inferInstanceAs (Decidable (_ <+: _))

lemma OccursAt.length_le {s v : List α} {p : ℕ} (h : OccursAt s v p) (hv : v ≠ []) :
    p + v.length ≤ s.length := by
  have hle := List.IsPrefix.length_le h
  have hpos := List.length_pos_of_ne_nil hv
  rw [List.length_drop] at hle
  omega

section Splitting

variable {f : γ → α} {v : List α} {new s t u out : List γ}

lemma side_of_avoids {a m r : List γ} (hm : m ≠ []) (hnew : new ≠ []) (ha : ∀ c ∈ new, c ∉ m)
    (h : a ++ m ++ r = s ++ new ++ t) :
    (∃ k, s = a ++ m ++ k ∧ r = k ++ new ++ t) ∨ ∃ k, a = s ++ new ++ k ∧ t = k ++ m ++ r := by
  obtain ⟨d, new, rfl⟩ := List.exists_cons_of_ne_nil hnew
  obtain ⟨e, m, rfl⟩ := List.exists_cons_of_ne_nil hm
  rw [List.append_assoc s] at h
  rcases List.append_eq_append_iff.mp h with ⟨k, hs, hr⟩ | ⟨k, hk, hmid⟩
  · exact .inl ⟨k, hs, by rw [hr, List.append_assoc]⟩
  cases k with
  | nil => exact .inl ⟨[], by simpa using hk.symm, by simpa using hmid.symm⟩
  | cons c k =>
    obtain ⟨rfl, -⟩ := List.cons.inj hmid
    rcases List.append_eq_append_iff.mp hk with ⟨x, -, hx⟩ | ⟨x, rfl, hx⟩
    · exact absurd (by rw [hx]; simp) (ha d List.mem_cons_self)
    · rw [hx, List.append_assoc] at hmid
      rcases List.append_eq_append_iff.mp hmid with ⟨j, rfl, rfl⟩ | ⟨j, hj, hjm⟩
      · exact .inr ⟨j, by simp, by simp⟩
      cases j with
      | nil => exact .inr ⟨[], by simp [hj], by simpa using hjm.symm⟩
      | cons c' j =>
        obtain ⟨rfl, -⟩ := List.cons.inj hjm
        exact absurd List.mem_cons_self (ha e (by rw [hj]; simp))

lemma Replaced.split (hv : v ≠ []) (hnew : new ≠ []) (h : Replaced f v new u out)
    (hu : u = s ++ new ++ t) (hclear : ∀ m, m <:+: u → m.map f = v → ∀ c ∈ new, c ∉ m) :
    ∃ s' t', out = s' ++ new ++ t' ∧ Replaced f v new s s' ∧ Replaced f v new t t' := by
  induction h generalizing s with
  | none hfree =>
    subst hu
    refine ⟨s, t, rfl, .none fun hin => hfree (hin.trans ?_), .none fun hin => hfree (hin.trans ?_)⟩
    · exact (List.infix_append_left.trans List.infix_append_left).map f
    · exact List.infix_append_right.map f
  | @first a m r o hm ha hr ih =>
    have hm₀ : m ≠ [] := by
      rintro rfl
      exact hv hm.symm
    have hrest : ∀ m', m' <:+: r → m'.map f = v → ∀ c ∈ new, c ∉ m' := fun m' hm' =>
      hclear m' (hm'.trans List.infix_append_right)
    rcases side_of_avoids hm₀ hnew (hclear m ⟨a, r, rfl⟩ hm) hu with ⟨k, rfl, hk⟩ | ⟨k, rfl, rfl⟩
    · obtain ⟨k', t', rfl, hk', ht'⟩ := ih hk hrest
      refine ⟨a ++ new ++ k', t', by simp,
        .first hm (fun b hb hne hin => ha b hb hne (hin.trans ?_)) hk', ht'⟩
      rw [hk]
      exact List.IsPrefix.map f ⟨new ++ t, by simp⟩
    · refine ⟨s, k ++ new ++ o, by simp, .none ?_, .first hm (fun b hb hne => ha b ?_ hne) hr⟩
      · refine not_infix_of_leftmost (t := new ++ k ++ m ++ r) hv fun b hb hne => ?_
        obtain ⟨x, rfl⟩ := hb
        simpa using ha (b ++ new ++ k) ⟨x, by simp⟩ (by simp [hne])
      · exact hb.trans (List.suffix_append _ _)

end Splitting

section Slices

variable {T : List β} {a b c q r : ℕ}

def slice (T : List β) (a b : ℕ) : List (β × Option ℕ) := ((trace T).drop a).take (b - a)

lemma length_slice (hb : b ≤ T.length) : (slice T a b).length = b - a := by
  rw [slice, List.length_take, List.length_drop, length_trace]
  omega

lemma slice_append (hab : a ≤ b) (hbc : b ≤ c) : slice T a b ++ slice T b c = slice T a c := by
  have hadd : (b - a) + (c - b) = c - a := by omega
  rw [slice, slice, slice, ← hadd, List.take_add, List.drop_drop, Nat.add_sub_cancel' hab]

lemma slice_split {x y : List (β × Option ℕ)} (hb : b ≤ T.length)
    (h : slice T a b = x ++ y) (hab : a ≤ b) :
    a + x.length ≤ b ∧ x = slice T a (a + x.length) ∧ y = slice T (a + x.length) b := by
  have hlen := congrArg List.length h
  rw [length_slice hb, List.length_append] at hlen
  have hle : a + x.length ≤ b := by omega
  rw [← slice_append (Nat.le_add_right a x.length) hle] at h
  have hx : (slice T a (a + x.length)).length = x.length := by
    rw [length_slice (hle.trans hb), Nat.add_sub_cancel_left]
  obtain ⟨h₁, h₂⟩ := List.append_inj h hx
  exact ⟨hle, h₁.symm, h₂.symm⟩

lemma place_slice {c : β × Option ℕ} {k : ℕ} (h : (slice T a b)[k]? = some c) :
    a + k < b ∧ c.2 = some (a + k) := by
  rw [slice, List.getElem?_take] at h
  split_ifs at h with hlt
  rw [List.getElem?_drop, trace, List.getElem?_map, Option.map_eq_some_iff] at h
  obtain ⟨p, hp, rfl⟩ := h
  rw [List.getElem?_zipIdx, Option.map_eq_some_iff] at hp
  obtain ⟨x, _, rfl⟩ := hp
  exact ⟨by omega, by simp⟩

lemma mem_slice {c : β × Option ℕ} (hc : c ∈ slice T a b) : ∃ i, a ≤ i ∧ i < b ∧ c.2 = some i := by
  obtain ⟨k, hk⟩ := List.mem_iff_getElem?.mp hc
  obtain ⟨hlt, hplace⟩ := place_slice hk
  exact ⟨a + k, Nat.le_add_right a k, hlt, hplace⟩

lemma exists_mem_slice {i : ℕ} (ha : a ≤ i) (hi : i < b) (hb : b ≤ T.length) :
    ∃ x, (x, some i) ∈ slice T a b := by
  have hlt : i < T.length := by omega
  refine ⟨T[i], List.mem_iff_getElem?.mpr ⟨i - a, ?_⟩⟩
  rw [slice, List.getElem?_take, if_pos (by omega), List.getElem?_drop,
    Nat.add_sub_cancel' ha, trace, List.getElem?_map, List.getElem?_zipIdx,
    List.getElem?_eq_getElem hlt]
  simp

lemma slice_of_part {w : List (β × Option ℕ)} (hab : a ≤ b) (hb : b ≤ T.length)
    (h : w <:+: slice T a b) :
    ∃ p, a ≤ p ∧ p + w.length ≤ b ∧ w = slice T p (p + w.length) := by
  obtain ⟨x, y, hxy⟩ := h
  rw [List.append_assoc] at hxy
  obtain ⟨hx, -, hwy⟩ := slice_split hb hxy.symm hab
  obtain ⟨hw, hslice, -⟩ := slice_split hb hwy.symm hx
  exact ⟨a + x.length, Nat.le_add_right _ _, hw, hslice⟩

lemma slice_begins {c : β × Option ℕ} {t : List (β × Option ℕ)} (hb : b ≤ T.length) (hab : a < b)
    (h : slice T a b <+: c :: t) : c.2 = some a := by
  have hlen := length_slice (a := a) hb
  cases hs : slice T a b with
  | nil =>
    rw [hs, List.length_nil] at hlen
    omega
  | cons d w =>
    rw [hs, List.cons_prefix_cons] at h
    have hhead : (slice T a b)[0]? = some c := by rw [hs, h.1]; rfl
    exact (place_slice hhead).2

lemma read_slice (f : β → α) :
    (slice T a b).map (fun c => f c.1) = ((T.map f).drop a).take (b - a) := by
  rw [slice, List.map_take, List.map_drop]
  congr 2
  conv_rhs => rw [← map_fst_trace T]
  rw [List.map_map]
  rfl

lemma occursAt_iff {f : β → α} {v : List α} {p : ℕ} :
    OccursAt (T.map f) v p ↔ (slice T p (p + v.length)).map (fun c => f c.1) = v := by
  rw [read_slice, Nat.add_sub_cancel_left, OccursAt, List.prefix_iff_eq_take, eq_comm]

end Slices

section Pieces

variable {T : List β} {f : β → α} {v : List α} {new t t' : List (β × Option ℕ)}

def Own (f : β → α) (v : List α) (t : List (β × Option ℕ)) : Prop :=
  ∀ m, m <:+: t → m.map (fun c => f c.1) = v → ∀ c ∈ m, c.2 ≠ none

lemma Own.avoids (h : Own f v t) (hnone : ∀ c ∈ new, c.2 = none) {m : List (β × Option ℕ)}
    (hm : m <:+: t) (hread : m.map (fun c => f c.1) = v) : ∀ c ∈ new, c ∉ m := fun c hc hcm =>
  h m hm hread c hcm (hnone c hc)

inductive Pieces (T : List β) (new : List (β × Option ℕ)) : List (β × Option ℕ) → Prop
  | last {a b : ℕ} (hab : a ≤ b) (hb : b ≤ T.length) : Pieces T new (slice T a b)
  | next {a b : ℕ} {t : List (β × Option ℕ)} (hab : a ≤ b) (hb : b ≤ T.length)
      (ht : Pieces T new t) :
      Pieces T new (slice T a b ++ new ++ t)

lemma Pieces.append {s : List (β × Option ℕ)} (hs : Pieces T new s) (ht : Pieces T new t) :
    Pieces T new (s ++ new ++ t) := by
  induction hs with
  | last hab hb => exact .next hab hb ht
  | @next a b s hab hb _ ih =>
    have hassoc : slice T a b ++ new ++ s ++ new ++ t = slice T a b ++ new ++ (s ++ new ++ t) := by
      simp only [List.append_assoc]
    exact hassoc ▸ .next hab hb ih

lemma Pieces.occurs (h : Pieces T new t) (hnew : new ≠ []) (hnone : ∀ c ∈ new, c.2 = none)
    (hown : Own f v t) {m : List (β × Option ℕ)} (hm : m <:+: t)
    (hread : m.map (fun c => f c.1) = v) :
    ∃ p, OccursAt (T.map f) v p ∧ m = slice T p (p + v.length) := by
  have havoid := hown.avoids hnone hm hread
  clear hown
  have hlen : m.length = v.length := by rw [← hread, List.length_map]
  have hinside {a b : ℕ} (hab : a ≤ b) (hb : b ≤ T.length) (hm : m <:+: slice T a b) :
      ∃ p, OccursAt (T.map f) v p ∧ m = slice T p (p + v.length) := by
    obtain ⟨p, -, -, hp⟩ := slice_of_part hab hb hm
    rw [hlen] at hp
    exact ⟨p, occursAt_iff.mpr (hp ▸ hread), hp⟩
  induction h with
  | last hab hb => exact hinside hab hb hm
  | next hab hb _ ih =>
    rcases infix_of_avoids hm hnew havoid with hm | hm
    · exact hinside hab hb hm
    · exact ih hm

lemma Pieces.replaced (h : Pieces T new t) (hv : v ≠ []) (hnew : new ≠ [])
    (hnone : ∀ c ∈ new, c.2 = none) (hown : Own f v t) (ht : Replaced (fun c => f c.1) v new t t') :
    Pieces T new t' := by
  -- within one part, what is left of it and right of it are parts
  have hinside {a b : ℕ} {s s' : List (β × Option ℕ)}
      (hs : Replaced (fun c => f c.1) v new s s') (hab : a ≤ b)
      (hb : b ≤ T.length) (heq : s = slice T a b) : Pieces T new s' := by
    induction hs generalizing a with
    | none => exact heq ▸ .last hab hb
    | @first x m s s' _ _ _ ih =>
      rw [List.append_assoc] at heq
      obtain ⟨hx, hxs, hms⟩ := slice_split hb heq.symm hab
      obtain ⟨hm, -, hs⟩ := slice_split hb hms.symm hx
      rw [hxs]
      exact .next (Nat.le_add_right _ _) (hx.trans hb) (ih hm hs)
  induction h generalizing t' with
  | last hab hb => exact hinside ht hab hb rfl
  | @next a b t hab hb _ ih =>
    obtain ⟨s', r', rfl, hs', hr'⟩ := ht.split hv hnew rfl fun m hm => hown.avoids hnone hm
    exact (hinside hs' hab hb rfl).append
      (ih (fun m hm => hown m (hm.trans List.infix_append_right)) hr')

end Pieces

section Selections

variable {T : List β} {f : β → α} {v : List α} {new t t' : List (β × Option ℕ)}

def Ascending (t : List (β × Option ℕ)) : Prop := (t.filterMap Prod.snd).Pairwise (· < ·)

lemma Ascending.lt {s t : List (β × Option ℕ)} (h : Ascending (s ++ t)) {c d : β × Option ℕ}
    {i j : ℕ} (hc : c ∈ s) (hd : d ∈ t) (hi : c.2 = some i) (hj : d.2 = some j) : i < j := by
  rw [Ascending, List.filterMap_append, List.pairwise_append] at h
  exact h.2.2 i (List.mem_filterMap.mpr ⟨c, hc, hi⟩) j (List.mem_filterMap.mpr ⟨d, hd, hj⟩)

lemma Ascending.sublist {s t : List (β × Option ℕ)} (h : Ascending t) (hs : s.Sublist t) :
    Ascending s :=
  List.Pairwise.sublist (hs.filterMap _) h

lemma Ascending.replaced {g : β × Option ℕ → α} (hasc : Ascending t) (hnone : ∀ c ∈ new, c.2 = none)
    (h : Replaced g v new t t') : Ascending t' := by
  have hnil : new.filterMap Prod.snd = [] := List.filterMap_eq_nil_iff.mpr hnone
  have hsub : (t'.filterMap Prod.snd).Sublist (t.filterMap Prod.snd) := by
    clear hasc
    induction h with
    | none => exact List.Sublist.refl _
    | first _ _ _ ih =>
      simp only [List.filterMap_append, hnil, List.append_nil]
      exact (List.sublist_append_left _ _).append ih
  exact List.Pairwise.sublist hsub hasc

lemma infix_append_begins {w x y : List γ} (h : w <:+: x ++ y) :
    (∃ b, b <:+ x ∧ b ≠ [] ∧ w <+: b ++ y) ∨ w <:+: y := by
  induction x with
  | nil => exact .inr h
  | cons c x ih =>
    rcases List.infix_cons_iff.mp h with h | h
    · exact .inl ⟨c :: x, List.suffix_rfl, by simp, h⟩
    · rcases ih h with ⟨b, hb, hne, hw⟩ | hw
      · exact .inl ⟨b, hb.trans (List.suffix_cons c x), hne, hw⟩
      · exact .inr hw

/-- Which occurrences of a word a replacement takes: they share no letter, and whatever occurs
begins in one of them. -/
structure Selects (T : List β) (f : β → α) (v : List α) (t t' : List (β × Option ℕ))
    (S : ℕ → Prop) : Prop where
  occurs : ∀ p, S p → OccursAt (T.map f) v p ∧ slice T p (p + v.length) <:+: t
  apart : ∀ p q, S p → S q → p < q → p + v.length ≤ q
  leftmost : ∀ p, OccursAt (T.map f) v p → slice T p (p + v.length) <:+: t → ∃ q, S q ∧
    q ≤ p ∧ p < q + v.length
  clear : ∀ c i p, (c, some i) ∈ t' → S p → p ≤ i → p + v.length ≤ i
  whole : ∀ w, w <:+: t → (∀ c ∈ w, ∀ i p, c.2 = some i → S p → p ≤ i → p + v.length ≤ i) →
    w <:+: t'

lemma exists_place (hv : v ≠ []) {p i : ℕ} (hp : OccursAt (T.map f) v p)
    (hs : slice T p (p + v.length) <:+: t) (hi : p ≤ i) (hlt : i < p + v.length) :
    ∃ c ∈ t, c.2 = some i := by
  obtain ⟨x, hx⟩ := exists_mem_slice hi hlt (List.length_map f ▸ hp.length_le hv)
  exact ⟨_, hs.subset hx, rfl⟩

lemma Selects.first {a s : List (β × Option ℕ)} {S : ℕ → Prop} {p₀ : ℕ} (hv : v ≠ [])
    (hnone : ∀ c ∈ new, c.2 = none) (hp₀ : OccursAt (T.map f) v p₀)
    (hasc : Ascending (a ++ slice T p₀ (p₀ + v.length) ++ s)) (ha : ∀ b, b <:+ a → b ≠ [] →
      ¬ v <+: (b ++ slice T p₀ (p₀ + v.length) ++ s).map fun c => f c.1)
    (hs : Replaced (fun c => f c.1) v new s t') (hS : Selects T f v s t' S) :
    Selects T f v (a ++ slice T p₀ (p₀ + v.length) ++ s) (a ++ new ++ t')
      (fun p => p = p₀ ∨ S p) := by
  have hpos := List.length_pos_of_ne_nil hv
  -- places before the occurrence are smaller than its first one, those behind it larger than its
  -- last
  have hbefore {i : ℕ} {c : β × Option ℕ} (hc : c ∈ a) (hi : c.2 = some i) : i < p₀ := by
    obtain ⟨d, hd, hd'⟩ := exists_place hv hp₀ List.infix_rfl le_rfl (by omega)
    exact (List.append_assoc a _ s ▸ hasc).lt hc (List.mem_append_left s hd) hi hd'
  have hafter {i : ℕ} {c : β × Option ℕ} (hc : c ∈ s) (hi : c.2 = some i) : p₀ + v.length ≤ i := by
    obtain ⟨d, hd, hd'⟩ := exists_place (i := p₀ + v.length - 1) hv hp₀ List.infix_rfl
      (by omega) (by omega)
    have hlt := hasc.lt (List.mem_append_right a hd) hc hd' hi
    omega
  have hlater {p : ℕ} (hp : S p) : p₀ + v.length ≤ p := by
    obtain ⟨d, hd, hd'⟩ := exists_place hv (hS.occurs p hp).1 (hS.occurs p hp).2 le_rfl (by omega)
    exact hafter hd hd'
  refine ⟨?_, ?_, ?_, ?_, ?_⟩
  · rintro p (rfl | hp)
    · exact ⟨hp₀, a, s, rfl⟩
    · exact ⟨(hS.occurs p hp).1, (hS.occurs p hp).2.trans List.infix_append_right⟩
  · rintro p q (rfl | hp) (rfl | hq) hpq
    · omega
    · exact hlater hq
    · have := hlater hp
      omega
    · exact hS.apart p q hp hq hpq
  · intro p hp hin
    rw [List.append_assoc] at hin
    rcases infix_append_begins hin with ⟨b, hb, hne, hw⟩ | hin
    · have hread := hw.map fun c => f c.1
      rw [occursAt_iff.mp hp, ← List.append_assoc] at hread
      exact absurd hread (ha b hb hne)
    rcases infix_append_begins hin with ⟨b, hb, hne, hw⟩ | hin
    · -- the first letter is one of those that go
      obtain ⟨c, b, rfl⟩ := List.exists_cons_of_ne_nil hne
      have hfirst : c.2 = some p :=
        slice_begins (List.length_map f ▸ hp.length_le hv) (by omega) hw
      obtain ⟨i, hi, hlt, hci⟩ := mem_slice (hb.subset List.mem_cons_self)
      obtain rfl : p = i := Option.some.inj (hfirst.symm.trans hci)
      exact ⟨p₀, .inl rfl, hi, hlt⟩
    · obtain ⟨q, hq, hqp⟩ := hS.leftmost p hp hin
      exact ⟨q, .inr hq, hqp⟩
  · intro c i p hc hp hi
    rcases List.mem_append.mp hc with hc | hc
    · rcases List.mem_append.mp hc with hc | hc
      · have hlt := hbefore hc rfl
        rcases hp with rfl | hp
        · omega
        · have := hlater hp
          omega
      · exact absurd (hnone _ hc) (by simp)
    · rcases hp with rfl | hp
      · rcases hs.mem hc with hc | hc
        · exact hafter hc rfl
        · exact absurd (hnone _ hc) (by simp)
      · exact hS.clear c i p hc hp hi
  · intro w hw hfree
    have hne : slice T p₀ (p₀ + v.length) ≠ [] := by
      obtain ⟨c, hc, _⟩ := exists_place hv hp₀ List.infix_rfl le_rfl (by omega)
      exact List.ne_nil_of_mem hc
    have havoid : ∀ c ∈ slice T p₀ (p₀ + v.length), c ∉ w := by
      intro c hc hcw
      obtain ⟨i, hi, hlt, hci⟩ := mem_slice hc
      have := hfree c hcw i p₀ hci (.inl rfl) hi
      omega
    rcases infix_of_avoids hw hne havoid with hw | hw
    · exact (hw.trans List.infix_append_left).trans List.infix_append_left
    · exact (hS.whole w hw fun c hc i p hi hp => hfree c hc i p hi (.inr hp)).trans
        List.infix_append_right

lemma exists_selects (hv : v ≠ []) (hnone : ∀ c ∈ new, c.2 = none)
    (ht : Replaced (fun c => f c.1) v new t t') (hasc : Ascending t)
    (hocc : ∀ m, m <:+: t → m.map (fun c => f c.1) = v → ∃ p, OccursAt (T.map f) v p ∧
      m = slice T p (p + v.length)) :
    ∃ S, Selects T f v t t' S := by
  induction ht with
  | none hs =>
    refine ⟨fun _ => False, fun _ => False.elim, fun _ _ => False.elim, fun p hp hin => ?_,
      fun _ _ _ _ => False.elim, fun w hw _ => hw⟩
    exact absurd (occursAt_iff.mp hp ▸ hin.map _) hs
  | @first a m s t' hm ha hs ih =>
    obtain ⟨p₀, hp₀, rfl⟩ := hocc m ⟨a, s, rfl⟩ hm
    obtain ⟨S, hS⟩ := ih (hasc.sublist (List.sublist_append_right _ _))
      (fun w hw => hocc w (hw.trans List.infix_append_right))
    exact ⟨_, hS.first hv hnone hp₀ hasc ha hs⟩

end Selections

section Strikes

variable [DecidableEq α] {T : List β} {f : β → α} {v : List α}
  {new t t' : List (β × Option ℕ)} {l : List ℕ}

def strike (s v : List α) (l : List ℕ) (p : ℕ) : List ℕ :=
  if OccursAt s v p ∧ ∀ i < v.length, p + i ∉ l then List.range' p v.length ++ l else l

def strikes (s : List α) (l : List ℕ) (v : List α) : List ℕ :=
  (List.range s.length).foldl (strike s v) l

structure Struck (T : List β) (new : List (β × Option ℕ)) (l : List ℕ) (t : List (β × Option ℕ)) :
    Prop where
  pieces : Pieces T new t
  ascending : Ascending t
  clear : ∀ c i, (c, some i) ∈ t → i ∉ l
  whole : ∀ q r, q < r → r ≤ T.length → (∀ i, q ≤ i → i < r → i ∉ l) → slice T q r <:+: t

lemma mem_strikes (h : Struck T new l t) {S : ℕ → Prop} (hv : v ≠ [])
    (hS : Selects T f v t t' S) (i : ℕ) :
    i ∈ strikes (T.map f) l v ↔ i ∈ l ∨ ∃ p, S p ∧ p ≤ i ∧ i < p + v.length := by
  have hpos := List.length_pos_of_ne_nil hv
  have hbound {p : ℕ} (hp : OccursAt (T.map f) v p) : p + v.length ≤ T.length :=
    List.length_map f ▸ hp.length_le hv
  have hupto (n : ℕ) (i : ℕ) : i ∈ (List.range n).foldl (strike (T.map f) v) l ↔
      i ∈ l ∨ ∃ p < n, S p ∧ p ≤ i ∧ i < p + v.length := by
    induction n generalizing i with
    | zero => simp
    | succ n ih =>
      rw [List.range_succ, List.foldl_append, List.foldl_cons, List.foldl_nil, strike]
      have htaken :
          (OccursAt (T.map f) v n ∧
          ∀ i < v.length, n + i ∉ (List.range n).foldl (strike (T.map f) v) l) ↔ S n := by
        simp only [ih]
        constructor
        · rintro ⟨hocc, hfree⟩
          -- nothing before it stands in the way, so it is still there, and the one it begins in is
          -- itself
          have hin : slice T n (n + v.length) <:+: t := by
            refine h.whole n (n + v.length) (by omega) (hbound hocc) fun i hi hlt hl =>
              hfree (i - n) (by omega) (.inl ?_)
            rwa [Nat.add_sub_cancel' hi]
          obtain ⟨q, hq, hqn, hnq⟩ := hS.leftmost n hocc hin
          rcases hqn.lt_or_eq with hlt | rfl
          · exact absurd (.inr ⟨q, hlt, hq, hqn, hnq⟩) (hfree 0 hpos)
          · exact hq
        · intro hn
          obtain ⟨hocc, hin⟩ := hS.occurs n hn
          refine ⟨hocc, fun i hi => ?_⟩
          rintro (hl | ⟨q, hqn, hq, -, hlt⟩)
          · obtain ⟨x, hx⟩ := exists_mem_slice (Nat.le_add_right n i) (by omega) (hbound hocc)
            exact h.clear x (n + i) (hin.subset hx) hl
          · have := hS.apart q n hq hn hqn
            omega
      simp only [Nat.lt_succ_iff_lt_or_eq, or_and_right, exists_or, exists_eq_left]
      by_cases hn : S n
      · rw [if_pos (htaken.mpr hn), List.mem_append, ih, List.mem_range'_1, or_comm, or_assoc]
        simp only [hn, true_and]
      · rw [if_neg (htaken.not.mpr hn), ih]
        simp only [hn, false_and, or_false]
  rw [strikes, hupto]
  refine or_congr_right ⟨fun ⟨p, _, hp⟩ => ⟨p, hp⟩, fun ⟨p, hp, hi⟩ => ⟨p, ?_, hp, hi⟩⟩
  have := hbound (hS.occurs p hp).1
  rw [List.length_map]
  omega

lemma Struck.step (h : Struck T new l t) (hv : v ≠ []) (hnew : new ≠ [])
    (hnone : ∀ c ∈ new, c.2 = none) (hown : Own f v t) :
    Struck T new (strikes (T.map f) l v) (replace (fun c => f c.1) v new t) := by
  have hrep : Replaced (fun c => f c.1) v new t (replace (fun c => f c.1) v new t) :=
    replace_replaced hv
  obtain ⟨S, hS⟩ := exists_selects hv hnone hrep h.ascending fun m hm hread =>
    h.pieces.occurs hnew hnone hown hm hread
  refine ⟨h.pieces.replaced hv hnew hnone hown hrep, h.ascending.replaced hnone hrep,
    fun c i hc hi => ?_, fun q r hqr hr hfree => ?_⟩
  · rcases (mem_strikes h hv hS i).mp hi with hi | ⟨p, hp, hpi, hlt⟩
    · rcases hrep.mem hc with hc | hc
      · exact h.clear c i hc hi
      · exact absurd (hnone _ hc) (by simp)
    · have := hS.clear c i p hc hp hpi
      omega
  · refine hS.whole _ (h.whole q r hqr hr fun i hq hi hl => hfree i hq hi ?_)
      fun c hc i p hi hp hpi => ?_
    · exact (mem_strikes h hv hS i).mpr (.inl hl)
    · obtain ⟨j, hqj, hjr, hj⟩ := mem_slice hc
      obtain rfl : i = j := Option.some.inj (hi.symm.trans hj)
      by_contra hlt
      exact hfree i hqj hjr ((mem_strikes h hv hS i).mpr (.inr ⟨p, hp, hpi, by omega⟩))

/-- No word is found across the edge of what was put in for one before. -/
def Uncrossed (f : β → α) (new : List β) : List (List α) → List (β × Option ℕ) → Prop
  | [], _ => True
  | v :: vs, t =>
    (∀ p < t.length, OccursAt (t.map fun c => f c.1) v p →
      ∀ c ∈ (t.drop p).take v.length, c.2 ≠ none) ∧
      Uncrossed f new vs (replace (fun c => f c.1) v (inserted new) t)

instance decidableUncrossed (f : β → α) (new : List β) : (vs : List (List α)) →
    (t : List (β × Option ℕ)) →
    Decidable (Uncrossed f new vs t)
  | [], _ => inferInstanceAs (Decidable True)
  | _ :: vs, _ => by
    haveI := decidableUncrossed f new vs
    exact inferInstanceAs (Decidable (_ ∧ _))

lemma Uncrossed.own {new : List β} {vs : List (List α)} (hv : v ≠ [])
    (h : Uncrossed f new (v :: vs) t) : Own f v t := by
  rintro m ⟨x, y, rfl⟩ hread
  have hlen : m.length = v.length := by rw [← hread, List.length_map]
  have hpos := List.length_pos_of_ne_nil hv
  have hocc : OccursAt ((x ++ m ++ y).map fun c => f c.1) v x.length := by
    rw [OccursAt, ← List.map_drop, List.append_assoc, List.drop_left, List.map_append, hread]
    exact List.prefix_append _ _
  have hm := h.1 x.length (by simp only [List.length_append]; omega) hocc
  rwa [List.append_assoc, List.drop_left, ← hlen, List.take_left] at hm

end Strikes

end KarpenterProviderSsh.Text
