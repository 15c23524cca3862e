import Mathlib.Data.List.Basic
import Mathlib.Data.List.Infix
import Mathlib.Tactic

/-! Replacing a word in a text whose letters carry more than they are compared by, such as where
they came from. `f` reads a letter. -/

namespace KarpenterProviderSsh.Text

variable {α β γ δ : Type}

section Infixes

variable {w x y z : List γ}

lemma prefix_append_cases (h : w <+: x ++ y) : w <+: x ∨ ∃ v, v ≠ [] ∧ w = x ++ v ∧ v <+: y := by
  obtain ⟨t, ht⟩ := h
  rcases List.append_eq_append_iff.mp ht with ⟨a, rfl, _⟩ | ⟨v, rfl, rfl⟩
  · exact .inl (List.prefix_append _ _)
  · rcases eq_or_ne v [] with rfl | hv
    · exact .inl (by simp)
    · exact .inr ⟨v, hv, rfl, List.prefix_append _ _⟩

lemma infix_append_cases (h : w <:+: x ++ y) :
    w <:+: x ∨ w <:+: y ∨ ∃ u v, u ≠ [] ∧ v ≠ [] ∧ w = u ++ v ∧ u <:+ x ∧ v <+: y := by
  induction x with
  | nil => exact .inr (.inl h)
  | cons c x ih =>
    rcases List.infix_cons_iff.mp h with h | h
    · rcases prefix_append_cases (x := c :: x) h with h | ⟨v, hv, rfl, hy⟩
      · exact .inl h.isInfix
      · exact .inr (.inr ⟨c :: x, v, by simp, hv, rfl, List.suffix_rfl, hy⟩)
    · rcases ih h with h | h | ⟨u, v, hu, hv, rfl, hx, hy⟩
      · exact .inl (List.infix_cons h)
      · exact .inr (.inl h)
      · exact .inr (.inr ⟨u, v, hu, hv, rfl, hx.trans (List.suffix_cons c x), hy⟩)

lemma infix_of_avoids (hw : w <:+: x ++ y ++ z) (hy : y ≠ []) (ha : ∀ c ∈ y, c ∉ w) :
    w <:+: x ∨ w <:+: z := by
  rcases infix_append_cases hw with hw | hw | ⟨u, v, hu, _, rfl, hxy, _⟩
  · rcases infix_append_cases hw with hw | hw | ⟨u, v, _, hv, rfl, _, hvy⟩
    · exact .inl hw
    · cases w with
      | nil => exact .inl (List.nil_infix)
      | cons c w => exact absurd List.mem_cons_self (ha c (hw.subset List.mem_cons_self))
    · obtain ⟨c, v, rfl⟩ := List.exists_cons_of_ne_nil hv
      exact absurd (by simp) (ha c (hvy.subset List.mem_cons_self))
  · exact .inr hw
  · -- the last letter of `u` is the last one of `y`
    obtain ⟨y, c, rfl⟩ := List.eq_nil_or_concat y |>.resolve_left hy
    obtain ⟨u, d, rfl⟩ := List.eq_nil_or_concat u |>.resolve_left hu
    have hlast : d = c := by
      obtain ⟨t, ht⟩ := hxy
      simpa using congrArg List.getLast? ht
    exact absurd (by simp [hlast]) (ha c (by simp))

end Infixes

section Replace

variable (f : γ → α)

def replaceBy [DecidableEq α] (old : List α) (new : List γ) : ℕ → List γ → List γ
  | 0, s => s
  | _, [] => []
  | n + 1, c :: cs =>
    if old.isPrefixOf ((c :: cs).map f) then new ++ replaceBy old new n ((c :: cs).drop old.length)
    else c :: replaceBy old new n cs

def replace [DecidableEq α] (old : List α) (new : List γ) (s : List γ) : List γ :=
  replaceBy f old new s.length s

/-- The word is replaced at its leftmost places. -/
inductive Replaced (old : List α) (new : List γ) : List γ → List γ → Prop
  | none {s : List γ} (hs : ¬ old <:+: s.map f) : Replaced old new s s
  | first {a m s t : List γ} (hm : m.map f = old)
      (ha : ∀ b, b <:+ a → b ≠ [] → ¬ old <+: (b ++ m ++ s).map f)
      (ht : Replaced old new s t) : Replaced old new (a ++ m ++ s) (a ++ new ++ t)

variable {f} {old : List α} {new s t w : List γ}

lemma Replaced.cons {c : γ} (hc : ¬ old <+: (c :: s).map f) (h : Replaced f old new s t) :
    Replaced f old new (c :: s) (c :: t) := by
  cases h with
  | none hs =>
    refine .none fun hin => ?_
    rw [List.map_cons, List.infix_cons_iff] at hin
    exact hin.elim hc hs
  | @first a m s t hm ha ht =>
    refine Replaced.first (a := c :: a) hm (fun b hb hne => ?_) ht
    rcases List.suffix_cons_iff.mp hb with rfl | hb
    · exact hc
    · exact ha b hb hne

lemma replaceBy_replaced [DecidableEq α] (hold : old ≠ []) {n : ℕ} (hn : s.length ≤ n) :
    Replaced f old new s (replaceBy f old new n s) := by
  have hnil : ¬ old <:+: ([] : List γ).map f := by simpa using hold
  induction n generalizing s with
  | zero =>
    obtain rfl := List.length_eq_zero_iff.mp (Nat.le_zero.mp hn)
    exact .none hnil
  | succ n ih =>
    cases s with
    | nil => exact .none hnil
    | cons c cs =>
      rw [replaceBy]
      split_ifs with hp
      · rw [List.isPrefixOf_iff_prefix, List.prefix_iff_eq_take, ← List.map_take] at hp
        have hpos : 0 < old.length := List.length_pos_of_ne_nil hold
        have hrest := ih (s := (c :: cs).drop old.length) (by
          rw [List.length_drop]
          omega)
        have hfirst := Replaced.first (a := []) hp.symm
          (fun b hb hne => absurd (List.suffix_nil.mp hb) hne) hrest
        rwa [List.nil_append, List.nil_append, List.take_append_drop] at hfirst
      · rw [List.isPrefixOf_iff_prefix] at hp
        exact (ih (by simpa using hn)).cons hp

lemma replace_replaced [DecidableEq α] (hold : old ≠ []) :
    Replaced f old new s (replace f old new s) :=
  replaceBy_replaced hold le_rfl

lemma not_infix_of_leftmost {a : List γ} (hold : old ≠ [])
    (ha : ∀ b, b <:+ a → b ≠ [] → ¬ old <+: (b ++ t).map f) :
    ¬ old <:+: a.map f := by
  intro h
  obtain ⟨l, hl, rfl⟩ := List.infix_map_iff.mp h
  obtain ⟨x, y, rfl⟩ := hl
  refine ha (l ++ y) ⟨x, by simp⟩ ?_ ?_
  · rintro he
    exact hold (by simp [(List.append_eq_nil_iff.mp he).1])
  · simp

lemma Replaced.mem (h : Replaced f old new s t) {c : γ} (hc : c ∈ t) : c ∈ s ∨ c ∈ new := by
  induction h with
  | none => exact .inl hc
  | first _ _ _ ih =>
    simp only [List.mem_append] at hc ⊢
    rcases hc with (hc | hc) | hc
    · exact .inl (.inl (.inl hc))
    · exact .inr hc
    · exact (ih hc).imp_left .inr

lemma Replaced.kept (h : Replaced f old new s t) (hold : old ≠ []) (hnew : new ≠ []) (hw : w <:+: t)
    (ha : ∀ c ∈ new, c ∉ w) : w <:+: s ∧ ¬ old <:+: w.map f := by
  induction h with
  | none hs => exact ⟨hw, fun hin => hs (hin.trans (hw.map f))⟩
  | @first a m s t hm hleft _ ih =>
    rcases infix_of_avoids hw hnew ha with hw | hw
    · refine ⟨(hw.trans (List.infix_append_left)).trans List.infix_append_left, fun hin => ?_⟩
      refine not_infix_of_leftmost (t := m ++ s) hold (fun b hb hne => ?_) (hin.trans (hw.map f))
      rw [← List.append_assoc]
      exact hleft b hb hne
    · obtain ⟨hs, hfree⟩ := ih hw
      exact ⟨hs.trans List.infix_append_right, hfree⟩

lemma Replaced.between {D : γ → Prop} {Q : List γ → Prop} {l r : γ} {mid : List γ}
    (h : Replaced f old new s t) (hnew : new = [l] ++ mid ++ [r]) (hl : D l) (hr : D r)
    (hmid : ∀ w, w <:+: mid → Q w) (hs : ∀ w, w <:+: s → (∀ c ∈ w, ¬ D c) → Q w) (hw : w <:+: t)
    (hfree : ∀ c ∈ w, ¬ D c) : Q w := by
  induction h with
  | none => exact hs w hw hfree
  | @first a m s t _ _ _ ih =>
    have hdelim {d : γ} (hd : D d) : ∀ c ∈ [d], c ∉ w := by
      intro c hc hm
      exact hfree c hm (List.mem_singleton.mp hc ▸ hd)
    have hsplit : w <:+: a ++ [l] ++ (mid ++ [r] ++ t) := by simpa [hnew] using hw
    rcases infix_of_avoids hsplit (by simp) (hdelim hl) with hw | hw
    · exact hs w ((hw.trans List.infix_append_left).trans List.infix_append_left) hfree
    · rcases infix_of_avoids hw (by simp) (hdelim hr) with hw | hw
      · exact hmid w hw
      · exact ih (fun w hws => hs w (hws.trans List.infix_append_right)) hw

end Replace

section Taken

variable [DecidableEq α] (f : γ → α)

variable {f} {old : List α} {new s w : List γ} {n : ℕ}

end Taken

section StrikeOut

variable [DecidableEq α] {f : γ → α} {new s w : List γ} {vs : List (List α)}

def strikeOut (f : γ → α) (new : List γ) (vs : List (List α)) (s : List γ) : List γ :=
  vs.foldl (fun s v => replace f v new s) s

section Places

variable {ι : Type} {p : γ → Option ι}

end Places

lemma infix_of_strikeOut (hvs : ∀ v ∈ vs, v ≠ []) (hnew : new ≠ [])
    (hw : w <:+: strikeOut f new vs s) (ha : ∀ c ∈ new, c ∉ w) :
    w <:+: s ∧ ∀ v ∈ vs, ¬ v <:+: w.map f := by
  induction vs generalizing s with
  | nil => exact ⟨hw, by simp⟩
  | cons v vs ih =>
    obtain ⟨hv, hrest⟩ := List.forall_mem_cons.mp hvs
    obtain ⟨hin, hfree⟩ := ih hrest hw
    obtain ⟨hs, hone⟩ := (replace_replaced hv).kept hv hnew hin ha
    exact ⟨hs, List.forall_mem_cons.mpr ⟨hone, hfree⟩⟩

lemma strikeOut_between {D : γ → Prop} {Q : List γ → Prop} {l r : γ} {mid : List γ}
    (hvs : ∀ v ∈ vs, v ≠ []) (hnew : new = [l] ++ mid ++ [r]) (hl : D l) (hr : D r)
    (hmid : ∀ w, w <:+: mid → Q w) (hs : ∀ w, w <:+: s → (∀ c ∈ w, ¬ D c) → Q w)
    (hw : w <:+: strikeOut f new vs s) (hfree : ∀ c ∈ w, ¬ D c) :
    Q w := by
  induction vs generalizing s with
  | nil => exact hs w hw hfree
  | cons v vs ih =>
    obtain ⟨hv, hrest⟩ := List.forall_mem_cons.mp hvs
    exact ih hrest (fun w hw hfree => (replace_replaced hv).between hnew hl hr hmid hs hw hfree) hw

lemma map_replaceBy {g : γ → δ} {h : δ → α} (hg : ∀ c, h (g c) = f c) (old : List α) (n : ℕ) :
    (replaceBy f old new n s).map g = replaceBy h old (new.map g) n (s.map g) := by
  have hread (s : List γ) : (s.map g).map h = s.map f := by simp [hg]
  induction n generalizing s with
  | zero => rfl
  | succ n ih =>
    cases s with
    | nil => rfl
    | cons c cs =>
      have hcons : (g c :: cs.map g).map h = (c :: cs).map f := hread (c :: cs)
      change (replaceBy f old new (n + 1) (c :: cs)).map g = replaceBy h old (new.map g) (n + 1)
        (g c :: cs.map g)
      rw [replaceBy, replaceBy, hcons]
      split_ifs
      · rw [List.map_append, ih, List.map_drop, List.map_cons]
      · rw [List.map_cons, ih]

lemma map_strikeOut {g : γ → δ} {h : δ → α} (hg : ∀ c, h (g c) = f c) :
    (strikeOut f new vs s).map g = strikeOut h (new.map g) vs (s.map g) := by
  induction vs generalizing s with
  | nil => rfl
  | cons v vs ih =>
    have hone : (replace f v new s).map g = replace h v (new.map g) (s.map g) := by
      rw [replace, replace, map_replaceBy hg, List.length_map]
    rw [strikeOut, List.foldl_cons]
    change (strikeOut f new vs (replace f v new s)).map g = _
    rw [ih, hone]
    rfl

end StrikeOut

section Origins

def trace (s : List β) : List (β × Option ℕ) := s.zipIdx.map fun p => (p.1, some p.2)

def inserted (s : List β) : List (β × Option ℕ) := s.map fun b => (b, none)

lemma map_fst_trace (s : List β) : (trace s).map Prod.fst = s := by
  simp [trace, Function.comp_def]

lemma map_fst_inserted (s : List β) : (inserted s).map Prod.fst = s := by
  simp [inserted, Function.comp_def]

lemma length_trace (s : List β) : (trace s).length = s.length := by
  simp [trace]

lemma mem_trace {s : List β} {b : β} {i : ℕ} (h : (b, some i) ∈ trace s) : s[i]? = some b := by
  obtain ⟨p, hp, he⟩ := List.mem_map.mp h
  cases he
  exact List.mem_zipIdx_iff_getElem?.mp hp

lemma snd_of_mem_inserted {s : List β} {c : β × Option ℕ} (h : c ∈ inserted s) : c.2 = none := by
  obtain ⟨b, _, rfl⟩ := List.mem_map.mp h
  rfl

lemma snd_of_mem_trace {s : List β} {c : β × Option ℕ} (h : c ∈ trace s) : c.2.isSome = true := by
  obtain ⟨p, _, rfl⟩ := List.mem_map.mp h
  rfl

variable [DecidableEq α] {f : β → α} {new s : List β} {vs : List (List α)}

def struckFrom (f : β → α) (new : List β) (vs : List (List α)) (s : List β) : List (β × Option ℕ) :=
  strikeOut (fun c => f c.1) (inserted new) vs (trace s)

lemma map_fst_struckFrom : (struckFrom f new vs s).map Prod.fst = strikeOut f new vs s := by
  rw [struckFrom, map_strikeOut (h := f) (fun _ => rfl), map_fst_inserted, map_fst_trace]

lemma infix_of_struckFrom {w : List (β × Option ℕ)} (hvs : ∀ v ∈ vs, v ≠ []) (hnew : new ≠ [])
    (hw : w <:+: struckFrom f new vs s) (hkept : ∀ c ∈ w, c.2 ≠ none) :
    w <:+: trace s ∧ ∀ v ∈ vs, ¬ v <:+: w.map fun c => f c.1 :=
  infix_of_strikeOut hvs (by simpa [inserted] using hnew) hw
      fun c hc hm => hkept c hm (snd_of_mem_inserted hc)

lemma mem_struckFrom {b : β} {i : ℕ} (hvs : ∀ v ∈ vs, v ≠ []) (hnew : new ≠ [])
    (h : (b, some i) ∈ struckFrom f new vs s) : s[i]? = some b := by
  have hone : [(b, some i)] <:+: struckFrom f new vs s := by
    obtain ⟨x, y, hxy⟩ := List.append_of_mem h
    exact ⟨x, y, by rw [hxy]; simp⟩
  obtain ⟨hs, _⟩ := infix_of_struckFrom hvs hnew hone (by simp)
  exact mem_trace (hs.subset (List.mem_singleton_self _))

end Origins

end KarpenterProviderSsh.Text
