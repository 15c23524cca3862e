import Mathlib.Tactic

/-! Maps kept as association lists, and the map that a loop over a list fills one entry at a
time. -/

namespace KarpenterProviderSsh.Store

variable {κ ν α : Type} [DecidableEq κ] {k k' : κ} {v : ν} {m : List (κ × ν)}

lemma lookup_cons_if (k : κ) (p : κ × ν) (m : List (κ × ν)) :
    (p :: m).lookup k = if k = p.1 then some p.2 else m.lookup k := by
  by_cases h : k = p.1
  · rw [if_pos h, h, List.lookup_cons_self]
  · rw [if_neg h, List.lookup_cons, beq_false_of_ne h]

/-- `m[k] = f(m[k])`; a new key goes to the end. -/
def upsert (k : κ) (f : Option ν → ν) : List (κ × ν) → List (κ × ν)
  | [] => [(k, f none)]
  | (k', v) :: m => if k' = k then (k, f (some v)) :: m else (k', v) :: upsert k f m

lemma keys_upsert (k : κ) (f : Option ν → ν) (m : List (κ × ν)) :
    (upsert k f m).map Prod.fst = if k ∈ m.map Prod.fst then m.map Prod.fst else m.map Prod.fst ++
    [k] := by
  induction m with
  | nil => rfl
  | cons p m ih =>
    by_cases hp : p.1 = k
    · simp [upsert, hp]
    · simp only [upsert, hp, if_false, List.map_cons, ih, List.mem_cons, Ne.symm hp, false_or]
      split_ifs <;> rfl

lemma nodup_upsert (f : Option ν → ν) (h : (m.map Prod.fst).Nodup) :
    ((upsert k f m).map Prod.fst).Nodup := by
  rw [keys_upsert]
  split_ifs with hk
  · exact h
  · exact List.nodup_append.mpr ⟨h, List.nodup_singleton _,
      fun a ha b hb hab => hk (List.mem_singleton.mp hb ▸ hab ▸ ha)⟩

lemma lookup_upsert (f : Option ν → ν) (m : List (κ × ν)) :
    (upsert k f m).lookup k' = if k' = k then some (f (m.lookup k)) else m.lookup k' := by
  induction m with
  | nil =>
    rw [upsert, lookup_cons_if]
    rfl
  | cons p m ih =>
    by_cases hp : p.1 = k
    · rw [upsert, if_pos hp, lookup_cons_if, lookup_cons_if, lookup_cons_if, hp, if_pos rfl]
      split_ifs <;> rfl
    · rw [upsert, if_neg hp, lookup_cons_if, ih, lookup_cons_if, lookup_cons_if,
        if_neg (Ne.symm hp)]
      by_cases h : k' = k
      · subst h
        rw [if_neg (Ne.symm hp), if_pos rfl, if_pos rfl]
      · rw [if_neg h, if_neg h]

lemma mem_iff_lookup (h : (m.map Prod.fst).Nodup) : (k, v) ∈ m ↔ m.lookup k = some v := by
  induction m with
  | nil => simp
  | cons p m ih =>
    obtain ⟨k', v'⟩ := p
    simp only [List.map_cons, List.nodup_cons] at h
    by_cases hk : k = k'
    · subst hk
      have hn : ∀ v, (k, v) ∉ m := fun v hv => h.1 (List.mem_map.mpr ⟨_, hv, rfl⟩)
      simp [lookup_cons_if, hn, eq_comm]
    · simp [lookup_cons_if, hk, ih h.2]

def group (key : α → κ) (f : α → Option ν → ν) (l : List α) : List (κ × ν) :=
  l.foldl (fun m a => upsert (key a) (f a) m) []

variable (key : α → κ) (f : α → Option ν → ν)

lemma nodup_group (l : List α) : ((group key f l).map Prod.fst).Nodup := by
  induction l using List.reverseRecOn with
  | nil => exact List.nodup_nil
  | append_singleton l a ih =>
    rw [group, List.foldl_append]
    exact nodup_upsert _ ih

lemma lookup_group (l : List α) (k : κ) :
    (group key f l).lookup k = (l.filter (key · = k)).foldl (fun v a => some (f a v)) none := by
  induction l using List.reverseRecOn with
  | nil => rfl
  | append_singleton l a ih =>
    rw [group, List.foldl_append, List.foldl_cons, List.foldl_nil, lookup_upsert,
      List.filter_append, List.foldl_append]
    by_cases hk : key a = k
    · subst hk
      have hf : [a].filter (key · = key a) = [a] := by simp
      rw [if_pos rfl, hf, List.foldl_cons, List.foldl_nil, ← ih]
      rfl
    · have hf : [a].filter (key · = k) = [] := by simp [hk]
      rw [if_neg (Ne.symm hk), hf]
      exact ih

end KarpenterProviderSsh.Store
