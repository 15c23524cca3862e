import Mathlib.Tactic

/-! A stored object as its watchers learn of it: the version their cache holds and the versions that
are stored but not delivered yet, the oldest first. An absent object is a version too. -/

namespace KarpenterProviderSsh.Control

variable {α : Type}

structure Feed (α : Type) where
  cached : Option α
  pending : List (Option α)

namespace Feed

def none : Feed α := ⟨.none, []⟩

def stored (f : Feed α) : Option α := f.pending.getLastD f.cached

def push (f : Feed α) (o : Option α) : Feed α := { f with pending := f.pending ++ [o] }

/-- A watch may skip versions, but never goes back. -/
def deliver (f : Feed α) (n : ℕ) : Option (Feed α) :=
  f.pending[n]?.map fun o => ⟨o, f.pending.drop (n + 1)⟩

@[simp] lemma stored_push (f : Feed α) (o : Option α) : (f.push o).stored = o := by
  simp [stored, push, List.getLastD_eq_getLast?]

@[simp] lemma cached_push (f : Feed α) (o : Option α) : (f.push o).cached = f.cached := rfl

lemma pending_push_ne_nil (f : Feed α) (o : Option α) : (f.push o).pending ≠ [] := by simp [push]

lemma stored_eq_cached {f : Feed α} (h : f.pending = []) :
    f.stored = f.cached := by simp [stored, h]

lemma stored_deliver {f g : Feed α} {n : ℕ} (h : f.deliver n = some g) : g.stored = f.stored := by
  unfold deliver at h
  obtain ⟨o, ho, rfl⟩ := Option.map_eq_some_iff.mp h
  obtain ⟨hn, rfl⟩ := List.getElem?_eq_some_iff.mp ho
  simp only [stored, List.getLastD_eq_getLast?]
  have hsplit : f.pending = f.pending.take n ++ f.pending[n] :: f.pending.drop (n + 1) := by
    rw [← List.drop_eq_getElem_cons hn, List.take_append_drop]
  conv_rhs => rw [hsplit]
  rw [List.getLast?_append, List.getLast?_cons]
  simp

def versions (f : Feed α) : List (Option α) := f.cached :: f.pending

@[simp] lemma versions_push (f : Feed α) (o : Option α) : (f.push o).versions = f.versions ++ [o] :=
  rfl

lemma cached_mem (f : Feed α) : f.cached ∈ f.versions := by simp [versions]

lemma stored_mem (f : Feed α) : f.stored ∈ f.versions := by
  simp only [stored, versions, List.getLastD_eq_getLast?]
  cases h : f.pending.getLast? with
  | none => simp
  | some o => exact List.mem_cons_of_mem _ (List.mem_of_getLast? h)

lemma eq_or_rel_stored {f : Feed α} {r : Option α → Option α → Prop}
    (h : f.versions.Pairwise r) {v : Option α} (hv : v ∈ f.versions) :
    v = f.stored ∨ r v f.stored := by
  have hlast : f.versions.getLast? = some f.stored := by
    simp [versions, stored, List.getLast?_cons, List.getLastD_eq_getLast?]
  obtain ⟨l, hl⟩ := List.getLast?_eq_some_iff.mp hlast
  rw [hl] at h hv
  rcases List.mem_append.mp hv with hv | hv
  · exact .inr ((List.pairwise_append.mp h).2.2 v hv _ (List.mem_singleton_self _))
  · exact .inl (List.mem_singleton.mp hv)

lemma versions_deliver {f g : Feed α} {n : ℕ} (h : f.deliver n = some g) :
    g.versions <:+ f.pending := by
  unfold deliver at h
  obtain ⟨o, ho, rfl⟩ := Option.map_eq_some_iff.mp h
  obtain ⟨hn, rfl⟩ := List.getElem?_eq_some_iff.mp ho
  refine ⟨f.pending.take n, ?_⟩
  simp only [versions, ← List.drop_eq_getElem_cons hn, List.take_append_drop]

lemma cached_deliver {f g : Feed α} {n : ℕ} (h : f.deliver n = some g) :
    f.pending[n]? = some g.cached := by
  unfold deliver at h
  obtain ⟨o, ho, rfl⟩ := Option.map_eq_some_iff.mp h
  exact ho

end Feed

structure Watched (K α : Type) where
  feeds : K → Feed α
  keys : List K
  absent : ∀ k ∉ keys, feeds k = .none

namespace Watched

variable {K : Type} {W W' : Watched K α} {k : K} {n : ℕ}

def empty (K α : Type) : Watched K α := ⟨fun _ => .none, [], fun _ _ => rfl⟩

def cached (W : Watched K α) (k : K) : Option α := (W.feeds k).cached

def stored (W : Watched K α) (k : K) : Option α := (W.feeds k).stored

def pending (W : Watched K α) (k : K) : List (Option α) := (W.feeds k).pending

def versions (W : Watched K α) (k : K) : List (Option α) := (W.feeds k).versions

def listed (W : Watched K α) : List (K × α) := W.keys.filterMap fun k => (W.cached k).map (k, ·)

lemma stored_eq_cached (h : W.pending k = []) : W.stored k = W.cached k := Feed.stored_eq_cached h

lemma stored_mem (W : Watched K α) (k : K) : W.stored k ∈ W.versions k := Feed.stored_mem _

lemma cached_mem (W : Watched K α) (k : K) : W.cached k ∈ W.versions k := Feed.cached_mem _

lemma versions_eq (W : Watched K α) (k : K) : W.versions k = W.cached k :: W.pending k := rfl

lemma eq_or_rel_stored {r : Option α → Option α → Prop}
    (h : (W.versions k).Pairwise r) {v : Option α} (hv : v ∈ W.versions k) :
    v = W.stored k ∨ r v (W.stored k) := Feed.eq_or_rel_stored h hv

lemma mem_keys {a : α} (h : W.cached k = some a) : k ∈ W.keys := by
  by_contra hk
  rw [cached, W.absent k hk] at h
  cases h

lemma mem_listed {a : α} : (k, a) ∈ W.listed ↔ W.cached k = some a := by
  simp only [listed, List.mem_filterMap, Option.map_eq_some_iff, Prod.mk.injEq]
  constructor
  · rintro ⟨_, _, _, hc, rfl, rfl⟩
    exact hc
  · intro h
    exact ⟨k, mem_keys h, a, h, rfl, rfl⟩

def Delivered (W : Watched K α) : Prop := ∀ k, W.pending k = []

lemma delivered_iff : W.Delivered ↔ ∀ k ∈ W.keys, W.pending k = [] := by
  refine ⟨fun h k _ => h k, fun h k => ?_⟩
  by_cases hk : k ∈ W.keys
  · exact h k hk
  · rw [pending, W.absent k hk]
    rfl

instance : Decidable W.Delivered :=
  decidable_of_iff (∀ k ∈ W.keys, (W.pending k).isEmpty) (by simp [delivered_iff])

variable [DecidableEq K]

def putKeys (W : Watched K α) (k : K) : List K := if k ∈ W.keys then W.keys else W.keys ++ [k]

lemma mem_putKeys {k k' : K} : k' ∈ W.putKeys k ↔ k' ∈ W.keys ∨ k' = k := by
  unfold putKeys
  split <;> grind

lemma absent_put (W : Watched K α) (k : K) (o : Option α) (k' : K) (h : k' ∉ W.putKeys k) :
    Function.update W.feeds k ((W.feeds k).push o) k' = .none := by
  rw [mem_putKeys, not_or] at h
  rw [Function.update_of_ne h.2]
  exact W.absent k' h.1

def put (W : Watched K α) (k : K) (o : Option α) : Watched K α :=
  ⟨Function.update W.feeds k ((W.feeds k).push o), W.putKeys k, absent_put W k o⟩

lemma absent_see (W : Watched K α) (k : K) (f : Feed α) (hk : k ∈ W.keys) (k' : K)
    (h : k' ∉ W.keys) :
    Function.update W.feeds k f k' = .none := by
  rw [Function.update_of_ne (by grind)]
  exact W.absent k' h

def see (W : Watched K α) (k : K) (n : ℕ) : Option (Watched K α) :=
  if hk : k ∈ W.keys then
    ((W.feeds k).deliver n).map fun f => ⟨Function.update W.feeds k f, W.keys, absent_see W k f hk⟩
  else none

lemma see_eq (h : W.see k n = some W') :
    ∃ f, (W.feeds k).deliver n = some f ∧ W'.feeds = Function.update W.feeds k f ∧
    W'.keys = W.keys := by
  unfold see at h
  split at h
  · obtain ⟨f, hf, rfl⟩ := Option.map_eq_some_iff.mp h
    exact ⟨f, hf, rfl, rfl⟩
  · cases h

@[simp] lemma cached_put (k' : K) (o : Option α) : (W.put k o).cached k' = W.cached k' := by
  by_cases h : k' = k
  · subst h
    simp [cached, put]
  · simp [cached, put, Function.update_of_ne h]

@[simp] lemma stored_put_self (o : Option α) : (W.put k o).stored k = o := by simp [stored, put]

lemma stored_put_of_ne {k' : K} (h : k' ≠ k) (o : Option α) :
    (W.put k o).stored k' = W.stored k' := by
  simp [stored, put, Function.update_of_ne h]

lemma pending_put_self (o : Option α) : (W.put k o).pending k ≠ [] := by
  simpa [pending, put] using Feed.pending_push_ne_nil _ _

lemma pending_put {k' : K} (o : Option α) (h : W.pending k' ≠ []) :
    (W.put k o).pending k' ≠ [] := by
  by_cases hk : k' = k
  · subst hk
    exact pending_put_self o
  · simpa [pending, put, Function.update_of_ne hk] using h

lemma versions_put_self (o : Option α) : (W.put k o).versions k = W.versions k ++ [o] := by
  simp [versions, put]

lemma versions_put_of_ne {k' : K} (h : k' ≠ k) (o : Option α) :
    (W.put k o).versions k' = W.versions k' := by
  simp [versions, put, Function.update_of_ne h]

lemma mem_versions_put {k' : K} {o v : Option α} (h : v ∈ (W.put k o).versions k') :
    v ∈ W.versions k' ∨ k' = k ∧ v = o := by
  by_cases hk : k' = k
  · subst hk
    simpa [versions_put_self] using h
  · exact .inl (versions_put_of_ne hk o ▸ h)

lemma see_of_ne {k' : K} (h : W.see k n = some W') (hk : k' ≠ k) : W'.feeds k' = W.feeds k' := by
  obtain ⟨f, _, hf, _⟩ := see_eq h
  rw [hf, Function.update_of_ne hk]

lemma versions_see (h : W.see k n = some W') : W'.versions k <:+ W.pending k := by
  obtain ⟨f, hf, hW, _⟩ := see_eq h
  rw [versions, hW, Function.update_self]
  exact Feed.versions_deliver hf

lemma cached_see (h : W.see k n = some W') : (W.pending k)[n]? = some (W'.cached k) := by
  obtain ⟨f, hf, hW, _⟩ := see_eq h
  rw [cached, hW, Function.update_self]
  exact Feed.cached_deliver hf

lemma sublist_see (h : W.see k n = some W') (k' : K) :
    (W'.versions k').Sublist (W.versions k') := by
  by_cases hk : k' = k
  · subst hk
    exact (versions_see h).sublist.trans (List.sublist_cons_self _ _)
  · rw [versions, see_of_ne h hk, versions]

lemma stored_see (h : W.see k n = some W') (k' : K) : W'.stored k' = W.stored k' := by
  obtain ⟨f, hf, hW, _⟩ := see_eq h
  by_cases hk : k' = k
  · subst hk
    rw [stored, hW, Function.update_self]
    exact Feed.stored_deliver hf
  · rw [stored, see_of_ne h hk, stored]

@[simp] lemma listed_put (o : Option α) : (W.put k o).listed = W.listed := by
  simp only [listed, cached_put]
  unfold put putKeys
  dsimp only
  split
  · rfl
  · rename_i hk
    have hnone : W.cached k = none := by
      rw [cached, W.absent k hk]
      rfl
    simp [hnone]

lemma filter_listed_see {p : K × α → Bool} (h : W.see k n = some W')
    (hp : ((W'.cached k).map (k, ·)).filter p = ((W.cached k).map (k, ·)).filter p) :
    W'.listed.filter p = W.listed.filter p := by
  obtain ⟨_, _, _, hkeys⟩ := see_eq h
  simp only [listed, hkeys, List.filter_filterMap]
  refine List.filterMap_congr fun k' _ => ?_
  by_cases hk : k' = k
  · subst hk
    exact hp
  · rw [cached, see_of_ne h hk, cached]

lemma listed_see (h : W.see k n = some W') (hk : W'.cached k = W.cached k) :
    W'.listed = W.listed := by
  have := filter_listed_see (p := fun _ => true) h (by rw [hk])
  simpa using this

end Watched

end KarpenterProviderSsh.Control
