import Mathlib.Data.List.Pairwise
import Mathlib.Tactic

/-! The versions one stored object has had, newest first, each under its own revision. -/

namespace KarpenterProviderSsh.Store

variable {α : Type} {rev : α → ℕ}

structure History (rev : α → ℕ) where
  current : α
  past : List α
  sorted : (current :: past).Pairwise (fun a b => rev b < rev a)

namespace History

def versions (h : History rev) : List α := h.current :: h.past

def single (a : α) : History rev := ⟨a, [], by simp⟩

@[simp] lemma versions_single (a : α) : (single a : History rev).versions = [a] := rfl

@[simp] lemma current_mem (h : History rev) : h.current ∈ h.versions := by
  simp [versions]

lemma rev_le (h : History rev) {a : α} (ha : a ∈ h.versions) : rev a ≤ rev h.current := by
  rcases List.mem_cons.mp ha with rfl | hp
  · exact le_rfl
  · exact Nat.le_of_lt (List.rel_of_pairwise_cons h.sorted hp)

lemma eq_current (h : History rev) {a : α} (ha : a ∈ h.versions)
    (hr : rev a = rev h.current) : a = h.current := by
  rcases List.mem_cons.mp ha with rfl | hp
  · rfl
  · have := List.rel_of_pairwise_cons h.sorted hp
    omega

def push (h : History rev) (a : α) (ha : rev h.current < rev a) : History rev where
  current := a
  past := h.versions
  sorted := by
    refine List.pairwise_cons.mpr ⟨?_, h.sorted⟩
    intro b hb
    exact (h.rev_le hb).trans_lt ha

@[simp] lemma current_push (h : History rev) (a : α) (ha : rev h.current < rev a) :
    (h.push a ha).current = a := rfl

@[simp] lemma mem_push (h : History rev) (a : α) (ha : rev h.current < rev a) (b : α) :
    b ∈ (h.push a ha).versions ↔ b = a ∨ b ∈ h.versions := by
  simp [push, versions]

end History

end KarpenterProviderSsh.Store
