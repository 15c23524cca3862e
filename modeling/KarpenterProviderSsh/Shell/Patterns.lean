import Mathlib.Tactic

/-! Shell words: patterns, the two strips and the `read` loop, over any alphabet. -/

namespace KarpenterProviderSsh.Shell

variable {α : Type}

inductive Glob (α : Type)
  | one (p : α → Bool)
  | star

namespace Glob

def fits : List (Glob α) → List α → Bool
  | [], s => s.isEmpty
  | .star :: g, s => s.tails.any (fits g)
  | .one _ :: _, [] => false
  | .one p :: g, c :: s => p c && fits g s

def quoted [DecidableEq α] (l : List α) : List (Glob α) := l.map (fun a => .one (· = a))

@[simp] lemma fits_nil (s : List α) : fits [] s = true ↔ s = [] := by
  simp [fits]

@[simp] lemma fits_one_nil (p : α → Bool) (g : List (Glob α)) : fits (.one p :: g) [] = false := rfl

@[simp] lemma fits_one_cons (p : α → Bool) (g : List (Glob α)) (c : α) (s : List α) :
    fits (.one p :: g) (c :: s) = (p c && fits g s) := rfl

lemma fits_one (p : α → Bool) (g : List (Glob α)) (s : List α) :
    fits (.one p :: g) s = true ↔ ∃ c v, s = c :: v ∧ p c = true ∧ fits g v = true := by
  cases s with
  | nil => simp
  | cons c v => simp

lemma fits_star (g : List (Glob α)) (s : List α) :
    fits (.star :: g) s = true ↔ ∃ u v, s = u ++ v ∧ fits g v = true := by
  simp only [fits, List.any_eq_true, List.mem_tails]
  constructor
  · rintro ⟨v, ⟨u, hu⟩, hv⟩
    exact ⟨u, v, hu.symm, hv⟩
  · rintro ⟨u, v, rfl, hv⟩
    exact ⟨v, List.suffix_append u v, hv⟩

@[simp] lemma fits_rest (s : List α) : fits [.star] s = true := by
  rw [fits_star]
  exact ⟨s, [], by simp, by simp⟩

lemma fits_somewhere (p : α → Bool) (s : List α) : fits [.star, .one p, .star] s = true ↔
    ∃ c ∈ s, p c = true := by
  rw [fits_star]
  constructor
  · rintro ⟨u, v, rfl, hv⟩
    obtain ⟨c, v, rfl, hc, _⟩ := (fits_one _ _ _).mp hv
    exact ⟨c, by simp, hc⟩
  · rintro ⟨c, hc, hp⟩
    obtain ⟨u, v, rfl⟩ := List.append_of_mem hc
    exact ⟨u, c :: v, rfl, by simp [hp]⟩

variable [DecidableEq α]

lemma fits_quoted (l : List α) (g : List (Glob α)) (s : List α) :
    fits (quoted l ++ g) s = true ↔ ∃ v, s = l ++ v ∧ fits g v = true := by
  induction l generalizing s with
  | nil => simp [quoted]
  | cons a l ih =>
    simp only [quoted, List.map_cons, List.cons_append, fits_one, decide_eq_true_eq]
    constructor
    · rintro ⟨c, v, rfl, rfl, hv⟩
      obtain ⟨u, rfl, hu⟩ := (ih v).mp hv
      exact ⟨u, rfl, hu⟩
    · rintro ⟨v, rfl, hv⟩
      exact ⟨a, l ++ v, rfl, rfl, (ih _).mpr ⟨v, rfl, hv⟩⟩

@[simp] lemma fits_word (l s : List α) : fits (quoted l) s = true ↔ s = l := by
  have h := fits_quoted l [] s
  simp only [List.append_nil, fits_nil] at h
  rw [h]
  constructor
  · rintro ⟨v, rfl, rfl⟩
    simp
  · rintro rfl
    exact ⟨[], by simp⟩

end Glob

open Glob

/-- `${s#g}` -/
def dropHead (g : List (Glob α)) (s : List α) : List α :=
  match s.inits.find? (fits g) with
  | some u => s.drop u.length
  | none => s

/-- `${s%%g}` -/
def dropTails (g : List (Glob α)) (s : List α) : List α :=
  match s.tails.find? (fits g) with
  | some v => s.take (s.length - v.length)
  | none => s

section Strips

variable [DecidableEq α]

lemma find_inits (l v : List α) : (l ++ v).inits.find? (fits (quoted l)) = some l := by
  induction l with
  | nil => cases v <;> simp [quoted, fits]
  | cons a l ih =>
    have hp : (fits (quoted (a :: l)) ∘ fun t => a :: t) = fits (quoted l) := by
      funext t
      simp [quoted]
    have hn : fits (quoted (a :: l)) [] = false := rfl
    simp only [List.cons_append, List.inits_cons, List.find?_cons, hn, List.find?_map, hp,
      ih, Option.map_some]

lemma dropHead_quoted (l v : List α) : dropHead (quoted l) (l ++ v) = v := by
  rw [dropHead, find_inits]
  exact List.drop_left

lemma dropTails_from (a : α) (s : List α) :
    dropTails [.one (· = a), .star] s = s.takeWhile (· ≠ a) := by
  induction s with
  | nil => rfl
  | cons c s ih =>
    simp only [dropTails, List.tails_cons, List.find?_cons, fits_one_cons, fits_rest, Bool.and_true]
    by_cases hc : c = a
    · simp [hc]
    · simp only [dropTails] at ih
      simp only [hc, decide_false, ne_eq, decide_not, List.takeWhile_cons, Bool.not_false, if_true]
      cases hf : s.tails.find? (fits [.one (· = a), .star]) with
      | none =>
        rw [hf] at ih
        simpa using ih
      | some v =>
        rw [hf] at ih
        have hv : v.length ≤ s.length :=
          ((List.mem_tails _ _).mp (List.mem_of_find?_eq_some hf)).length_le
        have hl : (c :: s).length - v.length = (s.length - v.length) + 1 := by
          simp
          omega
        change List.take ((c :: s).length - v.length) (c :: s) = _
        rw [hl, List.take_succ_cons]
        simpa using ih

end Strips

section Reading

variable [DecidableEq α] (nl : α) (skip : α → Bool)

/-- `read -r` with an empty IFS: the line, whether its end was seen, and what is left. -/
def readLine : List α → List α × Bool × List α
  | [] => ([], false, [])
  | c :: s =>
    if c = nl then ([], true, s)
    else if skip c then readLine s
    else (c :: (readLine s).1, (readLine s).2)

def pushChar (c : α) : List (List α) → List (List α)
  | [] => [[c]]
  | l :: ls => (c :: l) :: ls

/-- The lines that `while IFS= read -r line || [ -n "$line" ]` goes through. -/
def lines : List α → List (List α)
  | [] => []
  | c :: s => if c = nl then [] :: lines s else if skip c then lines s else pushChar c (lines s)

variable {nl skip}

lemma rest_of_unended (s : List α) (h : (readLine nl skip s).2.1 = false) :
    (readLine nl skip s).2.2 = [] := by
  induction s with
  | nil => rfl
  | cons c s ih =>
    simp only [readLine] at h ⊢
    split_ifs at h ⊢
    · exact ih h
    · exact ih h

lemma lines_read (s : List α) : lines nl skip s =
    if (readLine nl skip s).2.1 = true ∨ (readLine nl skip s).1 ≠ [] then
      (readLine nl skip s).1 :: lines nl skip (readLine nl skip s).2.2
    else [] := by
  induction s with
  | nil => simp [lines, readLine]
  | cons c s ih =>
    simp only [lines, readLine]
    by_cases hc : c = nl
    · simp [hc]
    · by_cases hs : skip c
      · simpa [hc, hs] using ih
      · simp only [hc, hs, if_false, Bool.false_eq_true, ne_eq, reduceCtorEq, not_false_eq_true,
          or_true, if_true]
        rw [ih]
        split_ifs with h
        · rfl
        · push Not at h
          rw [rest_of_unended s (by simpa using h.1), h.2]
          rfl

lemma lines_append {l : List α} (hl : ∀ c ∈ l, c ≠ nl ∧ skip c = false) (s : List α) :
    lines nl skip (l ++ nl :: s) = l :: lines nl skip s := by
  induction l with
  | nil => simp [lines]
  | cons c l ih =>
    obtain ⟨hc, hs⟩ := hl c (by simp)
    have hh := ih (fun d hd => hl d (by simp [hd]))
    simp [lines, hc, hs, hh, pushChar]

end Reading

end KarpenterProviderSsh.Shell
