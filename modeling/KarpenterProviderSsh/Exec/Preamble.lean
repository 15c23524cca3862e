import KarpenterProviderSsh.Scripts.Contexts
import KarpenterProviderSsh.Shell.Lexing
import KarpenterProviderSsh.Shim.Gate

/-! The text that `sshexec.Run` streams to `bash -s`: the exports of the environment, then the
script. -/

namespace KarpenterProviderSsh.Exec

open Shell Shim

structure Environment where
  entries : List (Bytes × Bytes)
  distinct : (entries.map Prod.fst).Nodup

namespace Environment

def sorted (env : Environment) : List (Bytes × Bytes) :=
  env.entries.insertionSort (fun a b => a.1 ≤ b.1)

lemma sorted_perm (env : Environment) : env.sorted.Perm env.entries := List.perm_insertionSort _ _

lemma sorted_strict (env : Environment) : (env.sorted.map Prod.fst).Pairwise (· < ·) := by
  have hs : env.sorted.Pairwise (fun a b => a.1 ≤ b.1) :=
    List.pairwise_insertionSort (fun a b : Bytes × Bytes => a.1 ≤ b.1) _
  have hn : (env.sorted.map Prod.fst).Nodup :=
    (env.sorted_perm.map Prod.fst).nodup_iff.mpr env.distinct
  rw [List.pairwise_map]
  rw [List.Nodup, List.pairwise_map] at hn
  exact hs.imp₂ (fun _ _ hle hne => Std.lt_of_le_of_ne hle hne) hn

end Environment

def envNameRE : Bytes → Bool
  | c :: cs => nameChar c && !(48 ≤ c && c ≤ 57) && cs.all nameChar
  | [] => false

def shellQuote (s : Bytes) : Bytes :=
  utf8 "'" ++ Scripts.replaceAll (utf8 "'") (utf8 "'\\''") s.length s ++ utf8 "'"

/-- `quote` is the `%q` verb. -/
def exports (quote : Bytes → Bytes) : List (Bytes × Bytes) → Except Bytes Bytes
  | [] => .ok []
  | (k, v) :: es =>
    if envNameRE k = false then .error (utf8 "invalid environment variable name " ++ quote k)
    else do
      let rest ← exports quote es
      return utf8 "export " ++ k ++ utf8 "=" ++ shellQuote v ++ utf8 "\n" ++ rest

def stdin (quote : Bytes → Bytes) (env : Environment) (script : Bytes) : Except Bytes Bytes := do
  let preamble ← exports quote env.sorted
  return utf8 "set -euo pipefail\n" ++ preamble ++ script

def setLine : List Token :=
  [.word ((utf8 "set").map .plain), .word ((utf8 "-euo").map .plain),
      .word ((utf8 "pipefail").map .plain)]

def exportLine (e : Bytes × Bytes) : List Token :=
  [.word ((utf8 "export").map .plain), .word (e.1.map .plain ++ .plain 61 :: e.2.map .quoted)]

lemma replaceAll_quote (n : ℕ) (s : Bytes) (hn : s.length ≤ n) :
    Scripts.replaceAll [39] [39, 92, 39, 39] n s = requote s := by
  induction s generalizing n with
  | nil => cases n <;> rfl
  | cons c s ih =>
    obtain ⟨n, rfl⟩ : ∃ m, n = m + 1 := ⟨n - 1, by simp at hn; omega⟩
    have hh := ih n (by simpa using hn)
    by_cases hc : c = 39
    · subst hc
      simpa [Scripts.replaceAll, requote] using hh
    · simpa [Scripts.replaceAll, requote, hc, Ne.symm hc] using hh

lemma shellQuote_eq (v : Bytes) : shellQuote v = 39 :: requote v ++ [39] := by
  have h := replaceAll_quote v.length v le_rfl
  have hq : utf8 "'" = [39] := rfl
  have he : utf8 "'\\''" = [39, 92, 39, 39] := rfl
  rw [shellQuote, hq, he, h]
  rfl

lemma ordinary_of_nameChar : ∀ c : UInt8, nameChar c = true → isOrdinary c = true ∧ c ≠ 61 := by
  have h : ∀ n : Fin 256, nameChar (.ofNat n) = true → isOrdinary (.ofNat n) = true ∧
      UInt8.ofNat n ≠ 61 := by
    decide +kernel
  intro c
  have hc := h ⟨c.toNat, c.toNat_lt⟩
  simpa using hc

lemma name_ordinary {name : Bytes} (hn : envNameRE name = true) :
    ∀ c ∈ name, isOrdinary c = true ∧ c ≠ 61 := by
  cases name with
  | nil => exact nofun
  | cons d name =>
    simp only [envNameRE, Bool.and_eq_true, List.all_eq_true] at hn
    intro c hc
    rcases List.mem_cons.mp hc with rfl | hc
    · exact ordinary_of_nameChar c hn.1.1
    · exact ordinary_of_nameChar c (hn.2 c hc)

lemma read_export {name value : Bytes} (hn : envNameRE name = true) (hv : 0 ∉ value) (s : Bytes) :
    ({} : Reader).read (utf8 "export " ++ name ++ utf8 "=" ++ shellQuote value ++ utf8 "\n" ++ s) =
      some (exportLine (name, value), s) := by
  have hx : utf8 "export " = utf8 "export" ++ [32] := rfl
  have hw : utf8 "export" = 101 :: [120, 112, 111, 114, 116] := rfl
  have hq : utf8 "=" = [61] := rfl
  have hl : utf8 "\n" = [10] := rfl
  have hname := name_ordinary hn
  cases name with
  | nil => exact absurd hn (by decide)
  | cons d name =>
    have hd : isOrdinary d = true := (hname d (by simp)).1
    have hrest : (name ++ [61]).all isOrdinary = true := by
      rw [List.all_eq_true]
      intro c hc
      rcases List.mem_append.mp hc with hc | hc
      · exact (hname c (by simp [hc])).1
      · rw [List.mem_singleton.mp hc]
        decide
    have htext : utf8 "export " ++ d :: name ++ utf8 "=" ++ shellQuote value ++ utf8 "\n" ++ s =
        101 :: [120, 112, 111, 114, 116] ++
          32 :: (d :: (name ++ [61]) ++ (39 :: requote value ++ 39 :: 10 :: s)) := by
      simp [hx, hw, hq, hl, shellQuote_eq]
    calc
      ({} : Reader).read (utf8 "export " ++ d :: name ++ utf8 "=" ++
        shellQuote value ++ utf8 "\n" ++ s)
        = (Reader.within [] ((utf8 "export").map .plain)).read
            (32 :: (d :: (name ++ [61]) ++ (39 :: requote value ++ 39 :: 10 :: s))) := by
          rw [htext, hw]
          exact Reader.read_word 101 (by decide) _ (by decide)
      _ = (Reader.within [.word ((utf8 "export").map .plain)]
        ((d :: (name ++ [61])).map .plain)).read
            (39 :: requote value ++ 39 :: 10 :: s) := by
          rw [Reader.read_blank]
          exact Reader.read_word d hd _ hrest
      _ = some (exportLine (d :: name, value), s) := by
          rw [Reader.read_single value hv, Reader.read_newline]
          simp [exportLine]

lemma read_set (s : Bytes) :
    ({} : Reader).read (utf8 "set -euo pipefail\n" ++ s) = some (setLine, s) := by
  have hx : utf8 "set -euo pipefail\n" ++ s =
      115 :: [101, 116] ++ 32 :: (45 :: [101, 117, 111] ++
        32 :: (112 :: [105, 112, 101, 102, 97, 105, 108] ++ 10 :: s)) := by
    rw [show utf8 "set -euo pipefail\n" = 115 :: [101, 116] ++ 32 :: (45 :: [101, 117, 111] ++
      32 :: (112 :: [105, 112, 101, 102, 97, 105, 108] ++ [10])) by rfl]
    simp
  have hs :
      setLine = [.word ((115 :: [101, 116]).map .plain), .word ((45 :: [101, 117, 111]).map .plain),
        .word ((112 :: [105, 112, 101, 102, 97, 105, 108]).map .plain)] := rfl
  rw [hx, hs, Reader.read_word 115 (by decide) _ (by decide), Reader.read_blank,
    Reader.read_word 45 (by decide) _ (by decide), Reader.read_blank,
    Reader.read_word 112 (by decide) _ (by decide), Reader.read_newline]
  rfl

lemma readLines_exports {quote : Bytes → Bytes} {es : List (Bytes × Bytes)} {preamble : Bytes}
    (he : exports quote es = .ok preamble) (hv : ∀ e ∈ es, 0 ∉ e.2) (script : Bytes) :
    readLines es.length (preamble ++ script) = some (es.map exportLine, script) := by
  induction es generalizing preamble with
  | nil =>
    cases he
    rfl
  | cons e es ih =>
    obtain ⟨k, v⟩ := e
    simp only [exports] at he
    split at he
    · exact absurd he nofun
    · rename_i hk
      cases hr : exports quote es with
      | error m =>
        rw [hr] at he
        exact absurd he nofun
      | ok rest =>
        rw [hr] at he
        cases he
        have hh := ih hr (fun e he => hv e (by simp [he]))
        have hline := read_export (by simpa using hk) (hv (k, v) (by simp)) (rest ++ script)
        rw [← List.append_assoc] at hline
        simp only [List.length_cons, readLines, hline, hh, List.map_cons, Option.bind_eq_bind,
          Option.bind_some]
        rfl

lemma names_of_exports {quote : Bytes → Bytes} {es : List (Bytes × Bytes)} {preamble : Bytes}
    (he : exports quote es = .ok preamble) : ∀ e ∈ es, envNameRE e.1 = true := by
  induction es generalizing preamble with
  | nil => exact nofun
  | cons e es ih =>
    obtain ⟨k, v⟩ := e
    simp only [exports] at he
    split at he
    · exact absurd he nofun
    · rename_i hk
      cases hr : exports quote es with
      | error m =>
        rw [hr] at he
        exact absurd he nofun
      | ok rest =>
        intro e hmem
        rcases List.mem_cons.mp hmem with rfl | hmem
        · simpa using hk
        · exact ih hr e hmem

/-- A shell that reads the text of an accepted environment reads the `set`, then one export for
each name in order, with the value byte for byte, and is left with the script. -/
theorem preamble_read {quote : Bytes → Bytes} {env : Environment} {script text : Bytes}
    (ht : stdin quote env script = .ok text) (hv : ∀ e ∈ env.entries, 0 ∉ e.2) :
    ∃ l : List (Bytes × Bytes), l.Perm env.entries ∧ (l.map Prod.fst).Pairwise (· < ·) ∧
      readLines (l.length + 1) text = some (setLine :: l.map exportLine, script) ∧
      ∀ e ∈ l, assignment (utf8 "export") (exportLine e) = some e := by
  cases hp : exports quote env.sorted with
  | error m =>
    simp only [stdin, hp] at ht
    exact absurd ht nofun
  | ok preamble =>
    simp only [stdin, hp] at ht
    cases ht
    refine ⟨env.sorted, env.sorted_perm, env.sorted_strict, ?_, fun e he => ?_⟩
    · have hl := readLines_exports hp (fun e he => hv e (env.sorted_perm.mem_iff.mp he)) script
      simp only [readLines, List.append_assoc, read_set, Option.bind_eq_bind, Option.bind_some, hl]
      rfl
    · have hn := name_ordinary (names_of_exports hp e he)
      exact assignment_quoted _ _ _ fun h => (hn 61 h).2 rfl

def hostile : Environment where
  entries := [(utf8 "B", utf8 "'; rm x #\n"), (utf8 "A", utf8 "$(id)'")]
  distinct := by decide +kernel

theorem preamble_read_hostile : ∃ text, stdin id hostile (utf8 "true\n") = .ok text ∧
    ∃ l : List (Bytes × Bytes), l.Perm hostile.entries ∧ (l.map Prod.fst).Pairwise (· < ·) ∧
      readLines (l.length + 1) text = some (setLine :: l.map exportLine, utf8 "true\n") ∧
      ∀ e ∈ l, assignment (utf8 "export") (exportLine e) = some e :=
  ⟨_, rfl, preamble_read (show stdin id hostile (utf8 "true\n") = .ok _ from rfl)
      (by decide +kernel)⟩

end KarpenterProviderSsh.Exec
