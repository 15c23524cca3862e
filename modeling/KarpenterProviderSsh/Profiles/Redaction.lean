import KarpenterProviderSsh.Scripts.Contexts
import KarpenterProviderSsh.Shim.Gate
import KarpenterProviderSsh.Text.Replacements

/-! What `Redact` takes out of a message, byte for byte, and what it leaves (`internal/profile`). -/

namespace KarpenterProviderSsh.Profiles

open Shim Text
open Scripts (minRedactableLen)

structure Secrets where
  bootstrapToken : Bytes
  secrets : List (Bytes × Bytes)
  distinct : (secrets.map Prod.fst).Nodup

namespace Secrets

def secretHalf (token : Bytes) : List Bytes :=
  match token.dropWhile (· ≠ 46) with
  | [] => []
  | _ :: secret => [secret]

def values (c : Secrets) : List Bytes :=
  (if c.bootstrapToken = [] then [] else c.bootstrapToken :: secretHalf c.bootstrapToken) ++
    c.secrets.map Prod.snd

/-- The orders Redact may go through its values in: the map's order is free, and so is that of
values of equal length under `slices.SortFunc`. -/
def Orders (c : Secrets) (vs : List Bytes) : Prop :=
  vs.Perm c.values ∧ vs.Pairwise (fun a b => b.length ≤ a.length)

end Secrets

def placeholder : Bytes := utf8 Scripts.redactionPlaceholder

def redact (vs : List Bytes) (msg : Bytes) : Bytes :=
  vs.foldl (fun msg v => if v.length < minRedactableLen then msg
    else Scripts.replaceAll v placeholder msg.length msg) msg

def redactable (vs : List Bytes) : List Bytes := vs.filter (minRedactableLen ≤ ·.length)

/-- The redacted message, each byte with its place in the message if it comes from there. -/
def redacted (vs : List Bytes) (msg : Bytes) : List (UInt8 × Option ℕ) :=
  struckFrom id placeholder (redactable vs) msg

lemma placeholder_eq : placeholder = [91] ++ [82, 69, 68, 65, 67, 84, 69, 68] ++ [93] := by
  decide +kernel

lemma replaceAll_eq (old new : Bytes) (n : ℕ) (s : Bytes) :
    Scripts.replaceAll old new n s = replaceBy id old new n s := by
  induction n generalizing s with
  | zero => rfl
  | succ n ih =>
    cases s with
    | nil => rfl
    | cons c cs => rw [Scripts.replaceAll, replaceBy, List.map_id, ih, ih]

lemma redact_eq (vs : List Bytes) (msg : Bytes) :
    redact vs msg = strikeOut id placeholder (redactable vs) msg := by
  induction vs generalizing msg with
  | nil => rfl
  | cons v vs ih =>
    rw [redact, List.foldl_cons, ← redact, ih]
    by_cases hshort : v.length < minRedactableLen
    · rw [if_pos hshort, redactable, redactable, List.filter_cons_of_neg (by simpa using hshort)]
    · rw [if_neg hshort, replaceAll_eq, redactable, redactable,
        List.filter_cons_of_pos (by simpa using hshort)]
      rfl

section Complete

variable {vs : List Bytes} {v msg : Bytes}

lemma ne_nil_of_redactable (hv : v ∈ redactable vs) : v ≠ [] := by
  rintro rfl
  exact absurd (List.mem_filter.mp hv).2 (by decide)

lemma placeholder_ne_nil : placeholder ≠ [] := by
  rw [placeholder_eq]
  simp

lemma map_fst_redacted : (redacted vs msg).map Prod.fst = redact vs msg := by
  rw [redacted, map_fst_struckFrom, redact_eq]

lemma window_of_occurs {p : ℕ} (hp : v <+: (redact vs msg).drop p) :
    ((redacted vs msg).drop p).take v.length <:+: redacted vs msg ∧
      (((redacted vs msg).drop p).take v.length).map Prod.fst = v := by
  refine ⟨(List.take_prefix _ _).isInfix.trans (List.drop_suffix _ _).isInfix, ?_⟩
  rw [List.map_take, List.map_drop, map_fst_redacted]
  exact (List.prefix_iff_eq_take.mp hp).symm

lemma inserted_of_occurs (hv : v ∈ redactable vs) {p : ℕ} (hp : v <+: (redact vs msg).drop p) :
    ∃ q, p ≤ q ∧ q < p + v.length ∧ (redacted vs msg)[q]?.map Prod.snd = some none := by
  obtain ⟨hw, hread⟩ := window_of_occurs hp
  by_contra hall
  push Not at hall
  have hkept : ∀ c ∈ ((redacted vs msg).drop p).take v.length, c.2 ≠ none := by
    intro c hc hnone
    obtain ⟨k, hk⟩ := List.mem_iff_getElem?.mp hc
    rw [List.getElem?_take] at hk
    split_ifs at hk with hlt
    rw [List.getElem?_drop] at hk
    exact hall (p + k) (by omega) (by omega) (by rw [hk, Option.map_some, hnone])
  obtain ⟨_, hfree⟩ :=
    infix_of_struckFrom (fun u hu => ne_nil_of_redactable hu) placeholder_ne_nil hw hkept
  refine hfree v hv ?_
  change v <:+: (((redacted vs msg).drop p).take v.length).map Prod.fst
  rw [hread]

lemma redacted_between {w : List (UInt8 × Option ℕ)} (hw : w <:+: redacted vs msg)
    (hfree : ∀ c ∈ w, ¬ (c.1 = 91 ∨ c.1 = 93)) :
    (∀ c ∈ w, c.2 ≠ none) ∨ w.map Prod.fst <:+: utf8 "REDACTED" := by
  have hnew : inserted placeholder = [(91, none)] ++ inserted [82, 69, 68, 65, 67, 84, 69, 68] ++
      [(93, none)] := by
    rw [placeholder_eq]
    rfl
  refine strikeOut_between (Q := fun w => (∀ c ∈ w, c.2 ≠ none) ∨
    w.map Prod.fst <:+: utf8 "REDACTED")
    (D := fun c => c.1 = 91 ∨ c.1 = 93) (fun u hu => ne_nil_of_redactable hu) hnew
      (.inl rfl) (.inr rfl)
    (fun w hw => .inr ?_) (fun w hw _ => .inl fun c hc => ?_) hw hfree
  · have hmap := hw.map Prod.fst
    rw [map_fst_inserted] at hmap
    exact hmap
  · have hsome := snd_of_mem_trace (hw.subset hc)
    exact Option.isSome_iff_ne_none.mp hsome

lemma not_occurs (hv : v ∈ redactable vs) (hopen : 91 ∉ v) (hclose : 93 ∉ v)
    (hword : v ≠ utf8 "REDACTED") :
    ¬ v <:+: redact vs msg := by
  intro hin
  obtain ⟨x, y, hxy⟩ := hin
  have hp : v <+: (redact vs msg).drop x.length := ⟨y, by rw [← hxy]; simp⟩
  obtain ⟨hw, hread⟩ := window_of_occurs hp
  have hfree : ∀ c ∈ ((redacted vs msg).drop x.length).take v.length, ¬ (c.1 = 91 ∨ c.1 = 93) := by
    intro c hc hb
    have hm : c.1 ∈ v := by
      rw [← hread]
      exact List.mem_map_of_mem hc
    rcases hb with hb | hb
    · exact hopen (hb ▸ hm)
    · exact hclose (hb ▸ hm)
  rcases redacted_between hw hfree with hkept | hpart
  · obtain ⟨_, hnone⟩ :=
      infix_of_struckFrom (fun u hu => ne_nil_of_redactable hu) placeholder_ne_nil hw hkept
    refine hnone v hv ?_
    change v <:+: (((redacted vs msg).drop x.length).take v.length).map Prod.fst
    rw [hread]
  · rw [hread] at hpart
    refine hword (hpart.eq_of_length_le ?_)
    have hlen := of_decide_eq_true (List.mem_filter.mp hv).2
    rw [show (utf8 "REDACTED").length = minRedactableLen by decide +kernel]
    exact hlen

end Complete

/-- Whatever order Redact goes through its values in, an occurrence of one of them in its output has
a byte that Redact put in, and a value that could not be mistaken for the placeholder does not occur
at all. -/
theorem redaction_complete (c : Secrets) (vs : List Bytes) (hvs : c.Orders vs) (msg v : Bytes)
    (hv : v ∈ c.values) (hlen : minRedactableLen ≤ v.length) :
    ((redacted vs msg).map Prod.fst = redact vs msg ∧ ∀ b i, (b, some i) ∈ redacted vs msg →
      msg[i]? = some b) ∧
    (∀ p, v <+: (redact vs msg).drop p →
      ∃ q, p ≤ q ∧ q < p + v.length ∧ (redacted vs msg)[q]?.map Prod.snd = some none) ∧
    (91 ∉ v → 93 ∉ v → v ≠ utf8 "REDACTED" → ¬ v <:+: redact vs msg) := by
  have hred : v ∈ redactable vs := List.mem_filter.mpr ⟨hvs.1.symm.subset hv, decide_eq_true hlen⟩
  refine ⟨⟨map_fst_redacted, fun b i => ?_⟩, fun p => inserted_of_occurs hred, not_occurs hred⟩
  exact mem_struckFrom (fun u hu => ne_nil_of_redactable hu) placeholder_ne_nil

namespace Sample

def secrets : Secrets :=
  ⟨utf8 "abcdef.0123456789abcdef", [(utf8 "password", utf8 "89abcdef-hunter2")], by decide⟩

def values : List Bytes :=
  [utf8 "abcdef.0123456789abcdef", utf8 "0123456789abcdef", utf8 "89abcdef-hunter2"]

end Sample

open Sample in
theorem redaction_complete_overlapping : secrets.Orders values ∧
    utf8 "89abcdef-hunter2" ∈ secrets.values ∧
    ¬ utf8 "89abcdef-hunter2" <:+: redact values
      (utf8 "+ join abcdef.0123456789abcdef-hunter2") := by
  have hvs : secrets.Orders values := by
    refine ⟨?_, by decide +kernel⟩
    rw [show secrets.values = values by decide +kernel]
  have hv : utf8 "89abcdef-hunter2" ∈ secrets.values := by decide +kernel
  have hall := redaction_complete secrets values hvs
    (utf8 "+ join abcdef.0123456789abcdef-hunter2") _ hv (by decide +kernel)
  exact ⟨hvs, hv, hall.2.2 (by decide +kernel) (by decide +kernel) (by decide +kernel)⟩

end KarpenterProviderSsh.Profiles
