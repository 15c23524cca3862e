import KarpenterProviderSsh.Providers.Instances
import Mathlib.Data.List.TakeWhile
import Mathlib.Tactic

/-! The labels and taints a kubelet registers with, read back by the kubelet's own flag parsers. -/

namespace KarpenterProviderSsh.Launches

open Api Providers

def split (sep : Char) (s : String) : List String := (s.toList.splitOn sep).map String.ofList

def cut (sep : Char) (s : String) : String × Option String :=
  (String.ofList (s.toList.takeWhile (· ≠ sep)),
    match s.toList.dropWhile (· ≠ sep) with
    | [] => none
    | _ :: rest => some (String.ofList rest))

lemma split_joinComma {parts : List String} (hne : parts ≠ []) (hp : ∀ p ∈ parts, ',' ∉ p.toList) :
    split ',' (joinComma parts) = parts := by
  have hsplit : (joinComma parts).toList.splitOn ',' = parts.map String.toList := by
    rw [joinComma, String.toList_intercalate]
    refine List.splitOn_intercalate _ ?_ (by simpa using hne)
    intro l hl
    obtain ⟨p, hm, rfl⟩ := List.mem_map.mp hl
    exact hp p hm
  rw [split, hsplit, List.map_map]
  simp

section Cut

variable {sep : Char} {a : String}

lemma ne_of_not_mem (ha : sep ∉ a.toList) : ∀ c ∈ a.toList, (!decide (c = sep)) = true := by
  intro c hc
  have hne : c ≠ sep := fun h => ha (h ▸ hc)
  simpa using hne

lemma cut_append (ha : sep ∉ a.toList) (b : String) :
    cut sep (a ++ String.singleton sep ++ b) = (a, some b) := by
  simp [cut, List.takeWhile_append_of_pos (ne_of_not_mem ha),
    List.dropWhile_append_of_pos (ne_of_not_mem ha)]

lemma cut_eq_self (ha : sep ∉ a.toList) : cut sep a = (a, none) := by
  simp [cut, List.takeWhile_eq_self_iff.mpr (ne_of_not_mem ha),
    List.dropWhile_eq_nil_iff.mpr (ne_of_not_mem ha)]

end Cut

lemma split_append {sep : Char} {a b : String} (ha : sep ∉ a.toList) (hb : sep ∉ b.toList) :
    split sep (a ++ String.singleton sep ++ b) = [a, b] := by
  simp [split, List.splitOn_append_cons_self, List.splitOn_eq_singleton ha,
    List.splitOn_eq_singleton hb]

section Syntax

def isNameChar (c : Char) : Bool := c.isAlphanum || c == '-' || c == '_' || c == '.'

def isLabelName (s : String) : Bool :=
  s.length ≤ 63 && s.toList.all isNameChar && s.toList.head?.any Char.isAlphanum &&
    s.toList.getLast?.any Char.isAlphanum

def isDNSLabel (s : String) : Bool :=
  s.toList.all (fun c => c.isLower || c.isDigit || c == '-') &&
    s.toList.head?.any Char.isAlphanum && s.toList.getLast?.any Char.isAlphanum

def isDNSSubdomain (s : String) : Bool := s.length ≤ 253 && (split '.' s).all isDNSLabel

def isQualifiedName (key : String) : Bool :=
  match split '/' key with
  | [name] => isLabelName name
  | [ns, name] => isDNSSubdomain ns && isLabelName name
  | _ => false

def isLabelValue (value : String) : Bool := value == "" || isLabelName value

def taintEffects : List String := ["NoSchedule", "PreferNoSchedule", "NoExecute"]

def isTaint (t : Taint) : Bool := isQualifiedName t.key && isLabelValue t.value &&
    t.effect ∈ taintEffects

lemma mem_splitOn {α : Type} [DecidableEq α] {sep c : α} {l : List α} (hc : c ∈ l) :
    c = sep ∨ ∃ p ∈ l.splitOn sep, c ∈ p := by
  induction l with
  | nil => cases hc
  | cons x l ih =>
    obtain ⟨q, qs, hq⟩ := List.exists_cons_of_ne_nil (List.splitOn_ne_nil sep l)
    rw [List.splitOn_cons_eq_if_modifyHead]
    rcases List.mem_cons.mp hc with rfl | hc
    · split_ifs with hx
      · exact .inl (eq_of_beq hx)
      · exact .inr ⟨c :: q, by simp [hq], by simp⟩
    · refine (ih hc).imp_right fun ⟨p, hp, hm⟩ => ?_
      split_ifs with hx
      · exact ⟨p, by simp [hp], hm⟩
      · rw [hq] at hp ⊢
        rcases List.mem_cons.mp hp with rfl | hp
        · exact ⟨x :: p, by simp, by simp [hm]⟩
        · exact ⟨p, by simp [hp], hm⟩

lemma mem_of_split (sep : Char) {c : Char} {s : String} (hc : c ∈ s.toList) :
    c = sep ∨ ∃ p ∈ split sep s, c ∈ p.toList := by
  refine (mem_splitOn hc).imp_right fun ⟨p, hp, hm⟩ => ?_
  exact ⟨String.ofList p, List.mem_map_of_mem hp, by simpa using hm⟩

lemma isNameChar_of_label {s : String} (hs : isLabelName s = true) {c : Char} (hc : c ∈ s.toList) :
    isNameChar c = true := by
  simp only [isLabelName, Bool.and_eq_true] at hs
  exact List.all_eq_true.mp hs.1.1.2 c hc

lemma isNameChar_of_subdomain {s : String} (hs : isDNSSubdomain s = true) {c : Char}
    (hc : c ∈ s.toList) :
    isNameChar c = true := by
  simp only [isDNSSubdomain, Bool.and_eq_true] at hs
  rcases mem_of_split '.' hc with rfl | ⟨p, hp, hc⟩
  · decide
  · have hlabel := List.all_eq_true.mp hs.2 p hp
    simp only [isDNSLabel, Bool.and_eq_true] at hlabel
    have hchar := List.all_eq_true.mp hlabel.1.1 c hc
    simp only [Bool.or_eq_true] at hchar
    rcases hchar with (hl | hd) | hdash
    · have halpha : c.isAlpha = true := (Bool.or_eq_true _ _).mpr (.inr hl)
      simp [isNameChar, Char.isAlphanum, halpha]
    · simp [isNameChar, Char.isAlphanum, hd]
    · simp [isNameChar, hdash]

lemma char_of_key {key : String} (hk : isQualifiedName key = true) {c : Char}
    (hc : c ∈ key.toList) :
    isNameChar c = true ∨ c = '/' := by
  unfold isQualifiedName at hk
  rcases mem_of_split '/' hc with hslash | ⟨p, hp, hm⟩
  · exact .inr hslash
  · refine .inl ?_
    split at hk
    · next hparts =>
      rw [hparts, List.mem_singleton] at hp
      exact isNameChar_of_label hk (hp ▸ hm)
    · next hparts =>
      rw [Bool.and_eq_true] at hk
      rw [hparts] at hp
      rcases List.mem_cons.mp hp with rfl | hp
      · exact isNameChar_of_subdomain hk.1 hm
      · exact isNameChar_of_label hk.2 (List.mem_singleton.mp hp ▸ hm)
    · cases hk

lemma isNameChar_of_value {value : String} (hv : isLabelValue value = true) {c : Char}
    (hc : c ∈ value.toList) :
    isNameChar c = true := by
  rcases (Bool.or_eq_true _ _).mp hv with he | hn
  · rw [eq_of_beq he] at hc
    cases hc
  · exact isNameChar_of_label hn hc

end Syntax

section Kubelet

/-- The parser of `--node-labels`: empty parts are skipped. -/
def parseNodeLabels (flag : String) : List (String × String) :=
  ((split ',' flag).filter (· ≠ "")).map fun part => ((cut '=' part).1, (cut '=' part).2.getD "")

def parseTaint (part : String) : Option Taint :=
  match split ':' part with
  | [kv, effect] =>
    let t : Taint := ⟨(cut '=' kv).1, (cut '=' kv).2.getD "", effect⟩
    if isTaint t then some t else none
  | _ => none

def parseTaints (flag : String) : Option (List Taint) := (split ',' flag).mapM parseTaint

def labelNamespace (key : String) : String :=
  match cut '/' key with
  | (ns, some _) => ns
  | (_, none) => ""

def InSpace (ns root : String) : Prop := ns = root ∨ ∃ sub, ns = sub ++ ("." ++ root)

/-- The kubelet's policy on the labels it is started with. -/
def SelfLabel (key : String) : Prop :=
  let ns := labelNamespace key
  ¬ (InSpace ns "kubernetes.io" ∨ InSpace ns "k8s.io") ∨
    InSpace ns "kubelet.kubernetes.io" ∨ InSpace ns "node.kubernetes.io"

lemma inSpace_iff {ns root : String} : (ns == root || hasSuffix ns ("." ++ root)) = true ↔
    InSpace ns root := by
  rw [Bool.or_eq_true, beq_iff_eq, hasSuffix, List.isSuffixOf_iff_suffix]
  refine or_congr_right ⟨?_, ?_⟩
  · rintro ⟨sub, hsub⟩
    exact ⟨String.ofList sub, String.toList_inj.mp (by simpa using hsub.symm)⟩
  · rintro ⟨sub, rfl⟩
    exact ⟨sub.toList, by simp⟩

instance (ns root : String) : Decidable (InSpace ns root) := decidable_of_iff _ inSpace_iff

instance (key : String) : Decidable (SelfLabel key) := inferInstanceAs (Decidable (_ ∨ _ ∨ _))

lemma labelNamespace_eq (key : String) : labelNamespace key =
    if '/' ∈ key.toList then String.ofList (key.toList.takeWhile (· ≠ '/')) else "" := by
  split_ifs with hs
  · have hne : key.toList.dropWhile (· ≠ '/') ≠ [] := by
      rw [Ne, List.dropWhile_eq_nil_iff]
      exact fun h => absurd rfl (of_decide_eq_true (h '/' hs))
    obtain ⟨c, rest, hrest⟩ := List.exists_cons_of_ne_nil hne
    rw [labelNamespace, cut, hrest]
  · rw [labelNamespace, cut_eq_self hs]

lemma kubeletSelfLabel_iff (key : String) : kubeletSelfLabel key = true ↔ SelfLabel key := by
  unfold kubeletSelfLabel SelfLabel
  rw [← labelNamespace_eq]
  dsimp only
  split_ifs with hspace
  · rw [Bool.or_eq_true, inSpace_iff, inSpace_iff] at hspace ⊢
    exact ⟨.inr, fun h => h.resolve_left (not_not_intro hspace)⟩
  · rw [Bool.or_eq_true, inSpace_iff, inSpace_iff] at hspace
    exact ⟨fun _ => .inl hspace, fun _ => rfl⟩

end Kubelet

section Labels

variable {p : String × String}

lemma label_comma (hk : isQualifiedName p.1 = true) (hv : isLabelValue p.2 = true) :
    ',' ∉ (p.1 ++ "=" ++ p.2).toList := by
  intro hc
  simp only [String.toList_append, List.mem_append] at hc
  rcases hc with (hc | hc) | hc
  · exact absurd (char_of_key hk hc) (by decide)
  · exact absurd hc (by decide)
  · exact absurd (isNameChar_of_value hv hc) (by decide)

lemma cut_label (hk : isQualifiedName p.1 = true) : cut '=' (p.1 ++ "=" ++ p.2) = (p.1, some p.2) :=
  cut_append (fun hc => absurd (char_of_key hk hc) (by decide)) p.2

lemma label_ne_empty : p.1 ++ "=" ++ p.2 ≠ "" := by
  intro h
  simpa using congrArg String.toList h

lemma parseNodeLabels_join {labels : List (String × String)}
    (hl : ∀ p ∈ labels, isQualifiedName p.1 = true ∧ isLabelValue p.2 = true) :
    parseNodeLabels (joinComma (labels.map fun p => p.1 ++ "=" ++ p.2)) = labels := by
  rcases eq_or_ne labels [] with rfl | hne
  · decide
  · have hsplit : split ',' (joinComma (labels.map fun p => p.1 ++ "=" ++ p.2)) =
        labels.map fun p => p.1 ++ "=" ++ p.2 := by
      refine split_joinComma (by simpa using hne) fun part hpart => ?_
      obtain ⟨p, hp, rfl⟩ := List.mem_map.mp hpart
      exact label_comma (hl p hp).1 (hl p hp).2
    have hfilter : (labels.map fun p => p.1 ++ "=" ++ p.2).filter (· ≠ "") =
        labels.map fun p => p.1 ++ "=" ++ p.2 := by
      refine List.filter_eq_self.mpr fun part hpart => ?_
      obtain ⟨p, _, rfl⟩ := List.mem_map.mp hpart
      exact decide_eq_true label_ne_empty
    rw [parseNodeLabels, hsplit, hfilter, List.map_map]
    refine (List.map_congr_left fun p hp => ?_).trans (List.map_id labels)
    simp [cut_label (hl p hp).1]

end Labels

section Taints

variable {t : Taint}

def keyValue (t : Taint) : String := if t.value ≠ "" then t.key ++ "=" ++ t.value else t.key

lemma renderTaints_eq (nc : NodeClaim) : renderTaints nc =
    joinComma (((⟨unregisteredTaintKey, "", "NoExecute"⟩ : Taint) :: nc.taints).map fun t =>
      keyValue t ++ ":" ++ t.effect) := by
  have hone (t : Taint) : keyValue t ++ ":" ++ t.effect =
      if t.value ≠ "" then t.key ++ "=" ++ t.value ++ ":" ++ t.effect
      else t.key ++ ":" ++ t.effect := by
    unfold keyValue
    split_ifs <;> rfl
  rw [renderTaints, List.map_cons]
  simp only [hone]
  rfl

lemma isTaint_iff : isTaint t = true ↔
    isQualifiedName t.key = true ∧ isLabelValue t.value = true ∧ t.effect ∈ taintEffects := by
  simp [isTaint, and_assoc]

lemma char_of_keyValue (ht : isTaint t = true) {c : Char} (hc : c ∈ (keyValue t).toList) :
    isNameChar c = true ∨ c = '/' ∨ c = '=' := by
  obtain ⟨hk, hv, _⟩ := isTaint_iff.mp ht
  unfold keyValue at hc
  split_ifs at hc
  · simp only [String.toList_append, List.mem_append] at hc
    rcases hc with (hc | hc) | hc
    · exact (char_of_key hk hc).imp_right .inl
    · exact .inr (.inr (by simpa using hc))
    · exact .inl (isNameChar_of_value hv hc)
  · exact (char_of_key hk hc).imp_right .inl

lemma cut_keyValue (ht : isTaint t = true) :
    ((cut '=' (keyValue t)).1, (cut '=' (keyValue t)).2.getD "") = (t.key, t.value) := by
  obtain ⟨hk, _, _⟩ := isTaint_iff.mp ht
  have heq : '=' ∉ t.key.toList := fun hc => absurd (char_of_key hk hc) (by decide)
  unfold keyValue
  split_ifs with hv
  · rw [show t.key ++ "=" ++ t.value = t.key ++ String.singleton '=' ++
      t.value from rfl, cut_append heq]
    rfl
  · rw [cut_eq_self heq, not_not.mp hv]
    rfl

lemma parseTaint_render (ht : isTaint t = true) :
    parseTaint (keyValue t ++ ":" ++ t.effect) = some t := by
  have hcolon : ':' ∉ (keyValue t).toList := fun hc => absurd (char_of_keyValue ht hc) (by decide)
  have heffect : ':' ∉ t.effect.toList :=
    (by decide : ∀ e ∈ taintEffects, ':' ∉ e.toList) _ (isTaint_iff.mp ht).2.2
  have hsplit : split ':' (keyValue t ++ ":" ++ t.effect) = [keyValue t, t.effect] :=
    split_append hcolon heffect
  have hcut := Prod.mk.inj (cut_keyValue ht)
  unfold parseTaint
  rw [hsplit]
  dsimp only
  rw [hcut.1, hcut.2]
  exact if_pos ht

lemma taint_comma (ht : isTaint t = true) : ',' ∉ (keyValue t ++ ":" ++ t.effect).toList := by
  intro hc
  simp only [String.toList_append, List.mem_append] at hc
  rcases hc with (hc | hc) | hc
  · exact absurd (char_of_keyValue ht hc) (by decide)
  · exact absurd hc (by decide)
  · exact (by decide : ∀ e ∈ taintEffects, ',' ∉ e.toList) _ (isTaint_iff.mp ht).2.2 hc

lemma mapM_parseTaint {ts : List Taint} (ht : ∀ t ∈ ts, isTaint t = true) :
    (ts.map fun t => keyValue t ++ ":" ++ t.effect).mapM parseTaint = some ts := by
  induction ts with
  | nil => rfl
  | cons t ts ih =>
    rw [List.map_cons, List.mapM_cons, parseTaint_render (ht t List.mem_cons_self),
      ih fun t hm => ht t (List.mem_cons_of_mem _ hm)]
    rfl

end Taints

/-- Both flags are read back by the kubelet without loss, and it admits every label it is given. The
labels are a Go map: `order` is the one they are ranged over in. -/
theorem kubelet_flags_read_back (nc : NodeClaim) (order : List (String × String))
    (ho : order.Perm nc.labels)
    (hl : ∀ p ∈ nc.labels, isQualifiedName p.1 = true ∧ isLabelValue p.2 = true)
    (ht : ∀ t ∈ nc.taints, isTaint t = true) :
    (parseNodeLabels (renderNodeLabels { nc with labels := order })).Perm
      (nc.labels.filter fun p => SelfLabel p.1) ∧
      (∀ p ∈ parseNodeLabels (renderNodeLabels { nc with labels := order }), SelfLabel p.1) ∧
      parseTaints (renderTaints nc) = some
      (⟨unregisteredTaintKey, "", "NoExecute"⟩ :: nc.taints) := by
  have hfilter : (order.filter fun p => kubeletSelfLabel p.1) = order.filter
      fun p => SelfLabel p.1 :=
    List.filter_congr fun p _ => by rw [Bool.eq_iff_iff, kubeletSelfLabel_iff, decide_eq_true_iff]
  have hlabels : parseNodeLabels (renderNodeLabels { nc with labels := order }) =
      order.filter fun p => SelfLabel p.1 := by
    rw [← hfilter]
    exact parseNodeLabels_join fun p hp => hl p (ho.subset (List.mem_of_mem_filter hp))
  have hall :
      ∀ t ∈ (⟨unregisteredTaintKey, "", "NoExecute"⟩ : Taint) :: nc.taints, isTaint t = true :=
    List.forall_mem_cons.mpr ⟨by decide, ht⟩
  refine ⟨hlabels ▸ ho.filter _, fun p hp => ?_, ?_⟩
  · rw [hlabels] at hp
    exact of_decide_eq_true (List.mem_filter.mp hp).2
  · rw [parseTaints, renderTaints_eq, split_joinComma (by simp) ?_, mapM_parseTaint hall]
    intro part hpart
    obtain ⟨t, hm, rfl⟩ := List.mem_map.mp hpart
    exact taint_comma (hall t hm)

def labelled : NodeClaim where
  name := "a"
  uid := "1"
  labels :=
    [("node.kubernetes.io/instance-type", "big"), ("node-restriction.kubernetes.io/team", "a"),
        ("mykubernetes.io/x", ""), ("node.kubernetes.io.evil/y", "v"), ("plain", "1")]
  taints := [⟨"kpssh/pool", "", "NoSchedule"⟩, ⟨"team", "ml", "NoExecute"⟩]
  providerID := ""

theorem kubelet_flags_read_back_labelled :
    (parseNodeLabels (renderNodeLabels { labelled with labels := labelled.labels.reverse })).Perm
        [("node.kubernetes.io/instance-type", "big"), ("mykubernetes.io/x", ""),
          ("node.kubernetes.io.evil/y", "v"), ("plain", "1")] ∧
      parseTaints (renderTaints labelled) =
        some [⟨unregisteredTaintKey, "", "NoExecute"⟩, ⟨"kpssh/pool", "", "NoSchedule"⟩,
          ⟨"team", "ml", "NoExecute"⟩] := by
  obtain ⟨hlabels, _, htaints⟩ :=
    kubelet_flags_read_back labelled labelled.labels.reverse (List.reverse_perm _)
    (by decide +kernel) (by decide +kernel)
  refine ⟨hlabels.trans (.of_eq ?_), htaints⟩
  decide +kernel

end KarpenterProviderSsh.Launches
