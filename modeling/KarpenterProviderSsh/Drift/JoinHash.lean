import KarpenterProviderSsh.Codec.Base64
import KarpenterProviderSsh.Codec.Json
import KarpenterProviderSsh.Providers.NodeClasses
import KarpenterProviderSsh.Runs.Jobs
import KarpenterProviderSsh.Shim.Gate

/-! The hash that tells a drifted node class (`JoinHash` in `sshnodeclass_types.go`) against what a
join reads. -/

namespace KarpenterProviderSsh.Drift

open Api Cluster Scripts Providers Codec Codec.Json

variable {X : Externals} {a b : SSHNodeClassSpec X}

abbrev Value := List Char ⊕ List (List Char × List Char)

def nonEmpty {α : Type} [DecidableEq α] (s : List α) : Option (List α) :=
  if s = [] then none else some s

def base64Text (s : List UInt8) : List Char := (Base64.encode s).map fun c => .ofNat c.toNat

def texts (m : List (String × String)) : List (List Char × List Char) :=
  m.map fun p => (p.1.toList, p.2.toList)

def secretFields (name : String) : List (List Char × List Char) :=
  omitEmpty [("name".toList, nonEmpty name.toList)]

def clusterFields (c : ClusterSpec) : List (List Char × List Char) :=
  ("endpoint".toList, c.endpoint.toList) :: omitEmpty
      [("caBundle".toList, (nonEmpty c.caBundle).map base64Text)]

def joinFields (n : SSHNodeClassSpec X) : List (List Char × Option Value) := [
  ("vars".toList, (nonEmpty n.vars.entries).map fun m => .inr (texts m)),
  ("joinSecretRef".toList, n.joinSecretRef.map fun name => .inr (secretFields name)),
  ("providerIDSource".toList, (nonEmpty n.providerIDSource.text.toList).map .inl),
  ("cluster".toList, n.cluster.map fun c => .inr (clusterFields c))]

def document : List (List Char × Value) → List Char :=
  object (member (Sum.elim string (object (member string))))

def joinDocument (n : SSHNodeClassSpec X) : List UInt8 :=
  Shim.utf8 (String.ofList (document (omitEmpty (joinFields n))))

def hexByte (c : UInt8) : List Char := [hexDigit (c.toNat / 16), hexDigit (c.toNat % 16)]

def joinHash (sha256 : List UInt8 → List UInt8) (n : SSHNodeClassSpec X) : String :=
  String.ofList (((sha256 (joinDocument n)).take 8).flatMap hexByte)

section Injective

lemma delimits_document : Delimits document := by
  have hobj : Delimits (object (member string)) :=
    delimits_object (delimits_member delimits_string) starts_member
  have hval : Delimits (Sum.elim string (object (member string))) :=
    delimits_sum (by decide) delimits_string hobj starts_string starts_object
  exact delimits_object (delimits_member hval) starts_member

lemma utf8_inj {s t : String} (h : Shim.utf8 s = Shim.utf8 t) : s = t :=
  String.toByteArray_inj.mp (ByteArray.ext (Array.toList_inj.mp h))

lemma hexByte_append_inj {c d : UInt8} {s t : List Char} (h : hexByte c ++ s = hexByte d ++ t) :
    c = d ∧ s = t := by
  simp only [hexByte, List.cons_append, List.nil_append, List.cons.injEq] at h
  obtain ⟨hhi, hlo, rfl⟩ := h
  have hinj {m n : ℕ} (hm : m < 16) (hn : n < 16) (h : hexDigit m = hexDigit n) : m = n := by
    rw [← hexValue_hexDigit m hm, h, hexValue_hexDigit n hn]
  have hc := c.toNat_lt
  have hd := d.toNat_lt
  have h₁ := hinj (by omega) (by omega) hhi
  have h₂ := hinj (by omega) (by omega) hlo
  exact ⟨UInt8.toNat_inj.mp (by omega), rfl⟩

lemma hex_inj {s t : List UInt8} (h : s.flatMap hexByte = t.flatMap hexByte) : s = t := by
  induction s generalizing t with
  | nil =>
    cases t with
    | nil => rfl
    | cons d t => cases h
  | cons c s ih =>
    cases t with
    | nil => cases h
    | cons d t =>
      obtain ⟨rfl, hrest⟩ := hexByte_append_inj h
      rw [ih hrest]

lemma toNat_ofNat_byte : ∀ n < 256, (Char.ofNat n).toNat = n := by decide +kernel

lemma base64Text_inj {s t : List UInt8} (h : base64Text s = base64Text t) : s = t := by
  have hchar : Function.Injective fun c : UInt8 => Char.ofNat c.toNat := by
    intro c d hcd
    have hn := congrArg Char.toNat hcd
    rw [toNat_ofNat_byte _ c.toNat_lt, toNat_ofNat_byte _ d.toNat_lt] at hn
    exact UInt8.toNat_inj.mp hn
  have he := (List.map_injective_iff.mpr hchar) h
  exact Option.some.inj (by rw [← Base64.decode_encode s, he, Base64.decode_encode])

lemma nonEmpty_inj {α : Type} [DecidableEq α] {s t : List α} (h : nonEmpty s = nonEmpty t) :
    s = t := by
  unfold nonEmpty at h
  grind

lemma texts_inj {m m' : List (String × String)} (h : texts m = texts m') : m = m' := by
  refine List.map_injective_iff.mpr ?_ h
  rintro ⟨k, v⟩ ⟨k', v'⟩ hp
  simp only [Prod.mk.injEq, String.toList_inj] at hp
  exact Prod.ext hp.1 hp.2

lemma secretFields_inj {s t : String} (h : secretFields s = secretFields t) : s = t := by
  have hf := omitEmpty_inj h rfl (by simp)
  simp only [List.cons.injEq, Prod.mk.injEq, true_and, and_true] at hf
  exact String.toList_inj.mp (nonEmpty_inj hf)

lemma clusterFields_inj {c d : ClusterSpec} (h : clusterFields c = clusterFields d) : c = d := by
  obtain ⟨he, hca⟩ := List.cons.inj h
  have hf := omitEmpty_inj hca rfl (by simp)
  simp only [List.cons.injEq, Prod.mk.injEq, true_and, and_true] at hf he
  obtain ⟨endpoint, ca⟩ := c
  obtain ⟨endpoint', ca'⟩ := d
  have hca := nonEmpty_inj (Option.map_injective (fun _ _ h => base64Text_inj h) hf)
  rw [ClusterSpec.mk.injEq]
  exact ⟨String.toList_inj.mp he, hca⟩

lemma text_inj {p q : ProviderIDSource} (h : p.text = q.text) : p = q := by
  cases p <;> cases q <;> first | rfl | exact absurd h (by decide)

lemma joinDocument_inj (h : joinDocument a = joinDocument b) :
    a.vars = b.vars ∧ a.joinSecretRef = b.joinSecretRef ∧ a.providerIDSource = b.providerIDSource ∧
      a.cluster = b.cluster := by
  have htext : document (omitEmpty (joinFields a)) = document (omitEmpty (joinFields b)) := by
    exact String.ofList_injective (utf8_inj h)
  have hkeys : ((joinFields a).map Prod.fst).Nodup := by
    change ["vars".toList, "joinSecretRef".toList, "providerIDSource".toList,
      "cluster".toList].Nodup
    decide
  have hfields := omitEmpty_inj (delimits_document.injective htext) rfl hkeys
  simp only [joinFields, List.cons.injEq, Prod.mk.injEq, true_and, and_true] at hfields
  obtain ⟨hvars, hsecret, hsource, hcluster⟩ := hfields
  refine ⟨StringMap.ext (nonEmpty_inj (Option.map_injective ?_ hvars)),
    Option.map_injective ?_ hsecret,
    text_inj (String.toList_inj.mp (nonEmpty_inj (Option.map_injective Sum.inl_injective hsource))),
    Option.map_injective ?_ hcluster⟩
  · exact fun _ _ h => texts_inj (Sum.inr_injective h)
  · exact fun _ _ h => secretFields_inj (Sum.inr_injective h)
  · exact fun _ _ h => clusterFields_inj (Sum.inr_injective h)

end Injective

lemma join_congr {n n' : SSHNodeClass X} (hp : n.joinProfileRef = n'.joinProfileRef)
    (hv : n.vars = n'.vars) (hs : n.joinSecretRef = n'.joinSecretRef)
    (ha : n.adoptsProviderID = n'.adoptsProviderID) (hc : n.cluster = n'.cluster) (nc : NodeClaim)
    (h : SSHHost) : join X n nc h = join X n' nc h := by
  have hinfo : clusterInfo X n = clusterInfo X n' := by rw [clusterInfo, hc, clusterInfo]
  have hsecrets : joinSecrets n h = joinSecrets n' h := by rw [joinSecrets, hs, joinSecrets]
  have hprepare : prepare X n nc h = prepare X n' nc h := by
    unfold prepare
    rw [hp]
    refine congrArg (request (.getProfile n'.joinProfileRef) >>= ·) (funext fun prof => ?_)
    cases prof with
    | error e => rfl
    | ok prof => simp only [hv, ha, hinfo, hsecrets]
  rw [join, hprepare, join]

/-- Two classes of one hash are joined by the same program, whatever its requests are answered; the
fields that only scheduling reads do not enter the hash. -/
theorem join_hash_covers_join (sha256 : List UInt8 → List UInt8)
    (hp : a.joinProfileRef = b.joinProfileRef) (hh : joinHash sha256 a = joinHash sha256 b)
    (hc : (sha256 (joinDocument a)).take 8 = (sha256 (joinDocument b)).take 8 →
      joinDocument a = joinDocument b) :
    (∀ nc h, join X a.launching nc h = join X b.launching nc h) ∧
      ∀ c : SSHNodeClassSpec X, c.vars = a.vars → c.joinSecretRef = a.joinSecretRef →
        c.providerIDSource = a.providerIDSource → c.cluster = a.cluster →
        joinHash sha256 c = joinHash sha256 a := by
  constructor
  · intro nc h
    obtain ⟨hv, hs, ht, hcl⟩ := joinDocument_inj (hc (hex_inj (String.ofList_injective hh)))
    exact join_congr hp (congrArg StringMap.entries hv) hs
      (by rw [SSHNodeClassSpec.launching, ht]; rfl) hcl nc h
  · intro c hv hs ht hcl
    have hf : joinFields c = joinFields a := by simp only [joinFields, hv, hs, ht, hcl]
    rw [joinHash, joinDocument, hf]
    rfl

section Sample

open Runs.Sample

def classOf (zone : String) (maxPods : Option ℤ) : SSHNodeClassSpec externals :=
  ⟨"c", none, "p", ⟨[("zone", zone)], by simp⟩, some "s", .adopt, "", [], maxPods,
      some ⟨"https://e", [1, 2]⟩, []⟩

/-- SHA-256 of the two documents, which are `{"vars":{"zone":"a"},"joinSecretRef":{"name":"s"},
"providerIDSource":"Adopt","cluster":{"endpoint":"https://e","caBundle":"AQI="}}` on one line, and
the same with `b`. -/
def digests (s : List UInt8) : List UInt8 :=
  if s = joinDocument (classOf "a" none) then
    [0x4b, 0xea, 0xf7, 0x01, 0x64, 0xee, 0x35, 0xc2, 0xea, 0x9c, 0xaa, 0x1d, 0xcf, 0x68, 0xaf, 0xfa,
      0xb6, 0x9f, 0xaa, 0xdc, 0x2c, 0x6a, 0xd2, 0x95, 0x3b, 0xf3, 0x80, 0xf1, 0xb7,
      0x64, 0xcb, 0xa9]
  else if s = joinDocument (classOf "b" none) then
    [0x2a, 0xf6, 0x86, 0x13, 0x31, 0x97, 0x03, 0xc0, 0x0d, 0x6b, 0x74, 0x0e, 0x19, 0x3c, 0x99, 0x73,
      0xd4, 0x35, 0xf9, 0xe2, 0x14, 0x32, 0x5c, 0xd9, 0x63, 0xdd, 0x36, 0xc6, 0x68,
      0x48, 0xe1, 0xe3]
  else List.replicate 32 0

/-- Two classes that differ in their pods only. A third, of another zone, has another hash. -/
theorem join_hash_covers_join_pods :
    (classOf "a" none).maxPods ≠ (classOf "a" (some 7)).maxPods ∧
      joinHash digests (classOf "a" none) = "4beaf70164ee35c2" ∧
      joinHash digests (classOf "b" none) = "2af68613319703c0" ∧
      joinHash digests (classOf "a" (some 7)) = joinHash digests (classOf "a" none) ∧
      ∀ nc h, join externals (classOf "a" none).launching nc h = join externals
        (classOf "a" (some 7)).launching nc h := by
  have hcovers := join_hash_covers_join digests (a := classOf "a" none)
    (b := classOf "a" (some 7)) rfl rfl fun _ => rfl
  exact ⟨by decide, by decide +kernel, by decide +kernel, hcovers.2 _ rfl rfl rfl rfl, hcovers.1⟩

end Sample

end KarpenterProviderSsh.Drift
