import KarpenterProviderSsh.Signatures.Verify

/-! What an accepted signature says about its signer, and which signatures are accepted. -/

namespace KarpenterProviderSsh.Signatures

open Codec.Framing
open Shim (Bytes utf8)

def blob (f : Fields) (reserved trailing : Bytes) : Bytes :=
  sshsigMagic ++ be32 1 ++ frame f.publickey ++ frame f.ns ++ frame reserved ++ frame f.hash ++
    frame f.signature ++ trailing

structure Fields.Short (f : Fields) (reserved : Bytes) : Prop where
  publickey : f.publickey.length < 2 ^ 32
  ns : f.ns.length < 2 ^ 32
  reserved : reserved.length < 2 ^ 32
  hash : f.hash.length < 2 ^ 32
  signature : f.signature.length < 2 ^ 32

lemma readFields_ok {b : Bytes} {f : Fields} :
    readFields b = .ok f ↔ ∃ reserved trailing, b = blob f reserved trailing ∧
    f.Short reserved := by
  constructor
  · intro h
    simp only [readFields, bind_ok, require_ok, wrap_ok, Prod.exists, readSSHString_ok,
      pure, Except.pure, Except.ok.injEq] at h
    obtain ⟨_, ⟨hlen, hmagic⟩, _, hversion, pk, r₁, ⟨h₁, s₁⟩, ns, r₂, ⟨h₂, s₂⟩, res, r₃, ⟨h₃, s₃⟩,
      hash, r₄, ⟨h₄, s₄⟩, sig, r₅, ⟨h₅, s₅⟩, rfl⟩ := h
    refine ⟨res, r₅, ?_, s₁, s₂, s₃, s₄, s₅⟩
    have hsix : b.drop 6 = be32 1 ++ b.drop 10 := by
      cases hu : uint32 (b.drop 6) with
      | none => simp [hu] at hversion
      | some v =>
        obtain ⟨n, r⟩ := v
        obtain ⟨hb, _⟩ := uint32_some hu
        have hn : n = 1 := by simpa [hu] using hversion
        have hr : b.drop 10 = r := by
          have hd := congrArg (List.drop 4) hb
          simpa [List.drop_drop, be32] using hd
        rw [hb, hn, hr]
    have hb : b = sshsigMagic ++ (be32 1 ++ b.drop 10) := by
      rw [← hsix, ← hmagic, List.take_append_drop]
    rw [hb, h₁, h₂, h₃, h₄, h₅]
    simp only [blob, List.append_assoc]
  · rintro ⟨reserved, trailing, rfl, hs⟩
    have hd : (blob f reserved trailing).drop 6 = be32 1 ++ (frame f.publickey ++ (frame f.ns ++
        (frame reserved ++ (frame f.hash ++ (frame f.signature ++ trailing))))) := by
      simp only [blob, List.append_assoc]
      exact List.drop_left' rfl
    have ht : (blob f reserved trailing).drop 10 = frame f.publickey ++ (frame f.ns ++
        (frame reserved ++ (frame f.hash ++ (frame f.signature ++ trailing)))) := by
      rw [show 10 = 6 + 4 from rfl, ← List.drop_drop, hd]
      exact List.drop_left' rfl
    have hm : (blob f reserved trailing).take 6 = sshsigMagic := by
      simp only [blob, List.append_assoc]
      exact List.take_left' rfl
    have hlen : 10 ≤ (blob f reserved trailing).length := by
      simp only [blob, List.length_append, be32_length, show sshsigMagic.length = 6 from rfl]
      omega
    simp only [readFields, bind_ok, require_ok, wrap_ok, Prod.exists, readSSHString_ok,
      pure, Except.pure, Except.ok.injEq]
    refine ⟨(), ⟨hlen, hm⟩, (), ?_, _, _, ⟨ht, hs.publickey⟩, _, _, ⟨rfl, hs.ns⟩, _, _,
      ⟨rfl, hs.reserved⟩, _, _, ⟨rfl, hs.hash⟩, _, _, ⟨rfl, hs.signature⟩, rfl⟩
    rw [hd, uint32_be32]
    rfl

lemma preimage_eq (ns hash mh : Bytes) :
    preimage ns hash mh = sshsigMagic ++ (frame ns ++ (frame [] ++ (frame hash ++ frame mh))) := by
  simp only [preimage, appendSSHString, List.append_assoc]

lemma preimage_inj {ns ns' hash hash' mh mh' : Bytes} (hn : ns.length < 2 ^ 32)
    (hn' : ns'.length < 2 ^ 32) (hh : hash.length < 2 ^ 32) (hh' : hash'.length < 2 ^ 32)
    (h : preimage ns hash mh = preimage ns' hash' mh') :
    ns = ns' ∧ hash = hash' ∧ mh = mh' := by
  -- the digest comes last, so its length does not matter
  rw [preimage_eq, preimage_eq] at h
  obtain ⟨hns, h₁⟩ := frame_append_inj hn hn' (List.append_cancel_left h)
  obtain ⟨hhash, h₂⟩ := frame_append_inj hh hh' (List.append_cancel_left h₁)
  exact ⟨hns, hhash, frame_inj h₂⟩

namespace Lib

variable {L : Lib}

lemma digest_ok {hash message mh : Bytes} : L.digest hash message = .ok mh ↔
    (hash = utf8 "sha256" ∧ L.sha256 message = mh) ∨
    (hash = utf8 "sha512" ∧ L.sha512 message = mh) := by
  have hne : utf8 "sha512" ≠ utf8 "sha256" := by decide
  unfold digest
  split
  · next h => simp [h, hne.symm]
  · next h =>
    split
    · next h' => simp [h', hne]
    · next h' => simp [h, h']

lemma authorized_iff {allowed : List (Option L.Key)} {pub : L.Key} :
    L.authorized allowed pub = true ↔ ∃ a, some a ∈ allowed ∧ L.marshal a = L.marshal pub := by
  simp only [authorized, List.any_eq_true, Option.any_eq_true, decide_eq_true_eq]
  constructor
  · rintro ⟨_, hm, a, rfl, ha⟩
    exact ⟨a, hm, ha⟩
  · rintro ⟨a, hm, ha⟩
    exact ⟨_, hm, a, rfl, ha⟩

lemma readSignature_ok {b : Bytes} {s : Signature} : L.readSignature b = .ok s ↔
    ∃ rest, b = frame s.format ++ (frame s.blob ++ rest) ∧ s.format.length < 2 ^ 32 ∧
    s.blob.length < 2 ^ 32 ∧
      s.format ∈ signatureAlgorithms ∧ s.rest = [] := by
  simp only [readSignature, bind_ok, require_ok, wrap_ok, Prod.exists, readSSHString_ok,
    pure, Except.pure, Except.ok.injEq]
  constructor
  · rintro ⟨format, r, ⟨rfl, hf⟩, sblob, rest, ⟨rfl, hb⟩, _, hin, rfl⟩
    exact ⟨rest, rfl, hf, hb, hin, rfl⟩
  · rintro ⟨rest, rfl, hf, hb, hin, hr⟩
    refine ⟨_, _, ⟨rfl, hf⟩, _, rest, ⟨rfl, hb⟩, (), hin, ?_⟩
    rw [← hr]

lemma verifySSHSIG_ok {message armored ns : Bytes} {allowed : List (Option L.Key)} :
    L.verifySSHSIG message armored allowed ns = .ok () ↔
      ∃ b f pub mh sig, L.pemDecode armored = some (utf8 "SSH SIGNATURE", b) ∧
      readFields b = .ok f ∧
        f.ns = effective ns ∧ L.parsePublicKey f.publickey = .ok pub ∧
        (∃ a, some a ∈ allowed ∧ L.marshal a = L.marshal pub) ∧ L.digest f.hash message = .ok mh ∧
        L.readSignature f.signature = .ok sig ∧
        L.verify pub (preimage (effective ns) f.hash mh) sig = .ok () := by
  simp only [verifySSHSIG, bind_ok, require_ok, wrap_ok, authorized_iff]
  constructor
  · rintro ⟨_, _, _, hblk, f, hf, _, hns, pub, hpub, _, ha, mh, hmh, sig, hsig, hv⟩
    cases hp : L.pemDecode armored with
    | none => simp [hp] at hblk
    | some blk =>
      obtain ⟨ty, b⟩ := blk
      have hty : ty = utf8 "SSH SIGNATURE" := by simpa [hp] using hblk
      rw [hns] at hv
      exact ⟨b, f, pub, mh, sig, by rw [hty], by simpa [hp] using hf, hns, hpub, ha, hmh, hsig, hv⟩
  · rintro ⟨b, f, pub, mh, sig, hp, hf, hns, hpub, ha, hmh, hsig, hv⟩
    obtain ⟨a, hmem, heq⟩ := ha
    refine ⟨(), ?_, (), by simp [hp], f, by simpa [hp] using hf, (), hns, pub, hpub, (),
      ⟨a, hmem, heq⟩, mh, hmh, sig, hsig, ?_⟩
    · rw [Ne, List.length_eq_zero_iff]
      exact List.ne_nil_of_mem hmem
    · rw [hns]
      exact hv

end Lib

/-- PROTOCOL.u2f: behind the blob of an `sk-` signature stand a flags byte and a counter. -/
def skFormats : List Bytes :=
  [utf8 "sk-ssh-ed25519@openssh.com", utf8 "sk-ecdsa-sha2-nistp256@openssh.com"]

def Signature.Prescribed (s : Signature) : Prop :=
  s.format ∈ signatureAlgorithms ∧
    if s.format ∈ skFormats then ∃ (flags : UInt8) (counter : ℕ), s.rest = flags :: be32 counter
    else s.rest = []

def Signature.wire (s : Signature) : Bytes := frame s.format ++ (frame s.blob ++ s.rest)

section Acceptance

variable {L : Lib} {message armored ns : Bytes} {allowed : List (Option L.Key)}

lemma digest_inj {M : Set Bytes} (h₁ : Set.InjOn L.sha256 M) (h₂ : Set.InjOn L.sha512 M)
    {hash m mh : Bytes} (hin : message ∈ M) (hm : m ∈ M) (hd : L.digest hash message = .ok mh)
    (hd' : L.digest hash m = .ok mh) :
    message = m := by
  have hne : utf8 "sha256" ≠ utf8 "sha512" := by decide
  rcases Lib.digest_ok.mp hd with ⟨rfl, h⟩ | ⟨rfl, h⟩ <;> rcases Lib.digest_ok.mp hd' with ⟨e, h'⟩ |
    ⟨e, h'⟩
  · exact h₁ hin hm (h.trans h'.symm)
  · exact absurd e hne
  · exact absurd e.symm hne
  · exact h₂ hin hm (h.trans h'.symm)

lemma digest_short {hash m mh : Bytes} (h : L.digest hash m = .ok mh) : hash.length < 2 ^ 32 := by
  rcases Lib.digest_ok.mp h with ⟨rfl, _⟩ | ⟨rfl, _⟩ <;> decide

/-- `Signed` says which data the holder of a public key, given by its wire form, has signed. The
hashes need not collide only on the messages `M` that occur: no hash of fixed width is injective on
all. -/
theorem accepted_message_signed (Signed : Bytes → Bytes → Prop)
    (hgenuine : ∀ k d s, L.verify k d s = .ok () → Signed (L.marshal k) d)
    (hok : L.verifySSHSIG message armored allowed ns = .ok ()) :
    (∃ f reserved trailing, L.pemDecode armored = some (utf8 "SSH SIGNATURE",
      blob f reserved trailing) ∧ f.Short reserved ∧ ∃ a mh, some a ∈ allowed ∧
      L.digest f.hash message = .ok mh ∧
        Signed (L.marshal a) (preimage (effective ns) f.hash mh)) ∧
    ∀ M : Set Bytes, Set.InjOn L.sha256 M → Set.InjOn L.sha512 M → message ∈ M → ∀ m ∈ M,
      (∀ a, some a ∈ allowed → ∀ d, Signed (L.marshal a) d →
        ∃ hash mh, L.digest hash m = .ok mh ∧ d = preimage (effective ns) hash mh) →
        message = m := by
  obtain ⟨b, f, pub, mh, sig, hp, hf, hns, _, ⟨a, ha, hkey⟩, hmh, _, hv⟩ :=
    Lib.verifySSHSIG_ok.mp hok
  obtain ⟨reserved, trailing, rfl, hs⟩ := readFields_ok.mp hf
  have hsigned : Signed (L.marshal a) (preimage (effective ns) f.hash mh) :=
    hkey ▸ hgenuine _ _ _ hv
  refine ⟨⟨f, reserved, trailing, hp, hs, a, mh, ha, hmh, hsigned⟩,
    fun M h₁ h₂ hin m hm honly => ?_⟩
  obtain ⟨hash, mh', hmh', heq⟩ := honly a ha _ hsigned
  have hn : (effective ns).length < 2 ^ 32 := hns ▸ hs.ns
  obtain ⟨_, rfl, rfl⟩ := preimage_inj hn hn hs.hash (digest_short hmh') heq
  exact digest_inj h₁ h₂ hin hm hmh hmh'

/-- The armored text holds a signature as the protocol prescribes it, by a trusted key, and `Verify`
accepts it when it gets all of it. An `sk-` key has its flags and counter after the blob, and
refuses a signature without them. -/
theorem prescribed_accepted_iff {key : L.Key} {hash mh : Bytes} {s : Signature}
    (hkey : some key ∈ allowed) (hmh : L.digest hash message = .ok mh) (hs : s.Prescribed)
    (hpem : L.pemDecode armored =
      some (utf8 "SSH SIGNATURE", blob ⟨L.marshal key, effective ns, hash, s.wire⟩ [] []))
    (hparse : L.parsePublicKey (L.marshal key) = .ok key)
    (hsig : L.verify key (preimage (effective ns) hash mh) s = .ok ())
    (hsk : s.format ∈ skFormats → L.verify key (preimage (effective ns) hash mh)
      { s with rest := [] } ≠ .ok ())
      (hshort : (⟨L.marshal key, effective ns, hash, s.wire⟩ : Fields).Short []) :
    L.verifySSHSIG message armored allowed ns = .ok () ↔ s.format ∉ skFormats := by
  have hw : s.wire.length = 4 + s.format.length + (4 + s.blob.length + s.rest.length) := by
    simp only [Signature.wire, frame, List.length_append, be32_length]
  have hwire := hshort.signature
  simp only [hw] at hwire
  have hread : L.readSignature s.wire = .ok { format := s.format, blob := s.blob } :=
    Lib.readSignature_ok.mpr ⟨s.rest, rfl, show s.format.length < _ by omega,
        show s.blob.length < _ by omega, hs.1, rfl⟩
  have hfields := readFields_ok.mpr ⟨[], [], rfl, hshort⟩
  constructor
  · intro hok hin
    obtain ⟨b, f, pub, mh', sig, hp, hf, _, hpub, _, hd, hr, hv⟩ := Lib.verifySSHSIG_ok.mp hok
    obtain ⟨_, rfl⟩ := Prod.mk.inj (Option.some.inj (hpem.symm.trans hp))
    obtain rfl := Except.ok.inj (hfields.symm.trans hf)
    obtain rfl := Except.ok.inj (hread.symm.trans hr)
    obtain rfl := Except.ok.inj (hparse.symm.trans hpub)
    obtain rfl := Except.ok.inj (hmh.symm.trans hd)
    exact hsk hin hv
  · intro hnot
    have hrest : s.rest = [] := by
      have h := hs.2
      rwa [if_neg hnot] at h
    have hsame : ({ format := s.format, blob := s.blob } : Signature) = s := by rw [← hrest]
    refine Lib.verifySSHSIG_ok.mpr ⟨_, _, key, mh, s, hpem, hfields, rfl, hparse,
      ⟨key, hkey, rfl⟩, hmh, ?_, hsig⟩
    rw [hread, hsame]

end Acceptance

section Sample

/-! Two signatures over the script `true`, which `ssh-keygen -Y verify` accepts, with what `pem`,
`x/crypto/ssh` and the hash packages make of them. -/

def nibble (c : Char) : ℕ := if c.isDigit then c.toNat - 48 else c.toNat - 87

def unhex : List Char → Bytes
  | a :: b :: s => .ofNat (16 * nibble a + nibble b) :: unhex s
  | _ => []

def hex (s : String) : Bytes := unhex s.toList

inductive SampleKey
  | ed25519
  | sk
deriving DecidableEq

def SampleKey.wire : SampleKey → Bytes
  | .ed25519 => frame (utf8 "ssh-ed25519") ++
      frame (hex "bb6048365cec3c6d1228dfe024c101e2d39fa6306399e884c3108ff3a5cd3d9f")
  | .sk => frame (utf8 "sk-ssh-ed25519@openssh.com") ++
      frame (hex "fde2bf5ae46459794d4399ee2572c8e3487842e02d5c41d65d8ddc138bfaedc5") ++
      frame (utf8 "ssh:")

def SampleKey.signature : SampleKey → Signature
  | .ed25519 =>
    { format := utf8 "ssh-ed25519"
      blob := hex "2cc243615ba6d9c03231f06668afc94925800d94602216b7fabf7e9fff70b6e3" ++
        hex "db493aefbfc4e793b15437b759b46d719f26acc173c8bf345d2306bc5dc7d509" }
  | .sk =>
    { format := utf8 "sk-ssh-ed25519@openssh.com"
      blob := hex "cc4f8132bf71e5d3019f90dce19f884b46164993fdb3393f9d28270f085c7011" ++
        hex "92e8e5d5647213b95ed3a7ef209610a57aa7d6e91192da8dd40544c50e17130e"
      rest := [1, 0, 0, 0, 9] }

def SampleKey.armored : SampleKey → Bytes
  | .ed25519 => utf8 ("-----BEGIN SSH SIGNATURE-----\n" ++
      "U1NIU0lHAAAAAQAAADMAAAALc3NoLWVkMjU1MTkAAAAgu2BINlzsPG0SKN/gJMEB4tOfpj\n" ++
      "BjmeiEwxCP86XNPZ8AAAAFa3Bzc2gAAAAAAAAABnNoYTI1NgAAAFMAAAALc3NoLWVkMjU1\n" ++
      "MTkAAABALMJDYVum2cAyMfBmaK/JSSWADZRgIha3+r9+n/9wtuPbSTrvv8Tnk7FUN7dZtG\n" ++
      "1xnyaswXPIvzRdIwa8XcfVCQ==\n-----END SSH SIGNATURE-----\n")
  | .sk => utf8 ("-----BEGIN SSH SIGNATURE-----\n" ++
      "U1NIU0lHAAAAAQAAAEoAAAAac2stc3NoLWVkMjU1MTlAb3BlbnNzaC5jb20AAAAg/eK/Wu\n" ++
      "RkWXlNQ5nuJXLI40h4QuAtXEHWXY3cE4v67cUAAAAEc3NoOgAAAAVrcHNzaAAAAAAAAAAG\n" ++
      "c2hhMjU2AAAAZwAAABpzay1zc2gtZWQyNTUxOUBvcGVuc3NoLmNvbQAAAEDMT4Eyv3Hl0w\n" ++
      "GfkNzhn4hLRhZJk/2zOT+dKCcPCFxwEZLo5dVkchO5XtOn7yCWEKV6p9bpEZLajdQFRMUO\n" ++
      "FxMOAQAAAAk=\n-----END SSH SIGNATURE-----\n")

def SampleKey.fields (k : SampleKey) : Fields :=
  ⟨k.wire, effective [], utf8 "sha256", k.signature.wire⟩

def sha256Table (m : Bytes) : Bytes :=
  if m = utf8 "true" then hex "b5bea41b6c623f7c09f1bf24dcae58ebab3c0cdd90ad966bc43a45b44867e12b"
  else if m = utf8 "false" then hex
    "fcbcf165908dd18a9e49f7ff27810176db8e9f63b4352213741664245224f8aa"
  else []

def sha512Table (m : Bytes) : Bytes :=
  if m = utf8 "true" then
    hex "9120cd5faef07a08e971ff024a3fcbea1e3a6b44142a6d82ca28c6c42e4f8525" ++
      hex "95bcf53d81d776f10541045abdb7c37950629415d0dc66c8d86c64a5606d32de"
  else if m = utf8 "false" then
    hex "719fa67eef49c4b2a2b83f0c62bddd88c106aaadb7e21ae057c8802b700e36f8" ++
      hex "1fe3f144812d8b05d66dc663d908b25645e153262cf6d457aa34e684af9e328d"
  else []

def signedData : Bytes := preimage (effective []) (utf8 "sha256") (sha256Table (utf8 "true"))

def sampleLib : Lib where
  Key := SampleKey
  pemDecode a :=
    if a = SampleKey.ed25519.armored then some (utf8 "SSH SIGNATURE",
        blob SampleKey.ed25519.fields [] [])
    else if a = SampleKey.sk.armored then some (utf8 "SSH SIGNATURE",
      blob SampleKey.sk.fields [] [])
    else none
  parsePublicKey b :=
    if b = SampleKey.ed25519.wire then .ok .ed25519
    else if b = SampleKey.sk.wire then .ok .sk
    else .error (utf8 "ssh: short read")
  marshal := SampleKey.wire
  verify k d s :=
    if d = signedData ∧ s = k.signature then .ok ()
    else if s.format ∈ skFormats ∧
      s.rest = [] then .error (utf8 "ssh: parse error in message type 0")
    else .error (utf8 "ssh: signature did not verify")
  sha256 := sha256Table
  sha512 := sha512Table
  quote b := utf8 "\"" ++ b ++ utf8 "\""

lemma signed_of_verify (k : SampleKey) (d : Bytes) (s : Signature)
    (h : sampleLib.verify k d s = .ok ()) :
    d = signedData := by
  simp only [sampleLib] at h
  split_ifs at h with hd
  exact hd.1

theorem accepted_message_signed_once :
    sampleLib.verifySSHSIG (utf8 "true") SampleKey.ed25519.armored
      [none, some .ed25519] [] = .ok () ∧ (∃ hash mh, sampleLib.digest hash (utf8 "true") = .ok mh ∧
        preimage (utf8 "kpssh") hash mh = signedData) ∧
      ∀ m ∈ ({utf8 "true", utf8 "false"} : Set Bytes),
        (∃ hash mh, sampleLib.digest hash m = .ok mh ∧
          signedData = preimage (utf8 "kpssh") hash mh) → utf8 "true" = m := by
  have hok : sampleLib.verifySSHSIG (utf8 "true") SampleKey.ed25519.armored [none, some .ed25519]
      [] = .ok () := by
    decide +kernel
  obtain ⟨⟨f, _, _, _, _, a, mh, _, hmh, hsigned⟩, honly⟩ :=
    accepted_message_signed (fun _ d => d = signedData) signed_of_verify hok
  refine ⟨hok, ⟨f.hash, mh, hmh, hsigned⟩, fun m hm hsame => ?_⟩
  refine honly {utf8 "true", utf8 "false"} ?_ ?_ (by simp) m hm ?_
  · exact Set.injOn_pair.mpr fun h => absurd h (by decide +kernel)
  · exact Set.injOn_pair.mpr fun h => absurd h (by decide +kernel)
  · rintro _ _ d rfl
    exact hsame

theorem prescribed_accepted_iff_ed25519 :
    sampleLib.verifySSHSIG (utf8 "true") SampleKey.ed25519.armored [some .ed25519] [] = .ok () := by
  have hfmt : SampleKey.ed25519.signature.format ∉ skFormats := by decide +kernel
  have hs : SampleKey.ed25519.signature.Prescribed := by
    refine ⟨by decide +kernel, ?_⟩
    rw [if_neg hfmt]
    rfl
  have hmh : sampleLib.digest (utf8 "sha256") (utf8 "true") = .ok (sha256Table (utf8 "true")) :=
    if_pos rfl
  have hpem : sampleLib.pemDecode SampleKey.ed25519.armored =
      some (utf8 "SSH SIGNATURE", blob SampleKey.ed25519.fields [] []) := by
        simp only [sampleLib, if_true]
  have hparse : sampleLib.parsePublicKey SampleKey.ed25519.wire = .ok .ed25519 := by
    simp only [sampleLib, if_true]
  have hsig : sampleLib.verify .ed25519 signedData SampleKey.ed25519.signature = .ok () := by
    simp only [sampleLib, and_self, if_true]
  have hshort : SampleKey.ed25519.fields.Short [] := by constructor <;> decide +kernel
  exact (@prescribed_accepted_iff sampleLib (utf8 "true") SampleKey.ed25519.armored []
    [some .ed25519] .ed25519 (utf8 "sha256") (sha256Table (utf8 "true")) SampleKey.ed25519.signature
      (.head _) hmh hs hpem hparse hsig
    (fun h => absurd h hfmt) hshort).mpr hfmt

/-- A hardware-backed signature, accepted when its flags and counter reach the key. -/
theorem sk_signature_refused :
    SampleKey.sk.signature.Prescribed ∧
    sampleLib.verify .sk signedData SampleKey.sk.signature = .ok () ∧
      sampleLib.verifySSHSIG (utf8 "true") SampleKey.sk.armored [some .sk] [] =
        .error
          (utf8 "sshsig: signature verification failed: ssh: parse error in message type 0") := by
  refine ⟨⟨by decide +kernel, ?_⟩, by decide +kernel, by decide +kernel⟩
  rw [if_pos (by decide +kernel)]
  exact ⟨1, 9, rfl⟩

end Sample

end KarpenterProviderSsh.Signatures
