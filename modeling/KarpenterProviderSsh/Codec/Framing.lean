import Mathlib.Tactic

/-! Byte strings behind a 32-bit big-endian length. -/

namespace KarpenterProviderSsh.Codec.Framing

def be32 (n : ℕ) : List UInt8 :=
  [.ofNat (n / 2 ^ 24), .ofNat (n / 2 ^ 16), .ofNat (n / 2 ^ 8), .ofNat n]

def uint32 : List UInt8 → Option (ℕ × List UInt8)
  | a :: b :: c :: d :: s =>
    some (a.toNat * 2 ^ 24 + b.toNat * 2 ^ 16 + c.toNat * 2 ^ 8 + d.toNat, s)
  | _ => none

def frame (s : List UInt8) : List UInt8 := be32 s.length ++ s

@[simp] lemma be32_length (n : ℕ) : (be32 n).length = 4 := rfl

lemma uint32_be32 (n : ℕ) (s : List UInt8) : uint32 (be32 n ++ s) = some (n % 2 ^ 32, s) := by
  simp only [be32, List.cons_append, List.nil_append, uint32, UInt8.toNat_ofNat',
    Option.some.injEq, Prod.mk.injEq, and_true]
  omega

lemma uint32_some {b s : List UInt8} {n : ℕ} (h : uint32 b = some (n, s)) :
    b = be32 n ++ s ∧ n < 2 ^ 32 := by
  match b with
  | a :: b :: c :: d :: t =>
    obtain ⟨rfl, rfl⟩ := Prod.mk.inj (Option.some.inj h)
    have ha := a.toNat_lt
    have hb := b.toNat_lt
    have hc := c.toNat_lt
    have hd := d.toNat_lt
    refine ⟨?_, by omega⟩
    simp only [be32, List.cons_append, List.nil_append, List.cons.injEq, and_true,
      ← UInt8.toNat_inj, UInt8.toNat_ofNat']
    omega

lemma frame_append_inj {s t u v : List UInt8} (hs : s.length < 2 ^ 32) (ht : t.length < 2 ^ 32)
    (h : frame s ++ u = frame t ++ v) : s = t ∧ u = v := by
  have hn : uint32 (frame s ++ u) = uint32 (frame t ++ v) := by rw [h]
  simp only [frame, List.append_assoc, uint32_be32, Option.some.injEq, Prod.mk.injEq,
    Nat.mod_eq_of_lt hs, Nat.mod_eq_of_lt ht] at hn
  exact List.append_inj hn.2 hn.1

lemma frame_inj {s t : List UInt8} (h : frame s = frame t) : s = t :=
  List.append_inj_right h rfl

end KarpenterProviderSsh.Codec.Framing
