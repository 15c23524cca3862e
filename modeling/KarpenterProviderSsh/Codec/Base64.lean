import Mathlib.Tactic

/-! Standard base64 with padding, on one line. -/

namespace KarpenterProviderSsh.Codec.Base64

def digit (n : ℕ) : UInt8 :=
  if n < 26 then .ofNat (n + 65)
  else if n < 52 then .ofNat (n + 71)
  else if n < 62 then .ofNat (n - 4)
  else if n = 62 then 43
  else 47

def value (c : UInt8) : Option ℕ :=
  if 65 ≤ c.toNat ∧ c.toNat ≤ 90 then some (c.toNat - 65)
  else if 97 ≤ c.toNat ∧ c.toNat ≤ 122 then some (c.toNat - 71)
  else if 48 ≤ c.toNat ∧ c.toNat ≤ 57 then some (c.toNat + 4)
  else if c = 43 then some 62
  else if c = 47 then some 63
  else none

def encode : List UInt8 → List UInt8
  | a :: b :: c :: s =>
    digit (a.toNat / 4) :: digit (a.toNat % 4 * 16 + b.toNat / 16) :: digit
      (b.toNat % 16 * 4 + c.toNat / 64) ::
      digit (c.toNat % 64) :: encode s
  | [a, b] =>
    [digit (a.toNat / 4), digit (a.toNat % 4 * 16 + b.toNat / 16), digit (b.toNat % 16 * 4), 61]
  | [a] => [digit (a.toNat / 4), digit (a.toNat % 4 * 16), 61, 61]
  | [] => []

/-- The last group may be padded; everything else outside the alphabet is refused. -/
def decode : List UInt8 → Option (List UInt8)
  | [] => some []
  | w :: x :: y :: z :: s => do
    let i ← value w
    let j ← value x
    if y = 61 ∧ z = 61 ∧ s = [] then return [.ofNat (i * 4 + j / 16)]
    else
      let k ← value y
      if z = 61 ∧ s = [] then return [.ofNat (i * 4 + j / 16), .ofNat (j % 16 * 16 + k / 4)]
      else
        let m ← value z
        let rest ← decode s
        return .ofNat (i * 4 + j / 16) :: .ofNat (j % 16 * 16 + k / 4) :: .ofNat
          (k % 4 * 64 + m) :: rest
  | _ => none

lemma value_digit : ∀ n < 64, value (digit n) = some n := by
  decide +kernel

lemma digit_printable : ∀ n < 64, digit n ≠ 10 ∧ digit n ≠ 0 ∧ digit n ≠ 61 := by
  decide +kernel

lemma byte_lt (a : UInt8) : a.toNat < 256 := a.toNat_lt

lemma ofNat_byte {a : UInt8} {n : ℕ} (h : n = a.toNat) : UInt8.ofNat n = a := by
  rw [h]
  exact UInt8.ofNat_toNat

lemma encode_printable (s : List UInt8) : ∀ c ∈ encode s, c ≠ 10 ∧ c ≠ 0 := by
  have hd (n : ℕ) (hn : n < 64) : digit n ≠ 10 ∧ digit n ≠ 0 :=
    ⟨(digit_printable n hn).1, (digit_printable n hn).2.1⟩
  induction s using encode.induct with
  | case1 a b c s ih =>
    have ha := byte_lt a
    have hb := byte_lt b
    have hc := byte_lt c
    intro d hd'
    simp only [encode, List.mem_cons] at hd'
    rcases hd' with rfl | rfl | rfl | rfl | hd'
    · exact hd _ (by omega)
    · exact hd _ (by omega)
    · exact hd _ (by omega)
    · exact hd _ (by omega)
    · exact ih d hd'
  | case2 a b =>
    have ha := byte_lt a
    have hb := byte_lt b
    intro d hd'
    simp only [encode, List.mem_cons, List.not_mem_nil, or_false] at hd'
    rcases hd' with rfl | rfl | rfl | rfl
    · exact hd _ (by omega)
    · exact hd _ (by omega)
    · exact hd _ (by omega)
    · decide
  | case3 a =>
    have ha := byte_lt a
    intro d hd'
    simp only [encode, List.mem_cons, List.not_mem_nil, or_false] at hd'
    rcases hd' with rfl | rfl | rfl | rfl
    · exact hd _ (by omega)
    · exact hd _ (by omega)
    · decide
    · decide
  | case4 => simp [encode]

lemma encode_ne_nil {s : List UInt8} (h : s ≠ []) : encode s ≠ [] := by
  match s, h with
  | [a], _ => simp [encode]
  | [a, b], _ => simp [encode]
  | a :: b :: c :: s, _ => simp [encode]

theorem decode_encode (s : List UInt8) : decode (encode s) = some s := by
  induction s using encode.induct with
  | case1 a b c s ih =>
    have ha := byte_lt a
    have hb := byte_lt b
    have hc := byte_lt c
    have hy := (digit_printable (b.toNat % 16 * 4 + c.toNat / 64) (by omega)).2.2
    have hz := (digit_printable (c.toNat % 64) (by omega)).2.2
    simp only [encode, decode]
    rw [value_digit _ (by omega), value_digit _ (by omega), value_digit _ (by omega),
      value_digit _ (by omega), ih]
    simp only [hy, hz, false_and, if_false, Option.bind_eq_bind, Option.bind_some, Option.pure_def]
    rw [ofNat_byte (a := a) (by omega), ofNat_byte (a := b) (by omega),
      ofNat_byte (a := c) (by omega)]
  | case2 a b =>
    have ha := byte_lt a
    have hb := byte_lt b
    have hy := (digit_printable (b.toNat % 16 * 4) (by omega)).2.2
    simp only [encode, decode]
    rw [value_digit _ (by omega), value_digit _ (by omega), value_digit _ (by omega)]
    simp only [hy, false_and, if_false, and_self, if_true, Option.bind_eq_bind,
      Option.bind_some, Option.pure_def]
    rw [ofNat_byte (a := a) (by omega), ofNat_byte (a := b) (by omega)]
  | case3 a =>
    have ha := byte_lt a
    simp only [encode, decode]
    rw [value_digit _ (by omega), value_digit _ (by omega)]
    simp only [and_self, if_true, Option.bind_eq_bind, Option.bind_some, Option.pure_def]
    rw [ofNat_byte (a := a) (by omega)]
  | case4 => rfl

end KarpenterProviderSsh.Codec.Base64
