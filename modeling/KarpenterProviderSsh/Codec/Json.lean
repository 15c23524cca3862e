import Mathlib.Tactic

/-! Texts as `encoding/json` writes them, read as encodings that show where they end. -/

namespace KarpenterProviderSsh.Codec.Json

variable {α β γ : Type}

/-- Whatever follows, the text tells what it encodes and where it ends. -/
def Delimits (enc : α → List Char) : Prop := ∀ a b r r', enc a ++ r = enc b ++ r' → a = b ∧ r = r'

def Starts (c : Char) (enc : α → List Char) : Prop := ∀ a, ∃ t, enc a = c :: t

section Strings

def hexDigit (n : ℕ) : Char := if n < 10 then .ofNat (48 + n) else .ofNat (87 + n)

def hexValue (c : Char) : ℕ := if c.toNat < 58 then c.toNat - 48 else c.toNat - 87

def unicodeEscape (n : ℕ) : List Char :=
  ['\\', 'u', hexDigit (n / 4096 % 16), hexDigit (n / 256 % 16), hexDigit (n / 16 % 16),
      hexDigit (n % 16)]

/-- The letters `json.Marshal` does not write as they are; `<`, `>` and `&` are among them for the
sake of HTML. -/
def escape (c : Char) : List Char :=
  if c = '"' then ['\\', '"']
  else if c = '\\' then ['\\', '\\']
  else if c.toNat = 8 then ['\\', 'b']
  else if c.toNat = 9 then ['\\', 't']
  else if c.toNat = 10 then ['\\', 'n']
  else if c.toNat = 12 then ['\\', 'f']
  else if c.toNat = 13 then ['\\', 'r']
  else if c.toNat < 32 ∨ c = '<' ∨ c = '>' ∨ c = '&' ∨ c.toNat = 0x2028 ∨
    c.toNat = 0x2029 then unicodeEscape c.toNat
  else [c]

def unescape : List Char → Option (Char × List Char)
  | '\\' :: 'u' :: a :: b :: c :: d :: r =>
    some (.ofNat (((hexValue a * 16 + hexValue b) * 16 + hexValue c) * 16 + hexValue d), r)
  | '\\' :: 'b' :: r => some (.ofNat 8, r)
  | '\\' :: 't' :: r => some (.ofNat 9, r)
  | '\\' :: 'n' :: r => some (.ofNat 10, r)
  | '\\' :: 'f' :: r => some (.ofNat 12, r)
  | '\\' :: 'r' :: r => some (.ofNat 13, r)
  | '\\' :: c :: r => some (c, r)
  | c :: r => some (c, r)
  | [] => none

lemma hexValue_hexDigit : ∀ n < 16, hexValue (hexDigit n) = n := by decide

lemma unescape_unicodeEscape {n : ℕ} (hn : n < 65536) (r : List Char) :
    unescape (unicodeEscape n ++ r) = some (.ofNat n, r) := by
  have hv (m : ℕ) : hexValue (hexDigit (m % 16)) = m % 16 :=
    hexValue_hexDigit _ (Nat.mod_lt _ (by decide))
  have hsum : ((n / 4096 % 16 * 16 + n / 256 % 16) * 16 + n / 16 % 16) * 16 + n % 16 = n := by omega
  simp only [unicodeEscape, List.cons_append, List.nil_append, unescape, hv, hsum]

lemma unescape_escape (c : Char) (r : List Char) : unescape (escape c ++ r) = some (c, r) := by
  have hc {n : ℕ} (h : c.toNat = n) : some (Char.ofNat n, r) = some (c, r) := by
    rw [← h, Char.ofNat_toNat]
  unfold escape
  split_ifs with h₁ h₂ h₃ h₄ h₅ h₆ h₇ h₈
  · subst h₁
    rfl
  · subst h₂
    rfl
  · exact hc h₃
  · exact hc h₄
  · exact hc h₅
  · exact hc h₆
  · exact hc h₇
  · have hn : c.toNat < 65536 := by
      rcases h₈ with h | rfl | rfl | rfl | h | h <;> first | omega | decide
    rw [unescape_unicodeEscape hn, Char.ofNat_toNat]
  · have hne : c ≠ '\\' := h₂
    simp only [List.singleton_append]
    unfold unescape
    split <;> simp_all

lemma escape_ne_quote (c : Char) (r s : List Char) : escape c ++ r ≠ '"' :: s := by
  unfold escape
  split_ifs with h₁ <;> simp [unicodeEscape, h₁]

def string (s : List Char) : List Char := '"' :: s.flatMap escape ++ ['"']

lemma starts_string : Starts '"' string := fun _ => ⟨_, rfl⟩

lemma delimits_string : Delimits string := by
  intro s t r r' h
  simp only [string, List.cons_append, List.cons.injEq, true_and, List.append_assoc,
    List.nil_append] at h
  induction s generalizing t with
  | nil =>
    cases t with
    | nil => exact ⟨rfl, by simpa using h⟩
    | cons d t =>
      rw [List.flatMap_cons, List.append_assoc] at h
      exact absurd h.symm (escape_ne_quote d _ _)
  | cons c s ih =>
    cases t with
    | nil =>
      rw [List.flatMap_cons, List.append_assoc] at h
      exact absurd h (escape_ne_quote c _ _)
    | cons d t =>
      rw [List.flatMap_cons, List.flatMap_cons, List.append_assoc, List.append_assoc] at h
      have hu := congrArg unescape h
      rw [unescape_escape, unescape_escape] at hu
      obtain ⟨rfl, hr⟩ := Prod.mk.inj (Option.some.inj hu)
      obtain ⟨rfl, rfl⟩ := ih t hr
      exact ⟨rfl, rfl⟩

end Strings

section Objects

variable {enc : α → List Char} {val : β → List Char}

def member (val : β → List Char) (m : List Char × β) : List Char := string m.1 ++ ':' :: val m.2

lemma starts_member : Starts '"' (member val) := fun _ => ⟨_, rfl⟩

lemma delimits_member (hv : Delimits val) : Delimits (member val) := by
  rintro ⟨k, v⟩ ⟨k', v'⟩ r r' h
  simp only [member, List.append_assoc, List.cons_append] at h
  obtain ⟨rfl, hrest⟩ := delimits_string k k' _ _ h
  obtain ⟨rfl, rfl⟩ := hv v v' r r' (List.cons.inj hrest).2
  exact ⟨rfl, rfl⟩

def more (enc : α → List Char) : List α → List Char
  | [] => ['\x7d']
  | a :: l => ',' :: (enc a ++ more enc l)

def object (enc : α → List Char) : List α → List Char
  | [] => ['\x7b', '\x7d']
  | a :: l => '\x7b' :: (enc a ++ more enc l)

lemma starts_object : Starts '\x7b' (object enc) := by
  intro l
  cases l <;> exact ⟨_, rfl⟩

lemma delimits_more (he : Delimits enc) : Delimits (more enc) := by
  intro l l' r r' h
  induction l generalizing l' with
  | nil =>
    cases l' with
    | nil => exact ⟨rfl, (List.cons.inj h).2⟩
    | cons b l' => exact absurd (List.cons.inj h).1 (by decide)
  | cons a l ih =>
    cases l' with
    | nil => exact absurd (List.cons.inj h).1 (by decide)
    | cons b l' =>
      simp only [more, List.cons_append, List.append_assoc, List.cons.injEq, true_and] at h
      obtain ⟨rfl, hrest⟩ := he a b _ _ h
      obtain ⟨rfl, rfl⟩ := ih l' hrest
      exact ⟨rfl, rfl⟩

lemma delimits_object (he : Delimits enc) (hs : Starts '"' enc) : Delimits (object enc) := by
  have hne (a : α) (r s : List Char) : enc a ++ r ≠ '\x7d' :: s := by
    obtain ⟨t, ht⟩ := hs a
    simp [ht]
  intro l l' r r' h
  cases l with
  | nil =>
    cases l' with
    | nil =>
      simp only [object, List.cons_append, List.cons.injEq, true_and] at h
      exact ⟨rfl, by simpa using h⟩
    | cons b l' =>
      simp only [object, List.cons_append, List.append_assoc, List.cons.injEq, true_and] at h
      exact absurd h.symm (hne b _ _)
  | cons a l =>
    cases l' with
    | nil =>
      simp only [object, List.cons_append, List.append_assoc, List.cons.injEq, true_and] at h
      exact absurd h (hne a _ _)
    | cons b l' =>
      simp only [object, List.cons_append, List.append_assoc, List.cons.injEq, true_and] at h
      obtain ⟨rfl, hrest⟩ := he a b _ _ h
      obtain ⟨rfl, rfl⟩ := delimits_more he l l' _ _ hrest
      exact ⟨rfl, rfl⟩

lemma delimits_sum {c d : Char} (hcd : c ≠ d) {enc' : β → List Char} (he : Delimits enc)
    (he' : Delimits enc') (hs : Starts c enc) (hs' : Starts d enc') :
    Delimits (Sum.elim enc enc') := by
  have hne (a : α) (b : β) (r r' : List Char) : enc a ++ r ≠ enc' b ++ r' := by
    obtain ⟨t, ht⟩ := hs a
    obtain ⟨t', ht'⟩ := hs' b
    simp [ht, ht', hcd]
  rintro (a | a) (b | b) r r' h
  · obtain ⟨rfl, rfl⟩ := he a b r r' h
    exact ⟨rfl, rfl⟩
  · exact absurd h (hne a b r r')
  · exact absurd h.symm (hne b a r' r)
  · obtain ⟨rfl, rfl⟩ := he' a b r r' h
    exact ⟨rfl, rfl⟩

lemma Delimits.injective (he : Delimits enc) : Function.Injective enc := by
  intro a b h
  exact (he a b [] [] (by rw [h])).1

end Objects

section Omissions

/-- The fields of a struct whose tags say `omitempty`. -/
def omitEmpty : List (γ × Option β) → List (γ × β)
  | [] => []
  | (_, none) :: l => omitEmpty l
  | (k, some v) :: l => (k, v) :: omitEmpty l

lemma mem_omitEmpty {l : List (γ × Option β)} {k : γ} {v : β} (h : (k, v) ∈ omitEmpty l) :
    k ∈ l.map Prod.fst := by
  fun_induction omitEmpty l <;> grind

lemma omitEmpty_inj {l l' : List (γ × Option β)} (h : omitEmpty l = omitEmpty l')
    (hk : l.map Prod.fst = l'.map Prod.fst) (hn : (l.map Prod.fst).Nodup) : l = l' := by
  induction l generalizing l' with
  | nil =>
    cases l' with
    | nil => rfl
    | cons p l' => cases hk
  | cons p l ih =>
    obtain ⟨k, v⟩ := p
    cases l' with
    | nil => cases hk
    | cons p' l' =>
      obtain ⟨k', v'⟩ := p'
      simp only [List.map_cons, List.cons.injEq] at hk
      obtain ⟨rfl, hk⟩ := hk
      simp only [List.map_cons, List.nodup_cons] at hn
      cases v with
      | none =>
        cases v' with
        | none =>
          simp only [omitEmpty] at h
          rw [ih h hk hn.2]
        | some w =>
          have hm : (k, w) ∈ omitEmpty l := by
            simp only [omitEmpty] at h
            exact h ▸ List.mem_cons_self
          exact absurd (mem_omitEmpty hm) hn.1
      | some w =>
        cases v' with
        | none =>
          have hm : (k, w) ∈ omitEmpty l' := by
            simp only [omitEmpty] at h
            exact h ▸ List.mem_cons_self
          exact absurd (hk ▸ mem_omitEmpty hm) hn.1
        | some w' =>
          simp only [omitEmpty, List.cons.injEq, Prod.mk.injEq, true_and] at h
          rw [h.1, ih h.2 hk hn.2]

end Omissions

end KarpenterProviderSsh.Codec.Json
