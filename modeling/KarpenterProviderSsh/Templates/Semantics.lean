import KarpenterProviderSsh.Store.Groups
import Mathlib.Data.List.Sort
import Mathlib.Data.String.Basic

/-! The part of `text/template` that reads its data: field access, `if`, `with` and `range`, with
`missingkey=error`. The data are a struct of strings and maps of strings. -/

namespace KarpenterProviderSsh.Templates

inductive Datum
  | text (s : String)
  | dict (entries : List (String × String))
deriving DecidableEq, Repr

inductive Value
  | datum (d : Datum)
  | record (fields : List (String × Datum))
deriving DecidableEq, Repr

inductive Fault
  | noEntry (key : String)
  | noField (name : String)
  | cannotRange
deriving DecidableEq, Repr

def Fault.text : Fault → String
  | .noEntry key => "map has no entry for key " ++ key.quote
  | .noField name => "can't evaluate field " ++ name
  | .cannotRange => "range can't iterate over value"

structure Operand where
  root : Bool
  path : List String
deriving DecidableEq, Repr

inductive Template
  | empty
  | text (s : String)
  | print (o : Operand)
  | seq (t u : Template)
  | ifElse (o : Operand) (t u : Template)
  | withElse (o : Operand) (t u : Template)
  | rangeElse (o : Operand) (t u : Template)
deriving DecidableEq, Repr

def Datum.truth : Datum → Bool
  | .text s => s ≠ ""
  | .dict entries => !entries.isEmpty

/-- Struct values are always true. -/
def Value.truth : Value → Bool
  | .datum d => d.truth
  | .record _ => true

/-- `range` and `fmt` go through a map in the order of its keys. -/
def byKey (entries : List (String × String)) : List (String × String) :=
  entries.insertionSort fun a b => a.1 ≤ b.1

def Datum.print : Datum → String
  | .text s => s
  | .dict entries =>
    "map[" ++ " ".intercalate ((byKey entries).map fun e => e.1 ++ ":" ++ e.2) ++ "]"

def Value.print : Value → String
  | .datum d => d.print
  | .record fields => "\x7b" ++ " ".intercalate (fields.map fun f => f.2.print) ++ "\x7d"

def Value.field : Value → String → Except Fault Value
  | .record fields, name =>
    match fields.lookup name with
    | some d => .ok (.datum d)
    | none => .error (.noField name)
  | .datum (.dict entries), name =>
    match entries.lookup name with
    | some s => .ok (.datum (.text s))
    | none => .error (.noEntry name)
  | .datum (.text _), name => .error (.noField name)

def Operand.eval (o : Operand) (root dot : Value) : Except Fault Value :=
  o.path.foldlM Value.field (if o.root then root else dot)

def Value.elements : Value → Except Fault (List Value)
  | .datum (.dict entries) => .ok ((byKey entries).map fun e => .datum (.text e.2))
  | _ => .error .cannotRange

def Template.exec (root : Value) : Template → Value → Except Fault String
  | .empty, _ => .ok ""
  | .text s, _ => .ok s
  | .print o, dot => do
    let v ← o.eval root dot
    return v.print
  | .seq t u, dot => do
    let a ← t.exec root dot
    let b ← u.exec root dot
    return a ++ b
  | .ifElse o t u, dot => do
    let v ← o.eval root dot
    if v.truth then t.exec root dot else u.exec root dot
  | .withElse o t u, dot => do
    let v ← o.eval root dot
    if v.truth then t.exec root v else u.exec root dot
  | .rangeElse o t u, dot => do
    let v ← o.eval root dot
    let vs ← v.elements
    if vs.isEmpty then u.exec root dot else
      let out ← vs.mapM fun v => t.exec root v
      return String.join out

def Succeeds {α : Type} (r : Except Fault α) : Prop := ∃ a, r = .ok a

/-! Control flow looks at a string only to ask whether it is empty, so two data that agree on
that fail at the same templates. -/

inductive Datum.Similar : Datum → Datum → Prop
  | text {s s' : String} : (s = "" ↔ s' = "") → Similar (.text s) (.text s')
  | dict (entries : List (String × String)) : Similar (.dict entries) (.dict entries)

inductive Value.Similar : Value → Value → Prop
  | datum {d d' : Datum} : d.Similar d' → Similar (.datum d) (.datum d')
  | record {fields fields' : List (String × Datum)} :
    List.Forall₂ (fun f f' => f.1 = f'.1 ∧ f.2.Similar f'.2) fields fields' →
    Similar (.record fields) (.record fields')

@[refl] lemma Datum.Similar.refl (d : Datum) : d.Similar d := by
  cases d with
  | text s => exact .text Iff.rfl
  | dict entries => exact .dict entries

def Together {α : Type} (R : α → α → Prop) (r r' : Except Fault α) : Prop :=
  (∃ a a', r = .ok a ∧ r' = .ok a' ∧ R a a') ∨ (∃ e e', r = .error e ∧ r' = .error e')

section Together

variable {α β : Type} {R : α → α → Prop} {S : β → β → Prop} {r r' : Except Fault α}

lemma Together.ok {a a' : α} (ha : R a a') : Together R (.ok a) (.ok a') :=
  .inl ⟨a, a', rfl, rfl, ha⟩

lemma Together.error (e e' : Fault) : Together R (.error e) (.error e') :=
  .inr ⟨e, e', rfl, rfl⟩

lemma Together.bind {f f' : α → Except Fault β} (hr : Together R r r')
    (hf : ∀ a a', R a a' → Together S (f a) (f' a')) : Together S (r >>= f) (r' >>= f') := by
  obtain ⟨a, a', rfl, rfl, ha⟩ | ⟨e, e', rfl, rfl⟩ := hr
  · exact hf a a' ha
  · exact .error e e'

lemma Together.succeeds_iff (hr : Together R r r') : Succeeds r ↔ Succeeds r' := by
  obtain ⟨a, a', rfl, rfl, ha⟩ | ⟨e, e', rfl, rfl⟩ := hr
  · exact ⟨fun _ => ⟨a', rfl⟩, fun _ => ⟨a, rfl⟩⟩
  · exact ⟨nofun, nofun⟩

lemma Together.mapM {f f' : α → Except Fault β} {xs : List α}
    (hf : ∀ a, Together S (f a) (f' a)) :
    Together (fun _ _ => True) (xs.mapM f) (xs.mapM f') := by
  induction xs with
  | nil => exact .ok trivial
  | cons x xs ih =>
    rw [List.mapM_cons, List.mapM_cons]
    refine (hf x).bind fun a a' _ => ?_
    exact ih.bind fun _ _ _ => .ok trivial

lemma Together.foldlM {γ : Type} {f : α → γ → Except Fault α}
    (hf : ∀ a a' c, R a a' → Together R (f a c) (f a' c)) (cs : List γ) {a a' : α} (ha : R a a') :
    Together R (cs.foldlM f a) (cs.foldlM f a') := by
  induction cs generalizing a a' with
  | nil => exact .ok ha
  | cons c cs ih =>
    rw [List.foldlM_cons, List.foldlM_cons]
    exact (hf a a' c ha).bind fun b b' hb => ih hb

end Together

lemma Datum.Similar.truth_eq {d d' : Datum} (h : d.Similar d') : d.truth = d'.truth := by
  cases h with
  | text hs => simp [Datum.truth, hs]
  | dict entries => rfl

lemma Value.Similar.truth_eq {v v' : Value} (h : v.Similar v') : v.truth = v'.truth := by
  cases h with
  | datum hd => exact hd.truth_eq
  | record hf => rfl

lemma lookup_together {fields fields' : List (String × Datum)}
    (h : List.Forall₂ (fun f f' => f.1 = f'.1 ∧ f.2.Similar f'.2) fields fields') (name : String) :
    (fields.lookup name = none ∧ fields'.lookup name = none) ∨
      ∃ d d', fields.lookup name = some d ∧ fields'.lookup name = some d' ∧ d.Similar d' := by
  induction h with
  | nil => exact .inl ⟨rfl, rfl⟩
  | @cons f f' fs fs' hf hfs ih =>
    obtain ⟨k, d⟩ := f
    obtain ⟨k', d'⟩ := f'
    obtain ⟨rfl, hd⟩ := hf
    simp only [Store.lookup_cons_if]
    by_cases hk : name = k
    · exact .inr ⟨d, d', if_pos hk, if_pos hk, hd⟩
    · simpa only [if_neg hk] using ih

lemma Value.Similar.field {v v' : Value} (h : v.Similar v') (name : String) :
    Together Value.Similar (v.field name) (v'.field name) := by
  cases h with
  | datum hd =>
    cases hd with
    | text hs => exact .error _ _
    | dict entries =>
      simp only [Value.field]
      cases entries.lookup name with
      | none => exact .error _ _
      | some s => exact .ok (.datum (.refl _))
  | record hf =>
    simp only [Value.field]
    obtain ⟨hn, hn'⟩ | ⟨d, d', hd, hd', hs⟩ := lookup_together hf name
    · rw [hn, hn']
      exact .error _ _
    · rw [hd, hd']
      exact .ok (.datum hs)

lemma Value.Similar.elements {v v' : Value} (h : v.Similar v') :
    Together (· = ·) v.elements v'.elements := by
  cases h with
  | datum hd =>
    cases hd with
    | text hs => exact .error _ _
    | dict entries => exact .ok rfl
  | record hf => exact .error _ _

lemma Operand.eval_together (o : Operand) {root root' dot dot' : Value} (hr : root.Similar root')
    (hd : dot.Similar dot') : Together Value.Similar (o.eval root dot) (o.eval root' dot') := by
  refine Together.foldlM (fun v v' name hv => hv.field name) o.path ?_
  split
  · exact hr
  · exact hd

@[refl] lemma Value.Similar.refl (v : Value) : v.Similar v := by
  cases v with
  | datum d => exact .datum (.refl d)
  | record fields => exact .record (List.forall₂_same.mpr fun f _ => ⟨rfl, .refl f.2⟩)

theorem Template.exec_together (t : Template) {root root' dot dot' : Value}
    (hr : root.Similar root') (hd : dot.Similar dot') :
    Together (fun _ _ => True) (t.exec root dot) (t.exec root' dot') := by
  induction t generalizing dot dot' with
  | empty => exact .ok trivial
  | text s => exact .ok trivial
  | print o => exact (o.eval_together hr hd).bind fun _ _ _ => .ok trivial
  | seq t u iht ihu =>
    exact (iht hd).bind fun _ _ _ => (ihu hd).bind fun _ _ _ => .ok trivial
  | ifElse o t u iht ihu =>
    refine (o.eval_together hr hd).bind fun v v' hv => ?_
    rw [hv.truth_eq]
    split
    · exact iht hd
    · exact ihu hd
  | withElse o t u iht ihu =>
    refine (o.eval_together hr hd).bind fun v v' hv => ?_
    rw [hv.truth_eq]
    split
    · exact iht hv
    · exact ihu hd
  | rangeElse o t u iht ihu =>
    refine (o.eval_together hr hd).bind fun v v' hv => hv.elements.bind fun vs vs' hvs => ?_
    subst hvs
    split
    · exact ihu hd
    · exact (Together.mapM fun v => iht (.refl v)).bind fun _ _ _ => .ok trivial

end KarpenterProviderSsh.Templates
