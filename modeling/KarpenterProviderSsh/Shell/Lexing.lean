import Mathlib.Tactic

/-! How a POSIX shell reads the lines of its input: the quoting rules as a machine that takes one
byte at a time. Lines are told apart as far as simple commands need it; where an expansion starts
is recorded, not where it ends. -/

namespace KarpenterProviderSsh.Shell

inductive Piece
  /-- An unquoted byte that means nothing to the shell. -/
  | plain (c : UInt8)
  /-- A byte that some quote makes stand for itself. -/
  | quoted (c : UInt8)
  /-- A byte that starts an expansion. -/
  | active (c : UInt8)
deriving DecidableEq, Repr

inductive Token
  | word (w : List Piece)
  | operator (c : UInt8)
deriving DecidableEq, Repr

inductive Mode
  | bare
  | escaped
  | single
  | double
  | doubleEscaped
  | comment
deriving DecidableEq, Repr

structure Reader where
  mode : Mode := .bare
  word : Option (List Piece) := none
  line : List Token := []
deriving DecidableEq, Repr

def isOperator (c : UInt8) : Bool := c ∈ [38, 124, 59, 60, 62, 40, 41]

/-- `$`, the backquote, and the bytes of pathname, tilde, brace and history expansion. -/
def isSpecial (c : UInt8) : Bool := c ∈ [36, 96, 42, 63, 91, 126, 123, 125, 33]

def isBlank (c : UInt8) : Bool := c ∈ [32, 9]

namespace Reader

def push (r : Reader) (p : Piece) : Reader := { r with word := some (r.word.getD [] ++ [p]) }

def enter (r : Reader) (m : Mode) : Reader := { r with mode := m, word := some (r.word.getD []) }

def delimit (r : Reader) : Reader :=
  { r with word := none, line := r.line ++ (r.word.map Token.word).toList }

inductive Step
  | more (r : Reader)
  | done (line : List Token)
  | unspecified

def step (r : Reader) (c : UInt8) : Step :=
  -- the input of a shell is a text file: what a NUL in it does is left open
  if c = 0 then .unspecified else
  match r.mode with
  | .bare =>
    if c = 10 then .done r.delimit.line
    else if isBlank c then .more r.delimit
    else if isOperator c then .more { r.delimit with line := r.delimit.line ++ [.operator c] }
    else if c = 39 then .more (r.enter .single)
    else if c = 34 then .more (r.enter .double)
    else if c = 92 then .more { r with mode := .escaped }
    else if c = 35 ∧ r.word = none then .more { r with mode := .comment }
    else if isSpecial c then .more (r.push (.active c))
    else .more (r.push (.plain c))
  | .escaped =>
    -- an escaped newline continues the line
    if c = 10 then .more { r with mode := .bare }
    else .more ({ r with mode := .bare }.push (.quoted c))
  | .single =>
    if c = 39 then .more { r with mode := .bare } else .more (r.push (.quoted c))
  | .double =>
    if c = 34 then .more { r with mode := .bare }
    else if c = 92 then .more { r with mode := .doubleEscaped }
    else if c = 36 ∨ c = 96 then .more (r.push (.active c))
    else .more (r.push (.quoted c))
  | .doubleEscaped =>
    if c = 10 then .more { r with mode := .double }
    else if c ∈ [36, 96, 34, 92] then .more ({ r with mode := .double }.push (.quoted c))
    else .more (({ r with mode := .double }.push (.quoted 92)).push (.quoted c))
  | .comment =>
    if c = 10 then .done r.delimit.line else .more r

/-- One line and what follows it; none where a quote is left open. -/
def read (r : Reader) : List UInt8 → Option (List Token × List UInt8)
  | [] => if r.mode = .bare ∨ r.mode = .comment then some (r.delimit.line, []) else none
  | c :: s =>
    match r.step c with
    | .more r' => r'.read s
    | .done line => some (line, s)
    | .unspecified => none

end Reader

def readLines : ℕ → List UInt8 → Option (List (List Token) × List UInt8)
  | 0, s => some ([], s)
  | n + 1, s => do
    let (line, rest) ← ({} : Reader).read s
    let (lines, rest) ← readLines n rest
    return (line :: lines, rest)

def literal (w : List Piece) : Option (List UInt8) :=
  w.mapM fun
    | .plain c => some c
    | .quoted c => some c
    | .active _ => none

def assignment (command : List UInt8) : List Token → Option (List UInt8 × List UInt8)
  | [.word cmd, .word w] =>
    if literal cmd = some command then
      match w.dropWhile (· ≠ .plain 61) with
      | _ :: value => do
        let name ← literal (w.takeWhile (· ≠ .plain 61))
        let value ← literal value
        return (name, value)
      | [] => none
    else none
  | _ => none

def isOrdinary (c : UInt8) : Bool :=
  c ∉ [0, 10, 39, 34, 92, 35] && !isBlank c && !isOperator c && !isSpecial c

namespace Reader

def within (line : List Token) (w : List Piece) : Reader :=
  { mode := .bare, word := some w, line := line }

def quoting (line : List Token) (w : List Piece) : Reader :=
  { mode := .single, word := some w, line := line }

variable {line : List Token} {w : List Piece} {c : UInt8} {s : List UInt8}

lemma step_ordinary (r : Reader) (hm : r.mode = .bare) (hc : isOrdinary c = true) :
    r.step c = .more (r.push (.plain c)) := by
  simp only [isOrdinary, Bool.and_eq_true, Bool.not_eq_true', decide_eq_true_eq, List.mem_cons,
    List.not_mem_nil, or_false, not_or] at hc
  simp [step, hm, hc]

lemma read_plain (v : List UInt8) (hv : v.all isOrdinary = true) :
    (within line w).read (v ++ s) = (within line (w ++ v.map .plain)).read s := by
  induction v generalizing w with
  | nil => simp
  | cons c v ih =>
    rw [List.all_cons, Bool.and_eq_true] at hv
    rw [List.cons_append, read, step_ordinary _ rfl hv.1]
    have hh := ih (w := w ++ [.plain c]) hv.2
    simpa [within, push] using hh

lemma read_word (c : UInt8) (hc : isOrdinary c = true) (v : List UInt8)
    (hv : v.all isOrdinary = true) :
    ({ line := line } : Reader).read (c :: v ++ s) =
    (within line ((c :: v).map .plain)).read s := by
  rw [List.cons_append, read, step_ordinary _ rfl hc]
  exact read_plain v hv

lemma read_blank (s : List UInt8) :
    (within line w).read (32 :: s) = ({ line := line ++ [.word w] } : Reader).read s := by
  rw [read]
  rfl

lemma read_newline (s : List UInt8) :
    (within line w).read (10 :: s) = some (line ++ [.word w], s) := by
  rw [read]
  rfl

lemma read_open (s : List UInt8) : (within line w).read (39 :: s) = (quoting line w).read s := by
  rw [read]
  rfl

lemma read_close (s : List UInt8) : (quoting line w).read (39 :: s) = (within line w).read s := by
  rw [read]
  rfl

lemma read_escaped (s : List UInt8) :
    (within line w).read (92 :: 39 :: s) = (within line (w ++ [.quoted 39])).read s := by
  rw [read]
  rfl

lemma read_quoted (hz : c ≠ 0) (hq : c ≠ 39) (s : List UInt8) :
    (quoting line w).read (c :: s) = (quoting line (w ++ [.quoted c])).read s := by
  rw [read]
  simp [step, quoting, hz, hq, push]

end Reader

/-- A single quote cannot stand between single quotes: it is closed, escaped and opened again. -/
def requote (v : List UInt8) : List UInt8 :=
  v.flatMap fun c => if c = 39 then [39, 92, 39, 39] else [c]

namespace Reader

variable {line : List Token} {w : List Piece} {s : List UInt8}

lemma read_requote (v : List UInt8) (hv : 0 ∉ v) :
    (quoting line w).read (requote v ++ s) = (quoting line (w ++ v.map .quoted)).read s := by
  -- the machine inverts the encoder, whatever follows: a quote in the value leaves the quotes,
  -- reads the escaped one and is back between quotes
  induction v generalizing w with
  | nil => simp [requote]
  | cons c v ih =>
    have hz : c ≠ 0 := fun h => hv (by simp [h])
    have hh := ih (w := w ++ [.quoted c]) (fun h => hv (by simp [h]))
    rw [List.append_assoc, List.singleton_append, ← List.map_cons] at hh
    by_cases hq : c = 39
    · subst hq
      have he : requote (39 :: v) ++ s = 39 :: 92 :: 39 :: 39 :: (requote v ++ s) := by
        simp [requote]
      rw [he, read_close, read_escaped, read_open, hh]
    · have he : requote (c :: v) ++ s = c :: (requote v ++ s) := by simp [requote, hq]
      rw [he, read_quoted hz hq, hh]

lemma read_single (v : List UInt8) (hv : 0 ∉ v) :
    (within line w).read (39 :: requote v ++ 39 :: s) =
    (within line (w ++ v.map .quoted)).read s := by
  rw [List.cons_append, read_open, read_requote v hv, read_close]

end Reader

lemma literal_plain (v : List UInt8) : literal (v.map .plain) = some v := by
  induction v with
  | nil => rfl
  | cons c v ih =>
    simp only [literal, List.map_cons, List.mapM_cons] at ih ⊢
    rw [ih]
    rfl

lemma literal_quoted (v : List UInt8) : literal (v.map .quoted) = some v := by
  induction v with
  | nil => rfl
  | cons c v ih =>
    simp only [literal, List.map_cons, List.mapM_cons] at ih ⊢
    rw [ih]
    rfl

lemma assignment_quoted (command name value : List UInt8) (hn : 61 ∉ name) :
    assignment command
      [.word (command.map .plain), .word (name.map .plain ++ .plain 61 :: value.map .quoted)] =
        some (name, value) := by
  have hp : ∀ q ∈ name.map Piece.plain, (decide (q ≠ Piece.plain 61)) = true := by
    intro q hq
    obtain ⟨c, hc, rfl⟩ := List.mem_map.mp hq
    have hne : c ≠ 61 := fun h => hn (h ▸ hc)
    simp [hne]
  have hd : (name.map Piece.plain ++ Piece.plain 61 :: value.map Piece.quoted).dropWhile
      (· ≠ Piece.plain 61) =
      .plain 61 :: value.map .quoted := by
    rw [List.dropWhile_append_of_pos hp, List.dropWhile_cons_of_neg (by simp)]
  have ht : (name.map Piece.plain ++ Piece.plain 61 :: value.map Piece.quoted).takeWhile
      (· ≠ Piece.plain 61) =
      name.map .plain := by
    rw [List.takeWhile_append_of_pos hp, List.takeWhile_cons_of_neg (by simp), List.append_nil]
  simp only [assignment, literal_plain, if_true, hd, ht, literal_quoted]
  rfl

end KarpenterProviderSsh.Shell
