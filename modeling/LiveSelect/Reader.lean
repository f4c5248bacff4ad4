/-! # Readers

A reader takes something from the front of a list of symbols and leaves the rest.
Alternatives are tried on the same list, so a reader that fails has taken nothing. -/

namespace LiveSelect

/-- Takes something from the front of a list, or fails. -/
abbrev Reader (σ : Type) := StateT (List σ) Option

namespace Reader

variable {σ α : Type}

/-- One symbol that satisfies `p`. -/
def one (p : σ → Bool) : Reader σ σ
  | s :: rest => if p s then some (s, rest) else none
  | [] => none

/-- The longest run of symbols that satisfy `p`; it may be empty. -/
def run (p : σ → Bool) : Reader σ (List σ) :=
  fun s => some (s.takeWhile p, s.dropWhile p)

/-- The longest run of symbols that satisfy `p`; it may not be empty. -/
def run₁ (p : σ → Bool) : Reader σ (List σ) := do
  let s ← one p
  return s :: (← run p)

/-- Succeeds at the end only. -/
def done : Reader σ Unit
  | [] => some ((), [])
  | _ => none

/-- At most `n` times what `r` reads. -/
def upTo (r : Reader σ α) : Nat → Reader σ (List α)
  | 0 => pure []
  | n + 1 => fun s =>
    match r s with
    | some (a, rest) => (upTo r n rest).map fun x => (a :: x.1, x.2)
    | none => some ([], s)

/-- What `r` reads, as often as it succeeds. Every success of `r` has to take a symbol. -/
def many (r : Reader σ α) : Reader σ (List α) := fun s => upTo r s.length s

/-- One or more things with separators between them. -/
def separated {β : Type} (separator : Reader σ β) (r : Reader σ α) : Reader σ (List α) := do
  let a ← r
  return a :: (← many (separator *> r))

/-- Exactly `n` times what `r` reads. -/
def times (r : Reader σ α) : Nat → Reader σ (List α)
  | 0 => pure []
  | n + 1 => do
    let a ← r
    return a :: (← times r n)

/-- The first of several readers that succeeds. -/
def oneOf (rs : List (Reader σ α)) : Reader σ α := rs.foldr (· <|> ·) failure

/-- Reads a whole list. -/
def whole? (r : Reader σ α) (s : List σ) : Option α := (·.1) <$> (r <* done) s

/-- The character `c`. -/
def char (c : Char) : Reader Char Unit := do let _ ← one (· = c)

/-- The characters of a word, one after the other. -/
def word (w : String) : Reader Char Unit := w.toList.forM char

theorem run_append (p : σ → Bool) {s as rest : List σ} (h : run p s = some (as, rest)) :
    as ++ rest = s := by
  simp only [run, Option.some.injEq, Prod.mk.injEq] at h
  rw [← h.1, ← h.2, List.takeWhile_append_dropWhile]

end Reader

end LiveSelect
