/-! # Splitting texts

A text is split at every separator; the parts with the separators between them are the
text again. -/

namespace LiveSelect.Text

/-- The parts of a text between separators; there is at least one. -/
def split (separator : Char) : List Char → List (List Char)
  | [] => [[]]
  | c :: rest =>
    if c = separator then [] :: split separator rest
    else match split separator rest with
      | [] => [[c]]
      | part :: parts => (c :: part) :: parts

theorem split_ne_nil (separator : Char) (s : List Char) : split separator s ≠ [] := by
  cases s with
  | nil => simp [split]
  | cons c rest =>
    rw [split]
    split
    · simp
    · split <;> simp

theorem intercalate_split (separator : Char) (s : List Char) :
    [separator].intercalate (split separator s) = s := by
  induction s with
  | nil => simp [split]
  | cons c rest ih =>
    rw [split]
    cases h : split separator rest with
    | nil => exact absurd h (split_ne_nil _ _)
    | cons part parts =>
      rw [h] at ih
      split
      · rename_i hc
        simp [List.intercalate_cons_cons, ih, hc]
      · cases parts with
        | nil => simp_all
        | cons p ps => simp_all [List.intercalate_cons_cons]

end LiveSelect.Text
