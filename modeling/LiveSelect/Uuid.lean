/-! # Universally unique identifiers

A UUID is thirty-two hexadecimal digits. It is written in five hyphenated groups of
lower-case digits; it may be read without the hyphens, in braces, or after
`urn:uuid:`, with digits of either case. -/

namespace LiveSelect

/-- The 128 bits of an identifier, as thirty-two hexadecimal digits. -/
structure Uuid where
  digits : Vector (Fin 16) 32
deriving DecidableEq

namespace Uuid

/-- The lower-case character of a hexadecimal digit. -/
def digitChar (d : Fin 16) : Char :=
  ("0123456789abcdef".toList[d.val]?).getD '0'

/-- The hexadecimal digit that a character stands for. -/
def digit? (c : Char) : Option (Fin 16) :=
  let n := c.toNat
  if h : 48 ≤ n ∧ n ≤ 57 then some ⟨n - 48, by omega⟩
  else if h : 97 ≤ n ∧ n ≤ 102 then some ⟨n - 87, by omega⟩
  else if h : 65 ≤ n ∧ n ≤ 70 then some ⟨n - 55, by omega⟩
  else none

theorem digit?_digitChar (d : Fin 16) : digit? (digitChar d) = some d := by
  revert d; decide

/-- The sizes of the groups between hyphens. -/
def groups : List Nat := [8, 4, 4, 4, 12]

/-- Cuts a list into pieces of the given sizes. -/
def pieces {α : Type} : List Nat → List α → List (List α)
  | [], _ => []
  | n :: sizes, l => l.take n :: pieces sizes (l.drop n)

/-- The hyphenated text of an identifier. -/
def text (u : Uuid) : String :=
  String.ofList (['-'].intercalate (pieces groups (u.digits.toList.map digitChar)))

/-- Reads thirty-two digits without hyphens. -/
def ofPlain? (cs : List Char) : Option Uuid :=
  match cs.mapM digit? with
  | some ds => if h : ds.length = 32 then some ⟨⟨ds.toArray, by simpa using h⟩⟩ else none
  | none => none

/-- Drops the hyphens that stand between the groups; `none` unless each is in its place. -/
def dropHyphens? : List Nat → List Char → Option (List Char)
  | [], _ => none
  | [n], cs => if cs.length = n then some cs else none
  | n :: sizes, cs =>
    match cs.drop n with
    | '-' :: rest => (dropHyphens? sizes rest).map (cs.take n ++ ·)
    | _ => none

/-- Reads the five groups. -/
def ofHyphenated? (cs : List Char) : Option Uuid :=
  (dropHyphens? groups cs).bind ofPlain?

/-- Reads any of the four forms. -/
def ofText? (s : String) : Option Uuid :=
  let cs := s.toList
  if cs.length = 32 then ofPlain? cs
  else if cs.length = 36 then ofHyphenated? cs
  else if cs.length = 38 ∧ cs.head? = some '\x7b' ∧ cs.getLast? = some '\x7d' then
    ofHyphenated? (cs.drop 1).dropLast
  else if cs.length = 45 ∧ "urn:uuid:".toList.isPrefixOf cs then ofHyphenated? (cs.drop 9)
  else none

/-- The identifier whose digits, read as a number, are `n` up to 2¹²⁸. -/
def ofNat (n : Nat) : Uuid :=
  ⟨Vector.ofFn fun i => ⟨n / Nat.pow 16 (31 - i.val) % 16, Nat.mod_lt _ (by decide)⟩⟩

end Uuid

end LiveSelect
