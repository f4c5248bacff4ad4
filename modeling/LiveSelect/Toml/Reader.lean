import LiveSelect.Toml.Scalar
import LiveSelect.Toml.Tree

/-! # TOML texts

Reads a TOML text as a document value: a table. The text is read line by line, and the
lines then build the tree of tables. -/

namespace LiveSelect.Toml

open Document Text

/-! ## Keys -/

def isBareKeyChar (c : Char) : Bool := c.isAlphanum || c = '_' || c = '-'

/-- One part of a key. -/
def keyPart : Reader Char String :=
  (String.ofList <$> Reader.run₁ isBareKeyChar) <|> basicString <|> literalString

/-- A key with points between its parts: the way to the table, and the key in it. -/
def key : Reader Char (List String × String) := do
  let parts ← Reader.separated (blanks *> Reader.char '.' *> blanks) keyPart
  match parts.getLast? with
  | some last => return (parts.dropLast, last)
  | none => failure

/-! ## Values -/

/-- What may follow the content of a line. -/
def comment : Reader Char Unit := do
  blanks
  let _ ← optional (Reader.char '#' *> Reader.run isPrintable)

/-- White space, comments and ends of lines, which may stand between the elements of an
array. -/
def gap : Reader Char Unit := do
  let _ ← Reader.many (comment *> newline)
  comment

/-- An array: elements between commas, of which one more may stand at the end. -/
def array (value : Reader Char Value) : Reader Char Value := do
  Reader.char '['
  gap
  let elements ← optional (Reader.separated (Reader.char ',' *> gap) (value <* gap))
  if elements.isSome then let _ ← optional (Reader.char ',' *> gap)
  Reader.char ']'
  return .list (elements.getD [])

/-- A key, an equals sign and a value. -/
def entry (value : Reader Char Value) : Reader Char ((List String × String) × Value) := do
  let k ← key
  blanks
  Reader.char '='
  blanks
  return (k, ← value)

/-- A table within one line. -/
def inlineTable (value : Reader Char Value) : Reader Char Value := do
  Reader.char '\x7b'
  blanks
  let entries ← optional (Reader.separated (Reader.char ',' *> blanks) (entry value <* blanks))
  Reader.char '\x7d'
  match (entries.getD []).foldlM (fun es e => Entries.addValue es e.1.1 e.1.2 e.2) [] with
  | some es => return .table (entryValues es)
  | none => failure

/-- A value whose arrays and inline tables are nested at most `depth` deep. -/
def value : Nat → Reader Char Value
  | 0, cs => scalar cs
  | depth + 1, cs => (scalar <|> array (value depth) <|> inlineTable (value depth)) cs

/-- The deepest nesting of arrays and inline tables. -/
def nesting : Nat := 80

/-! ## Lines -/

/-- What a line says. -/
inductive Line where
  | blank
  | entry (path : List String) (key : String) (value : Value)
  /-- The header of a table. -/
  | table (path : List String) (key : String)
  /-- The header of one more table of a list. -/
  | element (path : List String) (key : String)

/-- The key in a header. -/
def headerKey : Reader Char (List String × String) := blanks *> key <* blanks

/-- A line without its end. -/
def line : Reader Char Line :=
  blanks *>
    Reader.oneOf
      [(fun k => .element k.1 k.2) <$> (Reader.word "[[" *> headerKey <* Reader.word "]]"),
       (fun k => .table k.1 k.2) <$> (Reader.char '[' *> headerKey <* Reader.char ']'),
       (fun e => .entry e.1.1 e.1.2 e.2) <$> entry (value nesting),
       pure .blank] <*
    comment

/-- All lines of a text, before which a byte order mark may stand. -/
def lines : Reader Char (List Line) :=
  optional (Reader.char '\uFEFF') *> Reader.separated newline line

/-! ## The tree of a text -/

/-- The tree that the lines have built, and the way to the table of the last header. -/
structure Assembly where
  root : Entries := []
  current : List String := []

/-- Adds what a line says. -/
def Assembly.add (a : Assembly) : Line → Option Assembly
  | .blank => some a
  | .entry path key v => do
    let edit : Origin → Entries → Option Entries := fun _ es => es.addValue path key v
    return { a with root := ← a.root.within .implied edit a.current .headed }
  | .table path key => do
    return { root := ← a.root.openTable path key, current := path ++ [key] }
  | .element path key => do
    return { root := ← a.root.openElement path key, current := path ++ [key] }

/-- The table that a text says. -/
def read? (s : String) : Option Value := do
  let ls ← lines.whole? s.toList
  let a ← ls.foldlM Assembly.add {}
  return .table (entryValues a.root)

end LiveSelect.Toml
