import LiveSelect.Reader
import LiveSelect.Text.Digits
import LiveSelect.Document.Value
import LiveSelect.Text.Magnitude

/-! # JSON texts

Reads a JSON text as a document value. Keys may stand more than once; it is for the
records to refuse them. -/

namespace LiveSelect.Json

open Document Text

/-- White space between the parts of a text. -/
def blanks : Reader Char Unit := do
  let _ ← Reader.run fun c => c = ' ' || c = '\t' || c = '\n' || c = '\r'

/-- A character and the white space after it. -/
def mark (c : Char) : Reader Char Unit := Reader.char c *> blanks

/-! ## Strings -/

/-- What a string is made of: characters, and halves of surrogate pairs. -/
inductive Part where
  | char (c : Char)
  | half (code : Nat)

/-- The characters after a backslash and what they stand for. -/
def escapes : List (Char × Char) :=
  [('"', '"'), ('\\', '\\'), ('/', '/'), ('b', '\x08'), ('f', '\x0c'), ('n', '\n'),
   ('r', '\r'), ('t', '\t')]

/-- The part with a 16-bit code. -/
def Part.ofCode (code : Nat) : Part :=
  if 0xD800 ≤ code && code ≤ 0xDFFF then .half code else .char (Char.ofNat code)

/-- A part that stands after a backslash. -/
def escapedPart : Reader Char Part := do
  let c ← Reader.one fun _ => true
  if c = 'u' then
    let digits ← Reader.times (Reader.one isHexDigit) 4
    return .ofCode (digitsValue 16 digits)
  else match escapes.lookup c with
    | some e => return .char e
    | none => failure

/-- One part of a string. Control characters have to be escaped. -/
def part : Reader Char Part := do
  let c ← Reader.one fun c => c ≠ '"' && ' ' ≤ c
  if c = '\\' then escapedPart else return .char c

/-- The text that parts make, if every first half is followed by a second one and no
other half is left. -/
def join? : List Part → Option (List Char)
  | [] => some []
  | .char c :: rest => (join? rest).map (c :: ·)
  | .half high :: .half low :: rest =>
    if high < 0xDC00 && 0xDC00 ≤ low then
      (join? rest).map (Char.ofNat (0x10000 + (high - 0xD800) * 0x400 + (low - 0xDC00)) :: ·)
    else none
  | .half _ :: _ => none

/-- A string; `none` if it names half of a surrogate pair. -/
def string : Reader Char (Option String) := do
  let parts ← Reader.char '"' *> Reader.many part <* Reader.char '"'
  return (join? parts).map String.ofList

/-! ## Numbers -/

/-- The digits of a whole part: a zero, or digits that do not start with one. -/
def wholePart : Reader Char (List Char) := do
  let digits ← Reader.run₁ Char.isDigit
  if digits.length = 1 || digits.head? ≠ some '0' then return digits else failure

/-- The exponent after its mark. -/
def exponent : Reader Char Int := do
  let _ ← Reader.one fun c => c = 'e' || c = 'E'
  let sign ← optional (Reader.one fun c => c = '+' || c = '-')
  let digits ← Reader.run₁ Char.isDigit
  let n := digitsValue 10 digits
  return if sign = some '-' then -n else n

/-- A number. It is an integer if it has neither a fraction nor an exponent and is not a
negative zero. -/
def number : Reader Char Value := do
  let sign ← optional (Reader.char '-')
  let whole ← wholePart
  let fraction ← optional (Reader.char '.' *> Reader.run₁ Char.isDigit)
  let exp ← optional exponent
  let n := digitsValue 10 whole
  let digits := fraction.getD []
  if overflows (digitsValue 10 (whole ++ digits)) (exp.getD 0 - digits.length) then
    return .garbled
  else if fraction.isSome || exp.isSome || (sign.isSome && n = 0) then return .decimal
  else return .integer (if sign.isSome then -n else n)

/-! ## Values -/

/-- The three words that are values. -/
def literal : Reader Char Value :=
  (Reader.word "null" *> pure .null) <|> (Reader.word "true" *> pure (.flag true)) <|>
    (Reader.word "false" *> pure (.flag false))

/-- A list between brackets. -/
def list (value : Reader Char Value) : Reader Char Value := do
  mark '['
  let elements ← optional (Reader.separated (mark ',') (value <* blanks))
  Reader.char ']'
  return .list (elements.getD [])

/-- A key and its value. -/
def entry (value : Reader Char Value) : Reader Char (Option String × Value) := do
  let key ← string <* blanks
  mark ':'
  return (key, ← value <* blanks)

/-- A table between braces. A key that names half of a surrogate pair spoils it. -/
def table (value : Reader Char Value) : Reader Char Value := do
  mark '\x7b'
  let entries ← optional (Reader.separated (mark ',') (entry value))
  Reader.char '\x7d'
  return match (entries.getD []).mapM fun e => e.1.map fun key => (key, e.2) with
    | some entries => .table entries
    | none => .garbled

/-- A value whose lists and tables are nested at most `depth` deep. -/
def value : Nat → Reader Char Value
  | 0, _ => none
  | depth + 1, cs =>
    (((fun s => (s.map Value.text).getD .garbled) <$> string) <|> number <|> literal <|>
      list (value depth) <|> table (value depth)) cs

/-- The value that a text says. A text nests at most as deep as it is long. -/
def read? (s : String) : Option Value :=
  (blanks *> value s.length <* blanks).whole? s.toList

end LiveSelect.Json
