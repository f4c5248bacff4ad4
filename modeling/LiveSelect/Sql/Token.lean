import LiveSelect.Dialect
import LiveSelect.Reader

/-! # SQL tokens

Cuts an SQL text into words, quoted names, literals and marks. Which characters make a
word, and which quotes stand around names, depends on the dialect. -/

namespace LiveSelect.Sql

/-- The smallest parts of an SQL text. -/
inductive Token where
  | word (text : String)
  | quotedName (text : String)
  | number
  | string
  | mark (text : String)
deriving DecidableEq, Repr

/-- White space between tokens. -/
def isBlank (c : Char) : Bool := c = ' ' || c = '\t' || c = '\n' || c = '\r'

/-- Whether a character can start a word. Standard SQL takes ASCII letters only, the engines
take letters of any script. -/
def startsWord (d : Dialect) (c : Char) : Bool :=
  c.isAlpha || match d with
    | .ansi => false
    | .postgres | .duckdb => c = '_' || 0x80 ≤ c.toNat
    | .mysql => c = '_' || c = '$' || c = '@' || 0x80 ≤ c.toNat
    | .tsql => c = '_' || c = '#' || c = '@' || 0x80 ≤ c.toNat

/-- Whether a character can go on with a word. -/
def continuesWord (d : Dialect) (c : Char) : Bool :=
  startsWord d c || c.isDigit || c = '_' || (d ≠ .ansi && c = '$')

/-- The quotes that stand around names. -/
def nameQuotes : Dialect → List (Char × Char)
  | .ansi | .duckdb => [('"', '"'), ('`', '`')]
  | .postgres => [('"', '"')]
  | .mysql => [('`', '`')]
  | .tsql => [('"', '"'), ('[', ']')]

/-- The quotes that stand around strings. -/
def stringQuotes : Dialect → List Char
  | .mysql => ['\'', '"']
  | _ => ['\'']

/-- The marks, the longer ones before those they start with. -/
def marks : List String :=
  ["<>", "<=", ">=", "!=", "||", "(", ")", ",", ".", ";", "+", "-", "*", "/", "%", "=", "<", ">",
   "?"]

/-- A text between quotes; a closing quote inside is written twice. -/
def quoted (opening closing : Char) : Reader Char (List Char) := do
  Reader.char opening
  let doubled := Reader.char closing *> Reader.char closing *> pure closing
  let cs ← Reader.many (doubled <|> Reader.one (· ≠ closing))
  Reader.char closing
  return cs

/-- Digits with a fraction and an exponent. -/
def number : Reader Char Token := do
  let fraction := Reader.char '.' *> Reader.run Char.isDigit
  (do
    let _ ← Reader.run₁ Char.isDigit
    let _ ← optional fraction) <|> (Reader.char '.' *> Reader.run₁ Char.isDigit *> pure ())
  let _ ← optional (do
    let _ ← Reader.one fun c => c = 'e' || c = 'E'
    let _ ← optional (Reader.one fun c => c = '+' || c = '-')
    Reader.run₁ Char.isDigit)
  return .number

/-- A token. -/
def token (d : Dialect) : Reader Char Token :=
  Reader.oneOf
    ((do
        let c ← Reader.one (startsWord d)
        return .word (String.ofList (c :: (← Reader.run (continuesWord d))))) ::
      (nameQuotes d).map (fun q => .quotedName <$> String.ofList <$> quoted q.1 q.2) ++
      (stringQuotes d).map (fun q => quoted q q *> pure .string) ++
      [number] ++
      marks.map fun m => Reader.word m *> pure (.mark m))

/-- The tokens of a text. -/
def tokens? (d : Dialect) (s : String) : Option (List Token) :=
  let blanks := Reader.run isBlank
  (blanks *> Reader.many (token d <* blanks)).whole? s.toList

end LiveSelect.Sql
