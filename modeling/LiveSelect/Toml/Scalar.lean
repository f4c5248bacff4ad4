import LiveSelect.Reader
import LiveSelect.Text.Digits
import LiveSelect.Text.Magnitude
import LiveSelect.Document.Value

/-! # TOML scalars

Strings in their four forms, numbers, dates and times. -/

namespace LiveSelect.Toml

open Document Text

/-! ## Characters -/

/-- White space within a line. -/
def isBlank (c : Char) : Bool := c = ' ' || c = '\t'

/-- Characters that may stand in comments and strings: no control characters but the tab. -/
def isPrintable (c : Char) : Bool := c = '\t' || (' ' ≤ c && c ≠ '\x7f')

/-- White space within a line. -/
def blanks : Reader Char Unit := do let _ ← Reader.run isBlank

/-- The end of a line: a line feed, or a carriage return and a line feed. -/
def newline : Reader Char (List Char) :=
  (Reader.char '\n' *> pure ['\n']) <|> (Reader.word "\r\n" *> pure ['\r', '\n'])

/-! ## Strings -/

/-- The characters after a backslash and what they stand for. -/
def escapes : List (Char × Char) :=
  [('b', '\x08'), ('t', '\t'), ('n', '\n'), ('f', '\x0c'), ('r', '\r'), ('"', '"'), ('\\', '\\')]

/-- The character with a code; halves of surrogate pairs are none. -/
def ofCode? (code : Nat) : Option Char :=
  if h : code.isValidChar then some (Char.ofNatAux code h) else none

/-- The character that `n` hexadecimal digits name. -/
def codePoint (n : Nat) : Reader Char Char := do
  let digits ← Reader.times (Reader.one isHexDigit) n
  match ofCode? (digitsValue 16 digits) with
  | some c => return c
  | none => failure

/-- A character that is written after a backslash. -/
def escaped : Reader Char Char := do
  Reader.char '\\'
  let c ← Reader.one fun _ => true
  if c = 'u' then codePoint 4
  else if c = 'U' then codePoint 8
  else match escapes.lookup c with
    | some e => return e
    | none => failure

/-- A string between double quotes. -/
def basicString : Reader Char String := do
  Reader.char '"'
  let cs ← Reader.many (escaped <|> Reader.one fun c => isPrintable c && c ≠ '"' && c ≠ '\\')
  Reader.char '"'
  return String.ofList cs

/-- A string between single quotes. -/
def literalString : Reader Char String := do
  Reader.char '\''
  let cs ← Reader.run fun c => isPrintable c && c ≠ '\''
  Reader.char '\''
  return String.ofList cs

/-- A backslash at the end of a line; it swallows all white space that follows. -/
def lineContinuation : Reader Char (List Char) := do
  Reader.char '\\'
  blanks
  let _ ← newline
  let _ ← Reader.many ((Reader.one isBlank *> pure []) <|> newline)
  return []

/-- A quote that does not belong to the end of a string over several lines. -/
def innerQuote (quote : Char) : Reader Char (List Char) := fun cs =>
  if [quote, quote, quote].isPrefixOf cs then none
  else (Reader.char quote *> pure [quote]) cs

/-- A string between triple quotes, made of the given parts. A newline at the start does
not count, and up to two quotes may stand before the closing ones. -/
def longString (quote : Char) (part : Reader Char (List Char)) : Reader Char String := do
  let triple := String.ofList [quote, quote, quote]
  Reader.word triple
  let _ ← optional newline
  let parts ← Reader.many (innerQuote quote <|> newline <|> part)
  Reader.word triple
  let extra ← Reader.upTo (Reader.one (· = quote)) 2
  return String.ofList (parts.flatten ++ extra)

/-- A string between triple double quotes. -/
def longBasicString : Reader Char String :=
  longString '"' <|
    (([·]) <$> escaped) <|> lineContinuation <|>
      (([·]) <$> Reader.one fun c => isPrintable c && c ≠ '"' && c ≠ '\\')

/-- A string between triple single quotes. -/
def longLiteralString : Reader Char String :=
  longString '\'' (([·]) <$> Reader.one fun c => isPrintable c && c ≠ '\'')

/-- A string in any form. -/
def string : Reader Char String :=
  longBasicString <|> longLiteralString <|> basicString <|> literalString

/-! ## Numbers -/

/-- Digits with single underscores between them. -/
def digitGroups (isDigit : Char → Bool) : Reader Char (List Char) :=
  List.flatten <$> Reader.separated (Reader.char '_') (Reader.run₁ isDigit)

/-- A sign, and whether it is a minus. -/
def sign : Reader Char Bool :=
  (Reader.char '-' *> pure true) <|> (Reader.char '+' *> pure false) <|> pure false

/-- Decimal digits that do not start with a zero, or a zero alone. -/
def wholePart : Reader Char (List Char) := do
  let digits ← digitGroups Char.isDigit
  if digits.length = 1 || digits.head? ≠ some '0' then return digits else failure

/-- An integer, if 128 bits can hold it. -/
def ofInteger (n : Int) : Value :=
  if -Int.ofNat (Nat.pow 2 127) ≤ n ∧ n < Int.ofNat (Nat.pow 2 128) then .integer n else .garbled

/-- An integer in decimal digits. -/
def decimalInteger : Reader Char Value := do
  let negative ← sign
  let n : Int := digitsValue 10 (← wholePart)
  return ofInteger (if negative then -n else n)

/-- An integer in another base, after the mark of the base. -/
def basedInteger (mark : String) (base : Nat) (isDigit : Char → Bool) : Reader Char Value := do
  Reader.word mark
  return ofInteger (digitsValue base (← digitGroups isDigit))

/-- The exponent after its mark. -/
def exponent : Reader Char Int := do
  let _ ← Reader.one fun c => c = 'e' || c = 'E'
  let negative ← sign
  let n : Int := digitsValue 10 (← digitGroups Char.isDigit)
  return if negative then -n else n

/-- A number with a fraction, an exponent, or both. -/
def float : Reader Char Value := do
  let _ ← sign
  let whole ← wholePart
  let fraction ← optional (Reader.char '.' *> digitGroups Char.isDigit)
  let exp ← optional exponent
  let digits := fraction.getD []
  if fraction.isNone && exp.isNone then failure
  else if overflows (digitsValue 10 (whole ++ digits)) (exp.getD 0 - digits.length) then
    return .garbled
  else return .decimal

/-- Infinity, or what is not a number. -/
def specialFloat : Reader Char Value :=
  sign *> (Reader.word "inf" <|> Reader.word "nan") *> pure .decimal

/-! ## Dates and times -/

/-- A number of `n` digits within a range. -/
def field (n least greatest : Nat) : Reader Char Nat := do
  let v := digitsValue 10 (← Reader.times (Reader.one Char.isDigit) n)
  if least ≤ v && v ≤ greatest then return v else failure

def isLeapYear (year : Nat) : Bool := year % 4 = 0 && (year % 100 ≠ 0 || year % 400 = 0)

def daysIn (year month : Nat) : Nat :=
  if month = 2 then (if isLeapYear year then 29 else 28)
  else if [4, 6, 9, 11].contains month then 30
  else 31

def date : Reader Char Unit := do
  let year ← field 4 0 9999
  Reader.char '-'
  let month ← field 2 1 12
  Reader.char '-'
  let _ ← field 2 1 (daysIn year month)

def clockTime : Reader Char Unit := do
  let _ ← field 2 0 23 <* Reader.char ':'
  let _ ← field 2 0 59 <* Reader.char ':'
  let _ ← field 2 0 60
  let _ ← optional (Reader.char '.' *> Reader.run₁ Char.isDigit)

/-- The distance from universal time. -/
def offset : Reader Char Unit :=
  (do let _ ← Reader.one fun c => c = 'Z' || c = 'z') <|>
  (do
    let _ ← Reader.one fun c => c = '+' || c = '-'
    let _ ← field 2 0 23 <* Reader.char ':'
    let _ ← field 2 0 59)

/-- A date with or without a time, or a time. -/
def dateTime : Reader Char Value :=
  (do
    date
    let _ ← optional (Reader.one (fun c => c = 'T' || c = 't' || c = ' ') *> clockTime *>
      optional offset)
    return .date) <|> (clockTime *> pure .date)

/-! ## Scalars -/

/-- Characters that continue a scalar without quotes. -/
def isScalarChar (c : Char) : Bool :=
  c.isAlphanum || c = '_' || c = '+' || c = '-' || c = '.' || c = ':'

/-- Succeeds where no scalar goes on. -/
def scalarEnd : Reader Char Unit
  | c :: rest => if isScalarChar c then none else some ((), c :: rest)
  | [] => some ((), [])

/-- A scalar of any kind. -/
def scalar : Reader Char Value :=
  Reader.oneOf
    [.text <$> string,
     Reader.word "true" *> scalarEnd *> pure (.flag true),
     Reader.word "false" *> scalarEnd *> pure (.flag false),
     dateTime <* scalarEnd,
     float <* scalarEnd,
     specialFloat <* scalarEnd,
     basedInteger "0x" 16 isHexDigit <* scalarEnd,
     basedInteger "0o" 8 (fun c => '0' ≤ c && c ≤ '7') <* scalarEnd,
     basedInteger "0b" 2 (fun c => c = '0' || c = '1') <* scalarEnd,
     decimalInteger <* scalarEnd]

end LiveSelect.Toml
