import LiveSelect.Sql.Token

/-! # The grammar of SELECT statements

Decides whether tokens form SELECT statements with semicolons between them. Nothing is
built: a reader of the grammar takes the tokens it accounts for. -/

namespace LiveSelect.Sql

/-- Takes the tokens of a part of a statement. -/
abbrev Grammar := Reader Token Unit

/-! ## Words and marks -/

/-- A keyword, in any case. -/
def keyword (k : String) : Grammar := do
  let _ ← Reader.one fun
    | .word w => Text.uppercase w = k
    | _ => false

/-- Keywords one after the other. -/
def keywords (ks : List String) : Grammar := ks.forM keyword

def mark (m : String) : Grammar := do let _ ← Reader.one (· = .mark m)

/-- One of several marks. -/
def anyMark (ms : List String) : Grammar := Reader.oneOf (ms.map mark)

/-- Something that may be missing. -/
def perhaps (g : Grammar) : Grammar := g <|> pure ()

/-- One or more parts with commas between them. -/
def commaList (g : Grammar) : Grammar := do let _ ← Reader.separated (mark ",") g

/-- Parts with operators between them. -/
def chain (operator operand : Grammar) : Grammar := do
  let _ ← Reader.separated operator operand

def parenthesised (g : Grammar) : Grammar := mark "(" *> g <* mark ")"

/-- Words that are no names unless they stand in quotes or after a point. -/
def reserved : List String :=
  ["SELECT", "DISTINCT", "FROM", "WHERE", "GROUP", "HAVING", "ORDER", "BY", "LIMIT", "OFFSET",
   "FETCH", "UNION", "EXCEPT", "INTERSECT", "JOIN", "INNER", "LEFT", "RIGHT", "FULL", "OUTER",
   "CROSS", "NATURAL", "ON", "USING", "AS", "AND", "OR", "NOT", "IN", "BETWEEN", "LIKE", "IS",
   "CASE", "WHEN", "THEN", "ELSE", "END", "EXISTS", "CAST", "WITH", "WINDOW"]

/-- A name of one part. -/
def name : Grammar := do
  let _ ← Reader.one fun
    | .word w => !reserved.contains (Text.uppercase w)
    | .quotedName _ => true
    | _ => false

/-- A name after a word that introduces it, where keywords are names too. -/
def anyName : Grammar := do
  let _ ← Reader.one fun
    | .word _ | .quotedName _ => true
    | _ => false

/-- A name with points between its parts. -/
def compoundName : Grammar := do
  name
  let _ ← Reader.many (mark "." *> anyName)

def stringLiteral : Grammar := do let _ ← Reader.one (· = .string)

def numberLiteral : Grammar := do let _ ← Reader.one (· = .number)

/-! ## Expressions -/

/-- The arguments of a function. -/
def arguments (expression : Grammar) : Grammar :=
  parenthesised
    (perhaps (mark "*" <|> (perhaps (keyword "DISTINCT" <|> keyword "ALL") *> commaList expression)))

/-- The name of a type, with its size. -/
def typeName : Grammar :=
  name *> perhaps (parenthesised (commaList numberLiteral))

/-- A case distinction. -/
def caseExpression (expression : Grammar) : Grammar := do
  keyword "CASE"
  perhaps expression
  let branch := keyword "WHEN" *> expression *> keyword "THEN" *> expression
  branch
  let _ ← Reader.many branch
  perhaps (keyword "ELSE" *> expression)
  keyword "END"

/-- An expression without operators. -/
def primary (expression select : Grammar) : Grammar :=
  Reader.oneOf
    [numberLiteral,
     stringLiteral,
     mark "?",
     parenthesised select,
     parenthesised (commaList expression),
     caseExpression expression,
     keyword "EXISTS" *> parenthesised select,
     keyword "CAST" *> parenthesised (expression *> keyword "AS" *> typeName),
     (keyword "DATE" <|> keyword "TIME" <|> keyword "TIMESTAMP") *> stringLiteral,
     compoundName *> perhaps (arguments expression)]

/-- A primary expression under signs. -/
def signed (primary : Grammar) : Grammar := do
  let _ ← Reader.many (anyMark ["+", "-"])
  primary

/-- Sums of products. -/
def arithmetic (primary : Grammar) : Grammar :=
  chain (anyMark ["+", "-", "||"]) (chain (anyMark ["*", "/", "%"]) (signed primary))

/-- What may follow the left operand of a condition. -/
def predicate (expression select operand : Grammar) : Grammar :=
  Reader.oneOf
    [anyMark ["=", "<>", "!=", "<=", ">=", "<", ">"] *> operand,
     keyword "IS" *> perhaps (keyword "NOT") *>
       (keyword "NULL" <|> keyword "TRUE" <|> keyword "FALSE"),
     perhaps (keyword "NOT") *> keyword "IN" *>
       (parenthesised select <|> parenthesised (commaList expression)),
     perhaps (keyword "NOT") *> keyword "BETWEEN" *> operand *> keyword "AND" *> operand,
     perhaps (keyword "NOT") *> (keyword "LIKE" <|> keyword "ILIKE") *> operand]

/-- A condition under negations. -/
def condition (expression select primary : Grammar) : Grammar := do
  let _ ← Reader.many (keyword "NOT")
  let operand := arithmetic primary
  operand
  let _ ← Reader.many (predicate expression select operand)

/-! ## Statements -/

/-- A name that a column or a table is given. -/
def aliasName : Grammar :=
  (keyword "AS" *> (anyName <|> stringLiteral)) <|> name <|> stringLiteral

/-- An entry of the projection. -/
def projection (expression : Grammar) : Grammar :=
  mark "*" <|>
  (do
    let _ ← Reader.many (name *> mark ".")
    mark "*") <|>
  (expression *> perhaps aliasName)

/-- A table, or a statement in its place. -/
def source (select : Grammar) : Grammar :=
  (parenthesised select <|> compoundName) *> perhaps aliasName

/-- The keywords before a joined table. -/
def joinKeywords : Grammar :=
  Reader.oneOf
    [keyword "INNER",
     (keyword "LEFT" <|> keyword "RIGHT" <|> keyword "FULL") *> perhaps (keyword "OUTER"),
     keyword "CROSS",
     pure ()] *> keyword "JOIN"

/-- A source with the tables joined to it. -/
def joined (expression select : Grammar) : Grammar := do
  source select
  let _ ← Reader.many do
    joinKeywords
    source select
    perhaps (keyword "ON" *> expression <|> keyword "USING" *> parenthesised (commaList name))

/-- An entry of the ordering. -/
def ordering (expression : Grammar) : Grammar := do
  expression
  perhaps (keyword "ASC" <|> keyword "DESC")
  perhaps (keyword "NULLS" *> (keyword "FIRST" <|> keyword "LAST"))

/-- A statement up to its ordering. -/
def core (expression select : Grammar) : Grammar := do
  keyword "SELECT"
  perhaps (keyword "DISTINCT" <|> keyword "ALL")
  commaList (projection expression)
  perhaps (keyword "FROM" *> commaList (joined expression select))
  perhaps (keyword "WHERE" *> expression)
  perhaps (keywords ["GROUP", "BY"] *> commaList expression)
  perhaps (keyword "HAVING" *> expression)

/-- A statement whose conditions and values are expressions. -/
def selectWith (expression select : Grammar) : Grammar := do
  chain ((keyword "UNION" <|> keyword "EXCEPT" <|> keyword "INTERSECT") *>
    perhaps (keyword "ALL" <|> keyword "DISTINCT")) (core expression select)
  perhaps (keywords ["ORDER", "BY"] *> commaList (ordering expression))
  perhaps (keyword "LIMIT" *> expression)
  perhaps (keyword "OFFSET" *> expression)

mutual

/-- An expression, nested at most as deep as the first argument says. -/
def expression : Nat → Grammar
  | 0, _ => none
  | depth + 1, ts =>
    let inner := expression depth
    let conditions := condition inner (select depth) (primary inner (select depth))
    chain (keyword "OR") (chain (keyword "AND") conditions) ts

/-- A statement, nested at most as deep as the first argument says. -/
def select : Nat → Grammar
  | 0, _ => none
  | depth + 1, ts => selectWith (expression depth) (select depth) ts

end

/-- Statements with semicolons between them. -/
def statements (depth : Nat) : Grammar := do
  let semicolons := Reader.many (mark ";")
  let _ ← semicolons
  let _ ← Reader.separated (mark ";" *> semicolons) (select depth)
  let _ ← semicolons

/-- Whether a text is a sequence of SELECT statements. -/
def isStatement (d : Dialect) (s : String) : Bool :=
  match tokens? d s with
  | some ts => ((statements (2 * ts.length + 1)).whole? ts).isSome
  | none => false

end LiveSelect.Sql
