/-! # Case folding for ASCII keywords

Names of dialects and of pseudo-columns are recognised in any case. The keywords they
are compared with are ASCII, so the tables below give the full Unicode case mapping of
exactly those characters whose mapping is ASCII; every other character stands for
itself, and no text with such a character equals a keyword before or after folding. -/

namespace LiveSelect.Text

/-- Characters outside ASCII whose upper-case form is ASCII. -/
def asciiUppercases : List (Char × String) :=
  [('ß', "SS"), ('ı', "I"), ('ſ', "S"), ('ﬀ', "FF"), ('ﬁ', "FI"), ('ﬂ', "FL"),
   ('ﬃ', "FFI"), ('ﬄ', "FFL"), ('ﬅ', "ST"), ('ﬆ', "ST")]

/-- Characters outside ASCII whose lower-case form is ASCII: the Kelvin sign. -/
def asciiLowercases : List (Char × String) := [('\u212A', "k")]

/-- The upper-case form of a text, wherever that form is ASCII. -/
def uppercase (s : String) : String :=
  String.ofList (s.toList.flatMap fun c =>
    match asciiUppercases.lookup c with
    | some u => u.toList
    | none => [c.toUpper])

/-- The lower-case form of a text, wherever that form is ASCII. -/
def lowercase (s : String) : String :=
  String.ofList (s.toList.flatMap fun c =>
    match asciiLowercases.lookup c with
    | some l => l.toList
    | none => [c.toLower])

example : uppercase "uſer" = "USER" := by decide
example : uppercase "current_tıme" = "CURRENT_TIME" := by decide
example : lowercase "DuckDB" = "duckdb" := by decide

end LiveSelect.Text
