import LiveSelect.Query.Basic
import LiveSelect.Document.Entities

/-! # Settings

Settings give what new queries start with. They are read from a TOML text; whatever it
leaves out takes its default, and keys that mean nothing are passed over. -/

namespace LiveSelect

open Document

/-- All settings: so far those of new queries. -/
structure Settings where
  query : QuerySettings := {}
deriving DecidableEq

namespace QuerySettings

def fields : List String := ["row_limit", "streaming_row_limit", "streaming", "dialect"]

def toValue (s : QuerySettings) : Value :=
  .table
    [("row_limit", .ofWord s.rowLimit),
     ("streaming_row_limit", .ofWord s.streamingRowLimit),
     ("streaming", .flag s.streaming),
     ("dialect", .text (nameIn Dialect.ownNames s.dialect))]

def ofValue? (c : Conventions) (v : Value) : Option QuerySettings := do
  let r ← Record.ofValue? c false fields v
  let default : QuerySettings := {}
  return {
    rowLimit := ← r.defaulted "row_limit" default.rowLimit Value.word?
    streamingRowLimit := ← r.defaulted "streaming_row_limit" default.streamingRowLimit Value.word?
    streaming := ← r.defaulted "streaming" default.streaming Value.flag?
    dialect := ← r.defaulted "dialect" default.dialect (choice? c Dialect.ownNames) }

end QuerySettings

namespace Settings

def fields : List String := ["query"]

def toValue (s : Settings) : Value := .table [("query", s.query.toValue)]

def ofValue? (c : Conventions) (v : Value) : Option Settings := do
  let r ← Record.ofValue? c false fields v
  return { query := ← r.defaulted "query" {} (QuerySettings.ofValue? c) }

end Settings

end LiveSelect
