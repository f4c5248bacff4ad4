import LiveSelect.Query.Tables

/-! # New queries

A new query has a container of constants with the three pseudo-columns that every
engine knows in some spelling. -/

namespace LiveSelect.Query

/-- The pseudo-columns that a new query starts with. -/
def builtinConstants : List String := ["current_time", "current_date", "user"]

/-- A query that holds nothing but an empty container of constants. -/
def bare (uuid : Uuid) (mint : Minting) : Query :=
  { uuid
    containers := IdMap.empty.insert (.ofCount 0) (.ofConstants (mint 0))
    constants := .ofCount 0
    count := 1 }

/-- Adds a constant to the container of constants. -/
def addConstant (mint : Minting) (q : Query) (name : String) : Query :=
  (q.insertItem q.constants { name, kind := .constant } (mint q.count)).2.query

/-- A new query with the given identifier. -/
def create (uuid : Uuid) (mint : Minting) : Query :=
  builtinConstants.foldl (addConstant mint) (bare uuid mint)

/-- A new query with settings. -/
def createWith (settings : QuerySettings) (uuid : Uuid) (mint : Minting) : Query :=
  { create uuid mint with
    rowLimit := settings.rowLimit
    streamingRowLimit := settings.streamingRowLimit
    streaming := settings.streaming
    dialect := settings.dialect }

end LiveSelect.Query
