import LiveSelect.Id
import LiveSelect.Uuid
import LiveSelect.Text.Blank

/-! # Containers

Items live in containers. A container stands for a table, or it is the one that holds
the constants of a query. -/

namespace LiveSelect

/-- What identifies a table in a database. -/
structure TableIdentity where
  catalog : Option String := none
  schema : Option String := none
  name : String
deriving DecidableEq

/-- What a container stands for. -/
inductive ContainerKind where
  | table (identity : TableIdentity)
  | constants
deriving DecidableEq

/-- A named, ordered group of items. -/
structure Container where
  name : String
  aliasName : Option String := none
  kind : ContainerKind
  items : List ItemId := []
  uuid : Uuid
deriving DecidableEq

namespace Container

/-- The name of every container of constants. -/
def constantsName : String := "Constants"

/-- An empty container for a table; it takes the table's name. -/
def ofTable (identity : TableIdentity) (uuid : Uuid) : Container :=
  { name := identity.name, kind := .table identity, uuid }

/-- An empty container of constants. -/
def ofConstants (uuid : Uuid) : Container :=
  { name := constantsName, kind := .constants, uuid }

/-- The table a container stands for. -/
def identity? (c : Container) : Option TableIdentity :=
  match c.kind with
  | .table identity => some identity
  | .constants => none

def isConstants (c : Container) : Bool := c.identity?.isNone

/-- The alias, unless it is empty. -/
def activeAlias? (c : Container) : Option String := Text.nonEmpty? c.aliasName

/-- The name by which a statement refers to the container: its alias, unless that is
empty, and its name otherwise. -/
def correlationName (c : Container) : String := c.activeAlias?.getD c.name

end Container

end LiveSelect
