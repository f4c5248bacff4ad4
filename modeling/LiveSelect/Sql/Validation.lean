import LiveSelect.Sql.Grammar
import LiveSelect.Query.Statement

/-! # Validation

A text is valid if it is blank, which is what a query without a selection yields, or forms
SELECT statements. The query itself never reads SQL; this checks what it writes. -/

namespace LiveSelect

/-- Refuses a text that is no SQL for a dialect. -/
def Sql.validate (d : Dialect) (sql : String) : Except QueryError Unit :=
  if Text.isBlank sql || isStatement d sql then .ok ()
  else .error (.invalidSql (d.name ++ ": not a SELECT statement\nSQL: " ++ sql))

/-- Refuses a query whose text is no SQL for its dialect. -/
def Query.validate (q : Query) : Except QueryError Unit := Sql.validate q.dialect q.text

end LiveSelect
