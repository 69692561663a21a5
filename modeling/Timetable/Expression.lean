import Timetable.Expression.Clause

/-!
# Expressions

An expression is a list of clauses between commas. Commas and blanks at its end
do not count; a blank expression has no clauses.
-/

namespace Timetable.Expression

/-- The trimmed lowercase text of an expression without the commas at its end. -/
def normalized (t : Text) : Text :=
  Text.lowercase (Text.trim (Text.dropEndWhile (fun c => c == ',' || Text.isBlank c) t))

/-- The texts of the clauses of an expression. -/
def clauseTexts (t : Text) : List Text :=
  if (normalized t).isEmpty then [] else (normalized t).splitOn ','

/-- Reads an expression: the periods of its clauses, first those that are not negated
and then those that are. -/
def read (t : Text) : Logged Error (List Period × List Period) := do
  let clauses ← Logged.traverse readClause (clauseTexts t)
  pure ((clauses.filter (!·.2)).map (·.1), (clauses.filter (·.2)).map (·.1))

end Timetable.Expression
