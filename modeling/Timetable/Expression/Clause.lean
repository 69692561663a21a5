import Timetable.Expression.Item
import Timetable.Period.Basic
import Timetable.Text.Lowercase

/-!
# Clauses

A clause is an optional negation and one or more groups, each a scale and a body
between braces. A body holds no closing brace, so the closing braces cut a
clause into its groups. Whatever starts no group is left over and makes the
clause malformed, but only if all groups before it are valid.
-/

namespace Timetable.Expression

/-- A scale and the text between the braces behind it. -/
structure Group where
  scale : Scale
  body : Text
deriving DecidableEq

namespace Group

/-- Drops the ending of a plural. -/
def dropPlural : Text → Text
  | 's' :: rest => rest
  | t => t

/-- The group that a text forms with the closing brace behind it. -/
def ofText? (t : Text) : Option Group :=
  match Scale.read? (Text.trimStart t) with
  | none => none
  | some (scale, rest) =>
    match Text.trimStart (dropPlural rest) with
    | '\x7b' :: body => some ⟨scale, Text.trim body⟩
    | _ => none

/-- The groups at the start of a text that closing braces have cut into pieces, and
the pieces after them. The last piece has no closing brace behind it. -/
def leading : List Text → List Group × List Text
  | piece :: next :: rest =>
    match ofText? piece with
    | some group =>
      let (groups, left) := leading (next :: rest)
      (group :: groups, left)
    | none => ([], piece :: next :: rest)
  | pieces => ([], pieces)

end Group

/-- The markers of a negation. -/
def negations : List Text := ["!".toList, "not ".toList, "except ".toList]

/-- Drops a negation and the blanks behind it; tells whether there was one. -/
def dropNegation (t : Text) : Text × Bool :=
  match negations.findSome? fun negation => negation.isPrefixOf? t with
  | some rest => (Text.trimStart rest, true)
  | none => (t, false)

/-- A clause cut into groups, and the text behind the last of them. -/
structure Clause where
  negative : Bool
  groups : List Group
  leftover : Text
deriving DecidableEq

namespace Clause

/-- Cuts a trimmed lowercase text. -/
def ofText (t : Text) : Clause :=
  let (rest, negative) := dropNegation t
  let (groups, left) := Group.leading (rest.splitOn '\x7d')
  ⟨negative, groups, ['\x7d'].intercalate left⟩

/-- Whether there are groups and nothing but blanks behind them. -/
def isComplete (clause : Clause) : Bool :=
  !clause.groups.isEmpty && clause.leftover.all Text.isBlank

end Clause

/-- Reads one clause: its period and whether that is negated. -/
def readClause (t : Text) : Logged Error (Period × Bool) := do
  let lower := Text.lowercase (Text.trim t)
  let clause := Clause.ofText lower
  let constraints ← Logged.traverse
    (fun group : Group => do
      let spans ← readSpans group.scale group.body
      pure (group.scale, spans))
    clause.groups
  if clause.isComplete then pure (Period.ofConstraints constraints, clause.negative)
  else
    Logged.silent (.error (.malformed
      (Text.byteLength lower - Text.byteLength clause.leftover) clause.leftover))

end Timetable.Expression
