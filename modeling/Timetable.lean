import Timetable.Expression
import Timetable.Proofs.Expression.Grammar
import Timetable.Proofs.Schedule.Equivalence
import Timetable.Proofs.Schedule.Exclusion
import Timetable.Proofs.Schedule.Laws
import Timetable.Proofs.Schedule.RoundTrip
import Timetable.Proofs.Schedule.Unambiguous
import Timetable.Schedule.Algebra
import Timetable.Schedule.Encoded
import Timetable.Timestamp.Standard
import Timetable.Proofs.Expression.Interval
import Timetable.Proofs.Text.Divider
import Timetable.Proofs.Expression.Joining
import Timetable.Proofs.Schedule.Joining
import Timetable.Proofs.Timestamp.Pieces
import Timetable.Proofs.Timestamp.Renderings
import Timetable.Proofs.Timestamp.Documented
import Timetable.Proofs.Timestamp.Forms
import Timetable.Proofs.Timestamp.Patterns
import Timetable.Proofs.Timestamp.Formats
import Timetable.Proofs.Timestamp.Zoned
import Timetable.Proofs.Timestamp.Standard
import Timetable.Proofs.Timestamp.Reading
import Timetable.Proofs.Machine.Basic
import Timetable.Proofs.Machine.Values
import Timetable.Proofs.Machine.Clauses
import Timetable.Proofs.Machine.Schedules
import Timetable.Proofs.Period.Extensionality
import Timetable.Proofs.Period.Product
import Timetable.Proofs.Span.Coalesced
import Timetable.Proofs.Schedule.Normalization
import Timetable.Proofs.Calendar.Weeks
import Timetable.Proofs.Expression.Refusals
import Timetable.Proofs.Expression.Defects
import Timetable.Proofs.Expression.Layout
import Timetable.Proofs.Expression.Reordering
import Timetable.Proofs.Schedule.Reordering
import Timetable.Proofs.Expression.Tokens
import Timetable.Proofs.Period.Reports
