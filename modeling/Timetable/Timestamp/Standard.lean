import Timetable.Timestamp
import Timetable.Timestamp.Internet
import Timetable.Timestamp.Mail
import Timetable.Timestamp.Pattern

/-!
# Standard parsers

Parsers of dates and times that read the Internet form, the mail form and formats from
the front of a text to its end.
-/

namespace Timetable.Timestamp

def Parsers.standard : Parsers where
  internet? := Internet.zoned?
  mail? := Mail.zoned?
  instant? format t := do
    let pattern ← Pattern.ofFormat? format
    pattern.instant? t
  date? format t := do
    let pattern ← Pattern.ofFormat? format
    pattern.date? t

end Timetable.Timestamp
