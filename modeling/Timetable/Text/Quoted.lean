import Timetable.Text.Quoted.DefaultIgnorable
import Timetable.Text.Quoted.ExtendingMark
import Timetable.Text.Quoted.Unprintable

/-!
# Quoted texts

Messages show a text between quotation marks. Quotation marks, backslashes, the
four common controls and every character that would not print on its own are
escaped.
-/

namespace Timetable.Text

/-- Whether a character would not show as itself between other characters: it does not
print, it attaches to the one before it, or it is ignored unless supported. -/
def isHidden (c : Char) : Bool :=
  unprintableRanges.contains c || extendingMarkRanges.contains c ||
    defaultIgnorableRanges.contains c

/-- How a character is written between quotation marks. -/
def escaped (c : Char) : Text :=
  match c with
  | '\x00' => ['\\', '0']
  | '\t' => ['\\', 't']
  | '\r' => ['\\', 'r']
  | '\n' => ['\\', 'n']
  | '"' => ['\\', '"']
  | '\\' => ['\\', '\\']
  | c => if isHidden c then "\\u\x7b".toList ++ Nat.toDigits 16 c.toNat ++ "\x7d".toList else [c]

/-- A text between quotation marks. -/
def quoted (t : Text) : Text := ['"'] ++ t.flatMap escaped ++ ['"']

example : quoted "a\t'é\"\u00a0".toList = "\"a\\t'é\\\"\\u\x7ba0\x7d\"".toList := by decide +kernel

example : quoted "\u3164\uff9e".toList = "\"\\u\x7b3164\x7d\uff9e\"".toList := by decide +kernel

end Timetable.Text
