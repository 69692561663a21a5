import Timetable.Text.Lowercase.CaseIgnorable
import Timetable.Text.Lowercase.Cased
import Timetable.Text.Lowercase.LetterRun

/-!
# Lowercasing

Each character has a lowercase form of its own, of one or two characters. Only
the capital sigma looks at its neighbours: at the end of a word it becomes the
final sigma. A word ends where the next character that is not case-ignorable is
not cased, and the one before is.
-/

namespace Timetable.Text

def isCased (c : Char) : Bool := casedRanges.contains c

def isCaseIgnorable (c : Char) : Bool := caseIgnorableRanges.contains c

/-- The lowercase form of a character without regard to its neighbours. -/
def lowercaseForm (c : Char) : Text :=
  if c.toNat < 0x80 then [c.toLower]
  else if c = '\u0130' then ['i', '\u0307']
  else
    match letterRuns.find? fun run => run.lists c.toNat with
    | some run => [Char.ofNat (run.form c.toNat)]
    | none => [c]

/-- Whether the first character that is not case-ignorable is cased. -/
def leadsToCased (t : Text) : Bool :=
  match t.dropWhile isCaseIgnorable with
  | c :: _ => isCased c
  | [] => false

/-- The lowercase form of a capital sigma, from the text on either side. -/
def lowercaseSigma (afterCased : Bool) (rest : Text) : Char :=
  if afterCased && !leadsToCased rest then 'ς' else 'σ'

/-- The lowercase form of a text. `afterCased` says whether the last character
before it that is not case-ignorable is cased. -/
def lowercaseAfter (afterCased : Bool) : Text → Text
  | [] => []
  | c :: rest =>
    let form := if c = 'Σ' then [lowercaseSigma afterCased rest] else lowercaseForm c
    form ++ lowercaseAfter (if isCaseIgnorable c then afterCased else isCased c) rest

/-- The lowercase form of a whole text. -/
def lowercase (t : Text) : Text := lowercaseAfter false t

example : lowercase "ΑΣ.Α ΑΣ, MON".toList = "ασ.α ας, mon".toList := by decide +kernel

end Timetable.Text
