/-!
# Texts and blanks

A text is a list of characters. Blanks are the characters with the Unicode
property White_Space; trimming and splitting into words both go by them.
-/

namespace Timetable

/-- A text, character by character. -/
abbrev Text := List Char

namespace Text

/-- The characters of Unicode's White_Space property, all 25 of them. -/
def isBlank (c : Char) : Bool :=
  let n := c.toNat
  (0x9 ≤ n && n ≤ 0xD) || n == 0x20 || n == 0x85 || n == 0xA0 || n == 0x1680 ||
    (0x2000 ≤ n && n ≤ 0x200A) || n == 0x2028 || n == 0x2029 || n == 0x202F ||
    n == 0x205F || n == 0x3000

/-- A text without its longest suffix of characters that satisfy `p`. -/
def dropEndWhile (p : Char → Bool) (t : Text) : Text :=
  (t.reverse.dropWhile p).reverse

def trimStart (t : Text) : Text := t.dropWhile isBlank

def trimEnd (t : Text) : Text := dropEndWhile isBlank t

/-- A text without the blanks at its two ends. -/
def trim (t : Text) : Text := trimEnd (trimStart t)

/-- The maximal runs of characters that are not blank, in order. -/
def words (t : Text) : List Text :=
  (t.splitOnP isBlank).filter fun w => !w.isEmpty

/-- The number of bytes of a text in UTF-8. -/
def byteLength (t : Text) : Nat := t.foldr (fun c n => c.utf8Size + n) 0

/-- A nonempty run of ASCII digits. -/
def isNumeral (t : Text) : Bool := !t.isEmpty && t.all Char.isDigit

/-- The number that a run of digits writes in base ten. -/
def toNat (t : Text) : Nat := Nat.ofDigitChars 10 t 0

/-- The shortest decimal digits of a number. -/
def ofNat (n : Nat) : Text := Nat.toDigits 10 n

/-- Equality up to the case of ASCII letters. -/
def equalsIgnoringCase (s t : Text) : Bool :=
  s.map Char.toLower == t.map Char.toLower

theorem toNat_ofNat (n : Nat) : toNat (ofNat n) = n := by
  simp [toNat, ofNat]

theorem trimStart_eq_nil_iff (t : Text) : trimStart t = [] ↔ ∀ c ∈ t, isBlank c = true := by
  induction t with
  | nil => simp [trimStart]
  | cons c rest ih =>
    by_cases h : isBlank c <;> simp_all [trimStart]

@[simp] theorem byteLength_append (s t : Text) :
    byteLength (s ++ t) = byteLength s + byteLength t := by
  induction s with
  | nil => simp [byteLength]
  | cons c rest ih =>
    simp only [byteLength, List.cons_append, List.foldr_cons] at ih ⊢
    omega

theorem trimStart_length_le (t : Text) : (trimStart t).length ≤ t.length :=
  (List.dropWhile_suffix isBlank).length_le

end Text

end Timetable
