import Mathlib.Data.List.DropRight
import Mathlib.Data.List.TakeWhile
import Timetable.Text.Basic

/-!
# Words between gaps

A gap is a run of blanks, possibly empty. A text spaces out words when it is
these words with gaps around them, none of them empty between two words.
Splitting a text into words is the inverse of spacing words out, so gaps at the
ends of a text and the width of gaps never show in its words.
-/

namespace Timetable.Text

/-- Blanks and nothing else. -/
def IsGap (t : Text) : Prop := ∀ c ∈ t, isBlank c = true

instance (t : Text) : Decidable (IsGap t) := List.decidableBAll _ t

/-- A nonempty text without blanks. -/
def IsWord (t : Text) : Prop := t ≠ [] ∧ ∀ c ∈ t, isBlank c = false

/-- What may follow a word without making it longer: nothing, or a text that starts
with a blank. -/
def EndsWord (t : Text) : Prop := ∀ c ∈ t.head?, isBlank c = true

/-- The text consists of the words, with gaps before, between and after them. -/
inductive Spaces : List Text → Text → Prop
  | nil {gap} (hgap : IsGap gap) : Spaces [] gap
  | cons {gap w ws t} (hgap : IsGap gap) (hw : IsWord w) (hend : EndsWord t)
      (tail : Spaces ws t) : Spaces (w :: ws) (gap ++ (w ++ t))

theorem isDigit_iff_toNat (c : Char) : c.isDigit = true ↔ 48 ≤ c.toNat ∧ c.toNat ≤ 57 := by
  simp [Char.isDigit, UInt32.le_iff_toNat_le]

theorem isGap_nil : IsGap [] := fun _ h => absurd h List.not_mem_nil

theorem isGap_cons {c : Char} {t : Text} : IsGap (c :: t) ↔ isBlank c = true ∧ IsGap t :=
  List.forall_mem_cons

theorem isGap_append {s t : Text} : IsGap (s ++ t) ↔ IsGap s ∧ IsGap t :=
  List.forall_mem_append

theorem isGap_blank : IsGap [' '] := isGap_cons.mpr ⟨by decide, isGap_nil⟩

theorem endsWord_nil : EndsWord [] := fun _ h => by simp at h

theorem endsWord_cons {c : Char} {t : Text} : EndsWord (c :: t) ↔ isBlank c = true := by
  simp [EndsWord]

theorem IsGap.endsWord {gap : Text} (h : IsGap gap) : EndsWord gap := by
  cases gap with
  | nil => exact endsWord_nil
  | cons c rest => exact endsWord_cons.mpr (h c List.mem_cons_self)

theorem IsGap.notMem {gap : Text} {c : Char} (h : IsGap gap) (hc : isBlank c = false) :
    c ∉ gap := by
  intro hmem
  rw [h c hmem] at hc
  cases hc

theorem trimStart_gap_append {gap : Text} (h : IsGap gap) (t : Text) :
    trimStart (gap ++ t) = trimStart t := List.dropWhile_append_of_pos h

theorem trimStart_of_head {c : Char} {t : Text} (h : isBlank c = false) :
    trimStart (c :: t) = c :: t := by
  simp [trimStart, h]

theorem trimStart_eq_self {t : Text} (h : ∀ c ∈ t.head?, isBlank c = false) :
    trimStart t = t := by
  cases t with
  | nil => rfl
  | cons c rest => exact trimStart_of_head (h c rfl)

/-- A text is a gap with the trimmed text behind it. -/
theorem exists_gap_trimStart (t : Text) : ∃ gap, IsGap gap ∧ t = gap ++ trimStart t :=
  ⟨t.takeWhile isBlank, fun _ h => List.mem_takeWhile_imp h,
    List.takeWhile_append_dropWhile.symm⟩

theorem exists_gap_trimEnd (t : Text) : ∃ gap, IsGap gap ∧ t = trimEnd t ++ gap := by
  obtain ⟨gap, hgap, ht⟩ := exists_gap_trimStart t.reverse
  refine ⟨gap.reverse, fun c hc => hgap c (List.mem_reverse.mp hc), ?_⟩
  calc
    t = t.reverse.reverse := (List.reverse_reverse t).symm
    _ = (gap ++ trimStart t.reverse).reverse := by rw [← ht]
    _ = trimEnd t ++ gap.reverse := List.reverse_append

/-- A text is its trimmed text between two gaps. -/
theorem exists_gap_trim (t : Text) :
    ∃ before after, IsGap before ∧ IsGap after ∧ t = before ++ (trim t ++ after) := by
  obtain ⟨before, hbefore, hstart⟩ := exists_gap_trimStart t
  obtain ⟨after, hafter, hend⟩ := exists_gap_trimEnd (trimStart t)
  refine ⟨before, after, hbefore, hafter, ?_⟩
  calc
    t = before ++ trimStart t := hstart
    _ = before ++ (trim t ++ after) := congrArg (before ++ ·) hend

theorem words_nil : words [] = [] := rfl

theorem words_blank_cons {c : Char} (h : isBlank c = true) (t : Text) :
    words (c :: t) = words t := by
  simp [words, List.splitOnP_cons_eq_if_modifyHead, h]

theorem words_append_blank_cons {c : Char} (h : isBlank c = true) (s t : Text) :
    words (s ++ c :: t) = words s ++ words t := by
  rw [words, List.splitOnP_append_cons s t h, List.filter_append]
  rfl

theorem words_gap_append {gap : Text} (h : IsGap gap) (t : Text) :
    words (gap ++ t) = words t := by
  induction gap with
  | nil => rfl
  | cons c rest ih =>
      obtain ⟨hc, hrest⟩ := isGap_cons.mp h
      rw [List.cons_append, words_blank_cons hc, ih hrest]

theorem words_gap {gap : Text} (h : IsGap gap) : words gap = [] := by
  simpa [words_nil] using words_gap_append h []

theorem words_append_gap {gap : Text} (h : IsGap gap) (t : Text) :
    words (t ++ gap) = words t := by
  cases gap with
  | nil => rw [List.append_nil]
  | cons c rest =>
      obtain ⟨hc, hrest⟩ := isGap_cons.mp h
      rw [words_append_blank_cons hc, words_gap hrest, List.append_nil]

/-- A word at the start of a text is the first of its words. -/
theorem words_word_append {w t : Text} (hw : IsWord w) (hend : EndsWord t) :
    words (w ++ t) = w :: words t := by
  have hkeep : (!w.isEmpty) = true := by simpa using hw.1
  cases t with
  | nil => simp [words, List.splitOnP_eq_singleton hw.2, hkeep]
  | cons c rest =>
      have hc := endsWord_cons.mp hend
      rw [words, List.splitOnP_append_cons_of_forall_mem hw.2 c hc, List.filter_cons, if_pos hkeep,
        words_blank_cons hc]
      rfl

theorem words_trim (t : Text) : words (trim t) = words t := by
  obtain ⟨before, after, hbefore, hafter, ht⟩ := exists_gap_trim t
  calc
    words (trim t) = words (trim t ++ after) := (words_append_gap hafter _).symm
    _ = words (before ++ (trim t ++ after)) := (words_gap_append hbefore _).symm
    _ = words t := by rw [← ht]

theorem Spaces.words_eq {ws : List Text} {t : Text} (h : Spaces ws t) : words t = ws := by
  induction h with
  | nil hgap => exact words_gap hgap
  | cons hgap hw hend _ ih => rw [words_gap_append hgap, words_word_append hw hend, ih]

/-- A text that starts with no blank starts with a word. -/
theorem exists_word_append {c : Char} (hc : isBlank c = false) (t : Text) :
    ∃ w u, IsWord w ∧ EndsWord u ∧ c :: t = w ++ u := by
  refine ⟨(c :: t).takeWhile fun d => !isBlank d, (c :: t).dropWhile fun d => !isBlank d,
    ⟨by simp [hc], fun d hd => by simpa using List.mem_takeWhile_imp hd⟩, fun d hd => ?_,
    List.takeWhile_append_dropWhile.symm⟩
  have hhead := List.head?_dropWhile_not (fun d => !isBlank d) (c :: t)
  rw [Option.mem_def.mp hd] at hhead
  simpa using hhead

theorem head_trimStart {c : Char} {t rest : Text} (h : trimStart t = c :: rest) :
    isBlank c = false := by
  have hhead := List.head?_dropWhile_not isBlank t
  rw [show t.dropWhile isBlank = c :: rest from h] at hhead
  simpa using hhead

/-- Every text spaces out its words. -/
theorem spaces_words (t : Text) : Spaces (words t) t := by
  obtain ⟨gap, hgap, ht⟩ := exists_gap_trimStart t
  cases hstart : trimStart t with
  | nil =>
      rw [hstart, List.append_nil] at ht
      rw [ht, words_gap hgap]
      exact Spaces.nil hgap
  | cons c rest =>
      obtain ⟨w, u, hw, hu, hsplit⟩ := exists_word_append (head_trimStart hstart) rest
      have hshort : u.length < t.length := by
        have hlen := congrArg List.length hsplit
        have hpos := List.length_pos_of_ne_nil hw.1
        have hle := trimStart_length_le t
        rw [hstart] at hle
        rw [List.length_append] at hlen
        omega
      rw [ht, hstart, hsplit, words_gap_append hgap, words_word_append hw hu]
      exact Spaces.cons hgap hw hu (spaces_words u)
termination_by t.length

/-- Words are spaced out by exactly the texts that split into them. -/
theorem words_eq_iff (ws : List Text) (t : Text) : words t = ws ↔ Spaces ws t :=
  ⟨fun h => h ▸ spaces_words t, Spaces.words_eq⟩

theorem Spaces.gap_append {ws : List Text} {gap t : Text} (hgap : IsGap gap) (h : Spaces ws t) :
    Spaces ws (gap ++ t) := by
  cases h with
  | nil ht => exact Spaces.nil (isGap_append.mpr ⟨hgap, ht⟩)
  | cons ht hw hend tail =>
      rw [← List.append_assoc]
      exact Spaces.cons (isGap_append.mpr ⟨hgap, ht⟩) hw hend tail

/-- Words with one gap between each and the next are spaced out. -/
theorem spaces_intercalate {gap : Text} (hgap : IsGap gap) (hne : gap ≠ []) {ws : List Text}
    (h : ∀ w ∈ ws, IsWord w) : Spaces ws (gap.intercalate ws) := by
  induction ws with
  | nil => exact Spaces.nil isGap_nil
  | cons w rest ih =>
      obtain ⟨hw, hrest⟩ := List.forall_mem_cons.mp h
      cases rest with
      | nil => simpa using Spaces.cons isGap_nil hw endsWord_nil (Spaces.nil isGap_nil)
      | cons next rest =>
          obtain ⟨c, blanks, rfl⟩ := List.exists_cons_of_ne_nil hne
          have hend : EndsWord ((c :: blanks) ++ (c :: blanks).intercalate (next :: rest)) :=
            endsWord_cons.mpr (isGap_cons.mp hgap).1
          have htail := (ih hrest).gap_append hgap
          rw [List.intercalate_cons_cons, List.append_assoc]
          exact Spaces.cons isGap_nil hw hend htail

/-- Spaced words hold all characters of the text but its blanks. -/
theorem Spaces.flatten_eq {ws : List Text} {t : Text} (h : Spaces ws t) :
    ws.flatten = t.filter fun c => !isBlank c := by
  have hnone : ∀ {gap : Text}, IsGap gap → gap.filter (fun c => !isBlank c) = [] := by
    intro gap hgap
    apply List.filter_eq_nil_iff.mpr
    intro c hc
    simp [hgap c hc]
  induction h with
  | nil hgap => exact (hnone hgap).symm
  | @cons gap w ws t hgap hw _ _ ih =>
      have hall : w.filter (fun c => !isBlank c) = w := by
        apply List.filter_eq_self.mpr
        intro c hc
        simp [hw.2 c hc]
      rw [List.flatten_cons, ih, List.filter_append, List.filter_append, hnone hgap, hall,
        List.nil_append]

theorem Spaces.isWord {ws : List Text} {t : Text} (h : Spaces ws t) : ∀ w ∈ ws, IsWord w := by
  induction h with
  | nil => exact List.forall_mem_nil _
  | cons _ hw _ _ ih => exact List.forall_mem_cons.mpr ⟨hw, ih⟩

end Timetable.Text
