import Mathlib.Data.List.Chain
import Mathlib.Data.List.Induction
import Timetable.Proofs.Expression.Items

/-!
# Tokens of a text

Tokens are the words of a text, joined wherever one of two neighbours has a hyphen on
the side of the other. They can also be found from the left, with a flag that tells
whether the last word ends with a hyphen. Joining only takes blanks away, and it leaves
no two neighbours that could be joined further. So tokens that are spaced out again are
the tokens of the new text, and written items are found as they are.
-/

namespace Timetable.Expression

open Text (IsGap IsWord Spaces)

/-! ## Joining from the left -/

/-- Goes on with a word: it is joined to the last token if that is to be glued to whatever
follows, or if the word starts with a hyphen. -/
def takeUp (glue : Bool) (word : Text) : List Text → List Text
  | [] => [word]
  | [last] => if glue || word.head? == some '-' then [last ++ word] else [last, word]
  | token :: next :: rest => token :: takeUp glue word (next :: rest)

/-- The tokens of the words that have been seen, and whether the last word ends with a
hyphen. -/
structure Joining where
  tokens : List Text
  glue : Bool

namespace Joining

/-- Nothing has been seen yet. -/
def start : Joining := ⟨[], false⟩

def push (joining : Joining) (word : Text) : Joining :=
  ⟨takeUp joining.glue word joining.tokens, word.getLast? == some '-'⟩

end Joining

/-- The tokens that are found from the left. -/
def joined (words : List Text) : List Text := (words.foldl Joining.push .start).tokens

/-- A word that is taken up at the end does not change what another one is attached to. -/
theorem attach_takeUp (glue : Bool) (v word : Text) {first : Text} (rest : List Text)
    (hfirst : first ≠ []) :
    attach v (takeUp glue word (first :: rest)) = takeUp glue word (attach v (first :: rest)) := by
  cases rest with
  | nil =>
      have hhead : (first ++ word).head? = first.head? := List.head?_append_of_ne_nil _ hfirst
      by_cases hglue : (glue || word.head? == some '-') = true <;>
        by_cases hattach : v.getLast? = some '-' ∨ first.head? = some '-' <;>
          simp [takeUp, attach, hglue, hattach, hhead]
  | cons next rest =>
      rw [takeUp, attach, attach]
      split <;> rfl

/-! ## What joining keeps -/

/-- No hyphen stands where the left token meets the right one. -/
def KeepApart (left right : Text) : Prop := left.getLast? ≠ some '-' ∧ right.head? ≠ some '-'

variable {w : Text} {ws found : List Text}

theorem flatten_attach (w : Text) (found : List Text) :
    (attach w found).flatten = w ++ found.flatten := by
  cases found with
  | nil => rfl
  | cons token rest =>
      rw [attach]
      split
      · rw [List.flatten_cons, List.flatten_cons, List.append_assoc]
      · rfl

/-- Joining words makes longer words. -/
theorem isWord_of_mem_attach (hw : IsWord w) (hfound : ∀ token ∈ found, IsWord token) :
    ∀ token ∈ attach w found, IsWord token := by
  cases found with
  | nil => exact List.forall_mem_singleton.mpr hw
  | cons token rest =>
      obtain ⟨htoken, hrest⟩ := List.forall_mem_cons.mp hfound
      rw [attach]
      split
      · have hjoined : IsWord (w ++ token) := ⟨List.append_ne_nil_of_left_ne_nil hw.1 token,
          List.forall_mem_append.mpr ⟨hw.2, htoken.2⟩⟩
        exact List.forall_mem_cons.mpr ⟨hjoined, hrest⟩
      · exact List.forall_mem_cons.mpr ⟨hw, hfound⟩

/-- A word that is attached leaves no hyphen between two tokens. -/
theorem isChain_attach (w : Text) (hne : ∀ token ∈ found, token ≠ [])
    (h : found.IsChain KeepApart) : (attach w found).IsChain KeepApart := by
  cases found with
  | nil => exact .singleton w
  | cons token rest =>
      have htoken := hne token List.mem_cons_self
      have hlast : (w ++ token).getLast? = token.getLast? :=
        List.getLast?_append_of_ne_nil w htoken
      rw [attach]
      split
      · cases rest with
        | nil => exact .singleton _
        | cons next rest =>
            obtain ⟨hnext, htail⟩ := List.isChain_cons_cons.mp h
            refine List.isChain_cons_cons.mpr ⟨⟨?_, hnext.2⟩, htail⟩
            rw [hlast]
            exact hnext.1
      · next hapart => exact List.isChain_cons_cons.mpr ⟨by simpa [KeepApart] using hapart, h⟩

theorem flatten_foldr_attach (ws : List Text) : (ws.foldr attach []).flatten = ws.flatten := by
  induction ws with
  | nil => rfl
  | cons w rest ih => rw [List.foldr_cons, flatten_attach, ih, List.flatten_cons]

theorem isWord_of_mem_foldr_attach (h : ∀ w ∈ ws, IsWord w) :
    ∀ token ∈ ws.foldr attach [], IsWord token := by
  induction ws with
  | nil => exact List.forall_mem_nil _
  | cons w rest ih =>
      obtain ⟨hw, hrest⟩ := List.forall_mem_cons.mp h
      exact isWord_of_mem_attach hw (ih hrest)

theorem isChain_foldr_attach (h : ∀ w ∈ ws, IsWord w) :
    (ws.foldr attach []).IsChain KeepApart := by
  induction ws with
  | nil => exact .nil
  | cons w rest ih =>
      obtain ⟨-, hrest⟩ := List.forall_mem_cons.mp h
      apply isChain_attach w _ (ih hrest)
      intro token htoken
      exact (isWord_of_mem_foldr_attach hrest token htoken).1

/-- Tokens without hyphens between them are not joined any further. -/
theorem foldr_attach_eq_self (h : found.IsChain KeepApart) : found.foldr attach [] = found := by
  induction found with
  | nil => rfl
  | cons token rest ih =>
      cases rest with
      | nil => rfl
      | cons next rest =>
          obtain ⟨hnext, htail⟩ := List.isChain_cons_cons.mp h
          rw [List.foldr_cons, ih htail]
          apply attach_of_plain hnext.1
          rintro _ ⟨⟩
          exact hnext.2

/-! ## Both ways of joining -/

/-- One more word at the end is taken up by the tokens of the words before it. -/
theorem foldr_attach_concat (ws : List Text) (word : Text) (h : ∀ w ∈ ws, IsWord w) :
    (ws ++ [word]).foldr attach [] =
      takeUp (ws.getLast?.any fun last => last.getLast? == some '-') word (ws.foldr attach []) := by
  induction ws with
  | nil => rfl
  | cons w rest ih =>
      obtain ⟨-, hrest⟩ := List.forall_mem_cons.mp h
      cases rest with
      | nil => simp [takeUp, attach]
      | cons next rest =>
          obtain ⟨first, more, hfirst⟩ :=
            List.exists_cons_of_ne_nil (attach_ne_nil next (rest.foldr attach []))
          have hwords := isWord_of_mem_foldr_attach hrest
          rw [List.foldr_cons, hfirst] at hwords
          have hne := (hwords first List.mem_cons_self).1
          rw [List.cons_append, List.foldr_cons, ih hrest, List.getLast?_cons_cons,
            List.foldr_cons, List.foldr_cons, List.foldr_cons, hfirst, attach_takeUp _ _ _ _ hne]

/-- From the left, words have been joined like from the right, and the flag is that of the
last word. -/
theorem foldl_push_eq (ws : List Text) (h : ∀ w ∈ ws, IsWord w) :
    ws.foldl Joining.push .start =
      ⟨ws.foldr attach [], ws.getLast?.any fun last => last.getLast? == some '-'⟩ := by
  induction ws using List.reverseRecOn with
  | nil => rfl
  | append_singleton ws word ih =>
      obtain ⟨hws, -⟩ := List.forall_mem_append.mp h
      rw [List.foldl_concat, ih hws, Joining.push, foldr_attach_concat ws word hws]
      simp

theorem joined_words (t : Text) : joined (Text.words t) = tokens t := by
  rw [joined, foldl_push_eq _ (Text.spaces_words t).isWord]
  rfl

/-! ## Tokens of a text -/

/-- Tokens that are spaced out anew, in whichever way, are found again. -/
theorem tokens_of_spaces {t u : Text} (h : Spaces (tokens t) u) : tokens u = tokens t := by
  calc
    tokens u = (tokens t).foldr attach [] := congrArg (List.foldr attach []) h.words_eq
    _ = tokens t := foldr_attach_eq_self (isChain_foldr_attach (Text.spaces_words t).isWord)

/-- Where tokens keep apart, nothing comes before one that starts with a hyphen, and nothing
after one that ends with a hyphen. -/
theorem eq_nil_of_keepApart {before after : List Text} {token : Text}
    (h : (before ++ token :: after).IsChain KeepApart) :
    (token.head? = some '-' → before = []) ∧ (token.getLast? = some '-' → after = []) := by
  obtain ⟨-, htail, hmeet⟩ := List.isChain_append.mp h
  constructor
  · intro hhead
    apply List.getLast?_eq_none_iff.mp
    apply Option.eq_none_iff_forall_ne_some.mpr
    intro last hlast
    exact (hmeet last hlast token rfl).2 hhead
  · intro hlast
    cases after with
    | nil => rfl
    | cons next after => exact absurd hlast (List.isChain_cons_cons.mp htail).1.1

/-- Joining words into tokens loses and makes up nothing but blanks, joins all that can be joined,
and changes nothing when it is done again on tokens that are spaced out. It finds items exactly
in the texts that list them. -/
theorem tokens_lossless_stable :
    (∀ t,
      joined (Text.words t) = tokens t ∧
      (tokens t).flatten = t.filter (fun c => !Text.isBlank c) ∧
      (∀ token ∈ tokens t, token ≠ [] ∧ ∀ c ∈ token, Text.isBlank c = false) ∧
      (∀ before token after, tokens t = before ++ token :: after →
        (token.head? = some '-' → before = []) ∧ (token.getLast? = some '-' → after = [])) ∧
      (∀ gap, IsGap gap → gap ≠ [] → tokens (gap.intercalate (tokens t)) = tokens t) ∧
      ∀ u, Spaces (tokens t) u → tokens u = tokens t) ∧
    ∀ items : List (Item Text), (∀ item ∈ items, item.IsPlain) →
      (items.map Item.token).map Item.ofToken = items ∧
      ∀ u, ItemsWritten items u ↔ tokens u = items.map Item.token := by
  constructor
  · intro t
    have hspaces := Text.spaces_words t
    have hwords : ∀ token ∈ tokens t, IsWord token := isWord_of_mem_foldr_attach hspaces.isWord
    refine ⟨joined_words t, ?_, hwords, ?_, ?_, fun u => tokens_of_spaces⟩
    · exact (flatten_foldr_attach (Text.words t)).trans hspaces.flatten_eq
    · intro before token after hsplit
      apply eq_nil_of_keepApart
      rw [← hsplit]
      exact isChain_foldr_attach hspaces.isWord
    · intro gap hgap hne
      exact tokens_of_spaces (Text.spaces_intercalate hgap hne hwords)
  · intro items hplain
    constructor
    · rw [List.map_map]
      exact (List.map_congr_left fun item hi => Item.ofToken_token (hplain item hi)).trans
        (List.map_id items)
    · intro u
      rw [itemsWritten_iff, and_iff_right hplain]

/-- Words of hyphens only, and hyphens at both ends of the text. -/
theorem tokens_lossless_stable_hyphens :
    let t := " - 5-\t7 -- 8 10  9 -".toList
    let found := ["-5-7--8".toList, "10".toList, "9-".toList]
    let items : List (Item Text) := [.interval "1".toList "mon".toList, .single "5".toList]
    (IsGap "\t ".toList ∧ "\t ".toList ≠ [] ∧ Spaces found "-5-7--8 10\t9- ".toList ∧
      ∀ item ∈ items, item.IsPlain) ∧
    joined (Text.words t) = found ∧ tokens t = found ∧
    "-5-7--8109-".toList = t.filter (fun c => !Text.isBlank c) ∧
    ("9-".toList.getLast? = some '-' → ([] : List Text) = []) ∧
    tokens "-5-7--8\t 10\t 9-".toList = found ∧ tokens "-5-7--8 10\t9- ".toList = found ∧
    (ItemsWritten items "1 -\tmon 5".toList ↔
      tokens "1 -\tmon 5".toList = ["1-mon".toList, "5".toList]) := by
  intro t found items
  have hfound : tokens t = found := by decide +kernel
  have hspaces : Spaces found "-5-7--8 10\t9- ".toList :=
    (Text.words_eq_iff _ _).mp (by decide +kernel)
  have hplain : ∀ item ∈ items, item.IsPlain := by decide
  obtain ⟨hjoined, hflatten, -, hends, hgap, hagain⟩ := tokens_lossless_stable.1 t
  rw [hfound] at hjoined hflatten hends hgap hagain
  refine ⟨⟨by decide, by decide, hspaces, hplain⟩, hjoined, hfound, hflatten, ?_, ?_, ?_, ?_⟩
  · exact (hends ["-5-7--8".toList, "10".toList] "9-".toList [] rfl).2
  · exact hgap "\t ".toList (by decide) (by decide)
  · exact hagain _ hspaces
  · exact (tokens_lossless_stable.2 items hplain).2 _

end Timetable.Expression
