import Mathlib.Data.List.Sort
import Timetable.Proofs.Period.Constraints

/-!
# The order of periods

Boundaries, scales, spans and periods are ordered totally, and only equal ones
compare as equal. So the distinct entries of a list in ascending order depend on
nothing but which entries the list holds.
-/

namespace Timetable

section Comparison

variable {α β γ : Type}

/-- Ascending lists of distinct entries are the same once they have the same entries. -/
theorem ascending_eq_iff {order : α → α → Ordering} [Std.LawfulEqCmp order]
    [Std.TransCmp order] (as bs : List α) :
    ascending order as = ascending order bs ↔ ∀ x, x ∈ as ↔ x ∈ bs := by
  constructor
  · intro h x
    calc
      x ∈ as ↔ x ∈ ascending order as := (mem_ascending x as).symm
      _ ↔ x ∈ ascending order bs := by rw [h]
      _ ↔ x ∈ bs := mem_ascending x bs
  · intro h
    have hasym : ∀ {x y}, order x y = .lt → order y x ≠ .lt := by
      intro x y hxy hyx
      rw [Std.OrientedCmp.gt_of_lt hxy] at hyx
      cases hyx
    have hirrefl : Std.Irrefl fun x y => order x y = .lt := ⟨fun x hx => hasym hx hx⟩
    have hantisymm : Std.Antisymm fun x y => order x y = .lt :=
      ⟨fun x y hxy hyx => absurd hyx (hasym hxy)⟩
    have has : IsAscending order (ascending order as) := isAscending_ascending as
    apply List.Pairwise.eq_of_mem_iff has (isAscending_ascending bs)
    intro x
    rw [mem_ascending, mem_ascending, h]

/-- Entries may be compared by a key. -/
theorem transCmp_comap (order : β → β → Ordering) [Std.TransCmp order] (key : α → β) :
    Std.TransCmp fun a b => order (key a) (key b) where
  eq_swap := Std.OrientedCmp.eq_swap
  isLE_trans := Std.TransCmp.isLE_trans

/-- If no two entries share their key, only equal ones compare as equal. -/
theorem lawfulEqCmp_comap (order : β → β → Ordering) [Std.LawfulEqCmp order] (key : α → β)
    (hkey : Function.Injective key) : Std.LawfulEqCmp fun a b => order (key a) (key b) where
  compare_self := Std.ReflCmp.compare_self
  eq_of_compare h := hkey (Std.LawfulEqCmp.eq_of_compare h)

/-- Entries that compare as equal by two keys in turn agree in both keys. -/
theorem eq_and_eq_of_compareLex [Ord β] [Ord γ] [Std.LawfulEqOrd β] [Std.LawfulEqOrd γ]
    {f : α → β} {g : α → γ} {a b : α}
    (h : compareLex (compareOn f) (compareOn g) a b = .eq) : f a = f b ∧ g a = g b := by
  obtain ⟨hf, hg⟩ := compareLex_eq_eq.mp h
  exact ⟨Std.LawfulEqOrd.eq_of_compare hf, Std.LawfulEqOrd.eq_of_compare hg⟩

end Comparison

namespace Boundary

theorem rank_injective : Function.Injective rank := by
  intro a b h
  cases a <;> cases b <;> first | rfl | cases h

instance : Std.TransOrd Boundary := transCmp_comap compare rank

instance : Std.LawfulEqOrd Boundary := lawfulEqCmp_comap compare rank rank_injective

end Boundary

namespace Scale

instance : Std.TransOrd Scale := transCmp_comap compare rank

instance : Std.LawfulEqOrd Scale := lawfulEqCmp_comap compare rank fun _ _ => rank_injective

end Scale

namespace Span

instance : Std.TransOrd Span :=
  inferInstanceAs (Std.TransCmp
    (compareLex (compareOn start) (compareLex (compareOn stop) (compareOn boundary))))

instance : Std.LawfulEqOrd Span where
  eq_of_compare {a b} h := by
    obtain ⟨hfirst, hrest⟩ := compareLex_eq_eq.mp h
    have hstart : a.start = b.start := Std.LawfulEqOrd.eq_of_compare hfirst
    obtain ⟨hstop, hboundary⟩ := eq_and_eq_of_compareLex hrest
    cases a
    cases b
    simp_all

end Span

namespace Period

/-- Constraints are ordered by their scales, then by their spans. -/
abbrev compareConstraints : Scale × List Span → Scale × List Span → Ordering :=
  compareLex (compareOn Prod.fst) (compareOn Prod.snd)

instance : Std.LawfulEqCmp compareConstraints where
  compare_self := Std.ReflCmp.compare_self
  eq_of_compare h := Prod.ext_iff.mpr (eq_and_eq_of_compareLex h)

theorem constraints_injective : Function.Injective constraints := by
  intro p q h
  rw [← ofConstraints_constraints p, h, ofConstraints_constraints]

instance : Std.TransOrd Period := transCmp_comap (List.compareLex compareConstraints) constraints

instance : Std.LawfulEqOrd Period :=
  lawfulEqCmp_comap (List.compareLex compareConstraints) constraints constraints_injective

end Period

end Timetable
