/-!
# Ascending lists without repeats

A list is put in order by inserting its entries one by one; an entry that is
already there is not inserted again. The entries stay the same, and each lies
below all that follow it.
-/

namespace Timetable

variable {α : Type} {order : α → α → Ordering}

/-- Inserts an entry into an ascending list, unless it is there. -/
def insertAscending (order : α → α → Ordering) (a : α) : List α → List α
  | [] => [a]
  | b :: rest =>
    match order a b with
    | .lt => a :: b :: rest
    | .eq => b :: rest
    | .gt => b :: insertAscending order a rest

/-- The distinct entries of a list in ascending order. -/
def ascending (order : α → α → Ordering) (entries : List α) : List α :=
  entries.foldr (insertAscending order) []

@[simp] theorem ascending_nil : ascending order [] = [] := rfl

@[simp] theorem ascending_cons (a : α) (rest : List α) :
    ascending order (a :: rest) = insertAscending order a (ascending order rest) := rfl

/-- Each entry lies below all that follow it. -/
def IsAscending (order : α → α → Ordering) (entries : List α) : Prop :=
  entries.Pairwise fun a b => order a b = .lt

theorem mem_insertAscending [Std.LawfulEqCmp order] (a x : α) (entries : List α) :
    x ∈ insertAscending order a entries ↔ x = a ∨ x ∈ entries := by
  induction entries with
  | nil => simp [insertAscending]
  | cons b rest ih =>
    cases h : order a b with
    | lt => simp [insertAscending, h]
    | eq =>
      obtain rfl := Std.LawfulEqCmp.eq_of_compare h
      simp [insertAscending, h]
    | gt =>
      simp only [insertAscending, h, List.mem_cons, ih]
      exact or_left_comm

theorem mem_ascending [Std.LawfulEqCmp order] (x : α) (entries : List α) :
    x ∈ ascending order entries ↔ x ∈ entries := by
  induction entries with
  | nil => simp
  | cons a rest ih => simp [mem_insertAscending, ih]

theorem isAscending_insertAscending [Std.LawfulEqCmp order] [Std.TransCmp order] (a : α)
    {entries : List α} (h : IsAscending order entries) :
    IsAscending order (insertAscending order a entries) := by
  induction entries with
  | nil => simp [insertAscending, IsAscending]
  | cons b rest ih =>
    obtain ⟨below, tail⟩ := List.pairwise_cons.1 h
    cases hab : order a b with
    | lt =>
      simp only [insertAscending, hab]
      refine List.pairwise_cons.2 ⟨fun x hx => ?_, h⟩
      rcases List.mem_cons.1 hx with rfl | hx
      · exact hab
      · exact Std.TransCmp.lt_trans hab (below x hx)
    | eq => simpa only [insertAscending, hab] using h
    | gt =>
      simp only [insertAscending, hab]
      refine List.pairwise_cons.2 ⟨fun x hx => ?_, ih tail⟩
      rcases (mem_insertAscending a x rest).1 hx with rfl | hx
      · exact Std.OrientedCmp.lt_of_gt hab
      · exact below x hx

theorem isAscending_ascending [Std.LawfulEqCmp order] [Std.TransCmp order] (entries : List α) :
    IsAscending order (ascending order entries) := by
  induction entries with
  | nil => exact List.Pairwise.nil
  | cons a rest ih => exact isAscending_insertAscending a ih

end Timetable
