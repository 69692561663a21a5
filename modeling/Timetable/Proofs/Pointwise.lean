import Mathlib.Data.List.Forall2

/-!
# Lists related entry by entry

Two lists of one length whose entries are related in pairs: every entry has its
partner, and cutting one list cuts the other at the same place. Where the partners are
lists themselves, they can be appended to each other.
-/

namespace Timetable

variable {α β : Type} {R : α → β → Prop}

theorem Pointwise.exists_right {as : List α} {bs : List β} (h : List.Forall₂ R as bs) {a : α}
    (ha : a ∈ as) : ∃ b ∈ bs, R a b := by
  induction h with
  | nil => exact absurd ha List.not_mem_nil
  | @cons c d as bs hcd _ ih =>
      rcases List.mem_cons.mp ha with rfl | ha
      · exact ⟨d, List.mem_cons_self, hcd⟩
      · obtain ⟨b, hb, hab⟩ := ih ha
        exact ⟨b, List.mem_cons_of_mem d hb, hab⟩

theorem Pointwise.exists_left {as : List α} {bs : List β} (h : List.Forall₂ R as bs) {b : β}
    (hb : b ∈ bs) : ∃ a ∈ as, R a b := Pointwise.exists_right h.flip hb

/-- A relation of entries may use that these belong to the lists. -/
theorem Pointwise.imp_of_mem {S : α → β → Prop} {as : List α} {bs : List β}
    (h : List.Forall₂ R as bs) (himp : ∀ a ∈ as, ∀ b ∈ bs, R a b → S a b) :
    List.Forall₂ S as bs := by
  induction h with
  | nil => exact .nil
  | @cons a b as bs hab _ ih =>
      apply List.Forall₂.cons
      · exact himp a List.mem_cons_self b List.mem_cons_self hab
      · apply ih
        intro c hc d hd
        exact himp c (List.mem_cons_of_mem a hc) d (List.mem_cons_of_mem b hd)

/-- Lists with one image are the same if no two of their entries share an image. -/
theorem Pointwise.eq_of_map_eq {f : α → β} {as bs : List α} (h : as.map f = bs.map f)
    (hinj : ∀ a ∈ as, ∀ b ∈ bs, f a = f b → a = b) : as = bs := by
  rw [← List.forall₂_eq_eq_eq, List.forall₂_map_left_iff, List.forall₂_map_right_iff] at h
  rw [← List.forall₂_eq_eq_eq]
  exact Pointwise.imp_of_mem h hinj

/-- Related lists are related further on where their entries are. -/
theorem Pointwise.trans {γ : Type} {S : β → γ → Prop} {T : α → γ → Prop} {as : List α}
    {bs : List β} {cs : List γ} (hR : List.Forall₂ R as bs) (hS : List.Forall₂ S bs cs)
    (h : ∀ {a b c}, R a b → S b c → T a c) : List.Forall₂ T as cs := by
  induction hR generalizing cs with
  | nil =>
      obtain rfl := List.forall₂_nil_left_iff.mp hS
      exact .nil
  | cons hab _ ih =>
      obtain ⟨c, cs, hbc, hrest, rfl⟩ := List.forall₂_cons_left_iff.mp hS
      exact .cons (h hab hbc) (ih hrest)

/-- Two images of one list are related where the images of each entry are. -/
theorem Pointwise.map_map_of_mem {γ : Type} {f : γ → α} {g : γ → β} {cs : List γ}
    (h : ∀ c ∈ cs, R (f c) (g c)) : List.Forall₂ R (cs.map f) (cs.map g) := by
  apply List.forall₂_map_left_iff.mpr
  apply List.forall₂_map_right_iff.mpr
  exact List.forall₂_same.mpr h

/-- Partners of all entries make up a list. -/
theorem Pointwise.exists_forall₂ {as : List α} (h : ∀ a ∈ as, ∃ b, R a b) :
    ∃ bs, List.Forall₂ R as bs := by
  induction as with
  | nil => exact ⟨[], .nil⟩
  | cons a rest ih =>
      obtain ⟨⟨b, hab⟩, hrest⟩ := List.forall_mem_cons.mp h
      obtain ⟨bs, hbs⟩ := ih hrest
      exact ⟨b :: bs, .cons hab hbs⟩

theorem Pointwise.exists_forall₂_iff {as : List α} :
    (∃ bs, List.Forall₂ R as bs) ↔ ∀ a ∈ as, ∃ b, R a b := by
  constructor
  · rintro ⟨bs, h⟩ a ha
    obtain ⟨b, -, hab⟩ := Pointwise.exists_right h ha
    exact ⟨b, hab⟩
  · exact Pointwise.exists_forall₂

/-- Where one list is cut at an entry, the other one is cut at its partner. -/
theorem Pointwise.exists_append_cons {before after : List α} {bs : List β} {a : α}
    (h : List.Forall₂ R (before ++ a :: after) bs) :
    ∃ front b back, bs = front ++ b :: back ∧ List.Forall₂ R before front ∧ R a b ∧
      List.Forall₂ R after back := by
  induction before generalizing bs with
  | nil =>
      obtain ⟨b, back, hab, hback, rfl⟩ := List.forall₂_cons_left_iff.mp h
      exact ⟨[], b, back, rfl, .nil, hab, hback⟩
  | cons c before ih =>
      obtain ⟨d, bs, hcd, hbs, rfl⟩ := List.forall₂_cons_left_iff.mp h
      obtain ⟨front, b, back, rfl, hfront, hab, hback⟩ := ih hbs
      exact ⟨d :: front, b, back, rfl, .cons hcd hfront, hab, hback⟩

theorem Pointwise.exists_append_cons_left {front back : List β} {as : List α} {b : β}
    (h : List.Forall₂ R as (front ++ b :: back)) :
    ∃ before a after, as = before ++ a :: after ∧ List.Forall₂ R before front ∧ R a b ∧
      List.Forall₂ R after back := by
  obtain ⟨before, a, after, hsplit, hbefore, hab, hafter⟩ := Pointwise.exists_append_cons h.flip
  exact ⟨before, a, after, hsplit, hbefore.flip, hab, hafter.flip⟩

/-- The list is made up of a part for each entry, in the order of the entries. -/
inductive Pointwise.Concat (R : α → List β → Prop) : List α → List β → Prop
  | nil : Concat R [] []
  | cons {a as bs rest} (head : R a bs) (tail : Concat R as rest) :
      Concat R (a :: as) (bs ++ rest)

/-- The parts may come from the partners of the entries. -/
theorem Pointwise.concat_of_forall₂ {γ : Type} {P : α → List γ → Prop} {f : β → List γ}
    {as : List α} {bs : List β} (h : List.Forall₂ (fun a b => P a (f b)) as bs) :
    Pointwise.Concat P as (bs.flatMap f) := by
  induction h with
  | nil => exact .nil
  | cons hab _ ih =>
      rw [List.flatMap_cons]
      exact .cons hab ih

end Timetable
