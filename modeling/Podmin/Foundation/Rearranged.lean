import Mathlib.Data.List.Forall2

/-!
# Rearranged lists

Two lists have the same elements up to a relation if one can be permuted so that it is related to the other
element by element. Nested lists are rearranged level by level.
-/

namespace Podmin.Foundation

variable {Item Part : Type*} {Rel : Item → Item → Prop} {left right : List Item}

/-- The same elements in another order, each related to its counterpart. -/
def Rearranged (Rel : Item → Item → Prop) (left right : List Item) : Prop :=
  ∃ between, left.Perm between ∧ List.Forall₂ Rel between right

namespace Rearranged

/-- What the relation hands on holds of all elements of both lists. -/
theorem forall_mem {Holds : Item → Prop} (hrearranged : Rearranged Rel left right)
    (hrel : ∀ first second, Rel first second → Holds first → Holds second)
    (hleft : ∀ item ∈ left, Holds item) : ∀ item ∈ right, Holds item := by
  obtain ⟨between, hperm, hall⟩ := hrearranged
  have hbetween : ∀ item ∈ between, Holds item := fun item hitem ↦ hleft item (hperm.mem_iff.mpr hitem)
  clear hperm
  induction hall with
  | nil => simp
  | cons hfirst _ ih =>
    rw [List.forall_mem_cons] at hbetween ⊢
    exact ⟨hrel _ _ hfirst hbetween.1, ih hbetween.2⟩

/-- A view that related elements share is permuted. -/
theorem map_perm {View : Type*} {view : Item → View} (hrearranged : Rearranged Rel left right)
    (hrel : ∀ first second, Rel first second → view first = view second) :
    (left.map view).Perm (right.map view) := by
  obtain ⟨between, hperm, hall⟩ := hrearranged
  have hsame : between.map view = right.map view := by
    clear hperm
    induction hall with
    | nil => rfl
    | cons hfirst _ ih => rw [List.map_cons, List.map_cons, hrel _ _ hfirst, ih]
  rw [← hsame]
  exact hperm.map view

theorem append {left' right' : List Item} (hfirst : Rearranged Rel left right)
    (hsecond : Rearranged Rel left' right') : Rearranged Rel (left ++ left') (right ++ right') := by
  obtain ⟨between, hperm, hall⟩ := hfirst
  obtain ⟨between', hperm', hall'⟩ := hsecond
  exact ⟨between ++ between', hperm.append hperm', List.rel_append hall hall'⟩

/-- Rearranging the parts of every element rearranges all parts. -/
theorem flatMap {RelPart : Part → Part → Prop} {parts : Item → List Part}
    (hrearranged : Rearranged Rel left right)
    (hrel : ∀ first second, Rel first second → Rearranged RelPart (parts first) (parts second)) :
    Rearranged RelPart (left.flatMap parts) (right.flatMap parts) := by
  obtain ⟨between, hperm, hall⟩ := hrearranged
  have hbetween : Rearranged RelPart (between.flatMap parts) (right.flatMap parts) := by
    clear hperm
    induction hall with
    | nil => exact ⟨[], .refl _, .nil⟩
    | cons hfirst _ ih => exact (hrel _ _ hfirst).append ih
  obtain ⟨middle, hmiddle, hparts⟩ := hbetween
  exact ⟨middle, (hperm.flatMap_right parts).trans hmiddle, hparts⟩

theorem map {RelPart : Part → Part → Prop} {change : Item → Part} (hrearranged : Rearranged Rel left right)
    (hrel : ∀ first second, Rel first second → RelPart (change first) (change second)) :
    Rearranged RelPart (left.map change) (right.map change) := by
  obtain ⟨between, hperm, hall⟩ := hrearranged
  exact ⟨between.map change, hperm.map change,
    List.forall₂_map_left_iff.mpr (List.forall₂_map_right_iff.mpr (hall.imp hrel))⟩

end Rearranged

end Podmin.Foundation
