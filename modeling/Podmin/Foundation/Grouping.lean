import Mathlib.Data.List.Nodup
import Mathlib.Data.List.Perm.Basic

/-!
# Distributing a list over groups

A list whose elements are collected group by group is the same list up to order, as long as every
element belongs to exactly one group.
-/

namespace Podmin.Foundation.Grouping

open scoped List

variable {Group Item Result : Type*}

/-- Only one group contributes. -/
theorem flatMap_eq_single {groups : List Group} (hnodup : groups.Nodup) {collect : Group → List Item}
    {group : Group} (hgroup : group ∈ groups)
    (hother : ∀ other ∈ groups, other ≠ group → collect other = []) :
    groups.flatMap collect = collect group := by
  induction groups with
  | nil => cases hgroup
  | cons first rest ih =>
    obtain ⟨hfresh, hrest⟩ := List.nodup_cons.mp hnodup
    rw [List.flatMap_cons]
    by_cases hfirst : first = group
    · subst hfirst
      have hnone : rest.flatMap collect = [] := by
        rw [List.flatMap_eq_nil_iff]
        intro other hmem
        apply hother other (List.mem_cons_of_mem first hmem)
        rintro rfl
        exact hfresh hmem
      rw [hnone, List.append_nil]
    · have hmem : group ∈ rest := List.mem_of_ne_of_mem (Ne.symm hfirst) hgroup
      rw [hother first List.mem_cons_self hfirst, List.nil_append]
      exact ih hrest hmem fun other hlater ↦ hother other (List.mem_cons_of_mem first hlater)

/-- Filtering by groups such that every element is in exactly one. -/
theorem flatMap_filter_perm {groups : List Group} (hnodup : groups.Nodup) (member : Group → Item → Bool)
    {items : List Item}
    (hunique : ∀ item ∈ items, ∃ group ∈ groups, member group item = true ∧
      ∀ other ∈ groups, member other item = true → other = group) :
    (groups.flatMap fun group ↦ items.filter (member group)).Perm items := by
  induction items with
  | nil => simp
  | cons item items ih =>
    obtain ⟨⟨group, hgroup, hmember, honly⟩, hrest⟩ := List.forall_mem_cons.mp hunique
    have hsplit : ∀ other, (item :: items).filter (member other) =
        [item].filter (member other) ++ items.filter (member other) := by
      intro other
      rw [← List.filter_append, List.singleton_append]
    have hfirst : (groups.flatMap fun other ↦ [item].filter (member other)) = [item] := by
      rw [flatMap_eq_single hnodup hgroup]
      · simp [hmember]
      · intro other hother hne
        have hnot : ¬member other item = true := fun hin ↦ hne (honly other hother hin)
        simp [hnot]
    calc (groups.flatMap fun other ↦ (item :: items).filter (member other))
        = groups.flatMap fun other ↦ [item].filter (member other) ++ items.filter (member other) := by
          simp only [hsplit]
      _ ~ (groups.flatMap fun other ↦ [item].filter (member other)) ++
            groups.flatMap fun other ↦ items.filter (member other) :=
          (List.flatMap_append_perm groups _ _).symm
      _ ~ item :: items := by
          rw [hfirst]
          exact (ih hrest).cons item

/-- The order of two nested collections does not matter. -/
theorem flatMap_comm_perm (groups : List Group) (items : List Item) (collect : Group → Item → List Result) :
    (groups.flatMap fun group ↦ items.flatMap (collect group)).Perm
      (items.flatMap fun item ↦ groups.flatMap fun group ↦ collect group item) := by
  induction items with
  | nil => simp
  | cons item items ih =>
    simp only [List.flatMap_cons]
    exact (List.flatMap_append_perm groups _ _).symm.trans (ih.append_left _)

end Podmin.Foundation.Grouping
