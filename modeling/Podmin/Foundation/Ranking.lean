import Mathlib.Data.Finset.Card
import Mathlib.Data.List.Nodup
import Mathlib.Data.List.Perm.Basic
import Mathlib.Order.Basic

/-!
# The first items of a ranked list

A list without repetitions that is ordered by a key, the greatest first, in any order among equal keys. Its
first items have the greatest keys, and two such orders of the same items differ in their first items only by
items of equal keys.
-/

namespace Podmin.Foundation.Ranking

open scoped List

variable {Item Key : Type*} [LinearOrder Key] {key : Item → Key}

/-- Ordered by key, the greatest first. -/
def Ranked (key : Item → Key) (items : List Item) : Prop :=
  items.Pairwise fun left right ↦ key right ≤ key left

variable {items : List Item} {count : Nat}

theorem Ranked.le_of_mem (hranked : Ranked key items) {first later : Item} (hfirst : first ∈ items.take count)
    (hlater : later ∈ items.drop count) : key later ≤ key first := by
  have happend : (items.take count ++ items.drop count).Pairwise fun left right ↦ key right ≤ key left := by
    rw [List.take_append_drop]
    exact hranked
  exact (List.pairwise_append.mp happend).2.2 first hfirst later hlater

variable {item : Item}

theorem not_mem_drop (hnodup : items.Nodup) (hitem : item ∈ items.take count) : item ∉ items.drop count :=
  List.disjoint_take_drop hnodup le_rfl hitem

theorem mem_drop_of_not_mem_take (hitem : item ∈ items) (hnot : item ∉ items.take count) :
    item ∈ items.drop count := by
  rw [← List.take_append_drop count items, List.mem_append] at hitem
  exact hitem.resolve_left hnot

/-- Beyond the first two items there is only something after two items. -/
theorem exists_pair_of_mem_drop (hitem : item ∈ items.drop 2) :
    ∃ first second, items.take 2 = [first, second] := by
  cases items with
  | nil => cases hitem
  | cons first rest =>
    cases rest with
    | nil => cases hitem
    | cons second rest => exact ⟨first, second, rfl⟩

/-- An item that is among the first in one order and not in the other has changed places with an item of the
same key. -/
theorem Ranked.exchange {left right : List Item} (hleft : Ranked key left) (hright : Ranked key right)
    (hperm : left ~ right) (hnodup : left.Nodup) (hdropped : item ∈ left.drop count)
    (hkept : item ∈ right.take count) :
    ∃ other, other ∈ left.take count ∧ other ∈ right.drop count ∧ key other = key item := by
  classical
  have hnot : item ∉ left.take count := fun htake ↦ not_mem_drop hnodup htake hdropped
  have hlength : (left.take count).length = (right.take count).length := by
    rw [List.length_take, List.length_take, hperm.length_eq]
  have hcard : (right.take count).toFinset.card = (left.take count).toFinset.card := by
    rw [List.toFinset_card_of_nodup ((List.take_sublist _ _).nodup hnodup),
      List.toFinset_card_of_nodup ((List.take_sublist _ _).nodup (hperm.nodup_iff.mp hnodup)), hlength]
  -- the first items of the left order are not all among those of the right one
  obtain ⟨other, hother, hmissing⟩ : ∃ other ∈ left.take count, other ∉ right.take count := by
    by_contra hall
    push Not at hall
    have hsubset : (left.take count).toFinset ⊆ (right.take count).toFinset := fun other hother ↦
      List.mem_toFinset.mpr (hall other (List.mem_toFinset.mp hother))
    have hsame := Finset.eq_of_subset_of_card_le hsubset hcard.le
    exact hnot (List.mem_toFinset.mp (hsame ▸ List.mem_toFinset.mpr hkept))
  have hlast := mem_drop_of_not_mem_take (hperm.mem_iff.mp (List.mem_of_mem_take hother)) hmissing
  exact ⟨other, hother, hlast, le_antisymm (hright.le_of_mem hkept hlast) (hleft.le_of_mem hother hdropped)⟩

end Podmin.Foundation.Ranking
