import Mathlib.Algebra.BigOperators.Group.Finset.Basic
import Mathlib.Algebra.GroupWithZero.Nat
import Mathlib.Data.Fintype.Card
import Mathlib.Logic.Relation

/-!
# Forests

A relation from parents to children in which no node has two parents and none is its own descendant. The
nodes below different children of one node are different, so the sizes of what is below the children add up.
-/

namespace Podmin.Foundation

open Relation

/-- No two parents, and no cycle. -/
structure Forest {Node : Type*} (child : Node → Node → Prop) : Prop where
  parent : ∀ first second node, child first node → child second node → first = second
  acyclic : ∀ node, ¬TransGen child node node

namespace Forest

variable {Node : Type*} {child : Node → Node → Prop}

/-- Of two nodes above a third, one is above the other. -/
theorem above_total (hforest : Forest child) {first second node : Node} (hfirst : ReflTransGen child first node)
    (hsecond : ReflTransGen child second node) :
    ReflTransGen child first second ∨ ReflTransGen child second first := by
  have hunique : Relator.RightUnique (Function.swap child) := fun node first second hfirst hsecond ↦
    hforest.parent first second node hfirst hsecond
  rcases ReflTransGen.total_of_right_unique hunique hfirst.swap hsecond.swap with habove | habove
  · exact .inr habove.swap
  · exact .inl habove.swap

/-- Nothing is below two different children of a node. -/
theorem eq_of_below (hforest : Forest child) {parent first second node : Node} (hfirst : child parent first)
    (hsecond : child parent second) (hbelow : ReflTransGen child first node)
    (hother : ReflTransGen child second node) : first = second := by
  have hcycle : ∀ {left right}, child parent left → child parent right → ReflTransGen child left right →
      left = right := by
    intro left right hleft hright habove
    rcases habove.cases_tail with rfl | ⟨last, hlast, hstep⟩
    · rfl
    · have hparent := hforest.parent last parent right hstep hright
      exact absurd (TransGen.head' hleft (hparent ▸ hlast)) (hforest.acyclic parent)
  rcases hforest.above_total hbelow hother with habove | habove
  · exact hcycle hfirst hsecond habove
  · exact (hcycle hsecond hfirst habove).symm

end Forest

section Descendants

variable {Node : Type*} [Fintype Node] {child : Node → Node → Prop}

open Classical in
/-- The nodes below a node, itself among them. -/
noncomputable def descendants (child : Node → Node → Prop) (node : Node) : Finset Node :=
  Finset.univ.filter (ReflTransGen child node)

theorem mem_descendants {node other : Node} :
    other ∈ descendants child node ↔ ReflTransGen child node other := by
  simp [descendants]

theorem card_descendants_pos (node : Node) : 0 < (descendants child node).card :=
  Finset.card_pos.mpr ⟨node, mem_descendants.mpr .refl⟩

/-- What is below different children, and the node itself, is below the node. -/
theorem Forest.sum_descendants_lt (hforest : Forest child) {node : Node} {children : List Node}
    (hnodup : children.Nodup) (hchildren : ∀ other ∈ children, child node other) :
    (children.map fun other ↦ (descendants child other).card).sum < (descendants child node).card := by
  classical
  have hdisjoint : (children.toFinset : Set Node).PairwiseDisjoint (descendants child) := by
    intro first hfirst second hsecond hne
    refine Finset.disjoint_left.mpr fun other hother hboth ↦ hne ?_
    exact hforest.eq_of_below (hchildren first (List.mem_toFinset.mp hfirst))
      (hchildren second (List.mem_toFinset.mp hsecond)) (mem_descendants.mp hother) (mem_descendants.mp hboth)
  calc (children.map fun other ↦ (descendants child other).card).sum
      = ∑ other ∈ children.toFinset, (descendants child other).card :=
        (List.sum_toFinset _ hnodup).symm
    _ = (children.toFinset.biUnion (descendants child)).card := (Finset.card_biUnion hdisjoint).symm
    _ < (descendants child node).card := by
        apply Finset.card_lt_card
        refine ⟨fun other hother ↦ ?_, fun hsubset ↦ ?_⟩
        · obtain ⟨below, hbelow, hmem⟩ := Finset.mem_biUnion.mp hother
          exact mem_descendants.mpr (.head (hchildren below (List.mem_toFinset.mp hbelow))
            (mem_descendants.mp hmem))
        · obtain ⟨below, hbelow, hmem⟩ := Finset.mem_biUnion.mp (hsubset (mem_descendants.mpr .refl))
          exact hforest.acyclic node
            (.head' (hchildren below (List.mem_toFinset.mp hbelow)) (mem_descendants.mp hmem))

end Descendants

end Podmin.Foundation
