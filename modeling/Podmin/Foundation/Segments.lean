import Mathlib.Data.List.Induction

/-!
# Pieces laid out one after the other

Every item of a list contributes a piece to one long list. A piece starts where the pieces before it end:
the pieces stay inside the list, two of them do not meet, and together they cover it.
-/

namespace Podmin.Foundation.Segments

open List

variable {Item Element : Type*} {piece : Item → List Element} {items : List Item} {item : Item} {offset : Nat}

/-- The piece of an item starts at an offset. -/
def StartsAt (piece : Item → List Element) (items : List Item) (item : Item) (offset : Nat) : Prop :=
  ∃ before after, items = before ++ item :: after ∧ offset = (before.flatMap piece).length

theorem StartsAt.mem (hstarts : StartsAt piece items item offset) : item ∈ items := by
  obtain ⟨before, after, rfl, _⟩ := hstarts
  simp

theorem exists_startsAt (hitem : item ∈ items) : ∃ offset, StartsAt piece items item offset := by
  obtain ⟨before, after, hsplit⟩ := append_of_mem hitem
  exact ⟨_, before, after, hsplit, rfl⟩

/-- One more item at the end adds its piece at the end. -/
theorem startsAt_concat {last : Item} : StartsAt piece (items ++ [last]) item offset ↔
    StartsAt piece items item offset ∨ (item = last ∧ offset = (items.flatMap piece).length) := by
  constructor
  · rintro ⟨before, after, hsplit, hoffset⟩
    rcases eq_nil_or_concat after with rfl | ⟨rest, final, rfl⟩
    · obtain ⟨rfl, hlast⟩ := append_inj' hsplit rfl
      exact .inr ⟨(singleton_inj.mp hlast).symm, hoffset⟩
    · rw [concat_eq_append, ← cons_append, ← append_assoc] at hsplit
      exact .inl ⟨before, rest, (append_inj' hsplit rfl).1, hoffset⟩
  · rintro (⟨before, after, rfl, hoffset⟩ | ⟨rfl, hoffset⟩)
    · exact ⟨before, after ++ [last], by simp, hoffset⟩
    · exact ⟨items, [], rfl, hoffset⟩

theorem StartsAt.flatMap_eq (hstarts : StartsAt piece items item offset) : ∃ before after,
    before.length = offset ∧ items.flatMap piece = before ++ (piece item ++ after) := by
  obtain ⟨before, after, rfl, rfl⟩ := hstarts
  exact ⟨before.flatMap piece, after.flatMap piece, rfl, by simp⟩

theorem StartsAt.end_le (hstarts : StartsAt piece items item offset) :
    offset + (piece item).length ≤ (items.flatMap piece).length := by
  obtain ⟨before, after, rfl, hflat⟩ := hstarts.flatMap_eq
  rw [hflat, length_append, length_append]
  omega

theorem StartsAt.slice (hstarts : StartsAt piece items item offset) :
    ((items.flatMap piece).drop offset).take (piece item).length = piece item := by
  obtain ⟨before, after, rfl, hflat⟩ := hstarts.flatMap_eq
  rw [hflat, drop_left, take_left]

/-- The pieces of two items do not meet. -/
theorem StartsAt.separated {left right : Item} {leftOffset rightOffset : Nat}
    (hleft : StartsAt piece items left leftOffset) (hright : StartsAt piece items right rightOffset)
    (hne : left ≠ right) :
    leftOffset + (piece left).length ≤ rightOffset ∨ rightOffset + (piece right).length ≤ leftOffset := by
  obtain ⟨before, after, rfl, rfl⟩ := hleft
  obtain ⟨before', after', hsplit, rfl⟩ := hright
  rcases append_eq_append_iff.mp hsplit with ⟨between, rfl, hrest⟩ | ⟨between, rfl, hrest⟩
  · cases between with
    | nil => exact absurd (cons.inj hrest).1 hne
    | cons first between =>
      rw [← (cons.inj hrest).1]
      exact .inl (by simp)
  · cases between with
    | nil => exact absurd (cons.inj hrest).1.symm hne
    | cons first between =>
      rw [← (cons.inj hrest).1]
      exact .inr (by simp)

/-- Every index lies in a piece. -/
theorem exists_of_lt {index : Nat} (hindex : index < (items.flatMap piece).length) :
    ∃ item offset, StartsAt piece items item offset ∧ offset ≤ index ∧
      index < offset + (piece item).length := by
  induction items using reverseRecOn with
  | nil => simp at hindex
  | append_singleton items last ih =>
    by_cases hbefore : index < (items.flatMap piece).length
    · obtain ⟨item, offset, hstarts, hinside⟩ := ih hbefore
      exact ⟨item, offset, startsAt_concat.mpr (.inl hstarts), hinside⟩
    · rw [flatMap_append, length_append, flatMap_singleton] at hindex
      exact ⟨last, _, startsAt_concat.mpr (.inr ⟨rfl, rfl⟩), by omega, hindex⟩

end Podmin.Foundation.Segments
