import Mathlib.Data.Nat.ModEq

/-!
# One's-complement sums

The sum of words with end-around carry counts modulo one less than the number of words. Zero has two
representations there: the sum is zero only if every word is, and all ones if the total is another
multiple of the modulus.
-/

namespace Podmin.Foundation.OnesComplement

variable {w : Nat}

/-- Add two words; a carry out of the top bit is added at the bottom. -/
def add (left right : BitVec w) : BitVec w :=
  let sum := left.toNat + right.toNat
  BitVec.ofNat w (if sum < 2 ^ w then sum else sum - (2 ^ w - 1))

def sum (words : List (BitVec w)) : BitVec w :=
  words.foldl add 0#w

/-- The sum of the words as numbers. -/
def total (words : List (BitVec w)) : Nat :=
  (words.map BitVec.toNat).sum

@[simp]
theorem total_nil : total ([] : List (BitVec w)) = 0 := rfl

@[simp]
theorem total_cons (word : BitVec w) (words : List (BitVec w)) :
    total (word :: words) = word.toNat + total words := by
  simp [total]

@[simp]
theorem total_append (left right : List (BitVec w)) : total (left ++ right) = total left + total right := by
  simp [total]

theorem add_toNat (left right : BitVec w) :
    (add left right).toNat = if left.toNat + right.toNat < 2 ^ w then left.toNat + right.toNat
      else left.toNat + right.toNat - (2 ^ w - 1) := by
  have hleft := left.isLt
  have hright := right.isLt
  unfold add
  rw [BitVec.toNat_ofNat]
  apply Nat.mod_eq_of_lt
  split <;> omega

/-- The end-around carry takes the modulus away once. -/
theorem add_modEq (left right : BitVec w) :
    (add left right).toNat ≡ left.toNat + right.toNat [MOD 2 ^ w - 1] := by
  rw [add_toNat]
  split
  · exact Nat.ModEq.refl _
  · next hcarry =>
    calc
      left.toNat + right.toNat - (2 ^ w - 1)
          ≡ left.toNat + right.toNat - (2 ^ w - 1) + (2 ^ w - 1) [MOD 2 ^ w - 1] :=
        (Nat.add_modEq_right).symm
      _ = left.toNat + right.toNat := by omega

theorem add_toNat_eq_zero (left right : BitVec w) :
    (add left right).toNat = 0 ↔ left.toNat + right.toNat = 0 := by
  have hpos : 0 < 2 ^ w := Nat.two_pow_pos w
  rw [add_toNat]
  split <;> omega

theorem foldl_add (words : List (BitVec w)) (start : BitVec w) :
    (words.foldl add start).toNat ≡ start.toNat + total words [MOD 2 ^ w - 1] ∧
      ((words.foldl add start).toNat = 0 ↔ start.toNat + total words = 0) := by
  induction words generalizing start with
  | nil => exact ⟨Nat.ModEq.refl _, Iff.rfl⟩
  | cons word words ih =>
    obtain ⟨hmod, hzero⟩ := ih (add start word)
    have hfirst := add_toNat_eq_zero start word
    rw [List.foldl_cons, total_cons]
    refine ⟨?_, by omega⟩
    calc
      (words.foldl add (add start word)).toNat
          ≡ (add start word).toNat + total words [MOD 2 ^ w - 1] := hmod
      _ ≡ start.toNat + word.toNat + total words [MOD 2 ^ w - 1] :=
        (add_modEq start word).add_right (total words)
      _ = start.toNat + (word.toNat + total words) := Nat.add_assoc ..

/-- The sum is all ones exactly if the total is a positive multiple of the modulus. -/
theorem sum_eq_allOnes_iff (words : List (BitVec w)) (hwidth : 0 < w) :
    sum words = BitVec.allOnes w ↔ total words ≡ 0 [MOD 2 ^ w - 1] ∧ total words ≠ 0 := by
  obtain ⟨hmod, hzero⟩ := foldl_add words 0#w
  rw [BitVec.toNat_zero, Nat.zero_add] at hmod hzero
  have hlt := (sum words).isLt
  have htwo : 2 ≤ 2 ^ w := Nat.le_self_pow hwidth.ne' 2
  have hones : sum words = BitVec.allOnes w ↔ (sum words).toNat = 2 ^ w - 1 := by
    rw [← BitVec.toNat_inj, BitVec.toNat_allOnes]
  rw [hones]
  constructor
  · intro hsum
    refine ⟨hmod.symm.trans ?_, fun hnone ↦ ?_⟩
    · exact (congrArg (· % (2 ^ w - 1)) hsum).trans (by simp)
    · have hsumZero := hzero.mpr hnone
      exact absurd (hsum.symm.trans hsumZero) (by omega)
  · intro hmultiple
    have hdvd : 2 ^ w - 1 ∣ (sum words).toNat := (Nat.modEq_zero_iff_dvd).mp (hmod.trans hmultiple.1)
    have hpositive : (sum words).toNat ≠ 0 := fun hnone ↦ hmultiple.2 (hzero.mp hnone)
    have hle := Nat.le_of_dvd (Nat.pos_of_ne_zero hpositive) hdvd
    omega

/-- Words whose totals agree modulo the modulus have the same sum as far as all ones are concerned. -/
theorem sum_eq_allOnes_congr {left right : List (BitVec w)} (hwidth : 0 < w)
    (hmod : total left ≡ total right [MOD 2 ^ w - 1]) (hleft : total left ≠ 0) (hright : total right ≠ 0) :
    sum left = BitVec.allOnes w ↔ sum right = BitVec.allOnes w := by
  rw [sum_eq_allOnes_iff left hwidth, sum_eq_allOnes_iff right hwidth]
  constructor
  · exact fun hsum ↦ ⟨hmod.symm.trans hsum.1, hright⟩
  · exact fun hsum ↦ ⟨hmod.trans hsum.1, hleft⟩

end Podmin.Foundation.OnesComplement
