import Podmin.Foundation.Netip

/-!
# Ranges of addresses

A prefix of `bits` leading bits is an aligned block of addresses. Two blocks have an address in common exactly
when one of them contains the base address of the other.
-/

namespace Podmin.Foundation.Netip

variable {width bits : Nat} {base : BitVec 128} {addr : Addr} {zone : String}

/-! ## Aligned blocks of numbers -/

/-- Two numbers lie in one aligned block of `2 ^ size` numbers. -/
def SameBlock (size first second : Nat) : Prop :=
  first / 2 ^ size = second / 2 ^ size

theorem SameBlock.mono {size larger first second : Nat} (hle : size ≤ larger)
    (hsame : SameBlock size first second) : SameBlock larger first second := by
  obtain ⟨extra, rfl⟩ := Nat.exists_eq_add_of_le hle
  unfold SameBlock at *
  rw [pow_add, ← Nat.div_div_eq_div_mul, ← Nat.div_div_eq_div_mul, hsame]

/-- Of two blocks with a common number, the larger one contains the base of the smaller one. -/
theorem sameBlock_or_of_common {size other first second common : Nat} (hfirst : SameBlock size first common)
    (hsecond : SameBlock other second common) : SameBlock size first second ∨ SameBlock other second first := by
  rcases le_total size other with hle | hle
  · have hlarger : SameBlock other first common := hfirst.mono hle
    exact .inr (Eq.trans hsecond hlarger.symm)
  · have hlarger : SameBlock size second common := hsecond.mono hle
    exact .inl (Eq.trans hfirst hlarger.symm)

/-! ## Prefixes -/

namespace Prefix

/-- Two ranges have no address in common. -/
def Apart (first second : Prefix) : Prop :=
  ∀ addr, ¬(first.contains addr = true ∧ second.contains addr = true)

theorem Apart.symm {first second : Prefix} (hapart : Apart first second) : Apart second first :=
  fun addr hboth ↦ hapart addr ⟨hboth.2, hboth.1⟩

theorem ushiftRight_xor_eq_zero_iff {first second : BitVec width} {shift : Nat} :
    (first ^^^ second) >>> shift = BitVec.ofNat width 0 ↔ SameBlock shift first.toNat second.toNat := by
  rw [BitVec.ushiftRight_xor_distrib, BitVec.xor_eq_zero_iff, ← BitVec.toNat_inj]
  simp [SameBlock, Nat.shiftRight_eq_div_pow]

theorem contains_v4 {base addr : BitVec 32} :
    (⟨.v4 base, bits⟩ : Prefix).contains (.v4 addr) = true ↔ SameBlock (32 - bits) base.toNat addr.toNat := by
  rw [← ushiftRight_xor_eq_zero_iff]
  simp [contains, isValid, Addr.hasZone]

theorem contains_self_v4 (base : BitVec 32) (bits : Nat) :
    (⟨.v4 base, bits⟩ : Prefix).contains (.v4 base) = true :=
  contains_v4.mpr rfl

/-- Only addresses of its own family are in an IPv4 range. -/
theorem exists_v4_of_contains {base : BitVec 32} {bits : Int}
    (hcontains : (⟨.v4 base, bits⟩ : Prefix).contains addr = true) : ∃ value, addr = .v4 value := by
  cases addr with
  | invalid => simp [contains] at hcontains
  | v4 value => exact ⟨value, rfl⟩
  | v6 value zone => simp [contains] at hcontains

/-- Two IPv4 ranges overlap exactly when one contains the base of the other. -/
theorem apart_v4_iff {first second : BitVec 32} {bits other : Nat} :
    Apart ⟨.v4 first, bits⟩ ⟨.v4 second, other⟩ ↔
      (⟨.v4 first, bits⟩ : Prefix).contains (.v4 second) = false ∧
        (⟨.v4 second, other⟩ : Prefix).contains (.v4 first) = false := by
  simp only [← Bool.not_eq_true]
  constructor
  · intro hapart
    exact ⟨fun hcontains ↦ hapart _ ⟨hcontains, contains_self_v4 second other⟩,
      fun hcontains ↦ hapart _ ⟨contains_self_v4 first bits, hcontains⟩⟩
  · intro hneither addr hboth
    obtain ⟨value, rfl⟩ := exists_v4_of_contains hboth.1
    rcases sameBlock_or_of_common (contains_v4.mp hboth.1) (contains_v4.mp hboth.2) with hsame | hsame
    · exact hneither.1 (contains_v4.mpr hsame)
    · exact hneither.2 (contains_v4.mpr hsame)

/-! ## Masking -/

theorem toNat_mask (value : BitVec width) (shift : Nat) :
    (value >>> shift <<< shift).toNat = value.toNat / 2 ^ shift * 2 ^ shift := by
  rw [BitVec.toNat_shiftLeft, BitVec.toNat_ushiftRight, Nat.shiftRight_eq_div_pow, Nat.shiftLeft_eq]
  exact Nat.mod_eq_of_lt ((Nat.div_mul_le_self _ _).trans_lt value.isLt)

theorem sameBlock_mask (value : BitVec width) (shift : Nat) :
    SameBlock shift (value >>> shift <<< shift).toNat value.toNat := by
  rw [SameBlock, toNat_mask, Nat.mul_div_cancel _ (Nat.two_pow_pos shift)]

/-- Masking does not change which addresses are in an IPv4 range. -/
theorem contains_masked_v4 (base : BitVec 32) (bits : Nat) (addr : Addr) :
    (masked ⟨.v4 base, bits⟩).contains addr = (⟨.v4 base, bits⟩ : Prefix).contains addr := by
  rw [Bool.eq_iff_iff]
  have hmasked : masked ⟨.v4 base, bits⟩ = ⟨.v4 (base >>> (32 - bits) <<< (32 - bits)), bits⟩ := by
    simp [masked]
  rw [hmasked]
  constructor
  · intro hcontains
    obtain ⟨value, rfl⟩ := exists_v4_of_contains hcontains
    exact contains_v4.mpr (Eq.trans (sameBlock_mask base (32 - bits)).symm (contains_v4.mp hcontains))
  · intro hcontains
    obtain ⟨value, rfl⟩ := exists_v4_of_contains hcontains
    exact contains_v4.mpr (Eq.trans (sameBlock_mask base (32 - bits)) (contains_v4.mp hcontains))

end Prefix

end Podmin.Foundation.Netip
