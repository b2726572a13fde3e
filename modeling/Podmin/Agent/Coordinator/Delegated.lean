import Podmin.Agent.Coordinator.State

/-!
# Addresses inside a delegated prefix

A delegated prefix is a canonical global-unicast IPv6 /80. What lies inside is a plain IPv6 address:
it has no zone, since a prefix contains no zoned address, and it is not an IPv4-mapped one, since
these lie in `::/80`, which is not global unicast.
-/

namespace Podmin.Agent.Coordination

open Foundation Netip Api Agent.Service

variable {range : Prefix}

/-- The shape of a delegated prefix. -/
theorem validDelegatedPrefix_shape (hvalid : validDelegatedPrefix range = true) :
    ∃ base, range = ⟨.v6 base "", 80⟩ ∧ base >>> 48 <<< 48 = base ∧ base ≠ 0 := by
  obtain ⟨addr, bits⟩ := range
  simp only [validDelegatedPrefix, Bool.and_eq_true, Bool.not_eq_true', beq_iff_eq] at hvalid
  obtain ⟨⟨⟨⟨⟨_, his6⟩, _⟩, hglobal⟩, hbits⟩, hmasked⟩ := hvalid
  cases addr with
  | invalid => cases his6
  | v4 value => cases his6
  | v6 base zone =>
    rw [hbits] at hmasked ⊢
    simp only [Prefix.masked, Prefix.mk.injEq, Addr.v6.injEq, and_true] at hmasked
    refine ⟨base, by rw [hmasked.2], hmasked.1.symm, ?_⟩
    rintro rfl
    rw [hmasked.2] at hglobal
    simp [Addr.isGlobalUnicast] at hglobal

/-- An address inside a delegated prefix has the bits of its base above the last 48. -/
theorem bits_of_contains {base : BitVec 128} {addr : Addr}
    (hcontains : (⟨.v6 base "", 80⟩ : Prefix).contains addr = true) :
    ∃ bits, addr = .v6 bits "" ∧ base >>> 48 = bits >>> 48 := by
  cases addr with
  | invalid => simp [Prefix.contains] at hcontains
  | v4 value => simp [Prefix.contains] at hcontains
  | v6 bits zone =>
    simp only [Prefix.contains, Addr.hasZone, Bool.and_eq_true, Bool.not_eq_true', bne_eq_false_iff_eq,
      beq_iff_eq] at hcontains
    obtain ⟨⟨_, rfl⟩, hshift⟩ := hcontains
    refine ⟨bits, rfl, ?_⟩
    have hxor : base >>> 48 ^^^ bits >>> 48 = 0#128 := by
      rw [← BitVec.ushiftRight_xor_distrib]
      exact hshift
    exact BitVec.xor_eq_zero_iff.mp hxor

theorem plain_of_contains (hvalid : validDelegatedPrefix range = true) {addr : Addr}
    (hcontains : range.contains addr = true) :
    ∃ bits, addr = .v6 bits "" ∧ (Addr.v6 bits "").is4In6 = false := by
  obtain ⟨base, rfl, hcanonical, hnonzero⟩ := validDelegatedPrefix_shape hvalid
  obtain ⟨bits, rfl, hsame⟩ := bits_of_contains hcontains
  refine ⟨bits, rfl, ?_⟩
  rw [Addr.is4In6, beq_eq_false_iff_ne]
  intro hmapped
  -- a mapped address has nothing above its 48 low bits, and then neither has the prefix
  have hlow : bits >>> 48 = 0#128 := by
    rw [show 48 = 32 + 16 from rfl, BitVec.shiftRight_add, hmapped]
    decide
  apply hnonzero
  rw [← hcanonical, hsame, hlow]
  decide

/-- The text of a plain address has no NUL. -/
theorem nul_not_mem_string {bits : BitVec 128} (hplain : (Addr.v6 bits "").is4In6 = false) :
    '\x00' ∉ (Addr.v6 bits "").string.toList := by
  have hstring : (Addr.v6 bits "").string = String.ofList (string6 bits ++ zoneSuffix "") := by
    simp [Addr.string, hplain]
  rw [hstring, String.toList_ofList]
  intro hmem
  rcases List.mem_append.mp hmem with hbody | hzone
  · rcases string6_chars bits _ hbody with hhex | hcolon
    · exact absurd hhex (by decide)
    · exact absurd hcolon (by decide)
  · simp [zoneSuffix] at hzone

/-- An endpoint is inside when its address is, for the text of an IPv6 address. -/
theorem insidePrefix_string {endpoint : Endpoint} {bits : BitVec 128} {zone : String}
    (haddress : endpoint.address = (Addr.v6 bits zone).string) :
    insidePrefix range endpoint = range.contains (.v6 bits zone) := by
  rw [insidePrefix, haddress, parseAddr_string]

/-- The address of an endpoint that is inside. -/
theorem address_of_insidePrefix (hvalid : validDelegatedPrefix range = true) {endpoint : Endpoint}
    (hinside : insidePrefix range endpoint = true) :
    ∃ bits, parseAddr endpoint.address = some (.v6 bits "") ∧ (Addr.v6 bits "").is4In6 = false := by
  rw [insidePrefix] at hinside
  split at hinside
  · next address haddress =>
    obtain ⟨bits, rfl, hplain⟩ := plain_of_contains hvalid hinside
    exact ⟨bits, haddress, hplain⟩
  · cases hinside

end Podmin.Agent.Coordination
