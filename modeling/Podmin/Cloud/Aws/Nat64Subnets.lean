import Mathlib.Data.Set.Card
import Mathlib.Data.String.Basic
import Podmin.Foundation.Cidr
import Podmin.Foundation.Fallible
import Podmin.Foundation.GoMap

/-!
# Subnets for NAT64

`allocateNAT64SubnetCIDRs` of `internal/cloud/aws`: one IPv4 /28 of the VPC for every zone. A range that is
already owned is retained, and the other zones get free ranges from the end of the VPC on. Addresses are
computed with 32 bits, as in the source.
-/

namespace Podmin.Cloud.Aws

open Foundation Fallible Netip Prefix

variable {range : Prefix} {result : GoMap String String} {zone : String} {fresh : String → BitVec 32}

/-! ## The allocation -/

/-- The ranges found so far, and all occupied ones. -/
structure Allocation where
  result : GoMap String String := ∅
  occupied : List Prefix

def insufficient : String := "insufficient free IPv4 /28 ranges for NAT64 subnets"

/-- Retain the range that a zone owns. -/
def retainOwned (vpc : Prefix) (owned : GoMap String String) (state : Allocation) (zone : String) :
    Except String Allocation :=
  let value := (owned.lookup zone).getD ""
  if value = "" then .ok state
  else
    match parsePrefix value with
    | none => .error ("owned NAT64 subnet for " ++ zone ++ " is not a /28 within the VPC")
    | some range =>
      if range.bits ≠ 28 ∨ vpc.contains range.addr = false then
        .error ("owned NAT64 subnet for " ++ zone ++ " is not a /28 within the VPC")
      else .ok ⟨state.result.insert zone range.masked.string, state.occupied ++ [range.masked]⟩

/-- The number of /28s in the VPC. -/
def slotCount (vpc : Prefix) : BitVec 32 := 1#32 <<< (28 - vpc.bits).toNat

/-- The /28 with a number, counted from one. -/
def candidate (base : BitVec 32) (index : Nat) : Prefix :=
  ⟨.v4 (base + (BitVec.ofNat 32 index - 1#32) * 16#32), 28⟩

def overlapsAny (range : Prefix) (occupied : List Prefix) : Bool :=
  occupied.any fun other ↦ range.contains other.addr || other.contains range.addr

/-- The last /28 up to a number that overlaps nothing. -/
def lastFree (base : BitVec 32) (occupied : List Prefix) : Nat → Option Prefix
  | 0 => none
  | index + 1 =>
    if overlapsAny (candidate base (index + 1)) occupied then lastFree base occupied index
    else some (candidate base (index + 1))

/-- Assign a free range to a zone without one. -/
def assignFree (base : BitVec 32) (count : Nat) (state : Allocation) (zone : String) :
    Except String Allocation :=
  if (state.result.lookup zone).getD "" ≠ "" then .ok state
  else
    match lastFree base state.occupied count with
    | none => .error insufficient
    | some range => .ok ⟨state.result.insert zone range.string, state.occupied ++ [range]⟩

/-- Retain owned /28s and assign free ranges from the end of the VPC on. -/
def allocateNAT64SubnetCIDRs (vpc : Prefix) (occupied : List Prefix) (owned : GoMap String String)
    (zones : List String) : Except String (GoMap String String) :=
  match vpc.masked.addr with
  | .v4 base =>
    if 28 < vpc.bits then .error "VPC CIDR must contain one IPv4 /28 per NAT64 Availability Zone"
    else do
      let names := sortSlice (fun left right ↦ decide (left < right)) zones
      let retained ← names.foldlM (retainOwned vpc owned) { occupied }
      let assigned ← names.foldlM (assignFree base (slotCount vpc).toNat) retained
      .ok assigned.result
  | _ => .error "VPC CIDR must contain one IPv4 /28 per NAT64 Availability Zone"

/-! ## Arithmetic -/

section Slots

variable {base : BitVec 32} {bits : Nat}

theorem toNat_slotCount (hbits : bits ≤ 28) (addr : Addr) :
    (slotCount ⟨addr, bits⟩).toNat = 2 ^ (28 - bits) := by
  have hshift : (28 - (bits : Int)).toNat = 28 - bits := by omega
  rw [slotCount, hshift, BitVec.toNat_shiftLeft, Nat.shiftLeft_eq]
  have hlt : 2 ^ (28 - bits) < 2 ^ 32 := Nat.pow_lt_pow_right (by norm_num) (by omega)
  simp only [BitVec.toNat_ofNat, Nat.one_mod, one_mul]
  norm_num at hlt ⊢
  exact hlt

theorem slotCount_mul (hbits : bits ≤ 28) : 2 ^ (28 - bits) * 16 = 2 ^ (32 - bits) := by
  have hsplit : 32 - bits = 28 - bits + 4 := by omega
  rw [hsplit, pow_add]
  norm_num

/-- The base of the VPC leaves room for all its addresses. -/
theorem toNat_base_add_le (vpc : BitVec 32) (hbits : bits ≤ 28) :
    (vpc >>> (32 - bits) <<< (32 - bits)).toNat + 2 ^ (28 - bits) * 16 ≤ 2 ^ 32 := by
  have hwidth : 2 ^ bits * 2 ^ (32 - bits) = 2 ^ 32 := by
    rw [← pow_add]
    congr 1
    omega
  have hblock : vpc.toNat / 2 ^ (32 - bits) < 2 ^ bits := by
    rw [Nat.div_lt_iff_lt_mul (Nat.two_pow_pos _), hwidth]
    exact vpc.isLt
  calc (vpc >>> (32 - bits) <<< (32 - bits)).toNat + 2 ^ (28 - bits) * 16
      = (vpc.toNat / 2 ^ (32 - bits) + 1) * 2 ^ (32 - bits) := by
        rw [toNat_mask, slotCount_mul hbits, add_mul, one_mul]
    _ ≤ 2 ^ bits * 2 ^ (32 - bits) := Nat.mul_le_mul_right _ hblock
    _ = 2 ^ 32 := hwidth

/-- None of the 32-bit computations of a candidate's address wraps. -/
theorem toNat_candidate {index : Nat} (hindex : 0 < index) (hroom : base.toNat + index * 16 ≤ 2 ^ 32) :
    (BitVec.ofNat 32 index - 1#32).toNat = index - 1 ∧
      ((BitVec.ofNat 32 index - 1#32) * 16#32).toNat = (index - 1) * 16 ∧
      (base + (BitVec.ofNat 32 index - 1#32) * 16#32).toNat = base.toNat + (index - 1) * 16 := by
  have hfirst : (BitVec.ofNat 32 index - 1#32).toNat = index - 1 := by
    rw [BitVec.toNat_sub, BitVec.toNat_ofNat, BitVec.toNat_ofNat]
    omega
  have hsecond : ((BitVec.ofNat 32 index - 1#32) * 16#32).toNat = (index - 1) * 16 := by
    rw [BitVec.toNat_mul, hfirst, BitVec.toNat_ofNat]
    omega
  refine ⟨hfirst, hsecond, ?_⟩
  rw [BitVec.toNat_add, hsecond]
  omega

end Slots

/-! ## Free ranges -/

/-- The base addresses of the aligned /28s of the VPC that are apart from every occupied range. -/
def freeRanges (vpc : Prefix) (occupied : List Prefix) : Set (BitVec 32) :=
  { base | base.toNat % 16 = 0 ∧ vpc.contains (.v4 base) = true ∧
    ∀ range ∈ occupied, Apart ⟨.v4 base, 28⟩ range }

/-- An IPv4 range. -/
def IsIPv4 (range : Prefix) : Prop :=
  ∃ base bits, bits ≤ 32 ∧ range = ⟨.v4 base, ((bits : Nat) : Int)⟩

theorem overlapsAny_eq_false {base : BitVec 32} {occupied : List Prefix}
    (hoccupied : ∀ range ∈ occupied, IsIPv4 range) :
    overlapsAny ⟨.v4 base, 28⟩ occupied = false ↔ ∀ range ∈ occupied, Apart ⟨.v4 base, 28⟩ range := by
  rw [overlapsAny, List.any_eq_false]
  apply forall₂_congr
  intro range hrange
  obtain ⟨other, bits, _, rfl⟩ := hoccupied range hrange
  have hiff := @apart_v4_iff base other 28 bits
  rw [Bool.not_eq_true, Bool.or_eq_false_iff]
  exact hiff.symm

/-- Aligned ranges with different bases are apart. -/
theorem apart_of_aligned {first second : BitVec 32} (hfirst : first.toNat % 16 = 0)
    (hsecond : second.toNat % 16 = 0) (hne : first ≠ second) :
    Apart ⟨.v4 first, 28⟩ ⟨.v4 second, 28⟩ := by
  have hblock : ∀ {left right : BitVec 32}, left.toNat % 16 = 0 → right.toNat % 16 = 0 →
      SameBlock (32 - 28) left.toNat right.toNat → left = right := by
    intro left right hleft hright hsame
    apply BitVec.eq_of_toNat_eq
    simp only [SameBlock, Nat.reducePow, Nat.reduceSub] at hsame
    omega
  have hiff := @apart_v4_iff first second 28 28
  refine hiff.mpr ⟨?_, ?_⟩
  · rw [← Bool.not_eq_true]
    exact fun hcontains ↦ hne (hblock hfirst hsecond (contains_v4.mp hcontains))
  · rw [← Bool.not_eq_true]
    exact fun hcontains ↦ hne (hblock hsecond hfirst (contains_v4.mp hcontains)).symm

/-- Occupying a free range takes exactly that range away. -/
theorem freeRanges_append {vpc : Prefix} {occupied : List Prefix} {base : BitVec 32}
    (hbase : base ∈ freeRanges vpc occupied) :
    freeRanges vpc (occupied ++ [⟨.v4 base, 28⟩]) = freeRanges vpc occupied \ {base} := by
  ext other
  simp only [freeRanges, Set.mem_ofPred_eq, List.mem_append, List.mem_singleton, Set.mem_sdiff,
    Set.mem_singleton_iff]
  constructor
  · rintro ⟨haligned, hcontains, hapart⟩
    refine ⟨⟨haligned, hcontains, fun range hrange ↦ hapart range (.inl hrange)⟩, ?_⟩
    rintro rfl
    have hself := contains_self_v4 other 28
    exact hapart _ (.inr rfl) _ ⟨hself, hself⟩
  · rintro ⟨⟨haligned, hcontains, hapart⟩, hne⟩
    refine ⟨haligned, hcontains, fun range hrange ↦ ?_⟩
    rcases hrange with hold | rfl
    · exact hapart range hold
    · exact apart_of_aligned haligned hbase.1 hne

/-! ## The scan -/

section Scan

variable {vpc : BitVec 32} {bits : Nat}

/-- The base address of the VPC. -/
def vpcBase (vpc : BitVec 32) (bits : Nat) : BitVec 32 := vpc >>> (32 - bits) <<< (32 - bits)

/-- The candidates are the aligned /28s of the VPC. -/
theorem mem_candidates_iff (hbits : bits ≤ 28) (base : BitVec 32) :
    (∃ index, 0 < index ∧ index ≤ 2 ^ (28 - bits) ∧ candidate (vpcBase vpc bits) index = ⟨.v4 base, 28⟩) ↔
      base.toNat % 16 = 0 ∧ (⟨.v4 vpc, bits⟩ : Prefix).contains (.v4 base) = true := by
  have hroom := toNat_base_add_le vpc hbits
  have hblocks := slotCount_mul hbits
  have hpos : 0 < 2 ^ (28 - bits) := Nat.two_pow_pos _
  rw [contains_v4]
  have hbase : (vpcBase vpc bits).toNat = vpc.toNat / 2 ^ (32 - bits) * 2 ^ (32 - bits) :=
    toNat_mask vpc _
  have hnumber : ∀ index, 0 < index → index ≤ 2 ^ (28 - bits) →
      (vpcBase vpc bits + (BitVec.ofNat 32 index - 1#32) * 16#32).toNat =
        vpc.toNat / 2 ^ (32 - bits) * 2 ^ (32 - bits) + (index - 1) * 16 := by
    intro index hindex hcount
    rw [(toNat_candidate hindex _).2.2, hbase]
    refine le_trans ?_ hroom
    exact Nat.add_le_add_left (Nat.mul_le_mul_right 16 hcount) _
  have hmultiple : vpc.toNat / 2 ^ (32 - bits) * 2 ^ (32 - bits) =
      vpc.toNat / 2 ^ (32 - bits) * 2 ^ (28 - bits) * 16 := by rw [mul_assoc, hblocks]
  constructor
  · rintro ⟨index, hindex, hcount, hcandidate⟩
    have hvalue := hnumber index hindex hcount
    simp only [candidate, mk.injEq, Addr.v4.injEq, and_true] at hcandidate
    rw [hcandidate] at hvalue
    have hinside : (index - 1) * 16 < 2 ^ (32 - bits) := by omega
    refine ⟨by omega, ?_⟩
    rw [SameBlock, hvalue, Nat.add_comm, Nat.add_mul_div_right _ _ (Nat.two_pow_pos _),
      Nat.div_eq_of_lt hinside, Nat.zero_add]
  · rintro ⟨haligned, hsame⟩
    have hrest : base.toNat % 2 ^ (32 - bits) < 2 ^ (32 - bits) := Nat.mod_lt _ (Nat.two_pow_pos _)
    have hsplit := Nat.div_add_mod base.toNat (2 ^ (32 - bits))
    rw [← hsame, Nat.mul_comm] at hsplit
    refine ⟨base.toNat % 2 ^ (32 - bits) / 16 + 1, by omega, by omega, ?_⟩
    have hvalue := hnumber (base.toNat % 2 ^ (32 - bits) / 16 + 1) (by omega) (by omega)
    have hsameNumber : (vpcBase vpc bits + (BitVec.ofNat 32 (base.toNat % 2 ^ (32 - bits) / 16 + 1) - 1#32) *
        16#32).toNat = base.toNat := by
      rw [hvalue]
      omega
    rw [candidate, BitVec.eq_of_toNat_eq hsameNumber]

theorem lastFree_eq_none {base : BitVec 32} {occupied : List Prefix} {count : Nat} :
    lastFree base occupied count = none ↔
      ∀ index, 0 < index → index ≤ count → overlapsAny (candidate base index) occupied = true := by
  induction count with
  | zero =>
    simp only [lastFree, true_iff]
    intro index hpos hle
    omega
  | succ count ih =>
    unfold lastFree
    split_ifs with hoverlaps
    · rw [ih]
      constructor
      · intro hall index hpos hle
        rcases Nat.lt_succ_iff_lt_or_eq.mp (Nat.lt_succ_of_le hle) with hless | rfl
        · exact hall index hpos (by omega)
        · exact hoverlaps
      · exact fun hall index hpos hle ↦ hall index hpos (by omega)
    · simp only [false_iff]
      exact fun hall ↦ hoverlaps (hall (count + 1) (by omega) le_rfl)

theorem lastFree_eq_some {base : BitVec 32} {occupied : List Prefix} {count : Nat}
    (hfree : lastFree base occupied count = some range) :
    ∃ index, 0 < index ∧ index ≤ count ∧ range = candidate base index ∧
      overlapsAny (candidate base index) occupied = false := by
  induction count with
  | zero => cases hfree
  | succ count ih =>
    unfold lastFree at hfree
    split_ifs at hfree with hoverlaps
    · obtain ⟨index, hpos, hle, hrest⟩ := ih hfree
      exact ⟨index, hpos, by omega, hrest⟩
    · exact ⟨count + 1, by omega, le_rfl, (Option.some.inj hfree).symm, by simpa using hoverlaps⟩

/-- The scan finds a free range if there is one. -/
theorem lastFree_cases (hbits : bits ≤ 28) {occupied : List Prefix}
    (hoccupied : ∀ range ∈ occupied, IsIPv4 range) :
    (lastFree (vpcBase vpc bits) occupied (2 ^ (28 - bits)) = none ∧
        freeRanges ⟨.v4 vpc, bits⟩ occupied = ∅) ∨
      ∃ base ∈ freeRanges ⟨.v4 vpc, bits⟩ occupied,
        lastFree (vpcBase vpc bits) occupied (2 ^ (28 - bits)) = some ⟨.v4 base, 28⟩ := by
  cases hfree : lastFree (vpcBase vpc bits) occupied (2 ^ (28 - bits)) with
  | none =>
    refine .inl ⟨rfl, Set.eq_empty_iff_forall_notMem.mpr fun base hbase ↦ ?_⟩
    obtain ⟨haligned, hcontains, hapart⟩ := hbase
    obtain ⟨index, hpos, hle, hcandidate⟩ := (mem_candidates_iff hbits base).mpr ⟨haligned, hcontains⟩
    have hoverlaps := lastFree_eq_none.mp hfree index hpos hle
    rw [hcandidate, (overlapsAny_eq_false hoccupied).mpr hapart] at hoverlaps
    cases hoverlaps
  | some range =>
    obtain ⟨index, hpos, hle, rfl, hoverlaps⟩ := lastFree_eq_some hfree
    have hcandidate : candidate (vpcBase vpc bits) index =
        ⟨.v4 (vpcBase vpc bits + (BitVec.ofNat 32 index - 1#32) * 16#32), 28⟩ := rfl
    obtain ⟨haligned, hcontains⟩ := (mem_candidates_iff hbits _).mp ⟨index, hpos, hle, hcandidate⟩
    exact .inr ⟨_, ⟨haligned, hcontains, (overlapsAny_eq_false hoccupied).mp hoverlaps⟩, rfl⟩

/-! ## Zones without a range -/

/-- The zones that have no range yet. -/
def pending (result : GoMap String String) (zones : List String) : List String :=
  zones.filter fun zone ↦ decide ((result.lookup zone).getD "" = "")

theorem mem_pending {zones : List String} :
    zone ∈ pending result zones ↔ zone ∈ zones ∧ (result.lookup zone).getD "" = "" := by
  simp [pending]

/-- The zones have different free ranges, and nothing else has changed. -/
structure Assigns (free : Set (BitVec 32)) (zones : List String) (before after : GoMap String String)
    (fresh : String → BitVec 32) : Prop where
  text : ∀ zone ∈ zones, after.lookup zone = some (string ⟨.v4 (fresh zone), 28⟩)
  free : ∀ zone ∈ zones, fresh zone ∈ free
  injective : ∀ first ∈ zones, ∀ second ∈ zones, fresh first = fresh second → first = second
  other : ∀ zone, zone ∉ zones → after.lookup zone = before.lookup zone

theorem Assigns.nil (free : Set (BitVec 32)) (result : GoMap String String) :
    Assigns free [] result result fun _ ↦ 0 where
  text zone hzone := by cases hzone
  free zone hzone := by cases hzone
  injective zone hzone := by cases hzone
  other _ _ := rfl

/-- One more zone takes a range away from the others. -/
theorem Assigns.cons {free : Set (BitVec 32)} {zones : List String} {before after : GoMap String String}
    {fresh : String → BitVec 32} {zone : String} {base : BitVec 32} (hbase : base ∈ free) (hzone : zone ∉ zones)
    (hassigns : Assigns (free \ {base}) zones (before.insert zone (string ⟨.v4 base, 28⟩)) after fresh) :
    Assigns free (zone :: zones) before after (Function.update fresh zone base) := by
  have hne : ∀ other ∈ zones, other ≠ zone := fun other hmem heq ↦ hzone (heq ▸ hmem)
  have hother : ∀ other ∈ zones, Function.update fresh zone base other = fresh other := fun other hmem ↦
    Function.update_of_ne (hne other hmem) _ _
  have hdiffers : ∀ other ∈ zones, fresh other ≠ base := fun other hmem ↦ (hassigns.free other hmem).2
  constructor
  · intro other hmem
    rcases List.mem_cons.mp hmem with rfl | hrest
    · rw [hassigns.other other hzone, Function.update_self, GoMap.lookup_insert_eq, if_pos rfl]
    · rw [hother other hrest]
      exact hassigns.text other hrest
  · intro other hmem
    rcases List.mem_cons.mp hmem with rfl | hrest
    · rw [Function.update_self]
      exact hbase
    · rw [hother other hrest]
      exact (hassigns.free other hrest).1
  · intro first hfirst second hsecond hsame
    rcases List.mem_cons.mp hfirst with rfl | hfirstRest
    · rcases List.mem_cons.mp hsecond with rfl | hsecondRest
      · rfl
      · rw [Function.update_self, hother second hsecondRest] at hsame
        exact absurd hsame.symm (hdiffers second hsecondRest)
    · rw [hother first hfirstRest] at hsame
      rcases List.mem_cons.mp hsecond with rfl | hsecondRest
      · rw [Function.update_self] at hsame
        exact absurd hsame (hdiffers first hfirstRest)
      · rw [hother second hsecondRest] at hsame
        exact hassigns.injective first hfirstRest second hsecondRest hsame
  · intro other hmem
    rw [List.mem_cons, not_or] at hmem
    rw [hassigns.other other hmem.2, GoMap.lookup_insert_eq, if_neg hmem.1]

theorem finite_ranges (free : Set (BitVec 32)) : free.Finite :=
  have : Finite (BitVec 32) := Finite.of_injective BitVec.toFin fun _ _ ↦ BitVec.eq_of_toFin_eq
  Set.toFinite free

/-- The loop assigns free ranges, and fails exactly when there are too few. -/
theorem assign_cases (hbits : bits ≤ 28) {zones : List String} (hnodup : zones.Nodup) (state : Allocation)
    (hoccupied : ∀ range ∈ state.occupied, IsIPv4 range) :
    (zones.foldlM (assignFree (vpcBase vpc bits) (2 ^ (28 - bits))) state = .error insufficient ∧
        (freeRanges ⟨.v4 vpc, bits⟩ state.occupied).ncard < (pending state.result zones).length) ∨
      ∃ final fresh, zones.foldlM (assignFree (vpcBase vpc bits) (2 ^ (28 - bits))) state = .ok final ∧
        (pending state.result zones).length ≤ (freeRanges ⟨.v4 vpc, bits⟩ state.occupied).ncard ∧
        Assigns (freeRanges ⟨.v4 vpc, bits⟩ state.occupied) (pending state.result zones) state.result
          final.result fresh := by
  induction zones generalizing state with
  | nil => exact .inr ⟨state, fun _ ↦ 0, rfl, Nat.zero_le _, .nil _ _⟩
  | cons zone zones ih =>
    obtain ⟨hzone, hrest⟩ := List.nodup_cons.mp hnodup
    rw [List.foldlM_cons]
    unfold assignFree
    by_cases hassigned : (state.result.lookup zone).getD "" = ""
    · have hpending : pending state.result (zone :: zones) = zone :: pending state.result zones := by
        simp [pending, hassigned]
      rw [if_neg (not_not.mpr hassigned), hpending]
      rcases @lastFree_cases vpc bits hbits _ hoccupied with ⟨hnone, hempty⟩ | ⟨base, hbase, hsome⟩
      · refine .inl ⟨by rw [hnone]; rfl, ?_⟩
        rw [hempty, Set.ncard_empty]
        exact Nat.zero_lt_succ _
      · -- the range is taken away from the zones that follow
        let next : Allocation :=
          ⟨state.result.insert zone (string ⟨.v4 base, 28⟩), state.occupied ++ [⟨.v4 base, 28⟩]⟩
        have hnext : ∀ range ∈ next.occupied, IsIPv4 range := by
          intro range hrange
          rcases List.mem_append.mp hrange with hold | hnew
          · exact hoccupied range hold
          · rw [List.mem_singleton.mp hnew]
            exact ⟨base, 28, by norm_num, rfl⟩
        have hsame : pending next.result zones = pending state.result zones := by
          refine List.filter_congr fun other hother ↦ ?_
          have hne : other ≠ zone := fun heq ↦ hzone (heq ▸ hother)
          rw [GoMap.lookup_insert_eq, if_neg hne]
        have hfree : freeRanges ⟨.v4 vpc, bits⟩ next.occupied =
            freeRanges ⟨.v4 vpc, bits⟩ state.occupied \ {base} := freeRanges_append hbase
        have hcard := Set.ncard_sdiff_singleton_add_one hbase (finite_ranges _)
        have hstep := ih hrest next hnext
        rw [hsame, hfree] at hstep
        rw [hsome, ← hcard, List.length_cons]
        rcases hstep with ⟨hrun, hless⟩ | ⟨final, fresh, hrun, hle, hassigns⟩
        · exact .inl ⟨hrun, Nat.succ_lt_succ hless⟩
        · have hnot : zone ∉ pending state.result zones := fun hmem ↦ hzone (mem_pending.mp hmem).1
          exact .inr ⟨final, _, hrun, Nat.succ_le_succ hle, hassigns.cons hbase hnot⟩
    · have hpending : pending state.result (zone :: zones) = pending state.result zones := by
        simp [pending, hassigned]
      rw [if_pos hassigned, ok_bind, hpending]
      exact ih hrest state hoccupied

end Scan

/-! ## Owned ranges -/

/-- An IPv4 VPC with room for a /28, occupied IPv4 ranges, and owned /28s inside the VPC that are among the
occupied ranges and apart from each other. -/
structure Nat64Inputs (vpc : Prefix) (occupied : List Prefix) (owned : GoMap String Prefix)
    (zones : List String) :
    Prop where
  ipv4VPC : ∃ base bits, bits ≤ 28 ∧ vpc = ⟨.v4 base, ((bits : Nat) : Int)⟩
  ipv4 : ∀ range ∈ occupied, IsIPv4 range
  retained : ∀ zone range, owned.lookup zone = some range → ∃ base, range = ⟨.v4 base, 28⟩ ∧
    vpc.contains (.v4 base) = true ∧ ∃ other ∈ occupied, other.masked = range.masked
  apart : ∀ first second left right, first ≠ second → owned.lookup first = some left →
    owned.lookup second = some right → Apart left right
  nodup : zones.Nodup

theorem masked_eq (base : BitVec 32) : masked ⟨.v4 base, 28⟩ = ⟨.v4 (base >>> 4 <<< 4), 28⟩ := rfl

theorem aligned_masked (base : BitVec 32) : (base >>> 4 <<< 4).toNat % 16 = 0 := by
  rw [toNat_mask]
  norm_num

theorem masked_of_aligned {base : BitVec 32} (haligned : base.toNat % 16 = 0) :
    masked ⟨.v4 base, 28⟩ = ⟨.v4 base, 28⟩ := by
  have hsame : base >>> 4 <<< 4 = base := by
    apply BitVec.eq_of_toNat_eq
    rw [toNat_mask]
    norm_num
    omega
  rw [masked_eq, hsame]

theorem contains_masked (hrange : IsIPv4 range) (addr : Addr) :
    range.masked.contains addr = range.contains addr := by
  obtain ⟨base, bits, _, rfl⟩ := hrange
  exact contains_masked_v4 base bits addr

theorem isIPv4_28 (base : BitVec 32) : IsIPv4 ⟨.v4 base, 28⟩ := ⟨base, 28, by norm_num, rfl⟩

theorem string_ne_empty (hparse : parsePrefix range.string = some range) : range.string ≠ "" := by
  intro hempty
  rw [hempty] at hparse
  exact absurd hparse (by simp [parsePrefix])

section Owned

variable {vpc : Prefix} {occupied : List Prefix} {owned : GoMap String Prefix} {texts : GoMap String String}
  {zones : List String}

/-- What the first loop makes of the owned ranges. -/
theorem retain_eq (hinputs : Nat64Inputs vpc occupied owned zones)
    (htexts : ∀ zone, texts.lookup zone = (owned.lookup zone).map string) (names : List String)
    (state : Allocation) :
    ∃ final, names.foldlM (retainOwned vpc texts) state = .ok final ∧
      final.occupied = state.occupied ++ names.filterMap (fun zone ↦ (owned.lookup zone).map masked) ∧
      ∀ zone, final.result.lookup zone = if zone ∈ names ∧ (owned.lookup zone).isSome then
        (owned.lookup zone).map fun range ↦ range.masked.string else state.result.lookup zone := by
  induction names generalizing state with
  | nil => exact ⟨state, rfl, by simp, by simp⟩
  | cons name names ih =>
    rw [List.foldlM_cons]
    unfold retainOwned
    cases howned : owned.lookup name with
    | none =>
      obtain ⟨final, hrun, hoccupied, hresult⟩ := ih state
      refine ⟨final, ?_, by simpa [howned] using hoccupied, fun zone ↦ ?_⟩
      · rw [htexts, howned]
        exact hrun
      · rw [hresult]
        rcases eq_or_ne zone name with rfl | hzone
        · simp [howned]
        · simp [hzone]
    | some range =>
      obtain ⟨base, rfl, hcontains, _⟩ := hinputs.retained name range howned
      have hparse : parsePrefix (string ⟨.v4 base, 28⟩) = some ⟨.v4 base, 28⟩ :=
        parsePrefix_string4 (by norm_num)
      obtain ⟨final, hrun, hoccupied, hresult⟩ := ih
        ⟨state.result.insert name (masked ⟨.v4 base, 28⟩).string,
          state.occupied ++ [masked ⟨.v4 base, 28⟩]⟩
      refine ⟨final, ?_, by simpa [howned] using hoccupied, fun zone ↦ ?_⟩
      · rw [htexts, howned]
        simp only [Option.map_some, Option.getD_some, if_neg (string_ne_empty hparse), hparse, hcontains]
        exact hrun
      · rw [hresult, GoMap.lookup_insert_eq]
        rcases eq_or_ne zone name with rfl | hzone
        · simp [howned]
        · simp [hzone]

/-- Owned ranges take no free range away: they are occupied already. -/
theorem freeRanges_owned (hinputs : Nat64Inputs vpc occupied owned zones) (names : List String) :
    freeRanges vpc (occupied ++ names.filterMap fun zone ↦ (owned.lookup zone).map masked) =
      freeRanges vpc occupied := by
  ext base
  simp only [freeRanges, Set.mem_ofPred_eq, List.mem_append]
  refine and_congr_right fun _ ↦ and_congr_right fun _ ↦ ?_
  constructor
  · exact fun hall range hrange ↦ hall range (.inl hrange)
  · intro hall range hrange
    rcases hrange with hold | howned
    · exact hall range hold
    · obtain ⟨zone, _, hzone⟩ := List.mem_filterMap.mp howned
      obtain ⟨own, hown, rfl⟩ := Option.map_eq_some_iff.mp hzone
      obtain ⟨_, _, _, other, hother, hsame⟩ := hinputs.retained zone own hown
      intro addr hboth
      rw [← hsame, contains_masked (hinputs.ipv4 other hother)] at hboth
      exact hall other hother addr hboth

theorem isIPv4_owned (hinputs : Nat64Inputs vpc occupied owned zones) (names : List String) :
    ∀ range ∈ occupied ++ names.filterMap (fun zone ↦ (owned.lookup zone).map masked), IsIPv4 range := by
  intro range hrange
  rcases List.mem_append.mp hrange with hold | howned
  · exact hinputs.ipv4 range hold
  · obtain ⟨zone, _, hzone⟩ := List.mem_filterMap.mp howned
    obtain ⟨own, hown, rfl⟩ := Option.map_eq_some_iff.mp hzone
    obtain ⟨base, rfl, _⟩ := hinputs.retained zone own hown
    rw [masked_eq]
    exact isIPv4_28 _

/-- The zones left over by the first loop are those that own nothing. -/
theorem pending_retained (names : List String) (hinputs : Nat64Inputs vpc occupied owned zones)
    (hresult : ∀ zone, result.lookup zone = if zone ∈ names ∧ (owned.lookup zone).isSome then
      (owned.lookup zone).map fun range ↦ range.masked.string else none) :
    pending result names = names.filter fun zone ↦ (owned.lookup zone).isNone := by
  refine List.filter_congr fun zone hzone ↦ ?_
  rw [hresult]
  cases howned : owned.lookup zone with
  | none => simp
  | some range =>
    obtain ⟨base, rfl, _⟩ := hinputs.retained zone range howned
    have hparse : parsePrefix (string ⟨.v4 (base >>> 4 <<< 4), 28⟩) =
      some ⟨.v4 (base >>> 4 <<< 4), 28⟩ :=
      parsePrefix_string4 (by norm_num)
    simp [hzone, masked_eq, string_ne_empty hparse]

end Owned

/-! ## Soundness and completeness -/

/-- What the allocation gives: a masked /28 of the VPC for every zone. -/
structure Nat64Allocated (vpc : Prefix) (occupied : List Prefix) (owned : GoMap String Prefix)
    (zones : List String)
    (result : GoMap String String) (ranges : String → Prefix) : Prop where
  text : ∀ zone ∈ zones, result.lookup zone = some (ranges zone).string
  only : ∀ zone, zone ∉ zones → result.lookup zone = none
  masked : ∀ zone ∈ zones, (ranges zone).bits = 28 ∧ (ranges zone).masked = ranges zone
  inside : ∀ zone ∈ zones, ∀ addr, (ranges zone).contains addr = true → vpc.contains addr = true
  retained : ∀ zone ∈ zones, ∀ range, owned.lookup zone = some range → ranges zone = range.masked
  apart : ∀ first ∈ zones, ∀ second ∈ zones, first ≠ second → Apart (ranges first) (ranges second)
  fresh : ∀ zone ∈ zones, owned.lookup zone = none → ∀ range ∈ occupied, Apart (ranges zone) range

/-- Every 32-bit computation of the scan has the value that it has over the natural numbers. -/
structure Unwrapped (vpc : Prefix) (base : BitVec 32) : Prop where
  count : (slotCount vpc).toNat = 2 ^ (28 - vpc.bits).toNat
  number : ∀ index, 0 < index → index ≤ (slotCount vpc).toNat →
    (BitVec.ofNat 32 index).toNat = index ∧ (BitVec.ofNat 32 index - 1#32).toNat = index - 1
  offset : ∀ index, 0 < index → index ≤ (slotCount vpc).toNat →
    ((BitVec.ofNat 32 index - 1#32) * 16#32).toNat = (index - 1) * 16
  address : ∀ index, 0 < index → index ≤ (slotCount vpc).toNat →
    (base + (BitVec.ofNat 32 index - 1#32) * 16#32).toNat = base.toNat + (index - 1) * 16

theorem unwrapped (vpc : BitVec 32) {bits : Nat} (hbits : bits ≤ 28) :
    Unwrapped ⟨.v4 vpc, bits⟩ (vpcBase vpc bits) := by
  have hcount := toNat_slotCount hbits (.v4 vpc)
  have hroom : ∀ index, index ≤ 2 ^ (28 - bits) →
      (vpcBase vpc bits).toNat + index * 16 ≤ 2 ^ 32 := fun index hle ↦
    le_trans (Nat.add_le_add_left (Nat.mul_le_mul_right 16 hle) _) (toNat_base_add_le vpc hbits)
  have hshift : (28 - (bits : Int)).toNat = 28 - bits := by omega
  constructor
  · rw [hcount, hshift]
  all_goals
    intro index hpos hle
    rw [hcount] at hle
    obtain ⟨hnumber, hoffset, haddress⟩ := toNat_candidate hpos (hroom index hle)
  · have hsmall := hroom index hle
    refine ⟨?_, hnumber⟩
    rw [BitVec.toNat_ofNat]
    omega
  · exact hoffset
  · exact haddress

/-- A /28 whose base lies in the VPC lies in the VPC. -/
theorem inside_of_contains {vpc base : BitVec 32} {bits : Nat} (hbits : bits ≤ 28)
    (hcontains : (⟨.v4 vpc, bits⟩ : Prefix).contains (.v4 base) = true) (addr : Addr)
    (haddr : (⟨.v4 base, 28⟩ : Prefix).contains addr = true) :
    (⟨.v4 vpc, bits⟩ : Prefix).contains addr = true := by
  obtain ⟨value, rfl⟩ := exists_v4_of_contains haddr
  have hsmall : SameBlock (32 - 28) base.toNat value.toNat := contains_v4.mp haddr
  have hlarge : SameBlock (32 - bits) vpc.toNat base.toNat := contains_v4.mp hcontains
  exact contains_v4.mpr (hlarge.trans (hsmall.mono (by omega)))

section Allocates

variable {vpc : Prefix} {occupied : List Prefix} {owned : GoMap String Prefix} {texts : GoMap String String}
  {zones : List String}

/-- The range of a zone: its own one, or a fresh one. -/
def rangeOf (owned : GoMap String Prefix) (fresh : String → BitVec 32) (zone : String) : Prefix :=
  match owned.lookup zone with
  | some range => range.masked
  | none => ⟨.v4 (fresh zone), 28⟩

theorem rangeOf_some (howned : owned.lookup zone = some range) : rangeOf owned fresh zone = range.masked := by
  rw [rangeOf, howned]

theorem rangeOf_none (howned : owned.lookup zone = none) :
    rangeOf owned fresh zone = ⟨.v4 (fresh zone), 28⟩ := by
  rw [rangeOf, howned]

/-- A free range is apart from every owned one. -/
theorem apart_owned (hinputs : Nat64Inputs vpc occupied owned zones) {base : BitVec 32}
    (hbase : base ∈ freeRanges vpc occupied) (howned : owned.lookup zone = some range) :
    Apart ⟨.v4 base, 28⟩ range.masked := by
  obtain ⟨_, _, _, other, hother, hsame⟩ := hinputs.retained zone range howned
  intro addr hboth
  rw [← hsame, contains_masked (hinputs.ipv4 other hother)] at hboth
  exact hbase.2.2 other hother addr hboth

/-- Owned and fresh ranges together are what the allocation promises. -/
theorem allocated_of_fresh (hinputs : Nat64Inputs vpc occupied owned zones)
    (hfree : ∀ zone ∈ zones, owned.lookup zone = none → fresh zone ∈ freeRanges vpc occupied)
    (hinjective : ∀ first ∈ zones, ∀ second ∈ zones, owned.lookup first = none →
      owned.lookup second = none → fresh first = fresh second → first = second)
    (htext : ∀ zone ∈ zones, result.lookup zone = some (rangeOf owned fresh zone).string)
    (honly : ∀ zone, zone ∉ zones → result.lookup zone = none) :
    Nat64Allocated vpc occupied owned zones result (rangeOf owned fresh) where
  text := htext
  only := honly
  masked zone hzone := by
    cases howned : owned.lookup zone with
    | none =>
      rw [rangeOf_none howned]
      exact ⟨rfl, masked_of_aligned (hfree zone hzone howned).1⟩
    | some range =>
      obtain ⟨base, rfl, _⟩ := hinputs.retained zone range howned
      rw [rangeOf_some howned, masked_eq]
      exact ⟨rfl, masked_of_aligned (aligned_masked base)⟩
  inside zone hzone addr haddr := by
    obtain ⟨base, bits, hbits, rfl⟩ := hinputs.ipv4VPC
    cases howned : owned.lookup zone with
    | none =>
      rw [rangeOf_none howned] at haddr
      exact inside_of_contains hbits (hfree zone hzone howned).2.1 addr haddr
    | some range =>
      obtain ⟨own, rfl, hcontains, _⟩ := hinputs.retained zone range howned
      rw [rangeOf_some howned, contains_masked (isIPv4_28 own)] at haddr
      exact inside_of_contains hbits hcontains addr haddr
  retained zone _ range howned := rangeOf_some howned
  apart first hfirst second hsecond hne := by
    cases hleft : owned.lookup first with
    | none =>
      have hbase := hfree first hfirst hleft
      rw [rangeOf_none hleft]
      cases hright : owned.lookup second with
      | none =>
        rw [rangeOf_none hright]
        refine apart_of_aligned hbase.1 (hfree second hsecond hright).1 fun hsame ↦ hne ?_
        exact hinjective first hfirst second hsecond hleft hright hsame
      | some right =>
        rw [rangeOf_some hright]
        exact apart_owned hinputs hbase hright
    | some left =>
      rw [rangeOf_some hleft]
      cases hright : owned.lookup second with
      | none =>
        rw [rangeOf_none hright]
        exact (apart_owned hinputs (hfree second hsecond hright) hleft).symm
      | some right =>
        obtain ⟨leftBase, rfl, _⟩ := hinputs.retained first left hleft
        obtain ⟨rightBase, rfl, _⟩ := hinputs.retained second right hright
        rw [rangeOf_some hright]
        intro addr hboth
        rw [contains_masked (isIPv4_28 leftBase), contains_masked (isIPv4_28 rightBase)] at hboth
        exact hinputs.apart first second _ _ hne hleft hright addr hboth
  fresh zone hzone howned := by
    rw [rangeOf_none howned]
    exact (hfree zone hzone howned).2.2

/-- The allocation fails for want of ranges, or gives every zone its range. -/
theorem allocate_cases (hinputs : Nat64Inputs vpc occupied owned zones)
    (htexts : ∀ zone, texts.lookup zone = (owned.lookup zone).map string) :
    (allocateNAT64SubnetCIDRs vpc occupied texts zones = .error insufficient ∧
        (freeRanges vpc occupied).ncard < (zones.filter fun zone ↦ (owned.lookup zone).isNone).length) ∨
      ∃ result ranges, allocateNAT64SubnetCIDRs vpc occupied texts zones = .ok result ∧
        (zones.filter fun zone ↦ (owned.lookup zone).isNone).length ≤ (freeRanges vpc occupied).ncard ∧
        Nat64Allocated vpc occupied owned zones result ranges := by
  obtain ⟨base, bits, hbits, hvpc⟩ := hinputs.ipv4VPC
  let names := sortSlice (fun left right ↦ decide (left < right)) zones
  have hperm : names.Perm zones := sortSlice_perm _ _
  obtain ⟨retained, hretain, hoccupied, hresult⟩ := retain_eq hinputs htexts names { occupied := occupied }
  simp only [AList.lookup_empty] at hoccupied hresult
  have hpending := pending_retained names hinputs hresult
  have hlength : (pending retained.result names).length =
      (zones.filter fun zone ↦ (owned.lookup zone).isNone).length := by
    rw [hpending]
    exact (hperm.filter _).length_eq
  have hfree : freeRanges vpc retained.occupied = freeRanges vpc occupied := by
    rw [hoccupied, freeRanges_owned hinputs]
  have hipv4 : ∀ range ∈ retained.occupied, IsIPv4 range := by
    rw [hoccupied]
    exact isIPv4_owned hinputs names
  have hmasked : vpc.masked.addr = .v4 (vpcBase base bits) := by
    rw [hvpc]
    simp [masked, vpcBase]
  have hcount : (slotCount vpc).toNat = 2 ^ (28 - bits) := by
    rw [hvpc, toNat_slotCount hbits]
  have hsmall : ¬28 < vpc.bits := by
    rw [hvpc]
    simpa using hbits
  have hrun : allocateNAT64SubnetCIDRs vpc occupied texts zones =
      (names.foldlM (assignFree (vpcBase base bits) (2 ^ (28 - bits))) retained).map Allocation.result := by
    unfold allocateNAT64SubnetCIDRs
    rw [hmasked]
    simp only [if_neg hsmall, hcount]
    rw [hretain]
    rfl
  have hcases := @assign_cases base bits hbits names (hperm.nodup_iff.mpr hinputs.nodup) retained hipv4
  rw [← hvpc, hfree, hlength] at hcases
  rw [hrun]
  rcases hcases with ⟨hfails, hless⟩ | ⟨final, fresh, hsucceeds, hle, hassigns⟩
  · rw [hfails]
    exact .inl ⟨rfl, hless⟩
  · rw [hsucceeds]
    refine .inr ⟨final.result, rangeOf owned fresh, rfl, hle, ?_⟩
    have hmem : ∀ zone, zone ∈ pending retained.result names ↔ zone ∈ zones ∧ owned.lookup zone = none := by
      intro zone
      rw [hpending, List.mem_filter, Option.isNone_iff_eq_none, hperm.mem_iff]
    refine allocated_of_fresh hinputs
      (fun zone hzone howned ↦ hassigns.free zone ((hmem zone).mpr ⟨hzone, howned⟩))
      (fun first hfirst second hsecond hleft hright ↦
        hassigns.injective first ((hmem first).mpr ⟨hfirst, hleft⟩)
        second ((hmem second).mpr ⟨hsecond, hright⟩)) (fun zone hzone ↦ ?_) (fun zone hzone ↦ ?_)
    · cases howned : owned.lookup zone with
      | none =>
        rw [rangeOf_none howned]
        exact hassigns.text zone ((hmem zone).mpr ⟨hzone, howned⟩)
      | some range =>
        have hnot : zone ∉ pending retained.result names := fun hin ↦ by
          rw [((hmem zone).mp hin).2] at howned
          cases howned
        rw [rangeOf_some howned, hassigns.other zone hnot, hresult, howned,
          if_pos ⟨hperm.mem_iff.mpr hzone, rfl⟩]
        rfl
    · have hnot : zone ∉ pending retained.result names := fun hin ↦ hzone ((hmem zone).mp hin).1
      rw [hassigns.other zone hnot, hresult, if_neg fun hin ↦ hzone (hperm.mem_iff.mp hin.1)]

/-- The allocation is sound, fails exactly when there are too few free ranges, and never wraps. -/
theorem allocateNAT64SubnetCIDRs_correct (hinputs : Nat64Inputs vpc occupied owned zones)
    (htexts : ∀ zone, texts.lookup zone = (owned.lookup zone).map string) :
    (∀ result, allocateNAT64SubnetCIDRs vpc occupied texts zones = .ok result →
      ∃ ranges, Nat64Allocated vpc occupied owned zones result ranges) ∧
    (allocateNAT64SubnetCIDRs vpc occupied texts zones = .error insufficient ↔
      (freeRanges vpc occupied).ncard < (zones.filter fun zone ↦ (owned.lookup zone).isNone).length) ∧
    (∀ message, allocateNAT64SubnetCIDRs vpc occupied texts zones = .error message → message = insufficient) ∧
    ∃ base, vpc.masked.addr = .v4 base ∧ Unwrapped vpc base := by
  have hunwrapped : ∃ base, vpc.masked.addr = .v4 base ∧ Unwrapped vpc base := by
    obtain ⟨base, bits, hbits, rfl⟩ := hinputs.ipv4VPC
    exact ⟨vpcBase base bits, by simp [masked, vpcBase], unwrapped base hbits⟩
  rcases allocate_cases hinputs htexts with ⟨hfails, hless⟩ | ⟨given, ranges, hsucceeds, hle, hallocated⟩
  · rw [hfails]
    refine ⟨fun result hok ↦ (by cases hok), iff_of_true rfl hless, fun message herror ↦ ?_, hunwrapped⟩
    exact (Except.error.inj herror).symm
  · rw [hsucceeds]
    refine ⟨fun result hok ↦ ?_, iff_of_false (fun herror ↦ (by cases herror)) (Nat.not_lt.mpr hle),
      fun message herror ↦ (by cases herror), hunwrapped⟩
    rw [← Except.ok.inj hok]
    exact ⟨ranges, hallocated⟩

end Allocates

/-- A VPC of two /28s, of which zone `a` owns the first. -/
theorem allocateNAT64SubnetCIDRs_two :
    Nat64Inputs ⟨.v4 0x0a000000, 27⟩ [⟨.v4 0x0a000000, 28⟩] (.ofPairs [("a", ⟨.v4 0x0a000000, 28⟩)])
      ["a", "b"] ∧
      ∃ result ranges, allocateNAT64SubnetCIDRs ⟨.v4 0x0a000000, 27⟩ [⟨.v4 0x0a000000, 28⟩]
          (.ofPairs [("a", string ⟨.v4 0x0a000000, 28⟩)]) ["a", "b"] = .ok result ∧
        Nat64Allocated ⟨.v4 0x0a000000, 27⟩ [⟨.v4 0x0a000000, 28⟩] (.ofPairs [("a", ⟨.v4 0x0a000000, 28⟩)])
          ["a", "b"] result ranges := by
  have hlookup : ∀ zone range,
      (GoMap.ofPairs [("a", (⟨.v4 0x0a000000, 28⟩ : Prefix))]).lookup zone = some range →
      zone = "a" ∧ range = ⟨.v4 0x0a000000, 28⟩ := by
    intro zone range howned
    simp only [GoMap.ofPairs, List.foldl_cons, List.foldl_nil, GoMap.lookup_insert_eq,
      AList.lookup_empty] at howned
    split_ifs at howned with hzone
    exact ⟨hzone, (Option.some.inj howned).symm⟩
  have hinputs : Nat64Inputs ⟨.v4 0x0a000000, 27⟩ [⟨.v4 0x0a000000, 28⟩]
      (.ofPairs [("a", ⟨.v4 0x0a000000, 28⟩)]) ["a", "b"] := by
    refine ⟨⟨0x0a000000, 27, by norm_num, rfl⟩, ?_, fun zone range howned ↦ ?_, ?_, by decide⟩
    · intro range hrange
      rw [List.mem_singleton.mp hrange]
      exact isIPv4_28 _
    · rw [(hlookup zone range howned).2]
      exact ⟨_, rfl, by decide, _, List.mem_singleton_self _, rfl⟩
    · intro first second left right hne hleft hright
      exact absurd ((hlookup _ _ hleft).1.trans (hlookup _ _ hright).1.symm) hne
  have hfree : 0x0a000010#32 ∈ freeRanges ⟨.v4 0x0a000000, 27⟩ [⟨.v4 0x0a000000, 28⟩] := by
    refine ⟨by decide, by decide, fun range hrange ↦ ?_⟩
    rw [List.mem_singleton.mp hrange]
    exact apart_of_aligned (by decide) (by decide) (by decide)
  have hcorrect := @allocateNAT64SubnetCIDRs_correct ⟨.v4 0x0a000000, 27⟩ [⟨.v4 0x0a000000, 28⟩]
    (.ofPairs [("a", ⟨.v4 0x0a000000, 28⟩)]) (.ofPairs [("a", string ⟨.v4 0x0a000000, 28⟩)]) ["a", "b"]
    hinputs fun zone ↦ by
      simp only [GoMap.ofPairs, List.foldl_cons, List.foldl_nil, GoMap.lookup_insert_eq, AList.lookup_empty]
      split_ifs <;> rfl
  obtain ⟨hsound, hcomplete, honly, _⟩ := hcorrect
  refine ⟨hinputs, ?_⟩
  cases hrun : allocateNAT64SubnetCIDRs ⟨.v4 0x0a000000, 27⟩ [⟨.v4 0x0a000000, 28⟩]
      (.ofPairs [("a", string ⟨.v4 0x0a000000, 28⟩)]) ["a", "b"] with
  | ok result =>
    obtain ⟨ranges, hallocated⟩ := hsound result hrun
    exact ⟨result, ranges, rfl, hallocated⟩
  | error message =>
    rw [honly message hrun] at hrun
    have hpositive := (Set.ncard_pos (finite_ranges _)).mpr ⟨_, hfree⟩
    have hone : (["a", "b"].filter fun zone ↦
        ((GoMap.ofPairs [("a", (⟨.v4 0x0a000000, 28⟩ : Prefix))]).lookup zone).isNone).length = 1 := by decide
    have hless := hcomplete.mp hrun
    rw [hone] at hless
    omega

end Podmin.Cloud.Aws
