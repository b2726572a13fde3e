import Podmin.Agent.Dataplane.RoundTrip
import Podmin.Foundation.OnesComplement

/-!
# Checksums of translated packets

`checksum_replace` keeps the checksum of a packet modulo 65535, and with it whether the one's-complement
sum over pseudo-header and segment is all ones: neither sum can be zero, since the pseudo-header names
a transport protocol. Its accumulator holds nineteen words, so that two folds leave sixteen bits.
-/

namespace Podmin.Agent.Dataplane.Bpf

open Foundation OnesComplement

/-! ## The words of a packet -/

/-- The offsets of the words of an address. -/
def wordOffsets : List Nat := [0, 2, 4, 6, 8, 10, 12, 14]

def addressWords (address : BitVec 128) : List (BitVec 16) :=
  wordOffsets.map (addressWord address)

/-- The pseudo-header: the addresses, the length of the segment and its protocol. -/
def pseudoHeader (frame : Frame) (length : BitVec 32) : List (BitVec 16) :=
  addressWords frame.source ++ addressWords frame.destination ++
    [length.extractLsb' 16 16, length.extractLsb' 0 16, 0, frame.nextHeader.setWidth 16]

/-- The words of a segment: its ports, the words up to its checksum, the checksum, and the rest of the
header with the payload, padded to a whole word. -/
def segmentWords (order : ByteOrder) (transport : Transport) (before after : List (BitVec 16)) :
    List (BitVec 16) :=
  [ntohs order transport.source, ntohs order transport.destination] ++ before ++
    [ntohs order transport.checksum] ++ after

/-- What the checksum of a packet is computed over. -/
def packetWords (order : ByteOrder) (frame : Frame) (transport : Transport) (length : BitVec 32)
    (before after : List (BitVec 16)) : List (BitVec 16) :=
  pseudoHeader frame length ++ segmentWords order transport before after

/-! ## The accumulator -/

section Replacement

variable (order : ByteOrder) (checksum : BitVec 16) (oldAddress newAddress : BitVec 128)
  (oldPort newPort : BitVec 16) (offsets : List Nat)

/-- The sum `checksumReplace` folds. -/
def accumulator : BitVec 32 :=
  wordOffsets.foldl (fun sum i ↦
      sum + (~~~(addressWord oldAddress i)).setWidth 32 + (addressWord newAddress i).setWidth 32)
    ((~~~(ntohs order checksum)).setWidth 32) + (~~~(ntohs order oldPort)).setWidth 32 +
    (ntohs order newPort).setWidth 32

/-- The same sum over numbers. -/
def accumulated : Nat :=
  (65535 - (ntohs order checksum).toNat) +
    (wordOffsets.map fun i ↦
      65535 - (addressWord oldAddress i).toNat + (addressWord newAddress i).toNat).sum +
    (65535 - (ntohs order oldPort).toNat) + (ntohs order newPort).toNat

theorem checksumReplace_eq :
    checksumReplace order checksum oldAddress newAddress oldPort newPort =
      htons order (if (~~~(foldCarry (foldCarry (accumulator order checksum oldAddress newAddress oldPort
          newPort)))).setWidth 16 = 0#16 then 0xffff else
        (~~~(foldCarry (foldCarry (accumulator order checksum oldAddress newAddress oldPort
          newPort)))).setWidth 16) :=
  rfl

theorem setWidth_toNat (word : BitVec 16) : (word.setWidth 32).toNat = word.toNat := by
  rw [BitVec.toNat_setWidth]
  exact Nat.mod_eq_of_lt (by have := word.isLt; omega)

theorem not_toNat (word : BitVec 16) : (~~~word).toNat = 65535 - word.toNat := by
  rw [BitVec.toNat_not]

/-- Adding words does not overflow while there is room for all of them. -/
theorem foldl_words (start : BitVec 32)
    (hroom : start.toNat + offsets.length * 131070 < 2 ^ 32) :
    (offsets.foldl (fun sum i ↦ sum + (~~~(addressWord oldAddress i)).setWidth 32 +
        (addressWord newAddress i).setWidth 32) start).toNat =
      start.toNat + (offsets.map fun i ↦
        65535 - (addressWord oldAddress i).toNat + (addressWord newAddress i).toNat).sum := by
  induction offsets generalizing start with
  | nil => rfl
  | cons offset offsets ih =>
    have hnew := (addressWord newAddress offset).isLt
    rw [List.length_cons] at hroom
    have hnext : (start + (~~~(addressWord oldAddress offset)).setWidth 32 +
        (addressWord newAddress offset).setWidth 32).toNat = start.toNat +
          (65535 - (addressWord oldAddress offset).toNat + (addressWord newAddress offset).toNat) := by
      rw [BitVec.toNat_add, BitVec.toNat_add, setWidth_toNat, setWidth_toNat, not_toNat]
      omega
    rw [List.foldl_cons, ih _ (by rw [hnext]; omega), hnext, List.map_cons, List.sum_cons]
    omega

theorem sum_words_le :
    (offsets.map fun i ↦
        65535 - (addressWord oldAddress i).toNat + (addressWord newAddress i).toNat).sum ≤
      offsets.length * 131070 := by
  induction offsets with
  | nil => exact le_rfl
  | cons offset offsets ih =>
    have hnew := (addressWord newAddress offset).isLt
    rw [List.map_cons, List.sum_cons, List.length_cons]
    omega

/-- The complements make up for the words of the old address. -/
theorem sum_words_add_total :
    (offsets.map fun i ↦
        65535 - (addressWord oldAddress i).toNat + (addressWord newAddress i).toNat).sum +
        total (offsets.map (addressWord oldAddress)) =
      offsets.length * 65535 + total (offsets.map (addressWord newAddress)) := by
  induction offsets with
  | nil => rfl
  | cons offset offsets ih =>
    have hold := (addressWord oldAddress offset).isLt
    simp only [List.map_cons, List.sum_cons, List.length_cons, total_cons]
    omega

/-- The accumulator holds the exact sum. -/
theorem accumulator_toNat :
    (accumulator order checksum oldAddress newAddress oldPort newPort).toNat =
        accumulated order checksum oldAddress newAddress oldPort newPort ∧
      accumulated order checksum oldAddress newAddress oldPort newPort ≤ 19 * 65535 := by
  have hsum := sum_words_le oldAddress newAddress wordOffsets
  have hlength : wordOffsets.length = 8 := rfl
  have hport := (ntohs order newPort).isLt
  have hstart : ((~~~(ntohs order checksum)).setWidth 32).toNat = 65535 - (ntohs order checksum).toNat := by
    rw [setWidth_toNat, not_toNat]
  have hwords := foldl_words oldAddress newAddress wordOffsets ((~~~(ntohs order checksum)).setWidth 32)
    (by rw [hstart, hlength]; omega)
  rw [hstart] at hwords
  rw [hlength] at hsum
  unfold accumulator accumulated
  rw [BitVec.toNat_add, BitVec.toNat_add, hwords, setWidth_toNat, setWidth_toNat, not_toNat]
  omega

/-! ## Folding -/

theorem foldCarry_toNat (sum : BitVec 32) :
    (foldCarry sum).toNat = sum.toNat % 65536 + sum.toNat / 65536 := by
  have hlt := sum.isLt
  have hfold : foldCarry sum = (sum &&& 65535#32) + (sum >>> 16) := rfl
  have hlow : (sum &&& 65535#32).toNat = sum.toNat % 65536 := by
    rw [BitVec.toNat_and]
    exact Nat.and_two_pow_sub_one_eq_mod sum.toNat 16
  have hhigh : (sum >>> 16).toNat = sum.toNat / 65536 := by
    rw [BitVec.toNat_ushiftRight, Nat.shiftRight_eq_div_pow]
  rw [hfold, BitVec.toNat_add, hlow, hhigh]
  omega

/-- Two folds leave sixteen bits and keep the sum modulo 65535. -/
theorem foldCarry_twice (sum : BitVec 32) (hsum : sum.toNat ≤ 19 * 65535) :
    (foldCarry (foldCarry sum)).toNat < 2 ^ 16 ∧
      (foldCarry (foldCarry sum)).toNat % 65535 = sum.toNat % 65535 := by
  rw [foldCarry_toNat, foldCarry_toNat]
  omega

theorem ntohs_htons (value : BitVec 16) : ntohs order (htons order value) = value := by
  cases order with
  | little =>
    unfold ntohs htons
    ext i hi
    simp only [BitVec.getElem_rotateLeft]
    grind
  | big => rfl

/-- What is written is the complement of the folded sum, with all ones for zero. -/
theorem checksumReplace_toNat (folded : Nat)
    (hfolded : (foldCarry (foldCarry (accumulator order checksum oldAddress newAddress oldPort
      newPort))).toNat = folded) (hlt : folded < 2 ^ 16) :
    (ntohs order (checksumReplace order checksum oldAddress newAddress oldPort newPort)).toNat =
      if folded = 65535 then 65535 else 65535 - folded := by
  have hresult : ((~~~(foldCarry (foldCarry (accumulator order checksum oldAddress newAddress oldPort
      newPort)))).setWidth 16).toNat = 65535 - folded := by
    rw [BitVec.toNat_setWidth, BitVec.toNat_not, hfolded]
    omega
  rw [checksumReplace_eq, ntohs_htons]
  split
  · next hzero =>
    rw [hzero] at hresult
    have : folded = 65535 := by
      have : 0 = 65535 - folded := hresult
      omega
    rw [if_pos this]
    rfl
  · next hzero =>
    have : folded ≠ 65535 := by
      rintro rfl
      exact hzero (BitVec.eq_of_toNat_eq hresult)
    rw [if_neg this, hresult]

theorem checksumReplace_ne_zero :
    checksumReplace order checksum oldAddress newAddress oldPort newPort ≠ 0#16 := by
  have haccumulator := accumulator_toNat order checksum oldAddress newAddress oldPort newPort
  have htwice := foldCarry_twice _ (haccumulator.1.trans_le haccumulator.2)
  have hwritten := checksumReplace_toNat order checksum oldAddress newAddress oldPort newPort _ rfl htwice.1
  intro hzero
  have hntohs : ntohs order 0#16 = 0#16 := by cases order <;> rfl
  rw [hzero, hntohs] at hwritten
  split at hwritten
  · exact absurd hwritten (by decide)
  · have : 0 = 65535 - _ := hwritten
    omega

/-- A replacement keeps the sum over the packet modulo 65535. -/
theorem checksumReplace_modEq :
    (ntohs order (checksumReplace order checksum oldAddress newAddress oldPort newPort)).toNat +
        total (addressWords newAddress) + (ntohs order newPort).toNat ≡
      (ntohs order checksum).toNat + total (addressWords oldAddress) +
        (ntohs order oldPort).toNat [MOD 65535] := by
  have haccumulator := accumulator_toNat order checksum oldAddress newAddress oldPort newPort
  have htwice := foldCarry_twice _ (haccumulator.1.trans_le haccumulator.2)
  have hwritten := checksumReplace_toNat order checksum oldAddress newAddress oldPort newPort _ rfl htwice.1
  have hbalance := sum_words_add_total oldAddress newAddress wordOffsets
  have hlength : wordOffsets.length = 8 := rfl
  have hchecksum := (ntohs order checksum).isLt
  have hport := (ntohs order oldPort).isLt
  rw [hlength] at hbalance
  rw [haccumulator.1] at htwice
  unfold accumulated at htwice
  unfold addressWords Nat.ModEq
  split at hwritten <;> omega

end Replacement

/-! ## Whole packets -/

section Packets

variable (order : ByteOrder) (frame : Frame) (transport rewritten : Transport)
  (source destination : BitVec 128) (sourcePort destinationPort : BitVec 16) (length : BitVec 32)
  (before after : List (BitVec 16))

/-- Translating a packet keeps its sum modulo 65535. -/
theorem rewrite_modEq
    (hrewritten : (rewrite order frame transport source sourcePort destination destinationPort).transport =
      some rewritten) :
    total (packetWords order (rewrite order frame transport source sourcePort destination
        destinationPort) rewritten length before after) ≡
      total (packetWords order frame transport length before after) [MOD 65535] := by
  have hfirst := checksumReplace_modEq order transport.checksum frame.source source transport.source
    sourcePort
  have hsecond := checksumReplace_modEq order
    (checksumReplace order transport.checksum frame.source source transport.source sourcePort)
    frame.destination destination transport.destination destinationPort
  cases hrewritten
  unfold Nat.ModEq at *
  simp only [packetWords, pseudoHeader, segmentWords, rewrite, total_append,
    total_cons, total_nil]
  omega

/-- The protocol alone makes the sum over a packet positive. -/
theorem packetWords_total_ne_zero
    (hprotocol : frame.nextHeader = ipprotoTCP ∨ frame.nextHeader = ipprotoUDP) :
    total (packetWords order frame transport length before after) ≠ 0 := by
  have hword : (frame.nextHeader.setWidth 16).toNat ≠ 0 := by
    rcases hprotocol with htcp | hudp
    · rw [htcp]
      decide
    · rw [hudp]
      decide
  simp only [packetWords, pseudoHeader, total_append, total_cons]
  omega

theorem rewrite_sum_iff
    (hprotocol : frame.nextHeader = ipprotoTCP ∨ frame.nextHeader = ipprotoUDP)
    (hrewritten : (rewrite order frame transport source sourcePort destination destinationPort).transport =
      some rewritten) :
    OnesComplement.sum (packetWords order (rewrite order frame transport source sourcePort destination
        destinationPort) rewritten length before after) = BitVec.allOnes 16 ↔
      OnesComplement.sum (packetWords order frame transport length before after) = BitVec.allOnes 16 := by
  apply sum_eq_allOnes_congr (by decide)
  · exact rewrite_modEq order frame transport rewritten source destination sourcePort destinationPort length
      before after hrewritten
  · exact packetWords_total_ne_zero order _ rewritten length before after hprotocol
  · exact packetWords_total_ne_zero order frame transport length before after hprotocol

end Packets

theorem parse_protocol {kernel : Kernel} {frame : Frame} {transport : Transport}
    (hparse : parse kernel frame = .ok transport) :
    frame.nextHeader = ipprotoTCP ∨ frame.nextHeader = ipprotoUDP := by
  unfold parse at hparse
  grind

/-- A frame that leaves translated, on the way to a backend or back, is its rewriting. -/
theorem podminIngress_rewrites {order : ByteOrder} {kernel : Kernel} {faults : Faults} {flows : Flows}
    {frame out : Frame} (hout : (podminIngress order kernel faults flows frame).1 = .reply out ∨
      (podminIngress order kernel faults flows frame).1 = .translated out) :
    ∃ transport source sourcePort destination destinationPort, parse kernel frame = .ok transport ∧
      out = rewrite order frame transport source sourcePort destination destinationPort := by
  have hwritten : ∀ written,
      Verdict.reply written = .reply out ∨ Verdict.reply written = .translated out ∨
        Verdict.translated written = .reply out ∨ Verdict.translated written = .translated out →
      out = written := by simp [eq_comm]
  unfold podminIngress at hout
  split at hout
  · next verdict hparse => rcases parse_eq_error hparse with rfl | rfl <;> simp at hout
  next transport hparse =>
  dsimp only at hout
  refine ⟨transport, ?_⟩
  split at hout
  · exact ⟨_, _, _, _, hparse, hwritten _ (by tauto)⟩
  split at hout
  · simp at hout
  split at hout
  · simp at hout
  split at hout
  · simp at hout
  split at hout
  · simp at hout
  · exact ⟨_, _, _, _, hparse, hwritten _ (by tauto)⟩

/-- The checksum of every packet that leaves translated is right exactly if the one it came with was. It is
never written as zero, the accumulator holds its sum, and two folds leave sixteen bits of it. -/
theorem checksum_exact (order : ByteOrder) (kernel : Kernel) (faults : Faults) (flows : Flows)
    (frame out : Frame) (hout : (podminIngress order kernel faults flows frame).1 = .reply out ∨
      (podminIngress order kernel faults flows frame).1 = .translated out) :
    (∃ transport rewritten, frame.transport = some transport ∧ out.transport = some rewritten ∧
      ∀ length before after,
        OnesComplement.sum (packetWords order out rewritten length before after) = 0xffff ↔
          OnesComplement.sum (packetWords order frame transport length before after) = 0xffff) ∧
    ∀ checksum oldAddress newAddress oldPort newPort,
      checksumReplace order checksum oldAddress newAddress oldPort newPort ≠ 0 ∧
      (accumulator order checksum oldAddress newAddress oldPort newPort).toNat =
        accumulated order checksum oldAddress newAddress oldPort newPort ∧
      (foldCarry (foldCarry
        (accumulator order checksum oldAddress newAddress oldPort newPort))).toNat < 2 ^ 16 := by
  constructor
  · obtain ⟨transport, source, sourcePort, destination, destinationPort, hparse, rfl⟩ :=
      podminIngress_rewrites hout
    refine ⟨transport, _, parse_eq_ok hparse, rfl, fun length before after ↦ ?_⟩
    exact rewrite_sum_iff order frame transport _ source destination sourcePort destinationPort length before
      after (parse_protocol hparse) rfl
  · intro checksum oldAddress newAddress oldPort newPort
    have haccumulator := accumulator_toNat order checksum oldAddress newAddress oldPort newPort
    refine ⟨?_, haccumulator.1, (foldCarry_twice _ (haccumulator.1.trans_le haccumulator.2)).1⟩
    exact checksumReplace_ne_zero order checksum oldAddress newAddress oldPort newPort

/-- The header of the sample packet between its ports and its checksum. -/
def sampleHeader : List (BitVec 16) := [0, 1, 0, 0, 0x5002, 0xffff]

/-- The sample packet with the checksum its sender gave it. -/
def checkedFrame : Frame :=
  { sampleFrame with transport := some ⟨htons .little 40000, htons .little 80, htons .little 0xe647, true⟩ }

/-- The first packet of a connection reaches the backend with a checksum that is right. -/
theorem checksum_exact_sample : ∃ out rewritten,
    (podminIngress .little (publish sampleTables) noFaults noFlows checkedFrame).1 = .translated out ∧
    out.transport = some rewritten ∧
    OnesComplement.sum (packetWords .little out rewritten 20 sampleHeader [0]) = 0xffff := by
  have htranslated : ∃ out,
      (podminIngress .little (publish sampleTables) noFaults noFlows checkedFrame).1 = .translated out :=
    ⟨rewrite .little checkedFrame ⟨htons .little 40000, htons .little 80, htons .little 0xe647, true⟩
      sampleTables.nodeIPv6 0x7676 0x20010db8000000000000000000000100 (htons .little 8080),
      by decide +kernel⟩
  obtain ⟨out, hout⟩ := htranslated
  obtain ⟨⟨transport, rewritten, htransport, hrewritten, hiff⟩, _⟩ :=
    checksum_exact .little (publish sampleTables) noFaults noFlows checkedFrame out (.inr hout)
  cases htransport
  exact ⟨out, rewritten, hout, hrewritten, (hiff 20 sampleHeader [0]).mpr (by decide +kernel)⟩

end Podmin.Agent.Dataplane.Bpf
