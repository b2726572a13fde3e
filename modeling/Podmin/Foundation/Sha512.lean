import Mathlib.Data.List.Basic
import Mathlib.Tactic.IntervalCases

/-!
# SHA-512 and hexadecimal text

The hash function of FIPS 180-4 on byte lists, and the lower-case hexadecimal text of bytes. Proofs
use only the shape of a digest: sixty-four bytes, hence one hundred and twenty-eight lower-case
hexadecimal digits.
-/

namespace Podmin.Foundation.Sha512

def roundConstants : Array UInt64 :=
  #[
    0x428a2f98d728ae22, 0x7137449123ef65cd, 0xb5c0fbcfec4d3b2f, 0xe9b5dba58189dbbc,
    0x3956c25bf348b538, 0x59f111f1b605d019, 0x923f82a4af194f9b, 0xab1c5ed5da6d8118,
    0xd807aa98a3030242, 0x12835b0145706fbe, 0x243185be4ee4b28c, 0x550c7dc3d5ffb4e2,
    0x72be5d74f27b896f, 0x80deb1fe3b1696b1, 0x9bdc06a725c71235, 0xc19bf174cf692694,
    0xe49b69c19ef14ad2, 0xefbe4786384f25e3, 0x0fc19dc68b8cd5b5, 0x240ca1cc77ac9c65,
    0x2de92c6f592b0275, 0x4a7484aa6ea6e483, 0x5cb0a9dcbd41fbd4, 0x76f988da831153b5,
    0x983e5152ee66dfab, 0xa831c66d2db43210, 0xb00327c898fb213f, 0xbf597fc7beef0ee4,
    0xc6e00bf33da88fc2, 0xd5a79147930aa725, 0x06ca6351e003826f, 0x142929670a0e6e70,
    0x27b70a8546d22ffc, 0x2e1b21385c26c926, 0x4d2c6dfc5ac42aed, 0x53380d139d95b3df,
    0x650a73548baf63de, 0x766a0abb3c77b2a8, 0x81c2c92e47edaee6, 0x92722c851482353b,
    0xa2bfe8a14cf10364, 0xa81a664bbc423001, 0xc24b8b70d0f89791, 0xc76c51a30654be30,
    0xd192e819d6ef5218, 0xd69906245565a910, 0xf40e35855771202a, 0x106aa07032bbd1b8,
    0x19a4c116b8d2d0c8, 0x1e376c085141ab53, 0x2748774cdf8eeb99, 0x34b0bcb5e19b48a8,
    0x391c0cb3c5c95a63, 0x4ed8aa4ae3418acb, 0x5b9cca4f7763e373, 0x682e6ff3d6b2b8a3,
    0x748f82ee5defb2fc, 0x78a5636f43172f60, 0x84c87814a1f0ab72, 0x8cc702081a6439ec,
    0x90befffa23631e28, 0xa4506cebde82bde9, 0xbef9a3f7b2c67915, 0xc67178f2e372532b,
    0xca273eceea26619c, 0xd186b8c721c0c207, 0xeada7dd6cde0eb1e, 0xf57d4f7fee6ed178,
    0x06f067aa72176fba, 0x0a637dc5a2c898a6, 0x113f9804bef90dae, 0x1b710b35131c471b,
    0x28db77f523047d84, 0x32caab7b40c72493, 0x3c9ebe0a15c9bebc, 0x431d67c49c100d4c,
    0x4cc5d4becb3e42b6, 0x597f299cfc657e2a, 0x5fcb6fab3ad6faec, 0x6c44198c4a475817]

/-- The eight working variables. -/
structure Words where
  a : UInt64
  b : UInt64
  c : UInt64
  d : UInt64
  e : UInt64
  f : UInt64
  g : UInt64
  h : UInt64

def initial : Words :=
  ⟨0x6a09e667f3bcc908, 0xbb67ae8584caa73b, 0x3c6ef372fe94f82b, 0xa54ff53a5f1d36f1,
    0x510e527fade682d1, 0x9b05688c2b3e6c1f, 0x1f83d9abfb41bd6b, 0x5be0cd19137e2179⟩

def rotr (word count : UInt64) : UInt64 :=
  (word >>> count) ||| (word <<< (64 - count))

def wordOfBytes (bytes : List UInt8) : UInt64 :=
  bytes.foldl (fun total byte ↦ total <<< 8 ||| byte.toUInt64) 0

def bytesOfWord (word : UInt64) : List UInt8 :=
  ([56, 48, 40, 32, 24, 16, 8, 0] : List UInt64).map fun shift ↦ (word >>> shift).toUInt8

/-- Message, a one bit, zeros and the length in bits, to a multiple of 128 bytes. -/
def pad (message : List UInt8) : List UInt8 :=
  let zeros := (239 - message.length % 128) % 128
  message ++ 0x80 :: List.replicate zeros 0 ++ List.replicate 8 0 ++
    bytesOfWord (UInt64.ofNat (message.length * 8))

/-- Extend the sixteen words of a block to the eighty of the schedule. -/
def schedule (block : List UInt8) : Array UInt64 :=
  let start := ((List.range 16).map fun index ↦
    wordOfBytes ((block.drop (8 * index)).take 8)).toArray
  (List.range 64).foldl (fun words index ↦
    let older := words.getD (index + 1) 0
    let newer := words.getD (index + 14) 0
    let sigma0 := rotr older 1 ^^^ rotr older 8 ^^^ (older >>> 7)
    let sigma1 := rotr newer 19 ^^^ rotr newer 61 ^^^ (newer >>> 6)
    words.push (words.getD index 0 + sigma0 + words.getD (index + 9) 0 + sigma1)) start

def round (words : Array UInt64) (state : Words) (index : Nat) : Words :=
  let sum1 := rotr state.e 14 ^^^ rotr state.e 18 ^^^ rotr state.e 41
  let choice := (state.e &&& state.f) ^^^ (~~~state.e &&& state.g)
  let temp1 := state.h + sum1 + choice + roundConstants.getD index 0 + words.getD index 0
  let sum0 := rotr state.a 28 ^^^ rotr state.a 34 ^^^ rotr state.a 39
  let majority := (state.a &&& state.b) ^^^ (state.a &&& state.c) ^^^ (state.b &&& state.c)
  ⟨temp1 + sum0 + majority, state.a, state.b, state.c, state.d + temp1, state.e, state.f, state.g⟩

def compress (state : Words) (block : List UInt8) : Words :=
  let result := (List.range 80).foldl (round (schedule block)) state
  ⟨state.a + result.a, state.b + result.b, state.c + result.c, state.d + result.d,
    state.e + result.e, state.f + result.f, state.g + result.g, state.h + result.h⟩

/-- The SHA-512 digest of a message. -/
def sum512 (message : List UInt8) : List UInt8 :=
  let padded := pad message
  let result := (List.range (padded.length / 128)).foldl (fun state index ↦
    compress state ((padded.drop (128 * index)).take 128)) initial
  [result.a, result.b, result.c, result.d, result.e, result.f, result.g, result.h].flatMap bytesOfWord

theorem length_sum512 (message : List UInt8) : (sum512 message).length = 64 := by
  simp [sum512, bytesOfWord]

attribute [irreducible] sum512

/-! ## Hexadecimal text -/

/-- Two lower-case digits for each byte. -/
def hexEncode (bytes : List UInt8) : String :=
  String.ofList (bytes.flatMap fun byte ↦
    [Nat.digitChar (byte.toNat / 16), Nat.digitChar (byte.toNat % 16)])

def isLowerHex (char : Char) : Bool :=
  ('0' ≤ char && char ≤ '9') || ('a' ≤ char && char ≤ 'f')

theorem isLowerHex_digitChar {digit : Nat} (hdigit : digit < 16) :
    isLowerHex (Nat.digitChar digit) = true := by
  interval_cases digit <;> decide

theorem length_hexEncode (bytes : List UInt8) :
    (hexEncode bytes).toList.length = 2 * bytes.length := by
  rw [hexEncode, String.toList_ofList]
  induction bytes with
  | nil => rfl
  | cons byte bytes ih =>
    rw [List.flatMap_cons, List.length_append, ih]
    simp
    omega

theorem hexEncode_isLowerHex (bytes : List UInt8) :
    ∀ char ∈ (hexEncode bytes).toList, isLowerHex char = true := by
  intro char hchar
  rw [hexEncode, String.toList_ofList, List.mem_flatMap] at hchar
  obtain ⟨byte, _, hdigit⟩ := hchar
  have hbyte := byte.toNat_lt
  rcases List.mem_pair.mp hdigit with rfl | rfl
  · exact isLowerHex_digitChar (by omega)
  · exact isLowerHex_digitChar (Nat.mod_lt _ (by norm_num))

end Podmin.Foundation.Sha512
