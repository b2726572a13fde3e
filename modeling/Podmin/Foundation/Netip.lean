import Mathlib.Data.List.Basic
import Mathlib.Data.List.TakeWhile
import Mathlib.Data.BitVec
import Mathlib.Tactic.IntervalCases

/-!
# Textual IP addresses

Addresses and prefixes as Go's `net/netip` has them: an address is invalid, IPv4, or IPv6 with an
optional zone; the text of an IPv6 address elides its longest run of zero fields, and an
IPv4-mapped address is written with a dotted tail. Parsing accepts every textual form, printing
produces one of them, and parsing a printed address returns that address.
-/

namespace Podmin.Foundation.Netip

open List

variable {value bits : Nat} {read values : List Nat} {rest : List Char} {span : Nat × Nat}

/-- An IP address; `invalid` is the zero value. -/
inductive Addr where
  | invalid
  | v4 (bits : BitVec 32)
  | v6 (bits : BitVec 128) (zone : String)
  deriving DecidableEq, Repr

namespace Addr

def isValid : Addr → Bool
  | invalid => false
  | _ => true

/-- IPv6, IPv4-mapped addresses included. -/
def is6 : Addr → Bool
  | v6 _ _ => true
  | _ => false

def is4In6 : Addr → Bool
  | v6 bits _ => bits >>> 32 == 0xffff#128
  | _ => false

def hasZone : Addr → Bool
  | v6 _ zone => zone != ""
  | _ => false

/-- The IPv4 address inside an IPv4-mapped one. -/
def unmap : Addr → Addr
  | v6 bits zone => if is4In6 (v6 bits zone) then v4 (bits.setWidth 32) else v6 bits zone
  | addr => addr

def isLoopback (addr : Addr) : Bool :=
  match addr.unmap with
  | v4 bits => bits >>> 24 == 127#32
  | v6 bits _ => bits == 1#128
  | invalid => false

def isMulticast (addr : Addr) : Bool :=
  match addr.unmap with
  | v4 bits => bits >>> 28 == 0xe#32
  | v6 bits _ => bits >>> 120 == 0xff#128
  | invalid => false

def isLinkLocalUnicast (addr : Addr) : Bool :=
  match addr.unmap with
  | v4 bits => bits >>> 16 == 0xa9fe#32
  | v6 bits _ => bits >>> 118 == 0x3fa#128
  | invalid => false

/-- Neither unspecified, loopback, multicast nor link-local; private and unique local addresses
count as global unicast. -/
def isGlobalUnicast (addr : Addr) : Bool :=
  addr.isValid && addr != v4 0#32 && addr != v4 0xffffffff#32 && addr != v6 0#128 "" &&
    !addr.isLoopback && !addr.isMulticast && !addr.isLinkLocalUnicast

end Addr

/-! ## Sixteen-bit fields -/

/-- The eight fields of an IPv6 address, most significant first. -/
def fields (bits : BitVec 128) : List Nat :=
  (range 8).map fun index ↦ bits.toNat / 2 ^ (16 * (7 - index)) % 65536

def ofFields (values : List Nat) : BitVec 128 :=
  BitVec.ofNat 128 (values.foldl (fun total value ↦ total * 65536 + value) 0)

theorem length_fields (bits : BitVec 128) : (fields bits).length = 8 := by
  simp [fields]

theorem fields_lt (bits : BitVec 128) : ∀ value ∈ fields bits, value < 65536 := by
  intro value hvalue
  obtain ⟨index, _, rfl⟩ := mem_map.mp hvalue
  exact Nat.mod_lt _ (by norm_num)

theorem ofFields_fields (bits : BitVec 128) : ofFields (fields bits) = bits := by
  have hshift (value exponent : Nat) :
      value / 2 ^ (exponent + 16) * 65536 + value / 2 ^ exponent % 65536 = value / 2 ^ exponent := by
    rw [pow_add, ← Nat.div_div_eq_div_mul]
    have := Nat.div_add_mod (value / 2 ^ exponent) 65536
    norm_num at this ⊢
    omega
  have htop : bits.toNat / 2 ^ 112 % 65536 = bits.toNat / 2 ^ 112 := by
    apply Nat.mod_eq_of_lt
    have := bits.isLt
    omega
  have hfields : fields bits = [112, 96, 80, 64, 48, 32, 16, 0].map fun exponent ↦
      bits.toNat / 2 ^ exponent % 65536 := rfl
  have hfold : (fields bits).foldl (fun total value ↦ total * 65536 + value) 0 = bits.toNat := by
    rw [hfields]
    simp only [map_cons, map_nil, foldl_cons, foldl_nil, Nat.zero_mul,
      Nat.zero_add, htop, hshift bits.toNat 96, hshift bits.toNat 80, hshift bits.toNat 64,
      hshift bits.toNat 48, hshift bits.toNat 32, hshift bits.toNat 16, hshift bits.toNat 0]
    simp
  apply BitVec.eq_of_toNat_eq
  simp only [ofFields, BitVec.toNat_ofNat, hfold]
  exact Nat.mod_eq_of_lt bits.isLt

/-! ## Printing -/

/-- One field in lower-case hexadecimal without leading zeros. -/
def appendHex (value : Nat) : List Char :=
  if 0x1000 ≤ value then
    [Nat.digitChar (value / 0x1000), Nat.digitChar (value / 0x100 % 16),
      Nat.digitChar (value / 0x10 % 16), Nat.digitChar (value % 16)]
  else if 0x100 ≤ value then
    [Nat.digitChar (value / 0x100), Nat.digitChar (value / 0x10 % 16), Nat.digitChar (value % 16)]
  else if 0x10 ≤ value then [Nat.digitChar (value / 0x10), Nat.digitChar (value % 16)]
  else [Nat.digitChar value]

/-- Fields joined by colons. -/
def joinFields (values : List Nat) : List Char :=
  [':'].intercalate (values.map appendHex)

/-- Length of the run of zero fields that starts at `index`. -/
def zeroRun (values : List Nat) (index : Nat) : Nat :=
  ((values.drop index).takeWhile (· == 0)).length

/-- First and one past last field of the longest run of at least two zero fields, the first of
equally long ones. -/
def elided (values : List Nat) : Option (Nat × Nat) :=
  (range values.length).foldl (fun best index ↦
    let run := zeroRun values index
    let longest := match best with
      | some (start, stop) => stop - start
      | none => 0
    if 2 ≤ run ∧ longest < run then some (index, index + run) else best) none

def string6 (bits : BitVec 128) : List Char :=
  match elided (fields bits) with
  | none => joinFields (fields bits)
  | some (start, stop) =>
    joinFields ((fields bits).take start) ++ ':' :: ':' :: joinFields ((fields bits).drop stop)

/-- The four octets of an IPv4 address, most significant first. -/
def octets (bits : BitVec 32) : List Nat :=
  [bits.toNat / 2 ^ 24 % 256, bits.toNat / 2 ^ 16 % 256, bits.toNat / 2 ^ 8 % 256,
    bits.toNat % 256]

def string4 (bits : BitVec 32) : List Char :=
  ['.'].intercalate ((octets bits).map (Nat.toDigits 10))

def zoneSuffix (zone : String) : List Char :=
  if zone = "" then [] else '%' :: zone.toList

namespace Addr

/-- `Addr.String`. -/
def string : Addr → String
  | invalid => "invalid IP"
  | v4 bits => String.ofList (string4 bits)
  | v6 bits zone =>
    if is4In6 (v6 bits zone) then
      String.ofList ("::ffff:".toList ++ string4 (bits.setWidth 32) ++ zoneSuffix zone)
    else String.ofList (string6 bits ++ zoneSuffix zone)

end Addr

/-! ## Parsing -/

def isHexDigit (char : Char) : Bool :=
  ('0' ≤ char && char ≤ '9') || ('a' ≤ char && char ≤ 'f') || ('A' ≤ char && char ≤ 'F')

def hexDigitValue (char : Char) : Nat :=
  if '0' ≤ char ∧ char ≤ '9' then char.toNat - 48
  else if 'a' ≤ char ∧ char ≤ 'f' then char.toNat - 87
  else char.toNat - 55

def hexValue (digits : List Char) : Nat :=
  digits.foldl (fun total digit ↦ total * 16 + hexDigitValue digit) 0

/-- A decimal octet without leading zeros. -/
def parseOctet (text : List Char) : Option Nat :=
  let value := text.foldl (fun total digit ↦ total * 10 + (digit.toNat - 48)) 0
  if text ≠ [] ∧ text.all Char.isDigit ∧ (text.length = 1 ∨ text.head? ≠ some '0') ∧
      text.length ≤ 3 ∧ value ≤ 255 then some value
  else none

/-- Four dotted octets. -/
def parseIPv4Fields (text : List Char) : Option (List Nat) :=
  match (text.splitOn '.').mapM parseOctet with
  | some [first, second, third, fourth] => some [first, second, third, fourth]
  | _ => none

/-- The colon-separated part of an IPv6 address. `room` fields may still be read; the result has
the fields read, the position of the ellipsis among them, and the text left over. -/
def parseFields : Nat → List Nat → Option Nat → List Char → Option (List Nat × Option Nat × List Char)
  | 0, read, ellipsis, text => some (read, ellipsis, text)
  | room + 1, read, ellipsis, text =>
    let digits := text.takeWhile isHexDigit
    let read' := read ++ [hexValue digits]
    if digits.length = 0 ∨ 4 < digits.length then none
    else
      match text.dropWhile isHexDigit with
      | [] => some (read', ellipsis, [])
      | '.' :: _ =>
        if (ellipsis = none ∧ read.length ≠ 6) ∨ room = 0 then none
        else
          match parseIPv4Fields text with
          | some [first, second, third, fourth] =>
            some (read ++ [first * 256 + second, third * 256 + fourth], ellipsis, [])
          | _ => none
      | [':'] => none
      | ':' :: ':' :: rest =>
        if ellipsis ≠ none then none
        else if rest = [] then some (read', some read'.length, [])
        else parseFields room read' (some read'.length) rest
      | ':' :: rest => parseFields room read' ellipsis rest
      | _ :: _ => none

/-- Fill the ellipsis with zero fields; an ellipsis stands for at least one. -/
def expandEllipsis (read : List Nat) (ellipsis : Option Nat) : Option (List Nat) :=
  if read.length < 8 then
    ellipsis.map fun position ↦
      read.take position ++ replicate (8 - read.length) 0 ++ read.drop position
  else if ellipsis = none then some read
  else none

def parseIPv6Body (text : List Char) : Option (BitVec 128) :=
  let (ellipsis, start) := match text with
    | ':' :: ':' :: rest => (some 0, rest)
    | _ => (none, text)
  if ellipsis = some 0 ∧ start = [] then some 0
  else
    match parseFields 8 [] ellipsis start with
    | some (read, position, []) => (expandEllipsis read position).map ofFields
    | _ => none

def parseIPv6 (text : List Char) : Option Addr :=
  match text.dropWhile (· ≠ '%') with
  | [] => (parseIPv6Body text).map fun bits ↦ .v6 bits ""
  | [_] => none
  | _ :: zone => (parseIPv6Body (text.takeWhile (· ≠ '%'))).map fun bits ↦
      .v6 bits (String.ofList zone)

def parseIPv4 (text : List Char) : Option Addr :=
  match parseIPv4Fields text with
  | some [first, second, third, fourth] =>
    some (.v4 (BitVec.ofNat 32 (first * 2 ^ 24 + second * 2 ^ 16 + third * 2 ^ 8 + fourth)))
  | _ => none

/-- `ParseAddr`: the first separator decides the address family. -/
def parseAddr (text : String) : Option Addr :=
  match text.toList.find? fun char ↦ char = '.' || char = ':' || char = '%' with
  | some '.' => parseIPv4 text.toList
  | some ':' => parseIPv6 text.toList
  | _ => none

/-! ## Parsing what was printed -/

theorem isHexDigit_digitChar {digit : Nat} (hdigit : digit < 16) :
    isHexDigit (Nat.digitChar digit) = true := by
  interval_cases digit <;> decide

theorem hexDigitValue_digitChar {digit : Nat} (hdigit : digit < 16) :
    hexDigitValue (Nat.digitChar digit) = digit := by
  interval_cases digit <;> decide

theorem appendHex_isHexDigit (hvalue : value < 65536) :
    ∀ char ∈ appendHex value, isHexDigit char = true := by
  intro char hchar
  unfold appendHex at hchar
  split_ifs at hchar <;> simp only [mem_cons, not_mem_nil, or_false] at hchar
  · rcases hchar with rfl | rfl | rfl | rfl <;> exact isHexDigit_digitChar (by omega)
  · rcases hchar with rfl | rfl | rfl <;> exact isHexDigit_digitChar (by omega)
  · rcases hchar with rfl | rfl <;> exact isHexDigit_digitChar (by omega)
  · subst hchar
    exact isHexDigit_digitChar (by omega)

theorem length_appendHex (value : Nat) :
    0 < (appendHex value).length ∧ (appendHex value).length ≤ 4 := by
  unfold appendHex
  split_ifs <;> simp

theorem hexValue_appendHex (hvalue : value < 65536) :
    hexValue (appendHex value) = value := by
  have hlow (high : Nat) : hexDigitValue (Nat.digitChar (high % 16)) = high % 16 :=
    hexDigitValue_digitChar (Nat.mod_lt high (by norm_num))
  unfold appendHex hexValue
  split_ifs with hfour hthree htwo
  all_goals
    simp only [foldl_cons, foldl_nil, hlow]
    rw [hexDigitValue_digitChar (by omega)]
    omega

theorem takeWhile_append_stop {Item : Type*} (accept : Item → Bool) {word : List Item}
    (rest : List Item) (hword : ∀ item ∈ word, accept item = true)
    (hrest : ∀ item, rest.head? = some item → accept item = false) :
    (word ++ rest).takeWhile accept = word ∧ (word ++ rest).dropWhile accept = rest := by
  rw [takeWhile_append_of_pos hword, dropWhile_append_of_pos hword]
  cases rest with
  | nil => simp
  | cons item rest => simp [hrest item rfl]

/-- Reading one printed field that ends the text. -/
theorem parseFields_last {room : Nat} {ellipsis : Option Nat} (hvalue : value < 65536) :
    parseFields (room + 1) read ellipsis (appendHex value) =
      some (read ++ [value], ellipsis, []) := by
  obtain ⟨htake, hdrop⟩ := takeWhile_append_stop isHexDigit []
    (appendHex_isHexDigit hvalue) (by simp)
  rw [append_nil] at htake hdrop
  obtain ⟨hpos, hle⟩ := length_appendHex value
  simp only [parseFields, htake, hdrop, hexValue_appendHex hvalue]
  rw [if_neg (by omega)]

/-- Reading one printed field that a single colon separates from the next. -/
theorem parseFields_colon {room value : Nat} {read : List Nat} {ellipsis : Option Nat} {char : Char}
    {rest : List Char} (hvalue : value < 65536) (hchar : char ≠ ':') :
    parseFields (room + 1) read ellipsis (appendHex value ++ ':' :: char :: rest) =
      parseFields room (read ++ [value]) ellipsis (char :: rest) := by
  obtain ⟨htake, hdrop⟩ := takeWhile_append_stop isHexDigit (':' :: char :: rest)
    (appendHex_isHexDigit hvalue) (by simp; decide)
  obtain ⟨hpos, hle⟩ := length_appendHex value
  simp only [parseFields, htake, hdrop, hexValue_appendHex hvalue]
  rw [if_neg (by omega)]
  split <;> grind

/-- Reading one printed field that the ellipsis follows. -/
theorem parseFields_ellipsis {room : Nat} (hvalue : value < 65536) :
    parseFields (room + 1) read none (appendHex value ++ ':' :: ':' :: rest) =
      if rest = [] then some (read ++ [value], some (read.length + 1), [])
      else parseFields room (read ++ [value]) (some (read.length + 1)) rest := by
  obtain ⟨htake, hdrop⟩ := takeWhile_append_stop isHexDigit (':' :: ':' :: rest)
    (appendHex_isHexDigit hvalue) (by simp; decide)
  obtain ⟨hpos, hle⟩ := length_appendHex value
  simp only [parseFields, htake, hdrop, hexValue_appendHex hvalue]
  rw [if_neg (by omega)]
  simp

theorem mem_intercalate {separator char : Char} {texts : List (List Char)}
    (hchar : char ∈ [separator].intercalate texts) : char = separator ∨ ∃ text ∈ texts, char ∈ text := by
  induction texts with
  | nil => simp [intercalate] at hchar
  | cons first texts ih =>
    cases texts with
    | nil => exact .inr ⟨first, mem_cons_self, by simpa [intercalate] using hchar⟩
    | cons next texts =>
      simp only [intercalate, intersperse_cons_cons, flatten_cons, mem_append,
        mem_singleton] at hchar ih
      grind

theorem joinFields_cons_cons (value next : Nat) (values : List Nat) :
    joinFields (value :: next :: values) = appendHex value ++ ':' :: joinFields (next :: values) := by
  simp [joinFields, intercalate]

theorem joinFields_singleton (value : Nat) : joinFields [value] = appendHex value := by
  simp [joinFields, intercalate]

theorem joinFields_nil : joinFields [] = [] := by
  simp [joinFields, intercalate]

/-- A printed list of fields starts with a hexadecimal digit. -/
theorem joinFields_head (values : List Nat) (hvalue : value < 65536) :
    ∃ char rest, joinFields (value :: values) = char :: rest ∧ char ≠ ':' := by
  have hpos := (length_appendHex value).1
  obtain ⟨char, rest, hcons⟩ := exists_cons_of_length_pos hpos
  have hchar : char ≠ ':' := by
    rintro rfl
    exact absurd (appendHex_isHexDigit hvalue ':' (by rw [hcons]; exact mem_cons_self)) (by decide)
  cases values with
  | nil => exact ⟨char, rest, by rw [joinFields_singleton, hcons], hchar⟩
  | cons next values =>
    exact ⟨char, rest ++ ':' :: joinFields (next :: values), by
      rw [joinFields_cons_cons, hcons, cons_append], hchar⟩

theorem parseFields_joinFields (ellipsis : Option Nat) (values : List Nat) :
    ∀ (room : Nat) (read : List Nat), values ≠ [] → values.length ≤ room →
      (∀ value ∈ values, value < 65536) →
      parseFields room read ellipsis (joinFields values) = some (read ++ values, ellipsis, []) := by
  induction values with
  | nil => intro _ _ hne; exact absurd rfl hne
  | cons value values ih =>
    intro room read _ hroom hlt
    obtain ⟨room, rfl⟩ : ∃ before, room = before + 1 := ⟨room - 1, by simp at hroom; omega⟩
    have hvalue := hlt value mem_cons_self
    cases values with
    | nil => rw [joinFields_singleton, parseFields_last hvalue]
    | cons next values =>
      have hnext := hlt next (by simp)
      obtain ⟨char, rest, htext, hne⟩ := joinFields_head values hnext
      rw [joinFields_cons_cons, htext, parseFields_colon hvalue hne, ← htext,
        ih room (read ++ [value]) (by simp) (by simpa using hroom)
          (fun item hitem ↦ hlt item (mem_cons_of_mem _ hitem))]
      simp

theorem parseFields_joinFields_ellipsis (left right : List Nat) :
    ∀ (room : Nat) (read : List Nat), left ≠ [] → left.length + right.length ≤ room →
      (∀ value ∈ left, value < 65536) → (∀ value ∈ right, value < 65536) →
      parseFields room read none (joinFields left ++ ':' :: ':' :: joinFields right) =
        some (read ++ left ++ right, some (read.length + left.length), []) := by
  induction left with
  | nil => intro _ _ hne; exact absurd rfl hne
  | cons value left ih =>
    intro room read _ hroom hleft hright
    obtain ⟨room, rfl⟩ : ∃ before, room = before + 1 := ⟨room - 1, by simp at hroom; omega⟩
    have hvalue := hleft value mem_cons_self
    cases left with
    | nil =>
      rw [joinFields_singleton, parseFields_ellipsis hvalue]
      cases right with
      | nil => simp [joinFields_nil]
      | cons next right =>
        obtain ⟨char, rest, htext, _⟩ := joinFields_head right
          (hright next mem_cons_self)
        rw [if_neg (by rw [htext]; simp), parseFields_joinFields _ (next :: right) room _ (by simp)
          (by simp at hroom ⊢; omega) hright]
        simp
    | cons next left =>
      have hnext := hleft next (by simp)
      obtain ⟨char, rest, htext, hne⟩ := joinFields_head left hnext
      have hstep := ih room (read ++ [value]) (by simp) (by simp at hroom ⊢; omega)
        (fun item hitem ↦ hleft item (mem_cons_of_mem _ hitem)) hright
      rw [htext] at hstep
      rw [joinFields_cons_cons, htext, append_assoc, cons_append, cons_append,
        parseFields_colon hvalue hne, ← cons_append, hstep]
      simp [Nat.add_assoc, Nat.add_comm 1]

/-- An elided run is at least two fields long and all of it is zero. -/
def ZeroSpan (values : List Nat) (span : Nat × Nat) : Prop :=
  span.1 + 2 ≤ span.2 ∧ span.2 ≤ values.length ∧
    values = values.take span.1 ++ replicate (span.2 - span.1) 0 ++ values.drop span.2

theorem zeroSpan_zeroRun {index : Nat} (hindex : index ≤ values.length) (hrun : 2 ≤ zeroRun values index) :
    ZeroSpan values (index, index + zeroRun values index) := by
  have hreplicate : (values.drop index).takeWhile (· == 0) =
      replicate (zeroRun values index) 0 := by
    apply eq_replicate_of_mem
    intro value hvalue
    simpa using mem_takeWhile_imp hvalue
  have hlength : zeroRun values index ≤ values.length - index := by
    have := (takeWhile_sublist (l := values.drop index) (· == 0)).length_le
    simpa [zeroRun] using this
  have hrest : (values.drop index).dropWhile (· == 0) =
      values.drop (index + zeroRun values index) := by
    have happend := takeWhile_append_dropWhile (p := fun value : Nat ↦ value == 0)
      (l := values.drop index)
    calc
      (values.drop index).dropWhile (· == 0) =
          ((values.drop index).takeWhile (· == 0) ++ (values.drop index).dropWhile (· == 0)).drop
            (zeroRun values index) := by rw [zeroRun, drop_left]
      _ = values.drop (index + zeroRun values index) := by rw [happend, drop_drop]
  refine ⟨by simpa using hrun, by simp only; omega, ?_⟩
  simp only [Nat.add_sub_cancel_left]
  rw [append_assoc, ← hreplicate, ← hrest, takeWhile_append_dropWhile,
    take_append_drop]

theorem elided_zeroSpan (helided : elided values = some span) : ZeroSpan values span := by
  have hfold : ∀ (indices : List Nat) (best : Option (Nat × Nat)),
      (∀ index ∈ indices, index ≤ values.length) →
      (∀ found, best = some found → ZeroSpan values found) →
      ∀ found, indices.foldl (fun best index ↦
        let run := zeroRun values index
        let longest := match best with
          | some (start, stop) => stop - start
          | none => 0
        if 2 ≤ run ∧ longest < run then some (index, index + run) else best) best = some found →
        ZeroSpan values found := by
    intro indices
    induction indices with
    | nil => intro best _ hbest found hfound; exact hbest found hfound
    | cons index indices ih =>
      intro best hindices hbest found hfound
      refine ih _ (fun item hitem ↦ hindices item (mem_cons_of_mem _ hitem)) ?_ found hfound
      intro candidate hcandidate
      simp only at hcandidate
      split_ifs at hcandidate with hlonger
      · obtain rfl := Option.some.inj hcandidate
        exact zeroSpan_zeroRun (hindices index mem_cons_self) hlonger.1
      · exact hbest candidate hcandidate
  exact hfold _ none (fun index hindex ↦ (mem_range.mp hindex).le) (by simp) span helided

theorem expandEllipsis_span (hlength : values.length = 8) (hspan : ZeroSpan values span) :
    expandEllipsis (values.take span.1 ++ values.drop span.2) (some span.1) = some values := by
  obtain ⟨hstart, hstop, hvalues⟩ := hspan
  have htake : (values.take span.1).length = span.1 := by
    rw [length_take]
    omega
  have htotal : (values.take span.1 ++ values.drop span.2).length = 8 - (span.2 - span.1) := by
    rw [length_append, htake, length_drop]
    omega
  rw [expandEllipsis, if_pos (by omega), Option.map_some, htotal]
  congr 1
  conv_rhs => rw [hvalues]
  rw [take_left' htake, drop_left' htake]
  congr 3
  omega

theorem parseIPv6Body_of_ne_colon {text : List Char} {char : Char} {position : Option Nat}
    (htext : text = char :: rest) (hne : char ≠ ':')
    (hparse : parseFields 8 [] none text = some (read, position, [])) :
    parseIPv6Body text = (expandEllipsis read position).map ofFields := by
  unfold parseIPv6Body
  split
  rename_i ellipsis start hmatch
  split at hmatch
  · rename_i more
    exact absurd (cons.inj htext).1.symm hne
  · obtain ⟨rfl, rfl⟩ := Prod.mk.inj hmatch
    simp [hparse]

theorem parseIPv6Body_ellipsis (hrest : rest ≠ []) {position : Option Nat}
    (hparse : parseFields 8 [] (some 0) rest = some (read, position, [])) :
    parseIPv6Body (':' :: ':' :: rest) = (expandEllipsis read position).map ofFields := by
  simp [parseIPv6Body, hrest, hparse]

/-- A text that elides a zero run is read back, whichever side of the ellipsis is empty. -/
theorem parseIPv6Body_span (hlength : values.length = 8) (hlt : ∀ value ∈ values, value < 65536)
    (hspan : ZeroSpan values span) :
    parseIPv6Body (joinFields (values.take span.1) ++ ':' :: ':' :: joinFields (values.drop span.2)) =
      some (ofFields values) := by
  have hleft : ∀ value ∈ values.take span.1, value < 65536 := fun value hvalue ↦
    hlt value (mem_of_mem_take hvalue)
  have hright : ∀ value ∈ values.drop span.2, value < 65536 := fun value hvalue ↦
    hlt value (mem_of_mem_drop hvalue)
  have hexpand := expandEllipsis_span hlength hspan
  obtain ⟨hstart, hstop, _⟩ := hspan
  have htake : (values.take span.1).length = span.1 := by
    rw [length_take]
    omega
  have hdrop : (values.drop span.2).length = 8 - span.2 := by
    rw [length_drop, hlength]
  generalize values.take span.1 = left at *
  generalize values.drop span.2 = right at *
  cases left with
  | nil =>
    have hzero : span.1 = 0 := by rw [← htake]; rfl
    rw [nil_append, hzero] at hexpand
    rw [joinFields_nil, nil_append]
    cases right with
    | nil =>
      have hzeros : values = replicate 8 0 := by simpa [expandEllipsis] using hexpand.symm
      rw [hzeros]
      rfl
    | cons value right =>
      obtain ⟨char, rest, htext, _⟩ := joinFields_head right
        (hright value mem_cons_self)
      have hparse := parseFields_joinFields (some 0) (value :: right) 8 [] (by simp)
        (by omega) hright
      rw [parseIPv6Body_ellipsis (by rw [htext]; simp) hparse, nil_append, hexpand,
        Option.map_some]
  | cons value left =>
    obtain ⟨char, rest, htext, hchar⟩ := joinFields_head left
      (hleft value mem_cons_self)
    have hparse := parseFields_joinFields_ellipsis (value :: left) right 8 []
      (by simp) (by omega) hleft hright
    rw [htake, nil_append, length_nil, Nat.zero_add] at hparse
    rw [parseIPv6Body_of_ne_colon (by rw [htext]; rfl) hchar hparse, hexpand, Option.map_some]

theorem parseIPv6Body_string6 (bits : BitVec 128) :
    parseIPv6Body (string6 bits) = some bits := by
  have hlength := length_fields bits
  have hlt := fields_lt bits
  cases helided : elided (fields bits) with
  | none =>
    obtain ⟨value, values, hcons⟩ := exists_cons_of_length_pos (l := fields bits) (by omega)
    obtain ⟨char, rest, htext, hchar⟩ := joinFields_head values
      (hlt value (by rw [hcons]; exact mem_cons_self))
    have hparse := parseFields_joinFields none (fields bits) 8 []
      (by rw [hcons]; simp) (by omega) hlt
    rw [string6, helided]
    simp only
    rw [parseIPv6Body_of_ne_colon (by rw [hcons, htext]) hchar hparse, nil_append]
    simp [expandEllipsis, hlength, ofFields_fields]
  | some span =>
    rw [string6, helided]
    simp only
    rw [parseIPv6Body_span hlength hlt (elided_zeroSpan helided), ofFields_fields]

theorem parseOctet_toDigits (hvalue : value < 256) :
    parseOctet (Nat.toDigits 10 value) = some value := by
  have hall : ∀ octet : Fin 256, parseOctet (Nat.toDigits 10 octet) = some octet.val := by
    decide +kernel
  exact hall ⟨value, hvalue⟩

/-- A printed octet is one to three digits. -/
theorem toDigits_octet (hvalue : value < 256) :
    (Nat.toDigits 10 value).all Char.isDigit = true ∧ (Nat.toDigits 10 value).length ≤ 3 ∧
      0 < (Nat.toDigits 10 value).length := by
  have hall : ∀ octet : Fin 256, (Nat.toDigits 10 octet).all Char.isDigit = true ∧
      (Nat.toDigits 10 octet).length ≤ 3 ∧ 0 < (Nat.toDigits 10 octet).length := by
    decide +kernel
  exact hall ⟨value, hvalue⟩

theorem octets_lt (bits : BitVec 32) : ∀ octet ∈ octets bits, octet < 256 := by
  intro octet hoctet
  simp only [octets, mem_cons, not_mem_nil, or_false] at hoctet
  rcases hoctet with rfl | rfl | rfl | rfl <;> exact Nat.mod_lt _ (by norm_num)

theorem string4_head (bits : BitVec 32) : ∃ octet rest, octet < 256 ∧
    string4 bits = Nat.toDigits 10 octet ++ '.' :: rest :=
  ⟨bits.toNat / 2 ^ 24 % 256, _, Nat.mod_lt _ (by norm_num), by simp [string4, octets, intercalate]; rfl⟩

theorem isHexDigit_of_isDigit {char : Char} (hchar : char.isDigit = true) :
    isHexDigit char = true := by
  simp only [Char.isDigit, Bool.and_eq_true, decide_eq_true_eq] at hchar
  simp only [isHexDigit, Bool.or_eq_true, Bool.and_eq_true, decide_eq_true_eq]
  exact Or.inl (Or.inl ⟨hchar.1, hchar.2⟩)

theorem parseIPv4Fields_string4 (bits : BitVec 32) :
    parseIPv4Fields (string4 bits) = some (octets bits) := by
  have hdot : ∀ text ∈ (octets bits).map (Nat.toDigits 10), '.' ∉ text := by
    intro text htext hmem
    obtain ⟨octet, hoctet, rfl⟩ := mem_map.mp htext
    have hdigits := (toDigits_octet (octets_lt bits octet hoctet)).1
    exact absurd (all_eq_true.mp hdigits '.' hmem) (by decide)
  have hlt := octets_lt bits
  have hsplit := splitOn_intercalate '.' hdot (by simp [octets])
  rw [parseIPv4Fields, string4, hsplit]
  simp only [octets, mem_cons, not_mem_nil, or_false, forall_eq_or_imp, forall_eq] at hlt ⊢
  obtain ⟨hfirst, hsecond, hthird, hfourth⟩ := hlt
  simp only [map_cons, map_nil, mapM_cons, mapM_nil,
    parseOctet_toDigits hfirst, parseOctet_toDigits hsecond, parseOctet_toDigits hthird,
    parseOctet_toDigits hfourth, Option.bind_eq_bind, Option.bind_some, Option.pure_def]

/-- The dotted tail of an IPv4-mapped address. -/
theorem parseFields_string4 (bits : BitVec 32) :
    parseFields 7 [0xffff] (some 0) (string4 bits) =
      some ([0xffff, bits.toNat / 2 ^ 16, bits.toNat % 2 ^ 16], some 0, []) := by
  obtain ⟨octet, rest, hfirst, hrest⟩ := string4_head bits
  obtain ⟨hdigits, hthree, hpos⟩ := toDigits_octet hfirst
  obtain ⟨htake, hdrop⟩ := takeWhile_append_stop isHexDigit ('.' :: rest)
    (fun char hchar ↦ isHexDigit_of_isDigit (all_eq_true.mp hdigits char hchar))
    (by simp; decide)
  have hparse := parseIPv4Fields_string4 bits
  rw [hrest] at hparse ⊢
  simp only [parseFields, htake, hdrop, hparse, octets]
  rw [if_neg (by omega), if_neg (by simp)]
  have hbits := bits.isLt
  congr 2
  simp only [singleton_append, cons.injEq, and_true, true_and]
  constructor <;> omega

theorem fields_of_is4In6 {bits : BitVec 128} (hmapped : bits >>> 32 = 0xffff#128) :
    fields bits = [0, 0, 0, 0, 0, 0xffff, (bits.setWidth 32).toNat / 2 ^ 16,
      (bits.setWidth 32).toNat % 2 ^ 16] := by
  have hhigh : bits.toNat / 2 ^ 32 = 0xffff := by
    have := congrArg BitVec.toNat hmapped
    simpa [BitVec.toNat_ushiftRight, Nat.shiftRight_eq_div_pow] using this
  have hlow : (bits.setWidth 32).toNat = bits.toNat % 2 ^ 32 := BitVec.toNat_setWidth ..
  have hfields : fields bits = [112, 96, 80, 64, 48, 32, 16, 0].map fun exponent ↦
      bits.toNat / 2 ^ exponent % 65536 := rfl
  rw [hfields, hlow]
  simp only [map_cons, map_nil, cons.injEq, and_true]
  refine ⟨?_, ?_, ?_, ?_, ?_, ?_, ?_, ?_⟩ <;> omega

theorem parseIPv6Body_string4In6 {bits : BitVec 128} (hmapped : bits >>> 32 = 0xffff#128) :
    parseIPv6Body ("::ffff:".toList ++ string4 (bits.setWidth 32)) = some bits := by
  obtain ⟨char, rest, hcons, hchar⟩ : ∃ char rest, string4 (bits.setWidth 32) = char :: rest ∧
      char ≠ ':' := by
    obtain ⟨octet, rest, hfirst, hrest⟩ := string4_head (bits.setWidth 32)
    obtain ⟨hdigits, _, hpos⟩ := toDigits_octet hfirst
    obtain ⟨char, more, htext⟩ := exists_cons_of_length_pos hpos
    refine ⟨char, more ++ '.' :: rest, by rw [hrest, htext, cons_append], ?_⟩
    · rintro rfl
      rw [htext] at hdigits
      simp at hdigits
  have hhead : parseFields 8 [] (some 0) ("ffff:".toList ++ string4 (bits.setWidth 32)) =
      parseFields 7 [0xffff] (some 0) (string4 (bits.setWidth 32)) := by
    have hstep := @parseFields_colon 7 0xffff [] (some 0) char rest (by norm_num) hchar
    rw [hcons]
    exact hstep
  rw [parseFields_string4] at hhead
  have hbody := parseIPv6Body_ellipsis (by simp) hhead
  refine hbody.trans ?_
  simp only [expandEllipsis, length_cons, length_nil]
  rw [if_pos (by norm_num)]
  simp only [Option.map_some, take_zero, drop_zero, nil_append]
  conv_rhs => rw [← ofFields_fields bits, fields_of_is4In6 hmapped]
  simp [replicate]

/-- A body whose first separator is a colon is read with whatever zone follows it. -/
theorem parseAddr_of_body {body head tail : List Char} {bits : BitVec 128} (zone : String)
    (hbody : body = head ++ ':' :: tail) (hhead : ∀ char ∈ head, isHexDigit char = true)
    (hpercent : ∀ char ∈ body, char ≠ '%') (hparse : parseIPv6Body body = some bits) :
    parseAddr (String.ofList (body ++ zoneSuffix zone)) = some (.v6 bits zone) := by
  have hfind : (body ++ zoneSuffix zone).find? (fun char ↦ char = '.' || char = ':' || char = '%') =
      some ':' := by
    have hnone : head.find? (fun char ↦ char = '.' || char = ':' || char = '%') = none := by
      apply find?_eq_none.mpr
      intro char hchar hseparator
      have hhex := hhead char hchar
      simp only [Bool.or_eq_true, decide_eq_true_eq] at hseparator
      rcases hseparator with (rfl | rfl) | rfl <;> exact absurd hhex (by decide)
    rw [hbody, append_assoc, find?_append, hnone]
    simp
  have hsplit : (body ++ zoneSuffix zone).takeWhile (fun char ↦ decide (char ≠ '%')) = body ∧
      (body ++ zoneSuffix zone).dropWhile (fun char ↦ decide (char ≠ '%')) = zoneSuffix zone := by
    apply takeWhile_append_stop
    · intro char hchar
      simpa using hpercent char hchar
    · intro char hchar
      unfold zoneSuffix at hchar
      split_ifs at hchar
      · simp at hchar
      · simpa using hchar.symm
  rw [parseAddr, String.toList_ofList, hfind]
  simp only [parseIPv6, hsplit.1, hsplit.2]
  by_cases hzone : zone = ""
  · simp [zoneSuffix, hzone, hparse]
  · obtain ⟨char, rest, hcons⟩ : ∃ char rest, zone.toList = char :: rest := by
      cases htext : zone.toList with
      | nil => exact absurd (String.toList_injective htext) hzone
      | cons char rest => exact ⟨char, rest, rfl⟩
    have hofList : String.ofList (char :: rest) = zone := by
      rw [← hcons, String.ofList_toList]
    simp [zoneSuffix, hzone, hcons, hparse, hofList]

theorem joinFields_chars (hlt : ∀ value ∈ values, value < 65536) :
    ∀ char ∈ joinFields values, isHexDigit char = true ∨ char = ':' := by
  intro char hchar
  rcases mem_intercalate hchar with hcolon | ⟨text, htext, hmem⟩
  · exact .inr hcolon
  · obtain ⟨value, hvalue, rfl⟩ := mem_map.mp htext
    exact .inl (appendHex_isHexDigit (hlt value hvalue) char hmem)

theorem joinFields_split (hlt : ∀ value ∈ values, value < 65536) (hlength : 2 ≤ values.length) :
    ∃ head tail, joinFields values = head ++ ':' :: tail ∧
      ∀ char ∈ head, isHexDigit char = true := by
  match values, hlength with
  | value :: next :: values, _ =>
    exact ⟨appendHex value, joinFields (next :: values), joinFields_cons_cons value next values,
      appendHex_isHexDigit (hlt value mem_cons_self)⟩

theorem string6_chars (bits : BitVec 128) :
    ∀ char ∈ string6 bits, isHexDigit char = true ∨ char = ':' := by
  intro char hchar
  have hlt := fields_lt bits
  rw [string6] at hchar
  split at hchar
  · exact joinFields_chars hlt char hchar
  · simp only [mem_append, mem_cons] at hchar
    rcases hchar with hleft | rfl | rfl | hright
    · exact joinFields_chars (fun value hvalue ↦ hlt value (mem_of_mem_take hvalue)) char hleft
    · exact Or.inr rfl
    · exact Or.inr rfl
    · exact joinFields_chars (fun value hvalue ↦ hlt value (mem_of_mem_drop hvalue)) char hright

theorem string6_split (bits : BitVec 128) :
    ∃ head tail, string6 bits = head ++ ':' :: tail ∧ ∀ char ∈ head, isHexDigit char = true := by
  have hlt := fields_lt bits
  rw [string6]
  split
  · exact joinFields_split hlt (by rw [length_fields]; norm_num)
  · rename_i start stop _
    have htake : ∀ value ∈ (fields bits).take start, value < 65536 := fun value hvalue ↦
      hlt value (mem_of_mem_take hvalue)
    cases hleft : (fields bits).take start with
    | nil => exact ⟨[], ':' :: joinFields ((fields bits).drop stop), by simp [joinFields_nil], by simp⟩
    | cons value values =>
      rw [hleft] at htake
      cases values with
      | nil =>
        exact ⟨appendHex value, ':' :: joinFields ((fields bits).drop stop), by
          rw [joinFields_singleton], appendHex_isHexDigit (htake value mem_cons_self)⟩
      | cons next values =>
        obtain ⟨head, tail, hjoin, hhead⟩ := joinFields_split htake (by simp)
        exact ⟨head, tail ++ ':' :: ':' :: joinFields ((fields bits).drop stop), by
          rw [hjoin, append_assoc, cons_append], hhead⟩

theorem string4_chars (bits : BitVec 32) : ∀ char ∈ string4 bits, char ≠ '%' := by
  rintro char hchar rfl
  rcases mem_intercalate hchar with hdot | ⟨text, htext, hmem⟩
  · exact absurd hdot (by decide)
  · obtain ⟨octet, hoctet, rfl⟩ := mem_map.mp htext
    have hdigits := (toDigits_octet (octets_lt bits octet hoctet)).1
    exact absurd (all_eq_true.mp hdigits '%' hmem) (by decide)

/-- Parsing the text of an IPv6 address returns the address, mapped addresses and zones included. -/
theorem parseAddr_string (bits : BitVec 128) (zone : String) :
    parseAddr (Addr.v6 bits zone).string = some (.v6 bits zone) := by
  by_cases hmapped : bits >>> 32 = 0xffff#128
  · have hstring : (Addr.v6 bits zone).string = String.ofList
        ("::ffff:".toList ++ string4 (bits.setWidth 32) ++ zoneSuffix zone) := by
      simp [Addr.string, Addr.is4In6, hmapped]
    rw [hstring]
    refine parseAddr_of_body zone (nil_append _).symm (by simp) ?_
      (parseIPv6Body_string4In6 hmapped)
    intro char hchar
    rcases mem_append.mp hchar with htext | htail
    · rintro rfl
      exact absurd htext (by decide)
    · exact string4_chars _ char htail
  · have hstring : (Addr.v6 bits zone).string = String.ofList (string6 bits ++ zoneSuffix zone) := by
      simp [Addr.string, Addr.is4In6, hmapped]
    obtain ⟨head, tail, hsplit, hhead⟩ := string6_split bits
    rw [hstring]
    refine parseAddr_of_body zone hsplit hhead ?_ (parseIPv6Body_string6 bits)
    intro char hchar
    rcases string6_chars bits char hchar with hhex | rfl
    · rintro rfl
      exact absurd hhex (by decide)
    · decide

/-! ## Prefixes -/

/-- An address and a number of leading bits; a negative number of bits is an invalid prefix. -/
structure Prefix where
  addr : Addr
  bits : Int
  deriving DecidableEq, Repr

namespace Prefix

def isValid (range : Prefix) : Bool :=
  0 ≤ range.bits

/-- Clear the bits after the leading ones. -/
def masked (range : Prefix) : Prefix :=
  match range.addr with
  | .v6 bits _ =>
    let kept := 128 - range.bits.toNat
    ⟨.v6 (bits >>> kept <<< kept) "", range.bits⟩
  | .v4 bits =>
    let kept := 32 - range.bits.toNat
    ⟨.v4 (bits >>> kept <<< kept), range.bits⟩
  | .invalid => ⟨.invalid, -1⟩

/-- An address with a zone is in no prefix, and neither is one of the other family. -/
def contains (range : Prefix) (addr : Addr) : Bool :=
  range.isValid && !addr.hasZone &&
    match range.addr, addr with
    | .v6 base _, .v6 bits _ => (base ^^^ bits) >>> (128 - range.bits.toNat) == 0#128
    | .v4 base, .v4 bits => (base ^^^ bits) >>> (32 - range.bits.toNat) == 0#32
    | _, _ => false

/-- `Prefix.String`. -/
def string (range : Prefix) : String :=
  if range.isValid then
    String.ofList (range.addr.string.toList ++ '/' :: Nat.toDigits 10 range.bits.toNat)
  else "invalid Prefix"

end Prefix

/-- The number after the slash: decimal without sign or leading zero. -/
def parseBits (text : List Char) : Option Nat :=
  if text ≠ [] ∧ text.all Char.isDigit ∧ (text.length = 1 ∨ text.head? ≠ some '0') then
    some (text.foldl (fun total digit ↦ total * 10 + (digit.toNat - 48)) 0)
  else none

/-- `ParsePrefix`: the last slash separates the address, which may have no zone, from the bits. -/
def parsePrefix (text : String) : Option Prefix :=
  let reversed := text.toList.reverse
  let digits := (reversed.takeWhile (· ≠ '/')).reverse
  match reversed.dropWhile (· ≠ '/') with
  | [] => none
  | _ :: address =>
    match parseAddr (String.ofList address.reverse), parseBits digits with
    | some addr, some bits =>
      let width := if addr.is6 then 128 else 32
      if addr.hasZone ∨ width < bits then none else some ⟨addr, bits⟩
    | _, _ => none

theorem parseBits_toDigits (hbits : bits ≤ 128) :
    parseBits (Nat.toDigits 10 bits) = some bits := by
  have hall : ∀ value : Fin 129, parseBits (Nat.toDigits 10 value) = some value.val := by
    decide
  exact hall ⟨bits, by omega⟩

theorem toDigits_no_slash (hbits : bits ≤ 128) : '/' ∉ Nat.toDigits 10 bits := by
  have hall : ∀ value : Fin 129, '/' ∉ Nat.toDigits 10 value := by decide
  exact hall ⟨bits, by omega⟩

/-- Parsing the text of a prefix returns it, if this holds of its address. -/
theorem parsePrefix_text {addr : Addr} (haddr : parseAddr addr.string = some addr)
    (hzone : addr.hasZone = false) (hbits : bits ≤ if addr.is6 then 128 else 32) :
    parsePrefix (Prefix.string ⟨addr, bits⟩) = some ⟨addr, bits⟩ := by
  have hsmall : bits ≤ 128 := by
    split_ifs at hbits <;> omega
  have hdigits : ∀ char ∈ (Nat.toDigits 10 bits).reverse, decide (char ≠ '/') = true := by
    intro char hchar
    rw [mem_reverse] at hchar
    simp only [ne_eq, decide_not, Bool.not_eq_true', decide_eq_false_iff_not]
    rintro rfl
    exact toDigits_no_slash hsmall hchar
  have htext : (Prefix.string ⟨addr, bits⟩).toList.reverse =
      (Nat.toDigits 10 bits).reverse ++ '/' :: addr.string.toList.reverse := by
    simp [Prefix.string, Prefix.isValid]
  obtain ⟨htake, hdrop⟩ := takeWhile_append_stop (fun char ↦ decide (char ≠ '/'))
    ('/' :: addr.string.toList.reverse) hdigits (by simp)
  rw [parsePrefix, htext]
  simp only [htake, hdrop, reverse_reverse, String.ofList_toList, haddr, parseBits_toDigits hsmall]
  rw [if_neg (by simpa [hzone] using hbits)]

theorem parseAddr_string4 (bits : BitVec 32) : parseAddr (Addr.v4 bits).string = some (.v4 bits) := by
  obtain ⟨octet, rest, hfirst, hrest⟩ := string4_head bits
  have hnone : (Nat.toDigits 10 octet).find? (fun char ↦ char = '.' || char = ':' || char = '%') = none := by
    rw [find?_eq_none]
    intro char hchar hfound
    have hdigit := all_eq_true.mp (toDigits_octet hfirst).1 char hchar
    simp only [Bool.or_eq_true, decide_eq_true_eq] at hfound
    rcases hfound with (rfl | rfl) | rfl <;> exact absurd hdigit (by decide)
  have hvalue : bits.toNat / 2 ^ 24 % 256 * 2 ^ 24 + bits.toNat / 2 ^ 16 % 256 * 2 ^ 16 +
      bits.toNat / 2 ^ 8 % 256 * 2 ^ 8 + bits.toNat % 256 = bits.toNat := by
    have := bits.isLt
    omega
  rw [parseAddr, Addr.string, String.toList_ofList, hrest, find?_append, hnone]
  simp only [find?_cons, decide_true, Bool.true_or, Option.none_or]
  rw [← hrest, parseIPv4, parseIPv4Fields_string4]
  simp only [octets, hvalue, BitVec.ofNat_toNat, BitVec.setWidth_eq]

/-- Parsing the text of an IPv4 prefix returns the prefix. -/
theorem parsePrefix_string4 {base : BitVec 32} (hbits : bits ≤ 32) :
    parsePrefix (Prefix.string ⟨.v4 base, bits⟩) = some ⟨.v4 base, bits⟩ :=
  parsePrefix_text (parseAddr_string4 base) rfl hbits

end Podmin.Foundation.Netip
