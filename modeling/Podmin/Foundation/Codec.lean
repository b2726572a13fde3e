import Mathlib.Data.Countable.Basic
import Mathlib.Logic.Equiv.List
import Mathlib.Data.List.Basic
import Mathlib.Tactic.DeriveCountable
import Podmin.Foundation.GoMap

/-!
# Byte codecs

A codec writes every value as bytes and reads back what it wrote. Every countable type has one, and a
codec can be changed so that one value is written as a given text.
-/

namespace Podmin.Foundation

/-- Encoding into bytes and decoding of bytes that may be anything. -/
structure Codec (Value : Type*) where
  decode : List UInt8 → Except String Value
  encode : Value → List UInt8
  decode_encode : ∀ value, decode (encode value) = .ok value

namespace Codec

variable {Value : Type*}

theorem encode_injective (codec : Codec Value) : Function.Injective codec.encode := by
  intro left right heq
  have hleft := codec.decode_encode left
  rw [heq, codec.decode_encode right] at hleft
  exact (Except.ok.inj hleft).symm

/-- Write one value as a given text; the value that had the text gets the bytes of the first. -/
def assign [DecidableEq Value] (codec : Codec Value) (value : Value) (text : List UInt8) :
    Codec Value where
  decode input :=
    if input = text then .ok value
    else if input = codec.encode value then codec.decode text
    else codec.decode input
  encode other :=
    if other = value then text
    else if codec.encode other = text then codec.encode value
    else codec.encode other
  decode_encode other := by
    by_cases hvalue : other = value
    · simp [hvalue]
    · have hne : codec.encode other ≠ codec.encode value :=
        fun heq ↦ hvalue (codec.encode_injective heq)
      by_cases htext : codec.encode other = text
      · have hother : codec.encode value ≠ text := fun heq ↦ hne (htext.trans heq.symm)
        simp only [if_neg hvalue, if_pos htext, if_neg hother, if_true]
        rw [← htext, codec.decode_encode]
      · simp only [if_neg hvalue, if_neg htext, if_neg hne]
        exact codec.decode_encode other

theorem assign_decode [DecidableEq Value] (codec : Codec Value) (value : Value) (text : List UInt8) :
    (codec.assign value text).decode text = .ok value := by
  simp [assign]

/-- What another value is written as keeps its meaning, unless it is the given text. -/
theorem assign_decode_of_ne [DecidableEq Value] (codec : Codec Value) {value other : Value} {text : List UInt8}
    (hvalue : other ≠ value) (htext : codec.encode other ≠ text) :
    (codec.assign value text).decode (codec.encode other) = .ok other := by
  simp [assign, htext, codec.encode_injective.ne hvalue, codec.decode_encode]

open Classical in
/-- Write the number of a value in unary. -/
noncomputable def ofCountable (Value : Type*) [Countable Value] : Codec Value where
  decode input :=
    if hvalue : ∃ value : Value, (exists_injective_nat Value).choose value = input.length then
      .ok hvalue.choose
    else .error "no value has this encoding"
  encode value := List.replicate ((exists_injective_nat Value).choose value) 0
  decode_encode value := by
    rw [List.length_replicate]
    have hvalue : ∃ other : Value, (exists_injective_nat Value).choose other =
        (exists_injective_nat Value).choose value := ⟨value, rfl⟩
    rw [dif_pos hvalue]
    exact congrArg Except.ok ((exists_injective_nat Value).choose_spec hvalue.choose_spec)

end Codec

instance countableChar : Countable Char :=
  Function.Injective.countable (f := Char.toNat) fun _ _ heq ↦ Char.toNat_inj.mp heq

instance countableString : Countable String :=
  Function.Injective.countable (f := String.toList) fun _ _ heq ↦ String.toList_injective heq

instance countableGoMap {Key Value : Type*} [Countable Key] [Countable Value] : Countable (GoMap Key Value) :=
  Function.Injective.countable (f := AList.entries) fun _ _ heq ↦ AList.ext heq

end Podmin.Foundation
