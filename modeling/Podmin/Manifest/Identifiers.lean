import Mathlib.Data.List.Basic

/-!
# Identifiers

The two patterns of `internal/manifest`: `namePattern` for cluster, NodeGroup, workload and
container identifiers, and `namespacePattern` for Kubernetes namespaces. Both ask for one leading
character, optionally followed by up to `limit` label characters that do not end in a hyphen.
-/

namespace Podmin.Manifest

def isLower (char : Char) : Bool :=
  'a' ≤ char && char ≤ 'z'

def isLowerOrDigit (char : Char) : Bool :=
  isLower char || ('0' ≤ char && char ≤ '9')

def isLabelChar (char : Char) : Bool :=
  isLowerOrDigit char || char == '-'

/-- A leading character, then nothing or at most `limit` label characters that end in a letter or
digit. -/
def matchLabel (leading : Char → Bool) (limit : Nat) (value : String) : Bool :=
  match value.toList with
  | [] => false
  | first :: rest =>
    leading first && decide (rest.length ≤ limit) && rest.all isLabelChar &&
      rest.getLast?.all isLowerOrDigit

def validID (value : String) : Bool :=
  matchLabel isLower 31 value

def validNamespace (value : String) : Bool :=
  matchLabel isLowerOrDigit 62 value

theorem isLowerOrDigit_of_isLower {char : Char} (hchar : isLower char = true) :
    isLowerOrDigit char = true := by
  simp [isLowerOrDigit, hchar]

theorem isLabelChar_of_isLowerOrDigit {char : Char} (hchar : isLowerOrDigit char = true) :
    isLabelChar char = true := by
  simp [isLabelChar, hchar]

theorem matchLabel_chars {leading : Char → Bool} {limit : Nat} {value : String}
    (hleading : ∀ char, leading char = true → isLabelChar char = true)
    (hvalue : matchLabel leading limit value = true) :
    ∀ char ∈ value.toList, isLabelChar char = true := by
  rw [matchLabel] at hvalue
  split at hvalue
  · simp at hvalue
  · next first rest heq =>
    simp only [Bool.and_eq_true, List.all_eq_true] at hvalue
    intro char hchar
    rw [heq, List.mem_cons] at hchar
    rcases hchar with rfl | hrest
    · exact hleading _ hvalue.1.1.1
    · exact hvalue.1.2 char hrest

theorem ne_empty_of_matchLabel {leading : Char → Bool} {limit : Nat} {value : String}
    (hvalue : matchLabel leading limit value = true) : value ≠ "" := by
  rintro rfl
  simp [matchLabel] at hvalue

theorem validID_chars {value : String} (hvalue : validID value = true) :
    ∀ char ∈ value.toList, isLabelChar char = true :=
  matchLabel_chars
    (fun _ hchar ↦ isLabelChar_of_isLowerOrDigit (isLowerOrDigit_of_isLower hchar)) hvalue

theorem validNamespace_chars {value : String} (hvalue : validNamespace value = true) :
    ∀ char ∈ value.toList, isLabelChar char = true :=
  matchLabel_chars (fun _ ↦ isLabelChar_of_isLowerOrDigit) hvalue

end Podmin.Manifest
