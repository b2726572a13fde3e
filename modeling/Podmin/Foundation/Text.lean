import Mathlib.Data.List.Basic

/-!
# Strings as Go's `strings` treats them

Splitting and joining at one character, trimming, and tests for leading and trailing parts. A part
that does not contain the separator is one component, so a joined list of such parts splits into
the same list.
-/

namespace Podmin.Foundation.Text

open List

variable {separator : Char} {value : String}

/-- The bytes of a string. -/
def utf8Bytes (text : String) : List UInt8 :=
  text.toUTF8.data.toList

/-- `strings.Split` at a one-character separator. -/
def split (separator : Char) (value : String) : List String :=
  (value.toList.splitOn separator).map String.ofList

/-- `strings.Join` with a one-character separator. -/
def join (separator : Char) (parts : List String) : String :=
  String.ofList ([separator].intercalate (parts.map String.toList))

theorem split_join {parts : List String} (hne : parts ≠ []) (hparts : ∀ part ∈ parts, separator ∉ part.toList) :
    split separator (join separator parts) = parts := by
  rw [split, join, String.toList_ofList, splitOn_intercalate]
  · rw [map_map]
    conv_rhs => rw [← map_id parts]
    exact map_congr_left fun part _ ↦ String.ofList_toList
  · intro chars hchars
    obtain ⟨part, hpart, rfl⟩ := mem_map.mp hchars
    exact hparts part hpart
  · simpa using hne

theorem join_split (separator : Char) (value : String) :
    join separator (split separator value) = value := by
  have hchars : ((value.toList.splitOn separator).map String.ofList).map String.toList =
      value.toList.splitOn separator := by
    rw [map_map]
    conv_rhs => rw [← map_id (value.toList.splitOn separator)]
    exact map_congr_left fun chars _ ↦ String.toList_ofList
  rw [join, split, hchars, intercalate_splitOn, String.ofList_toList]

theorem splitOn_append (left right : List Char) :
    (left ++ separator :: right).splitOn separator = left.splitOn separator ++ right.splitOn separator := by
  induction left with
  | nil => simp [splitOn, splitOnP_cons_eq_if_modifyHead]
  | cons char left ih =>
    simp only [splitOn] at ih ⊢
    rw [cons_append, splitOnP_cons_eq_if_modifyHead, ih, splitOnP_cons_eq_if_modifyHead]
    split
    · rfl
    · obtain ⟨first, rest, hsplit⟩ := exists_cons_of_ne_nil
        (splitOnP_ne_nil (fun char ↦ char == separator) left)
      rw [hsplit]
      rfl

theorem splitOn_append_last {last : List Char} (hlast : separator ∉ last) (leading : List Char) :
    ∃ front, front ≠ [] ∧ (leading ++ separator :: last).splitOn separator = front ++ [last] := by
  induction leading with
  | nil =>
    refine ⟨[[]], by simp, ?_⟩
    have hsingle : last.splitOn separator = [last] := by
      have := @splitOn_intercalate _ [last] _ _ separator (by simpa using hlast) (by simp)
      simpa using this
    simpa [splitOn, splitOnP_cons_eq_if_modifyHead] using hsingle
  | cons char leading ih =>
    obtain ⟨front, hfront, heq⟩ := ih
    simp only [splitOn] at heq ⊢
    rw [cons_append, splitOnP_cons_eq_if_modifyHead, heq]
    split
    · exact ⟨[] :: front, by simp, rfl⟩
    · obtain ⟨first, rest, rfl⟩ := exists_cons_of_ne_nil hfront
      exact ⟨(char :: first) :: rest, by simp, rfl⟩

theorem splitOn_append_first {first : List Char} (hfirst : separator ∉ first) (rest : List Char) :
    (first ++ separator :: rest).splitOn separator = first :: rest.splitOn separator := by
  induction first with
  | nil => simp [splitOn, splitOnP_cons_eq_if_modifyHead]
  | cons char first ih =>
    have hchar : ¬(char == separator) = true := by
      intro heq
      exact hfirst (mem_cons.mpr (.inl (eq_of_beq heq).symm))
    have htail := ih fun hmem ↦ hfirst (mem_cons_of_mem _ hmem)
    simp only [splitOn] at htail ⊢
    rw [cons_append, splitOnP_cons_eq_if_modifyHead, htail, if_neg hchar]
    rfl

/-- What precedes the first separator is the first component. -/
theorem split_append_first {first : String} (hfirst : separator ∉ first.toList) (rest : String) :
    split separator (first ++ String.singleton separator ++ rest) =
      first :: split separator rest := by
  have hchars : (first ++ String.singleton separator ++ rest).toList =
      first.toList ++ separator :: rest.toList := by
    simp
  rw [split, hchars, splitOn_append_first hfirst]
  simp [split]

/-- The components before a separator and those after it. -/
theorem split_append (separator : Char) (left right : String) :
    split separator (left ++ String.singleton separator ++ right) =
      split separator left ++ split separator right := by
  have hchars : (left ++ String.singleton separator ++ right).toList =
      left.toList ++ separator :: right.toList := by
    simp
  rw [split, hchars, splitOn_append, map_append, ← split, ← split]

theorem not_mem_splitOn {chars : List Char} :
    ∀ part ∈ chars.splitOn separator, separator ∉ part := by
  induction chars with
  | nil => simp [splitOn]
  | cons char chars ih =>
    simp only [splitOn] at ih ⊢
    rw [splitOnP_cons_eq_if_modifyHead]
    obtain ⟨first, rest, hsplit⟩ := exists_cons_of_ne_nil
      (splitOnP_ne_nil (fun char ↦ char == separator) chars)
    rw [hsplit] at ih ⊢
    obtain ⟨hfirst, hrest⟩ := forall_mem_cons.mp ih
    split
    · exact forall_mem_cons.mpr ⟨by simp, ih⟩
    · next hchar =>
      refine forall_mem_cons.mpr ⟨?_, hrest⟩
      rw [mem_cons, not_or]
      exact ⟨fun hsame ↦ hchar (by simp [hsame]), hfirst⟩

theorem not_mem_split {part : String} (hpart : part ∈ split separator value) :
    separator ∉ part.toList := by
  obtain ⟨chars, hchars, rfl⟩ := mem_map.mp hpart
  rw [String.toList_ofList]
  exact not_mem_splitOn chars hchars

theorem split_injective (separator : Char) : Function.Injective (split separator) :=
  Function.LeftInverse.injective (join_split separator)

theorem split_ne_nil (separator : Char) (value : String) : split separator value ≠ [] := by
  simp [split, splitOn, splitOnP_ne_nil]

/-- What follows the last separator is the last component. -/
theorem getLast?_split {last : String} (hlast : separator ∉ last.toList) (leading : String) :
    (split separator (leading ++ String.singleton separator ++ last)).getLast? = some last := by
  obtain ⟨front, _, heq⟩ := splitOn_append_last hlast leading.toList
  have hchars : (leading ++ String.singleton separator ++ last).toList =
      leading.toList ++ separator :: last.toList := by
    simp
  rw [split, hchars, heq]
  simp

/-- A first component without the separator can be read off. -/
theorem separated_inj_first {separator : Char} {first other rest tail : String}
    (hfirst : separator ∉ first.toList) (hother : separator ∉ other.toList)
    (heq : first ++ String.singleton separator ++ rest =
      other ++ String.singleton separator ++ tail) : first = other ∧ rest = tail := by
  have hsplit := congrArg (split separator) heq
  rw [split_append_first hfirst, split_append_first hother] at hsplit
  obtain rfl := (cons.inj hsplit).1
  refine ⟨rfl, ?_⟩
  simpa using heq

/-- A last component without the separator can be read off. -/
theorem separated_inj_last {separator : Char} {leading before last other : String}
    (hlast : separator ∉ last.toList) (hother : separator ∉ other.toList)
    (heq : leading ++ String.singleton separator ++ last =
      before ++ String.singleton separator ++ other) : leading = before ∧ last = other := by
  have hsplit := congrArg (fun text ↦ (split separator text).getLast?) heq
  simp only [getLast?_split hlast, getLast?_split hother, Option.some.injEq] at hsplit
  subst hsplit
  refine ⟨?_, rfl⟩
  simpa using heq

/-- Joining with a separator below every other character keeps the order of the first parts. -/
theorem append_separator_lt {first other : List Char} (hother : ∀ char ∈ other, separator < char)
    (hlt : first < other) (rest tail : List Char) :
    first ++ separator :: rest < other ++ separator :: tail := by
  induction first generalizing other with
  | nil =>
    cases other with
    | nil => exact absurd hlt (List.lt_irrefl _)
    | cons char chars =>
      exact List.cons_lt_cons_iff.mpr (.inl (hother char List.mem_cons_self))
  | cons char chars ih =>
    cases other with
    | nil => exact absurd hlt (not_lt_nil _)
    | cons next others =>
      rw [cons_append, cons_append]
      apply cons_lt_cons_iff.mpr
      rcases cons_lt_cons_iff.mp hlt with hchar | ⟨rfl, hchars⟩
      · exact .inl hchar
      · exact .inr ⟨rfl, ih (fun later hlater ↦ hother later (mem_cons_of_mem _ hlater)) hchars⟩

/-- Decimal text consists of digits. -/
theorem not_mem_toString {char : Char} (hchar : char.isDigit = false) (value : Nat) :
    char ∉ (toString value).toList := by
  intro hmem
  have hdigits : char ∈ Nat.toDigits 10 value := by
    simpa [toString, Nat.repr] using hmem
  rw [Nat.isDigit_of_mem_toDigits (by decide) (by decide) hdigits] at hchar
  cases hchar

/-- The size in bytes of a text of one-byte characters. -/
theorem utf8ByteSize_ofList {chars : List Char} (hchars : ∀ char ∈ chars, char.utf8Size = 1) :
    (String.ofList chars).utf8ByteSize = chars.length := by
  induction chars with
  | nil => rfl
  | cons char chars ih =>
    obtain ⟨hchar, hrest⟩ := forall_mem_cons.mp hchars
    have hfirst : String.ofList [char] = String.singleton char := by simp
    rw [show char :: chars = [char] ++ chars from rfl, String.ofList_append,
      String.utf8ByteSize_append, ih hrest, hfirst, String.utf8ByteSize_singleton, hchar,
      length_append, length_singleton]

/-- `unicode.IsSpace`. -/
def isSpace (char : Char) : Bool :=
  let code := char.toNat
  (9 ≤ code && code ≤ 13) || code == 0x20 || code == 0x85 || code == 0xa0 || code == 0x1680 ||
    (0x2000 ≤ code && code ≤ 0x200a) || code == 0x2028 || code == 0x2029 || code == 0x202f ||
    code == 0x205f || code == 0x3000

/-- `strings.TrimSpace`. -/
def trimSpace (value : String) : String :=
  String.ofList (((value.toList.dropWhile isSpace).reverse.dropWhile isSpace).reverse)

theorem trimSpace_eq_self (hvalue : ∀ char ∈ value.toList, isSpace char = false) :
    trimSpace value = value := by
  have hdrop {chars : List Char} (hchars : ∀ char ∈ chars, isSpace char = false) :
      chars.dropWhile isSpace = chars := by
    cases chars with
    | nil => rfl
    | cons char rest => rw [dropWhile_cons_of_neg (by simp [hchars char mem_cons_self])]
  rw [trimSpace, hdrop hvalue, hdrop (fun char hchar ↦ hvalue char (mem_reverse.mp hchar)),
    reverse_reverse, String.ofList_toList]

/-- `strings.HasPrefix`. -/
def hasPrefix (value leading : String) : Bool :=
  leading.toList.isPrefixOf value.toList

/-- `strings.HasSuffix`. -/
def hasSuffix (value trailing : String) : Bool :=
  trailing.toList.isSuffixOf value.toList

/-- `strings.TrimPrefix`. -/
def trimPrefix (value leading : String) : String :=
  if hasPrefix value leading then String.ofList (value.toList.drop leading.toList.length) else value

/-- `strings.TrimSuffix`. -/
def trimSuffix (value trailing : String) : String :=
  if hasSuffix value trailing then
    String.ofList (value.toList.take (value.toList.length - trailing.toList.length))
  else value

theorem hasPrefix_iff {leading : String} :
    hasPrefix value leading = true ↔ ∃ rest, value = leading ++ rest := by
  rw [hasPrefix, isPrefixOf_iff_prefix]
  constructor
  · intro hleading
    obtain ⟨rest, hrest⟩ := hleading
    refine ⟨String.ofList rest, ?_⟩
    rw [← String.toList_inj, String.toList_append, String.toList_ofList, hrest]
  · intro hvalue
    obtain ⟨rest, rfl⟩ := hvalue
    rw [String.toList_append]
    exact prefix_append _ _

theorem hasSuffix_append (value trailing : String) : hasSuffix (value ++ trailing) trailing = true := by
  simp [hasSuffix]

theorem trimSuffix_append (value trailing : String) :
    trimSuffix (value ++ trailing) trailing = value := by
  rw [trimSuffix, if_pos (hasSuffix_append value trailing), String.toList_append,
    length_append, Nat.add_sub_cancel, take_left, String.ofList_toList]

theorem append_trimSuffix {trailing : String} (hsuffix : hasSuffix value trailing = true) :
    trimSuffix value trailing ++ trailing = value := by
  obtain ⟨leading, hleading⟩ := isSuffixOf_iff_suffix.mp hsuffix
  have hvalue : value = String.ofList leading ++ trailing := by
    apply String.toList_injective
    rw [String.toList_append, String.toList_ofList, hleading]
  rw [hvalue, trimSuffix_append]

end Podmin.Foundation.Text
