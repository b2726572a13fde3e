import Podmin.Foundation.Text

/-!
# Image references

`internal/registry`: normalizing and validating references to images in the cluster registry. The
parser of tagged references is a library the repository imports; it is a parameter here.
-/

namespace Podmin.Registry

open Foundation Text

variable {parser : TagParser} {value : String} {reference : Tag}

/-- A parsed tagged reference. -/
structure Tag where
  registry : String
  repository : String
  tag : String
  deriving DecidableEq, Repr

def Tag.name (reference : Tag) : String :=
  reference.registry ++ "/" ++ reference.repository ++ ":" ++ reference.tag

/-- The imported parser: it reads back the name of what it returns, and repository and tag hold
neither blanks nor an at sign. -/
structure TagParser where
  newTag : String → Option Tag
  newTag_name : ∀ value reference, newTag value = some reference →
    newTag reference.name = some reference
  chars : ∀ value reference, newTag value = some reference →
    ∀ char ∈ (reference.repository ++ ":" ++ reference.tag).toList,
      isSpace char = false ∧ char ≠ '@'

def host : String := "registry.podmin.internal"

def appNamespace : String := "apps/"

def mirrorNamespace : String := "mirror/"

/-- Whether a value omits an explicit registry host. -/
def shorthand (value : String) : Bool :=
  match split '/' value with
  | first :: _ :: _ => !first.toList.contains '.' && !first.toList.contains ':'
  | _ => true

/-- Parse a tagged reference and reject digests. -/
def tag (parser : TagParser) (value : String) : Except String Tag :=
  match parser.newTag value with
  | none => .error "image reference must use a valid tag"
  | some reference =>
    if value.toList.contains '@' then .error "image reference must use a valid tag"
    else .ok reference

/-- Normalize shorthand and validate a cluster image reference. -/
def parse (parser : TagParser) (value : String) : Except String Tag :=
  let value := trimSpace value
  let value := if shorthand value then host ++ "/" ++ appNamespace ++ trimPrefix value appNamespace
    else value
  match tag parser value with
  | .error message => .error ("parse image reference: " ++ message)
  | .ok reference =>
    if reference.registry ≠ host ∨ (!hasPrefix reference.repository appNamespace &&
        !hasPrefix reference.repository mirrorNamespace) then
      .error "image is not in the cluster registry; run podmin push"
    else .ok reference

theorem tag_eq_ok :
    tag parser value = .ok reference ↔
      parser.newTag value = some reference ∧ '@' ∉ value.toList := by
  unfold tag
  cases parser.newTag value with
  | none => simp
  | some parsed =>
    by_cases hdigest : '@' ∈ value.toList
    · simp [hdigest]
    · simp [hdigest]

/-- Every accepted reference comes from the imported parser and names the cluster registry. -/
theorem parse_eq_ok (hparse : parse parser value = .ok reference) :
    (∃ full, parser.newTag full = some reference) ∧ reference.registry = host ∧
      (hasPrefix reference.repository appNamespace ||
        hasPrefix reference.repository mirrorNamespace) = true := by
  unfold parse at hparse
  dsimp only at hparse
  split at hparse
  · simp at hparse
  · next parsed htag =>
    split at hparse
    · simp at hparse
    · next hcluster =>
      cases hparse
      simp only [not_or, ne_eq, not_not, Bool.and_eq_true, Bool.not_eq_true', not_and,
        Bool.not_eq_false] at hcluster
      refine ⟨⟨_, (tag_eq_ok.mp htag).1⟩, hcluster.1, ?_⟩
      cases happ : hasPrefix reference.repository appNamespace with
      | true => rfl
      | false => simpa using hcluster.2 happ

theorem chars_of_all {text : String}
    (hall : (text.toList.all fun char ↦ !isSpace char && char != '@') = true) :
    ∀ char ∈ text.toList, isSpace char = false ∧ char ≠ '@' := by
  intro char hchar
  simpa using List.all_eq_true.mp hall char hchar

/-- A reference parser that knows one reference. -/
def TagParser.single (tag : Tag)
    (hchars : ((tag.repository ++ ":" ++ tag.tag).toList.all fun char ↦
      !isSpace char && char != '@') = true) :
    TagParser where
  newTag value := if value = tag.name then some tag else none
  newTag_name value reference hnew := by
    obtain ⟨_, ⟨rfl⟩⟩ := Option.ite_none_right_eq_some.mp hnew
    exact if_pos rfl
  chars value reference hnew := by
    obtain ⟨_, ⟨rfl⟩⟩ := Option.ite_none_right_eq_some.mp hnew
    exact chars_of_all hchars

theorem name_chars {full : String} (hnew : parser.newTag full = some reference)
    (hhost : reference.registry = host) :
    ∀ char ∈ reference.name.toList, isSpace char = false ∧ char ≠ '@' := by
  have hleading : ∀ char ∈ (host ++ "/").toList, isSpace char = false ∧ char ≠ '@' :=
    chars_of_all (by decide)
  intro char hchar
  have hname : reference.name = (host ++ "/") ++ (reference.repository ++ ":" ++ reference.tag) := by
    rw [Tag.name, hhost]
    simp only [String.append_assoc]
  rw [hname, String.toList_append, List.mem_append] at hchar
  rcases hchar with hfirst | hrest
  · exact hleading char hfirst
  · exact parser.chars full reference hnew char hrest

theorem shorthand_name (hhost : reference.registry = host) :
    shorthand reference.name = false := by
  have hslash : '/' ∉ host.toList := by decide
  have hname : reference.name =
      host ++ String.singleton '/' ++ (reference.repository ++ ":" ++ reference.tag) := by
    rw [Tag.name, hhost]
    simp only [String.append_assoc]
    rfl
  obtain ⟨second, rest, hsplit⟩ :=
    List.exists_cons_of_ne_nil (split_ne_nil '/' (reference.repository ++ ":" ++ reference.tag))
  have hdot : '.' ∈ host.toList := by decide
  rw [shorthand, hname, split_append_first hslash, hsplit]
  simp [hdot]

/-- Normalized references are left alone. -/
theorem parse_name (hparse : parse parser value = .ok reference) :
    parse parser reference.name = .ok reference := by
  obtain ⟨⟨full, hnew⟩, hhost, hnamespace⟩ := parse_eq_ok hparse
  have hchars := name_chars hnew hhost
  have htrim : trimSpace reference.name = reference.name :=
    trimSpace_eq_self fun char hchar ↦ (hchars char hchar).1
  have htag : tag parser reference.name = .ok reference :=
    tag_eq_ok.mpr ⟨parser.newTag_name full reference hnew, fun hmem ↦ (hchars '@' hmem).2 rfl⟩
  have hcluster : ¬(reference.registry ≠ host ∨
      (!hasPrefix reference.repository appNamespace &&
        !hasPrefix reference.repository mirrorNamespace) = true) := by
    rcases Bool.or_eq_true_iff.mp hnamespace with happ | hmirror
    · simp [hhost, happ]
    · simp [hhost, hmirror]
  unfold parse
  simp only [htrim, shorthand_name hhost, Bool.false_eq_true, if_false, htag, if_neg hcluster]

theorem name_ne_empty (reference : Tag) : reference.name ≠ "" := by
  intro hempty
  have hchars : reference.name.toList = [] := by rw [hempty]; rfl
  simp [Tag.name] at hchars

end Podmin.Registry
