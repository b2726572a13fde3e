import Podmin.Foundation.Path

/-!
# Containment of cleaned paths

An absolute path contains another when its components are the leading ones of the other. Two tests on
texts are compared with it: that `filepath.Rel` does not start upwards, and that one cleaned text starts
with the other and a separator. The second one misses the root, whose text already ends in the
separator.
-/

namespace Podmin.Foundation.Path

open Text Cleaned

variable {parent child path : Cleaned}

/-- Whether an absolute path is the other one or lies above it. -/
def Cleaned.contains (parent child : Cleaned) : Bool :=
  parent.rooted && child.rooted && parent.parts.isPrefixOf child.parts

/-- Whether one of two absolute paths contains the other, once they are cleaned. -/
def overlaps (left right : String) : Bool :=
  (parse left).contains (parse right) || (parse right).contains (parse left)

theorem Cleaned.contains_iff :
    parent.contains child = true ↔
      parent.rooted = true ∧ child.rooted = true ∧ parent.parts <+: child.parts := by
  rw [contains, Bool.and_eq_true, Bool.and_eq_true, List.isPrefixOf_iff_prefix, and_assoc]

/-! ## Components -/

/-- A component of a cleaned path. -/
def Component (part : String) : Prop :=
  part ≠ "" ∧ part ≠ "." ∧ '/' ∉ part.toList

/-- What `filepath.Clean` leaves: no empty component and no dot, and nothing above the root. -/
structure Cleaned.Proper (path : Cleaned) : Prop where
  component : ∀ part ∈ path.parts, Component part
  below : path.rooted = true → ".." ∉ path.parts

theorem Cleaned.push_rooted (path : Cleaned) (part : String) : (path.push part).rooted = path.rooted := by
  unfold push
  split
  · rfl
  · split
    · split
      · split <;> rfl
      · rfl
      · rfl
    · rfl

theorem Cleaned.Proper.push (hpath : path.Proper) {part : String} (hpart : '/' ∉ part.toList) :
    (path.push part).Proper := by
  have hparent : Component ".." := ⟨by decide, by decide, by decide⟩
  unfold Cleaned.push
  split
  · exact hpath
  · next hdot =>
    rw [not_or] at hdot
    split
    · split
      · split
        · exact hpath
        · next hrelative =>
          exact ⟨by simp [hparent], fun hrooted ↦ absurd hrooted hrelative⟩
      · next hlast =>
        constructor
        · intro other hother
          rcases List.mem_append.mp hother with hbefore | hadded
          · exact hpath.component other hbefore
          · exact List.mem_singleton.mp hadded ▸ hparent
        · intro hrooted
          exact absurd (List.mem_of_getLast? hlast) (hpath.below hrooted)
      · constructor
        · exact fun other hother ↦ hpath.component other (List.dropLast_subset _ hother)
        · exact fun hrooted hmem ↦ hpath.below hrooted (List.dropLast_subset _ hmem)
    · next hup =>
      constructor
      · intro other hother
        rcases List.mem_append.mp hother with hbefore | hadded
        · exact hpath.component other hbefore
        · exact List.mem_singleton.mp hadded ▸ ⟨hdot.1, hdot.2, hpart⟩
      · intro hrooted hmem
        rcases List.mem_append.mp hmem with hbefore | hadded
        · exact hpath.below hrooted hbefore
        · exact hup (List.mem_singleton.mp hadded).symm

theorem foldl_push_rooted (parts : List String) (path : Cleaned) :
    (parts.foldl push path).rooted = path.rooted := by
  induction parts generalizing path with
  | nil => rfl
  | cons part parts ih => rw [List.foldl_cons, ih, push_rooted]

theorem parse_rooted (value : String) : (parse value).rooted = hasPrefix value "/" :=
  foldl_push_rooted _ _

theorem parse_proper (value : String) : (parse value).Proper := by
  have hstart : (mk (hasPrefix value "/") []).Proper := ⟨by simp, by simp⟩
  have hparts : ∀ part ∈ split '/' value, '/' ∉ part.toList := fun _ ↦ not_mem_split
  rw [parse]
  generalize split '/' value = parts at hparts
  generalize mk (hasPrefix value "/") [] = path at hstart
  induction parts generalizing path with
  | nil => exact hstart
  | cons part parts ih =>
    obtain ⟨hfirst, hrest⟩ := List.forall_mem_cons.mp hparts
    exact ih hrest _ (hstart.push hfirst)

/-- Components other than `..` are appended as they are. -/
theorem foldl_push_append {parts : List String} (hparts : ∀ part ∈ parts, Component part)
    (hbelow : ".." ∉ parts) (path : Cleaned) :
    parts.foldl push path = { path with parts := path.parts ++ parts } := by
  induction parts generalizing path with
  | nil => simp
  | cons part parts ih =>
    obtain ⟨hfirst, hrest⟩ := List.forall_mem_cons.mp hparts
    rw [List.mem_cons, not_or] at hbelow
    have hpush : path.push part = { path with parts := path.parts ++ [part] } := by
      rw [push, if_neg (not_or.mpr ⟨hfirst.1, hfirst.2.1⟩), if_neg (Ne.symm hbelow.1)]
    rw [List.foldl_cons, hpush, ih hrest hbelow.2]
    simp

/-! ## Texts -/

/-- The components of the text of a cleaned path, as they are split. -/
def Cleaned.segments (path : Cleaned) : List String :=
  if path.rooted then "" :: (if path.parts.isEmpty then [""] else path.parts)
  else if path.parts.isEmpty then ["."] else path.parts

theorem slash_append (value : String) : "/" ++ value = "" ++ String.singleton '/' ++ value := by
  rw [String.empty_append]
  rfl

theorem Cleaned.Proper.split_join (hpath : path.Proper) (hne : path.parts ≠ []) :
    Text.split '/' (Text.join '/' path.parts) = path.parts :=
  Text.split_join hne fun part hpart ↦ (hpath.component part hpart).2.2

theorem Cleaned.Proper.split_text (hpath : path.Proper) :
    split '/' path.text = path.segments := by
  unfold text segments
  by_cases hne : path.parts = []
  · rw [hne]
    split <;> rfl
  · rw [List.isEmpty_eq_false_iff.mpr hne]
    split
    · rw [slash_append, split_append, hpath.split_join hne]
      rfl
    · exact hpath.split_join hne

/-- Only the text of an absolute path starts with a slash. -/
theorem Cleaned.Proper.head_segments (hpath : path.Proper) :
    path.segments.head? = some "" ↔ path.rooted = true := by
  unfold segments
  cases hrooted : path.rooted with
  | true => simp
  | false =>
    cases hparts : path.parts with
    | nil => simp
    | cons part parts =>
      have hfirst := (hpath.component part (by simp [hparts])).1
      simp [hfirst]

theorem Cleaned.Proper.hasPrefix_text (hpath : path.Proper) :
    hasPrefix path.text "/" = path.rooted := by
  rw [Bool.eq_iff_iff, ← hpath.head_segments, ← hpath.split_text, hasPrefix_iff]
  constructor
  · intro hleading
    obtain ⟨rest, hrest⟩ := hleading
    rw [hrest, slash_append, split_append]
    rfl
  · intro hhead
    cases hrooted : path.rooted with
    | true => exact ⟨_, by rw [text, if_pos hrooted]⟩
    | false =>
      rw [hpath.split_text, hpath.head_segments, hrooted] at hhead
      cases hhead

/-- Cleaning a cleaned absolute path changes nothing, and no other path becomes absolute. -/
theorem Cleaned.Proper.parse_text (hpath : path.Proper) (hrooted : path.rooted = true) :
    parse path.text = path := by
  have hsegments : path.segments.foldl Cleaned.push ⟨true, []⟩ = ⟨true, path.parts⟩ := by
    rw [Cleaned.segments, if_pos hrooted, List.foldl_cons]
    cases hparts : path.parts with
    | nil => rfl
    | cons part parts =>
      have happend := foldl_push_append hpath.component (hpath.below hrooted) ⟨true, []⟩
      rw [hparts] at happend
      exact happend
  rw [parse, hpath.split_text, hpath.hasPrefix_text, hrooted, hsegments, ← hrooted]

theorem parse_clean_rooted (value : String) : (parse (clean value)).rooted = (parse value).rooted := by
  rw [parse_rooted (clean value), clean, (parse_proper value).hasPrefix_text]

/-- For absolute paths the order of containment can be read off cleaned texts. -/
theorem contains_clean_left (value : String) (other : Cleaned) :
    (parse (clean value)).contains other = (parse value).contains other := by
  cases hrooted : (parse value).rooted with
  | true => rw [clean, (parse_proper value).parse_text hrooted]
  | false => simp [contains, parse_clean_rooted, hrooted]

theorem contains_clean_right (value : String) (other : Cleaned) :
    other.contains (parse (clean value)) = other.contains (parse value) := by
  cases hrooted : (parse value).rooted with
  | true => rw [clean, (parse_proper value).parse_text hrooted]
  | false => simp [contains, parse_clean_rooted, hrooted]

/-! ## Leading texts -/

theorem Cleaned.segments_of_ne_nil (hrooted : path.rooted = true) (hne : path.parts ≠ []) :
    path.segments = "" :: path.parts := by
  rw [segments, if_pos hrooted, List.isEmpty_eq_false_iff.mpr hne, if_neg Bool.false_ne_true]

/-- Splitting a text that continues another one after a separator. -/
theorem segments_append (hparent : parent.Proper) (hchild : child.Proper) {rest : String}
    (hrest : child.text = parent.text ++ "/" ++ rest) :
    child.segments = parent.segments ++ split '/' rest := by
  have happend : parent.text ++ "/" ++ rest = parent.text ++ String.singleton '/' ++ rest := rfl
  rw [← hchild.split_text, hrest, happend, split_append, hparent.split_text]

theorem Cleaned.segments_ne_nil (path : Cleaned) : path.segments ≠ [] := by
  unfold segments
  split
  · simp
  · split
    · simp
    · next hne => simpa using hne

/-- A text that leads with a separator belongs to a path above that is not the root. -/
theorem contains_of_hasPrefix (hparent : parent.Proper) (hchild : child.Proper) (hrooted : child.rooted = true)
    (hleading : hasPrefix child.text (parent.text ++ "/") = true) :
    parent.contains child = true ∧ parent.parts ≠ [] := by
  obtain ⟨rest, hrest⟩ := hasPrefix_iff.mp hleading
  have hsegments := segments_append hparent hchild hrest
  have habove : parent.rooted = true := by
    rw [← hparent.head_segments, ← List.head?_append_of_ne_nil _ parent.segments_ne_nil, ← hsegments,
      hchild.head_segments]
    exact hrooted
  obtain ⟨first, more, hmore⟩ := List.exists_cons_of_ne_nil (split_ne_nil '/' rest)
  by_cases hroot : parent.parts = []
  · -- the root and a separator are two slashes
    exfalso
    by_cases hempty : child.parts = []
    · rw [hmore] at hsegments
      simp [segments, hrooted, habove, hroot, hempty] at hsegments
    · rw [segments_of_ne_nil hrooted hempty] at hsegments
      have hparts : child.parts = "" :: split '/' rest := by
        simpa [segments, habove, hroot] using hsegments
      have hfirst := hchild.component "" (by simp [hparts])
      exact hfirst.1 rfl
  · rw [segments_of_ne_nil habove hroot] at hsegments
    refine ⟨contains_iff.mpr ⟨habove, hrooted, ?_⟩, hroot⟩
    by_cases hempty : child.parts = []
    · exfalso
      obtain ⟨part, parts, hparts⟩ := List.exists_cons_of_ne_nil hroot
      rw [hmore, hparts] at hsegments
      simp [segments, hrooted, hempty] at hsegments
    · rw [segments_of_ne_nil hrooted hempty, List.cons_append] at hsegments
      exact ⟨_, (List.cons.inj hsegments).2.symm⟩

/-- Below a path that is not the root, its text and a separator lead. -/
theorem hasPrefix_of_contains (hparent : parent.Proper) (hchild : child.Proper)
    (hcontains : parent.contains child = true) (hroot : parent.parts ≠ []) (hne : parent ≠ child) :
    hasPrefix child.text (parent.text ++ "/") = true := by
  obtain ⟨habove, hrooted, more, hparts⟩ := contains_iff.mp hcontains
  have hmore : more ≠ [] := by
    intro hnil
    apply hne
    rw [hnil, List.append_nil] at hparts
    cases parent
    cases child
    dsimp only at habove hrooted hparts
    rw [habove, hrooted, hparts]
  have hbelow : child.parts ≠ [] := by
    rw [← hparts]
    simp [hroot]
  rw [hasPrefix_iff]
  refine ⟨Text.join '/' more, Text.split_injective '/' ?_⟩
  have happend : parent.text ++ "/" ++ Text.join '/' more =
      parent.text ++ String.singleton '/' ++ Text.join '/' more := rfl
  rw [happend, Text.split_append, hchild.split_text, hparent.split_text,
    segments_of_ne_nil hrooted hbelow, segments_of_ne_nil habove hroot,
    split_join hmore]
  · rw [List.cons_append, hparts]
  · intro part hpart
    exact (hchild.component part (by rw [← hparts]; exact List.mem_append_right _ hpart)).2.2

/-- The test on texts: equal, or one leads with a separator. -/
theorem text_below_iff (hparent : parent.Proper) (hchild : child.Proper) (hrooted : parent.rooted = true)
    (hroot : parent.parts ≠ []) :
    (child.text = parent.text ∨ hasPrefix child.text (parent.text ++ "/") = true) ↔
      parent.contains child = true := by
  constructor
  · intro htext
    have hbelow : child.rooted = true := by
      rw [← hchild.hasPrefix_text, hasPrefix_iff]
      have hslash : parent.text = "/" ++ Text.join '/' parent.parts := by rw [text, if_pos hrooted]
      rcases htext with hsame | hleading
      · exact ⟨_, hsame.trans hslash⟩
      · obtain ⟨rest, hrest⟩ := hasPrefix_iff.mp hleading
        rw [hrest, hslash]
        exact ⟨Text.join '/' parent.parts ++ "/" ++ rest, by simp only [String.append_assoc]⟩
    rcases htext with hsame | hleading
    · have hequal : child = parent := by
        rw [← hchild.parse_text hbelow, hsame, hparent.parse_text hrooted]
      rw [hequal, contains_iff]
      exact ⟨hrooted, hrooted, List.prefix_rfl⟩
    · exact (contains_of_hasPrefix hparent hchild hbelow hleading).1
  · intro hcontains
    by_cases hequal : parent = child
    · exact .inl (by rw [hequal])
    · exact .inr (hasPrefix_of_contains hparent hchild hcontains hroot hequal)

/-! ## Relative paths -/

/-- What remains of two lists after their common leading elements. -/
theorem dropCommon_spec (left right : List String) :
    ∃ common, left = common ++ (dropCommon left right).1 ∧ right = common ++ (dropCommon left right).2 ∧
      ∀ first ∈ (dropCommon left right).1.head?, first ∉ (dropCommon left right).2.head? := by
  induction left generalizing right with
  | nil => exact ⟨[], by simp [dropCommon]⟩
  | cons base bases ih =>
    cases right with
    | nil => exact ⟨[], by simp [dropCommon]⟩
    | cons target targets =>
      by_cases hsame : base = target
      · obtain ⟨common, hleft, hright, hheads⟩ := ih targets
        have hdrop : dropCommon (base :: bases) (target :: targets) = dropCommon bases targets := by
          rw [dropCommon, if_pos hsame]
        rw [hdrop]
        refine ⟨base :: common, ?_, ?_, hheads⟩
        · rw [List.cons_append, ← hleft]
        · rw [List.cons_append, ← hright, hsame]
      · refine ⟨[], ?_⟩
        rw [dropCommon, if_neg hsame]
        simp [Ne.symm hsame]

/-- Leading elements that both lists have are all that a list leads with. -/
theorem isPrefix_dropCommon {left right : List String} :
    left <+: right ↔ (dropCommon left right).1 = [] := by
  obtain ⟨common, hleft, hright, hheads⟩ := dropCommon_spec left right
  generalize dropCommon left right = remaining at hleft hright hheads
  rw [hleft, hright, List.prefix_append_right_inj]
  constructor
  · intro hleading
    cases hfirst : remaining.1 with
    | nil => rfl
    | cons first rest =>
      obtain ⟨more, hmore⟩ := hleading
      rw [hfirst] at hmore hheads
      exact absurd (by simp [← hmore]) (hheads first rfl)
  · intro hnil
    rw [hnil]
    exact List.nil_prefix

/-- Whether a relative path stays below where it starts. -/
def staysBelow (relative : String) : Bool :=
  relative == "." || (relative != ".." && !hasPrefix relative "../")

theorem join_cons_cons (separator : Char) (first second : String) (rest : List String) :
    Text.join separator (first :: second :: rest) =
      first ++ String.singleton separator ++ Text.join separator (second :: rest) := by
  rw [← String.toList_inj]
  simp [Text.join, List.intercalate]

theorem staysBelow_up (parts : List String) : staysBelow (Text.join '/' (".." :: parts)) = false := by
  cases parts with
  | nil => decide
  | cons second rest =>
    rw [join_cons_cons]
    have hup : Text.hasPrefix (".." ++ String.singleton '/' ++ Text.join '/' (second :: rest)) "../" = true :=
      Text.hasPrefix_iff.mpr ⟨_, rfl⟩
    have hdot : ".." ++ String.singleton '/' ++ Text.join '/' (second :: rest) ≠ "." := by
      intro hequal
      have hchars := congrArg String.toList hequal
      simp at hchars
    rw [staysBelow, hup, Bool.not_true, Bool.and_false, Bool.or_false]
    exact beq_eq_false_iff_ne.mpr hdot

theorem staysBelow_down {parts : List String} (hne : parts ≠ []) (hparts : ∀ part ∈ parts, Component part)
    (hbelow : ".." ∉ parts) : staysBelow (Text.join '/' parts) = true := by
  have hsplit := Text.split_join hne fun part hpart ↦ (hparts part hpart).2.2
  have hup : Text.join '/' parts ≠ ".." := by
    intro hequal
    rw [hequal] at hsplit
    exact hbelow (hsplit ▸ by decide)
  have hleading : Text.hasPrefix (Text.join '/' parts) "../" = false := by
    rw [← Bool.not_eq_true, Text.hasPrefix_iff]
    intro hsome
    obtain ⟨rest, hrest⟩ := hsome
    have happend : "../" ++ rest = ".." ++ String.singleton '/' ++ rest := rfl
    rw [hrest, happend, split_append] at hsplit
    exact hbelow (hsplit ▸ List.mem_append_left _ (by decide))
  rw [staysBelow, hleading, Bool.not_false, Bool.and_true, bne_iff_ne.mpr hup, Bool.or_true]

/-- For an absolute path on either side, the relative path stays below exactly in a contained path. -/
theorem rel_staysBelow {parent child : String}
    (hrooted : (parse parent).rooted = true ∨ (parse child).rooted = true) :
    (rel parent child).any staysBelow = (parse parent).contains (parse child) := by
  have hparent := parse_proper parent
  have hchild := parse_proper child
  unfold rel
  dsimp only
  generalize parse parent = base at hrooted hparent
  generalize parse child = target at hrooted hchild
  by_cases hequal : base = target
  · have habove : target.rooted = true := by simpa [hequal] using hrooted
    rw [if_pos hequal, hequal, contains, habove]
    simp [staysBelow]
  · rw [if_neg hequal]
    by_cases hsides : base.rooted = target.rooted
    · have habove : base.rooted = true := by simpa [← hsides] using hrooted
      have hbelow : target.rooted = true := hsides ▸ habove
      rw [if_neg (fun hne ↦ hne hsides)]
      obtain ⟨common, hleft, hright, _⟩ := dropCommon_spec base.parts target.parts
      have hleads := @isPrefix_dropCommon base.parts target.parts
      generalize dropCommon base.parts target.parts = remaining at hleft hright hleads
      obtain ⟨bases, targets⟩ := remaining
      dsimp only at hleft hright hleads ⊢
      cases bases with
      | nil =>
        have hcontains : base.contains target = true :=
          contains_iff.mpr ⟨habove, hbelow, hleads.mpr rfl⟩
        have hsub : ∀ part ∈ targets, part ∈ target.parts := by
          intro part hpart
          rw [hright]
          exact List.mem_append_right _ hpart
        have hne : targets ≠ [] := by
          intro hnil
          apply hequal
          rw [hnil, ← hleft] at hright
          cases base
          cases target
          dsimp only at habove hbelow hright
          rw [habove, hbelow, hright]
        have hdown := staysBelow_down hne (fun part hpart ↦ hchild.component part (hsub part hpart))
          (fun hmem ↦ hchild.below hbelow (hsub ".." hmem))
        rw [hcontains]
        simpa using hdown
      | cons first bases =>
        have hup : first ≠ ".." := by
          intro hfirst
          apply hparent.below habove
          rw [hleft, hfirst]
          simp
        have hcontains : base.contains target = false := by
          rw [← Bool.not_eq_true, contains_iff]
          intro hall
          cases hleads.mp hall.2.2
        have hnotBelow := staysBelow_up (bases.map (fun _ ↦ "..") ++ targets)
        rw [hcontains]
        simpa [hup] using hnotBelow
    · rw [if_pos hsides, contains]
      cases habove : base.rooted with
      | true =>
        have hbelow : target.rooted = false := by
          cases htarget : target.rooted with
          | true => exact absurd (habove.trans htarget.symm) hsides
          | false => rfl
        simp [hbelow]
      | false => simp

end Podmin.Foundation.Path
