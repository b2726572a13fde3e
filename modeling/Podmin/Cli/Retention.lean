import Mathlib.Data.List.Infix
import Podmin.Foundation.Fallible
import Podmin.Foundation.GoMap
import Podmin.Foundation.Grouping
import Podmin.Foundation.Path
import Podmin.Foundation.Ranking
import Podmin.Foundation.Sha512
import Podmin.Manifest.Identifiers

/-!
# Retention of dependencies

`Expired` of `internal/cli/dependencies` and `cleanupDependencies` of `internal/cli/setup`: after a setup the
uploaded dependency files are listed, grouped by dependency and architecture, and all but the newest two
versions of each group are deleted once all their objects are 28 days old. A time is a number of nanoseconds
since the zero time. Maps are visited in any order, so that versions with equal newest times are sorted in any
order as well.
-/

namespace Podmin.Cli.Retention

open Foundation Fallible Manifest Text

/-! ## Expired versions -/

/-- Retention metadata of one uploaded object. -/
structure Object where
  key : String
  group : String
  version : String
  modified : Int
  deriving DecidableEq, Repr

/-- The latest modification time of a version, starting from the zero time. -/
def newest (objects : List Object) : Int :=
  objects.foldl (fun result object ↦ if result < object.modified then object.modified else result) 0

/-- The difference of two times, saturated to a 64-bit duration. -/
def subTime (later earlier : Int) : Int :=
  max (-2 ^ 63) (min (2 ^ 63 - 1) (later - earlier))

/-- The retention period, 28 days. -/
def retention : Int := 28 * 24 * 3600 * 1000000000

/-- Whether every object of a version is old enough. -/
def old (now : Int) (objects : List Object) : Bool :=
  objects.all fun object ↦ !decide (subTime now object.modified < retention)

abbrev Versions := GoMap String (List Object)

/-- Add an object to its group and version. -/
def collect (groups : GoMap String Versions) (object : Object) : GoMap String Versions :=
  let versions := (groups.lookup object.group).getD ∅
  groups.insert object.group
    (versions.insert object.version ((versions.lookup object.version).getD [] ++ [object]))

/-- The versions of a group, the newest first. -/
def sortedVersions (iteration : Iteration) (group : String) (versions : Versions) : List String :=
  sortSlice (fun left right ↦ decide
    (newest ((versions.lookup right).getD []) < newest ((versions.lookup left).getD [])))
    ((iteration.range ("versions of " ++ group) versions).map Prod.fst)

/-- The objects of one group that are selected. -/
def expiredVersions (iteration : Iteration) (now : Int) (group : String) (versions : Versions) : List Object :=
  let names := sortedVersions iteration group versions
  if names.length ≤ 2 then []
  else (names.drop 2).flatMap fun name ↦
    let objects := (versions.lookup name).getD []
    if old now objects then objects else []

/-- Select the versions beyond the newest two of their group when all their objects are old. -/
def expired (iteration : Iteration) (objects : List Object) (now : Int) : List Object :=
  (iteration.range "groups" (objects.foldl collect ∅)).flatMap fun entry ↦
    expiredVersions iteration now entry.1 entry.2

/-! ## Manifests -/

structure File where
  version : String
  url : String
  path : String
  digest : String
  size : Int
  deriving DecidableEq, Repr

structure Image where
  version : String
  source : String
  path : String
  digest : String
  size : Int
  deriving DecidableEq, Repr

/-- The published dependency manifest; an absent map is none. -/
structure Manifest where
  version : Int
  dependencies : Option (GoMap String (GoMap String File))
  images : Option (GoMap String Image)

def manifestPath : String := "dependencies/manifest.json"

def validName (name : String) : Bool :=
  match name.toList with
  | [] => false
  | first :: rest => isLowerOrDigit first && rest.all isLabelChar

def validDigest (digest : String) : Bool :=
  let hex (leading : String) (length : Nat) :=
    let rest := (trimPrefix digest leading).toList
    hasPrefix digest leading && rest.length == length && rest.all Sha512.isLowerHex
  hex "sha256:" 64 || hex "sha512:" 128

/-- A clean object-storage path below a directory. -/
def validObject (value directory : String) : Bool :=
  hasPrefix value directory && Path.clean value == value &&
    value.toList.all fun char ↦ !"*?[]\\".toList.contains char

def validateFile (name : String) (entry : String × File) : Except String Unit :=
  if entry.1 ≠ "amd64" ∧ entry.1 ≠ "arm64" then
    .error ("invalid architecture \"" ++ entry.1 ++ "\" for " ++ name)
  else if entry.2.version = "" ∨ entry.2.url = "" ∨ !validObject entry.2.path "dependencies/" ∨
      !validDigest entry.2.digest ∨ entry.2.size ≤ 0 then
    .error ("invalid dependency file " ++ name ++ "/" ++ entry.1)
  else .ok ()

def validateDependency (entry : String × GoMap String File) : Except String Unit :=
  if !validName entry.1 ∨ entry.2.pairs.length = 0 then .error ("invalid dependency \"" ++ entry.1 ++ "\"")
  else entry.2.pairs.foldlM (fun _ file ↦ validateFile entry.1 file) ()

def validateImage (entry : String × Image) : Except String Unit :=
  if !validName entry.1 ∨ entry.2.version = "" ∨ entry.2.source = "" ∨ !validObject entry.2.path "mirror/" ∨
      !validDigest entry.2.digest ∨ entry.2.size ≤ 0 then
    .error ("invalid dependency image \"" ++ entry.1 ++ "\"")
  else .ok ()

/-- Check the version of a manifest and every published object. -/
def Manifest.validate (manifest : Manifest) : Except String Unit :=
  if manifest.version ≠ 1 then
    .error ("unsupported dependency manifest version " ++ toString manifest.version)
  else
    match manifest.dependencies, manifest.images with
    | some dependencies, some images => do
      dependencies.pairs.foldlM (fun _ entry ↦ validateDependency entry) ()
      images.pairs.foldlM (fun _ entry ↦ validateImage entry) ()
    | _, _ => .error "dependency manifest maps are required"

/-- The paths of the dependency files of a manifest. -/
def Manifest.filePaths (manifest : Manifest) : List String :=
  (manifest.dependencies.getD ∅).pairs.flatMap fun entry ↦ entry.2.pairs.map fun file ↦ file.2.path

def Manifest.imagePaths (manifest : Manifest) : List String :=
  (manifest.images.getD ∅).pairs.map fun entry ↦ entry.2.path

/-! ## Cleaning up -/

/-- One listed object of the store. -/
structure ObjectInfo where
  key : String
  modified : Int
  deriving DecidableEq, Repr

/-- Whether a file name mentions an architecture. -/
def mentions (file architecture : String) : Bool :=
  decide (("linux-" ++ architecture).toList <:+: file.toList)

/-- The group of a file: its dependency and the architectures its name mentions. -/
def groupOf (dependency file : String) : String :=
  dependency ++ (if mentions file "amd64" then "/amd64" else "") ++
    (if mentions file "arm64" then "/arm64" else "")

/-- The retention metadata of a listed object; other keys are ignored. -/
def retentionObject (object : ObjectInfo) : Option Object :=
  match split '/' object.key with
  | [_, dependency, file] => some ⟨object.key, groupOf dependency file, file, object.modified⟩
  | _ => none

/-- The keys that the manifest keeps. -/
def Manifest.current (manifest : Manifest) : List String :=
  manifestPath :: manifest.filePaths

/-- Delete what is expired and not referenced: the keys that were passed to the store, and the failure that
stopped the loop. -/
def cleanupDependencies (iteration : Iteration) (list : Except String (List ObjectInfo)) (manifest : Manifest)
    (now : Int) (delete : String → Option String) : List String × Option String :=
  match list with
  | .error message => ([], some message)
  | .ok objects =>
    runAll (fun object deleted ↦
        if object.key ∈ manifest.current then (deleted, none) else (deleted ++ [object.key], delete object.key))
      (expired iteration (objects.filterMap retentionObject) now) []

/-! ## Times -/

theorem subTime_lt_retention {later earlier : Int} :
    subTime later earlier < retention ↔ later - earlier < retention := by
  unfold subTime retention
  omega

variable {objects : List Object}

theorem old_iff {now : Int} :
    old now objects = true ↔ ∀ object ∈ objects, retention ≤ now - object.modified := by
  simp only [old, List.all_eq_true, Bool.not_eq_true', decide_eq_false_iff_not, subTime_lt_retention, not_lt]

theorem newest_append (objects : List Object) (object : Object) :
    newest (objects ++ [object]) = max (newest objects) object.modified := by
  rw [newest, newest, List.foldl_append, List.foldl_cons, List.foldl_nil, max_def_lt]

variable {object : Object}

theorem le_newest (hobject : object ∈ objects) :
    object.modified ≤ newest objects := by
  induction objects using List.reverseRecOn with
  | nil => cases hobject
  | append_singleton objects last ih =>
    rw [newest_append]
    rcases List.mem_append.mp hobject with hearlier | hlast
    · exact (ih hearlier).trans (le_max_left _ _)
    · rw [List.mem_singleton.mp hlast]
      exact le_max_right _ _

/-- From the zero time on, the newest time of a version is that of one of its objects. -/
theorem exists_newest (hsome : objects ≠ []) (htimes : ∀ object ∈ objects, 0 ≤ object.modified) :
    ∃ object ∈ objects, object.modified = newest objects := by
  induction objects using List.reverseRecOn with
  | nil => exact absurd rfl hsome
  | append_singleton objects last ih =>
    have hlast : 0 ≤ last.modified := htimes last (List.mem_append_right _ List.mem_cons_self)
    rw [newest_append]
    rcases le_total (newest objects) last.modified with hle | hle
    · exact ⟨last, List.mem_append_right _ List.mem_cons_self, (max_eq_right hle).symm⟩
    · rw [max_eq_left hle]
      by_cases hempty : objects = []
      · subst hempty
        exact ⟨last, by simp, le_antisymm hle hlast⟩
      · obtain ⟨object, hobject, hnewest⟩ :=
          ih hempty fun object hobject ↦ htimes object (List.mem_append_left _ hobject)
        exact ⟨object, List.mem_append_left _ hobject, hnewest⟩

/-! ## Groups and versions -/

/-- Whether an object belongs to a version of a group. -/
def ofVersion (group version : String) (object : Object) : Bool :=
  decide (object.group = group ∧ object.version = version)

/-- The objects of one version of a group. -/
def versionObjects (objects : List Object) (group version : String) : List Object :=
  objects.filter (ofVersion group version)

theorem mem_versionObjects {group version : String} :
    object ∈ versionObjects objects group version ↔
      object ∈ objects ∧ object.group = group ∧ object.version = version := by
  simp [versionObjects, ofVersion]

/-- The versions of a group among the objects. -/
def versionsOf (objects : List Object) (group : String) : Versions :=
  ((objects.foldl collect ∅).lookup group).getD ∅

theorem lookup_versionsOf (objects : List Object) (group version : String) :
    (versionsOf objects group).lookup version =
      if versionObjects objects group version = [] then none
      else some (versionObjects objects group version) := by
  induction objects using List.reverseRecOn with
  | nil => rfl
  | append_singleton objects last ih =>
    have hfold : versionsOf (objects ++ [last]) group =
        if last.group = group then (versionsOf objects group).insert last.version
          (((versionsOf objects group).lookup last.version).getD [] ++ [last])
        else versionsOf objects group := by
      rw [versionsOf, versionsOf, List.foldl_append, List.foldl_cons, List.foldl_nil, collect,
        GoMap.lookup_insert_eq]
      split_ifs with hgroup hother hother
      · rw [hgroup]
        rfl
      · exact absurd hgroup.symm hother
      · exact absurd hother.symm hgroup
      · rfl
    have hfilter : versionObjects (objects ++ [last]) group version =
        versionObjects objects group version ++
          if last.group = group ∧ last.version = version then [last] else [] := by
      rw [versionObjects, versionObjects, List.filter_append]
      congr 1
      by_cases hlast : last.group = group ∧ last.version = version
      · rw [if_pos hlast]
        simp [ofVersion, hlast]
      · rw [if_neg hlast]
        simpa [ofVersion] using hlast
    rw [hfold, hfilter]
    by_cases hgroup : last.group = group
    · rw [if_pos hgroup, GoMap.lookup_insert_eq]
      by_cases hversion : version = last.version
      · subst hversion
        have hgetD : ((versionsOf objects group).lookup last.version).getD [] =
            versionObjects objects group last.version := by
          rw [ih]
          split_ifs with hempty
          · exact hempty.symm
          · rfl
        rw [if_pos rfl, hgetD]
        simp [hgroup]
      · rw [if_neg hversion, ih]
        simp [Ne.symm hversion]
    · rw [if_neg hgroup, ih]
      simp [hgroup]

theorem getD_versionsOf (objects : List Object) (group version : String) :
    ((versionsOf objects group).lookup version).getD [] = versionObjects objects group version := by
  rw [lookup_versionsOf]
  split_ifs with hempty
  · exact hempty.symm
  · rfl

/-! ## Selection -/

section Selection

variable (iteration : Iteration) (objects : List Object) (now : Int)

/-- The versions of a group in the order of their newest times. -/
def names (group : String) : List String :=
  sortedVersions iteration group (versionsOf objects group)

variable {iteration objects now} {group version : String}

theorem names_perm : (names iteration objects group).Perm
    ((iteration.range ("versions of " ++ group) (versionsOf objects group)).map Prod.fst) :=
  sortSlice_perm _ _

theorem mem_names : version ∈ names iteration objects group ↔ versionObjects objects group version ≠ [] := by
  rw [names_perm.mem_iff, List.mem_map]
  constructor
  · intro hlisted
    obtain ⟨entry, hentry, rfl⟩ := hlisted
    have hlookup := Iteration.mem_range.mp hentry
    rw [lookup_versionsOf] at hlookup
    split_ifs at hlookup with hempty
    exact hempty
  · intro hsome
    refine ⟨(version, versionObjects objects group version), Iteration.mem_range.mpr ?_, rfl⟩
    rw [lookup_versionsOf, if_neg hsome]

theorem nodup_names : (names iteration objects group).Nodup :=
  names_perm.nodup_iff.mpr (iteration.nodup_range _ _)

theorem ranked_names : Ranking.Ranked (fun version ↦ newest (versionObjects objects group version))
    (names iteration objects group) := by
  have hordered := @sortSlice_pairwise String (OrderDual Int) _ _
    (fun version ↦ OrderDual.toDual (newest (versionObjects objects group version)))
    (fun left right ↦ rfl) ((iteration.range ("versions of " ++ group) (versionsOf objects group)).map Prod.fst)
  have hsame : names iteration objects group = sortSlice (fun left right ↦
      decide (newest (versionObjects objects group right) < newest (versionObjects objects group left)))
      ((iteration.range ("versions of " ++ group) (versionsOf objects group)).map Prod.fst) := by
    rw [names, sortedVersions]
    simp only [getD_versionsOf]
  rw [hsame]
  exact hordered

theorem expiredVersions_eq : expiredVersions iteration now group (versionsOf objects group) =
    ((names iteration objects group).drop 2).flatMap fun version ↦
      if old now (versionObjects objects group version) then versionObjects objects group version else [] := by
  unfold expiredVersions
  simp only [getD_versionsOf]
  split_ifs with hfew
  · have hnone : (names iteration objects group).drop 2 = [] := List.drop_eq_nil_of_le hfew
    rw [hnone]
    rfl
  · rfl

/-- What one version contributes to another is nothing. -/
theorem filter_versionObjects (other name : String) :
    (versionObjects objects other name).filter (ofVersion group version) =
      if other = group ∧ name = version then versionObjects objects group version else [] := by
  split_ifs with hsame
  · rw [hsame.1, hsame.2, versionObjects, List.filter_filter]
    simp only [Bool.and_self]
  · rw [List.filter_eq_nil_iff]
    intro object hobject hversion
    obtain ⟨_, rfl, rfl⟩ := mem_versionObjects.mp hobject
    exact hsame (by simpa [ofVersion] using hversion)

/-- One group contributes the whole version, if it is old and not among the first two. -/
theorem filter_expiredVersions (other : String) :
    (expiredVersions iteration now other (versionsOf objects other)).filter (ofVersion group version) =
      if other = group ∧ version ∈ (names iteration objects group).drop 2 ∧
          old now (versionObjects objects group version) = true then
        versionObjects objects group version
      else [] := by
  have hpart : ∀ name, (if old now (versionObjects objects other name) = true then
      versionObjects objects other name else []).filter (ofVersion group version) =
        if other = group ∧ name = version ∧ old now (versionObjects objects group version) = true then
          versionObjects objects group version else [] := by
    intro name
    by_cases hold : old now (versionObjects objects other name) = true
    · rw [if_pos hold, filter_versionObjects]
      refine if_congr ?_ rfl rfl
      constructor
      · rintro ⟨rfl, rfl⟩
        exact ⟨rfl, rfl, hold⟩
      · exact fun hthree ↦ ⟨hthree.1, hthree.2.1⟩
    · rw [if_neg hold, if_neg]
      · rfl
      · rintro ⟨rfl, rfl, hother⟩
        exact hold hother
  rw [expiredVersions_eq, List.filter_flatMap]
  simp only [hpart]
  by_cases hlater : other = group ∧ version ∈ (names iteration objects group).drop 2
  · obtain ⟨rfl, hlater⟩ := hlater
    rw [Grouping.flatMap_eq_single ((List.drop_sublist _ _).nodup nodup_names) hlater]
    · simp [hlater]
    · intro name _ hne
      rw [if_neg]
      exact fun hthree ↦ hne hthree.2.1
  · rw [if_neg, List.flatMap_eq_nil_iff]
    · intro name hname
      rw [if_neg]
      rintro ⟨rfl, rfl, _⟩
      exact hlater ⟨rfl, hname⟩
    · exact fun hthree ↦ hlater ⟨hthree.1, hthree.2.1⟩

/-- A version is selected as a whole: if it is old and two versions come before it, and not otherwise. -/
theorem filter_expired : (expired iteration objects now).filter (ofVersion group version) =
    if version ∈ (names iteration objects group).drop 2 ∧
      old now (versionObjects objects group version) = true then
      versionObjects objects group version
    else [] := by
  have hentry : ∀ entry ∈ iteration.range "groups" (objects.foldl collect ∅),
      entry.2 = versionsOf objects entry.1 := by
    intro entry hentry
    have hlookup := Iteration.mem_range.mp hentry
    rw [versionsOf, hlookup]
    rfl
  have hgroups : ((iteration.range "groups" (objects.foldl collect ∅)).map Prod.fst).Nodup :=
    iteration.nodup_range _ _
  have hexpired : expired iteration objects now =
      ((iteration.range "groups" (objects.foldl collect ∅)).map Prod.fst).flatMap fun other ↦
        expiredVersions iteration now other (versionsOf objects other) := by
    rw [expired, List.flatMap_map]
    exact List.flatMap_congr fun entry hmem ↦ by rw [hentry entry hmem]
  rw [hexpired, List.filter_flatMap]
  simp only [filter_expiredVersions]
  by_cases hlisted : group ∈ (iteration.range "groups" (objects.foldl collect ∅)).map Prod.fst
  · rw [Grouping.flatMap_eq_single hgroups hlisted]
    · simp only [true_and]
    · intro other _ hne
      rw [if_neg]
      exact fun hboth ↦ hne hboth.1
  · have hempty : versionObjects objects group version = [] := by
      by_contra hsome
      have hlookup := lookup_versionsOf objects group version
      rw [if_neg hsome, versionsOf] at hlookup
      cases hgroup : (objects.foldl collect ∅).lookup group with
      | none => simp [hgroup] at hlookup
      | some versions =>
        exact hlisted (List.mem_map.mpr ⟨(group, versions), Iteration.mem_range.mpr hgroup, rfl⟩)
    simp [hempty]

/-- A version is selected if one of its objects is. -/
def Selected (selected : List Object) (group version : String) : Prop :=
  ∃ object ∈ selected, object.group = group ∧ object.version = version

theorem selected_iff : Selected (expired iteration objects now) group version ↔
    version ∈ (names iteration objects group).drop 2 ∧
      old now (versionObjects objects group version) = true := by
  have hfilter := @filter_expired iteration objects now group version
  constructor
  · intro hselected
    obtain ⟨object, hobject, hgroup, hversion⟩ := hselected
    have hmem : object ∈ (expired iteration objects now).filter (ofVersion group version) :=
      List.mem_filter.mpr ⟨hobject, by simp [ofVersion, hgroup, hversion]⟩
    rw [hfilter] at hmem
    by_contra hnot
    rw [if_neg hnot] at hmem
    cases hmem
  · intro hlater
    rw [if_pos hlater] at hfilter
    have hsome := mem_names.mp (List.mem_of_mem_drop hlater.1)
    obtain ⟨object, hobject⟩ := List.exists_mem_of_ne_nil _ hsome
    have hexpired := List.mem_of_mem_filter (hfilter ▸ hobject)
    exact ⟨object, hexpired, (mem_versionObjects.mp hobject).2⟩

theorem mem_of_expired (hobject : object ∈ expired iteration objects now) : object ∈ objects := by
  have hmem : object ∈ (expired iteration objects now).filter (ofVersion object.group object.version) :=
    List.mem_filter.mpr ⟨hobject, by simp [ofVersion]⟩
  rw [filter_expired] at hmem
  split_ifs at hmem
  · exact (mem_versionObjects.mp hmem).1
  · cases hmem

theorem not_selected_of_first (hfirst : version ∈ (names iteration objects group).take 2) :
    ¬Selected (expired iteration objects now) group version :=
  fun hselected ↦ Ranking.not_mem_drop nodup_names hfirst (selected_iff.mp hselected).1

/-- The newest object of a version is at least as recent as that of another one. -/
def NoOlder (objects : List Object) (group version other : String) : Prop :=
  ∀ object ∈ versionObjects objects group other, ∃ newer ∈ versionObjects objects group version,
    object.modified ≤ newer.modified

theorem noOlder_of_newest_le (htimes : ∀ object ∈ objects, 0 ≤ object.modified) {other : String}
    (hlisted : versionObjects objects group version ≠ [])
    (hle : newest (versionObjects objects group other) ≤ newest (versionObjects objects group version)) :
    NoOlder objects group version other := by
  intro object hobject
  obtain ⟨newer, hnewer, hnewest⟩ :=
    exists_newest hlisted fun object hobject ↦ htimes object (mem_versionObjects.mp hobject).1
  exact ⟨newer, hnewer, ((le_newest hobject).trans hle).trans hnewest.ge⟩

/-- The versions before another one in the order are at least as recent. -/
theorem noOlder_of_first (htimes : ∀ object ∈ objects, 0 ≤ object.modified) {first : String}
    (hfirst : first ∈ (names iteration objects group).take 2)
    (hlater : version ∈ (names iteration objects group).drop 2) : NoOlder objects group first version :=
  noOlder_of_newest_le htimes (mem_names.mp (List.mem_of_mem_take hfirst))
    (ranked_names.le_of_mem hfirst hlater)

end Selection

/-! ## What is retained -/

/-- What may be selected from a listing at a time. -/
structure Retains (objects : List Object) (now : Int) (selected : List Object) : Prop where
  /-- A version is selected with all its objects or not at all. -/
  whole : ∀ group version, selected.filter (ofVersion group version) = [] ∨
    selected.filter (ofVersion group version) = versionObjects objects group version
  aged : ∀ object ∈ selected, retention ≤ now - object.modified
  /-- Two other versions of the group are kept that are at least as recent. -/
  spared : ∀ object ∈ selected, ∃ first second, first ≠ second ∧ ∀ kept ∈ [first, second],
    kept ≠ object.version ∧ versionObjects objects object.group kept ≠ [] ∧
      ¬Selected selected object.group kept ∧ NoOlder objects object.group kept object.version
  /-- All but two most recent versions of a group are selected once they are old. -/
  complete : ∀ group, ∃ first second, ∀ version, versionObjects objects group version ≠ [] →
    version ≠ first → version ≠ second →
      NoOlder objects group first version ∧ NoOlder objects group second version ∧
        ((∀ object ∈ versionObjects objects group version, retention ≤ now - object.modified) →
          Selected selected group version)

theorem retains_expired (iteration : Iteration) (now : Int) (htimes : ∀ object ∈ objects, 0 ≤ object.modified) :
    Retains objects now (expired iteration objects now) where
  whole group version := by
    rw [filter_expired]
    split_ifs
    · exact .inr rfl
    · exact .inl rfl
  aged object hobject := by
    obtain ⟨hlater, hold⟩ := selected_iff.mp ⟨object, hobject, rfl, rfl⟩
    have hmem : object ∈ (expired iteration objects now).filter (ofVersion object.group object.version) :=
      List.mem_filter.mpr ⟨hobject, by simp [ofVersion]⟩
    rw [filter_expired, if_pos ⟨hlater, hold⟩] at hmem
    exact old_iff.mp hold object hmem
  spared object hobject := by
    have hlater := (selected_iff.mp ⟨object, hobject, rfl, rfl⟩).1
    obtain ⟨first, second, htake⟩ := Ranking.exists_pair_of_mem_drop hlater
    have hnodup := @nodup_names iteration objects object.group
    refine ⟨first, second, ?_, fun kept hkept ↦ ?_⟩
    · have hpair : [first, second].Nodup := htake ▸ (List.take_sublist 2 _).nodup hnodup
      simpa using hpair
    · rw [← htake] at hkept
      refine ⟨?_, mem_names.mp (List.mem_of_mem_take hkept), not_selected_of_first hkept,
        noOlder_of_first htimes hkept hlater⟩
      rintro rfl
      exact Ranking.not_mem_drop hnodup hkept hlater
  complete group := by
    by_cases hmany : ∃ version, version ∈ (names iteration objects group).drop 2
    · obtain ⟨later, hlater⟩ := hmany
      obtain ⟨first, second, htake⟩ := Ranking.exists_pair_of_mem_drop hlater
      have hfirst : first ∈ (names iteration objects group).take 2 := by simp [htake]
      have hsecond : second ∈ (names iteration objects group).take 2 := by simp [htake]
      refine ⟨first, second, fun version hlisted hnotFirst hnotSecond ↦ ?_⟩
      have hrest : version ∈ (names iteration objects group).drop 2 :=
        Ranking.mem_drop_of_not_mem_take (mem_names.mpr hlisted) (by simp [htake, hnotFirst, hnotSecond])
      exact ⟨noOlder_of_first htimes hfirst hrest, noOlder_of_first htimes hsecond hrest,
        fun haged ↦ selected_iff.mpr ⟨hrest, old_iff.mpr haged⟩⟩
    · -- at most two versions: both are exempt
      have hnone : (names iteration objects group).drop 2 = [] :=
        List.eq_nil_iff_forall_not_mem.mpr fun version hversion ↦ hmany ⟨version, hversion⟩
      obtain ⟨first, second, hboth⟩ : ∃ first second, ∀ version ∈ names iteration objects group,
          version = first ∨ version = second := by
        cases hnames : names iteration objects group with
        | nil => exact ⟨"", "", by simp⟩
        | cons first rest =>
          cases rest with
          | nil => exact ⟨first, first, by simp⟩
          | cons second rest =>
            rw [hnames] at hnone
            have hrest : rest = [] := hnone
            exact ⟨first, second, by simp [hrest]⟩
      refine ⟨first, second, fun version hlisted hnotFirst hnotSecond ↦ ?_⟩
      rcases hboth version (mem_names.mpr hlisted) with hsame | hsame
      · exact absurd hsame hnotFirst
      · exact absurd hsame hnotSecond

/-- Two selections from one listing differ only in versions whose newest times are equal. -/
def Interchanges (objects : List Object) (now : Int) (selected others : List Object) : Prop :=
  ∀ group version, Selected selected group version → ¬Selected others group version →
    ∃ other, other ≠ version ∧ versionObjects objects group other ≠ [] ∧ ¬Selected selected group other ∧
      NoOlder objects group other version ∧ NoOlder objects group version other ∧
        ((∀ object ∈ versionObjects objects group other, retention ≤ now - object.modified) →
          Selected others group other)

theorem interchanges_expired (iteration second : Iteration) (now : Int)
    (htimes : ∀ object ∈ objects, 0 ≤ object.modified) :
    Interchanges objects now (expired iteration objects now) (expired second objects now) := by
  intro group version hselected hnot
  obtain ⟨hdropped, hold⟩ := selected_iff.mp hselected
  have hlisted := mem_names.mp (List.mem_of_mem_drop hdropped)
  have hperm : (names iteration objects group).Perm (names second objects group) := by
    rw [List.perm_ext_iff_of_nodup nodup_names nodup_names]
    intro name
    rw [mem_names, mem_names]
  have hkept : version ∈ (names second objects group).take 2 := by
    by_contra hmissing
    exact hnot (selected_iff.mpr ⟨Ranking.mem_drop_of_not_mem_take (mem_names.mpr hlisted) hmissing, hold⟩)
  obtain ⟨other, hother, hlater, hkey⟩ := ranked_names.exchange ranked_names hperm nodup_names hdropped hkept
  have hotherListed := mem_names.mp (List.mem_of_mem_take hother)
  refine ⟨other, ?_, hotherListed, not_selected_of_first hother,
    noOlder_of_newest_le htimes hotherListed hkey.ge, noOlder_of_newest_le htimes hlisted hkey.le,
    fun haged ↦ selected_iff.mpr ⟨hlater, old_iff.mpr haged⟩⟩
  rintro rfl
  exact Ranking.not_mem_drop nodup_names hkept hlater

/-! ## What is deleted -/

/-- The architectures that a file name mentions. -/
def architectures (file : String) : List String :=
  ["amd64", "arm64"].filter (mentions file)

/-- A group stands for one dependency and the architectures of its files. -/
theorem groupOf_inj {dependency other file second : String} (hdependency : '/' ∉ dependency.toList)
    (hother : '/' ∉ other.toList) :
    groupOf dependency file = groupOf other second ↔
      dependency = other ∧ architectures file = architectures second := by
  have hjoin : ∀ name file, groupOf name file = join '/' (name :: architectures file) := by
    intro name file
    apply String.toList_injective
    cases hfirst : mentions file "amd64" <;> cases hlast : mentions file "arm64" <;>
      simp [groupOf, architectures, join, List.intercalate, hfirst, hlast]
  have hslash : ∀ name file, '/' ∉ name.toList → ∀ part ∈ name :: architectures file, '/' ∉ part.toList := by
    intro name file hname part hpart
    rcases List.mem_cons.mp hpart with rfl | harchitecture
    · exact hname
    · have hone := List.mem_of_mem_filter harchitecture
      rcases List.mem_pair.mp hone with rfl | rfl <;> decide
  constructor
  · intro hgroup
    rw [hjoin, hjoin] at hgroup
    have hsplit := congrArg (split '/') hgroup
    rw [split_join (by simp) (hslash dependency file hdependency),
      split_join (by simp) (hslash other second hother)] at hsplit
    exact List.cons.inj hsplit
  · rintro ⟨rfl, hsame⟩
    rw [hjoin, hjoin, hsame]

/-- What a clean-up of a listing may delete. -/
structure Spares (iteration : Iteration) (listed : List ObjectInfo) (manifest : Manifest) (now : Int)
    (deleted : List String) : Prop where
  /-- Only expired objects are deleted. -/
  selected : ∀ key ∈ deleted, ∃ object ∈ expired iteration (listed.filterMap retentionObject) now,
    object.key = key
  /-- The objects of a group have one dependency and the same architectures. -/
  grouped : ∀ first second left right, retentionObject first = some left → retentionObject second = some right →
    (left.group = right.group ↔ (split '/' first.key)[1]? = (split '/' second.key)[1]? ∧
      architectures left.version = architectures right.version)
  /-- The manifest and its dependency files stay. -/
  current : ∀ path ∈ manifest.current, path ∉ deleted
  /-- The images of a valid manifest are not even listed. -/
  images : manifest.validate = .ok () → (∀ object ∈ listed, hasPrefix object.key "dependencies/" = true) →
    ∀ path ∈ manifest.imagePaths, path ∉ deleted

theorem retentionObject_eq_some {info : ObjectInfo} (hobject : retentionObject info = some object) :
    ∃ root dependency, split '/' info.key = [root, dependency, object.version] ∧
      '/' ∉ dependency.toList ∧ object.group = groupOf dependency object.version ∧ object.key = info.key := by
  unfold retentionObject at hobject
  split at hobject
  · next root dependency file hsplit =>
    cases hobject
    have hpart : dependency ∈ split '/' info.key := by simp [hsplit]
    exact ⟨root, dependency, hsplit, not_mem_split hpart, rfl, rfl⟩
  · cases hobject

/-- The loop deletes expired objects that the manifest does not keep. -/
theorem deleted_of_cleanup {iteration : Iteration} {listed : List ObjectInfo} {manifest : Manifest} {now : Int}
    {delete : String → Option String} {key : String}
    (hkey : key ∈ (cleanupDependencies iteration (.ok listed) manifest now delete).1) :
    key ∉ manifest.current ∧
      ∃ object ∈ expired iteration (listed.filterMap retentionObject) now, object.key = key := by
  let Inv (deleted : List String) : Prop := ∀ key ∈ deleted, key ∉ manifest.current ∧
    ∃ object ∈ expired iteration (listed.filterMap retentionObject) now, object.key = key
  suffices hall : Inv (cleanupDependencies iteration (.ok listed) manifest now delete).1 from hall key hkey
  unfold cleanupDependencies
  apply runAll_invariant
  · intro object hobject deleted hdeleted
    split_ifs with hcurrent
    · exact hdeleted
    · intro other hother
      rcases List.mem_append.mp hother with hearlier | hlast
      · exact hdeleted other hearlier
      · rw [List.mem_singleton.mp hlast]
        exact ⟨hcurrent, object, hobject, rfl⟩
  · intro other hother
    cases hother

theorem hasPrefix_image {manifest : Manifest} (hvalid : manifest.validate = .ok ()) {path : String}
    (hpath : path ∈ manifest.imagePaths) : hasPrefix path "mirror/" = true := by
  unfold Manifest.validate at hvalid
  split_ifs at hvalid with hversion
  cases hdependencies : manifest.dependencies with
  | none => simp [hdependencies] at hvalid
  | some dependencies =>
    cases himages : manifest.images with
    | none => simp [hdependencies, himages] at hvalid
    | some images =>
      simp only [hdependencies, himages] at hvalid
      obtain ⟨_, _, hchecked⟩ := bind_eq_ok.mp hvalid
      have hall := @foldlM_success _ _ _ (fun _ entry ↦ validateImage entry)
        (fun done _ ↦ ∀ entry ∈ done, validateImage entry = .ok ())
        (fun done item state next hdone hitem entry hentry ↦ by
          rcases List.mem_append.mp hentry with hearlier | hlast
          · exact hdone entry hearlier
          · rw [List.mem_singleton.mp hlast]
            exact hitem) images.pairs [] () () (by simp) hchecked
      rw [Manifest.imagePaths, himages] at hpath
      obtain ⟨entry, hentry, rfl⟩ := List.mem_map.mp hpath
      have himage := hall entry hentry
      unfold validateImage at himage
      split_ifs at himage with hbad
      simp only [not_or, Bool.not_eq_true', Bool.not_eq_false] at hbad
      have hobject : validObject entry.2.path "mirror/" = true := by simpa using hbad.2.2.2.1
      simp only [validObject, Bool.and_eq_true] at hobject
      exact hobject.1.1

theorem spares_cleanup (iteration : Iteration) (listed : List ObjectInfo) (manifest : Manifest) (now : Int)
    (delete : String → Option String) :
    Spares iteration listed manifest now
      (cleanupDependencies iteration (.ok listed) manifest now delete).1 where
  selected key hkey := (deleted_of_cleanup hkey).2
  grouped first second left right hleft hright := by
    obtain ⟨_, dependency, hfirst, hdependency, hgroup, _⟩ := retentionObject_eq_some hleft
    obtain ⟨_, other, hsecond, hother, hsame, _⟩ := retentionObject_eq_some hright
    rw [hgroup, hsame, groupOf_inj hdependency hother, hfirst, hsecond]
    simp
  current path hpath hdeleted := (deleted_of_cleanup hdeleted).1 hpath
  images hvalid hlisted path hpath hdeleted := by
    obtain ⟨_, object, hobject, rfl⟩ := deleted_of_cleanup hdeleted
    obtain ⟨info, hinfo, hsome⟩ := List.mem_filterMap.mp (mem_of_expired hobject)
    obtain ⟨_, _, _, _, _, hkey⟩ := retentionObject_eq_some hsome
    obtain ⟨rest, hrest⟩ := hasPrefix_iff.mp (hlisted info hinfo)
    obtain ⟨other, hother⟩ := hasPrefix_iff.mp (hasPrefix_image hvalid hpath)
    have hhead := congrArg (fun text : String ↦ text.toList.head?) (hrest.symm.trans (hkey.symm.trans hother))
    simp at hhead

/-- Retention deletes only what is safe, for every listing of times from the zero time on. -/
theorem retention_safe (iteration second : Iteration) (objects : List Object) (now : Int)
    (htimes : ∀ object ∈ objects, 0 ≤ object.modified) (listed : List ObjectInfo) (manifest : Manifest)
    (delete : String → Option String) :
    Retains objects now (expired iteration objects now) ∧
      Interchanges objects now (expired iteration objects now) (expired second objects now) ∧
      Spares iteration listed manifest now (cleanupDependencies iteration (.ok listed) manifest now delete).1 :=
  ⟨retains_expired iteration now htimes, interchanges_expired iteration second now htimes,
    spares_cleanup iteration listed manifest now delete⟩

/-- Maps are visited in the order of insertion. -/
def inOrder : Iteration where
  order _ keys := keys
  perm _ keys := .refl keys

/-- Four versions of one dependency, each listed with one file. -/
def fourVersions : List ObjectInfo :=
  [⟨"dependencies/cni/a", 1⟩, ⟨"dependencies/cni/b", 2⟩, ⟨"dependencies/cni/c", 3⟩, ⟨"dependencies/cni/d", 4⟩]

/-- A manifest that still references the oldest of them, and an image. -/
def olderManifest : Manifest where
  version := 1
  dependencies := some (.ofPairs [("cni", .ofPairs [("amd64",
    ⟨"1", "https://cni", "dependencies/cni/a", "sha256:" ++ String.ofList (.replicate 64 '0'), 1⟩)])])
  images := some (.ofPairs [("pause",
    ⟨"1", "pause", "mirror/pause", "sha256:" ++ String.ofList (.replicate 64 '0'), 1⟩)])

/-- Of four old versions two are selected; the manifest keeps one of them, so that one file is deleted. -/
theorem retention_safe_four :
    let objects := fourVersions.filterMap retentionObject
    let selected := expired inOrder objects (retention + 4)
    let cleanup := cleanupDependencies inOrder (.ok fourVersions) olderManifest (retention + 4) fun _ ↦ none
    olderManifest.validate.isOk = true ∧ selected.map Object.version = ["b", "a"] ∧
      cleanup = (["dependencies/cni/b"], none) ∧
      Retains objects (retention + 4) selected ∧ Interchanges objects (retention + 4) selected selected ∧
      Spares inOrder fourVersions olderManifest (retention + 4) cleanup.1 :=
  ⟨by decide, by decide, by decide, retention_safe inOrder inOrder (fourVersions.filterMap retentionObject)
    (retention + 4) (by decide) fourVersions olderManifest fun _ ↦ none⟩

end Podmin.Cli.Retention
