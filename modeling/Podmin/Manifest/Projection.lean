import Podmin.Manifest.Accepted

/-!
# The transformation is a projection

What `transformPod` changes, exactly: each image becomes the normalized reference of the override chosen for its
container, an empty pull policy becomes `Always`, and the revision, the identity volume and the identity mounts
are put in place. A second run finds everything in place.
-/

namespace Podmin.Manifest

open Foundation Fallible Registry

variable {container : Container} {images : List String} {entries : List (String × String)} {spec : PodSpec}
  {parser : TagParser}

/-! ## The identity mount and volume -/

/-- The mounts that touch the identity are at most the identity mount. -/
theorem identityMounted_eq_ok {found result : Bool} {mounts : List VolumeMount}
    (hmounted : identityMounted found mounts = .ok result) :
    mounts.filter touchesIdentity = (if found = result then [] else [identityMount]) ∧
      (found = true → result = true) := by
  induction mounts generalizing found with
  | nil =>
    cases hmounted
    simp
  | cons mount mounts ih =>
    unfold identityMounted at hmounted
    split at hmounted
    · next huntouched =>
      rw [List.filter_cons_of_neg (by simpa using huntouched)]
      exact ih hmounted
    · next htouched =>
      split at hmounted
      · cases hmounted
      · next hfirst =>
        obtain ⟨hrest, hresult⟩ := ih hmounted
        have htrue := hresult rfl
        simp only [not_or, Bool.not_eq_true, ne_eq, not_not] at hfirst
        rw [List.filter_cons_of_pos (by simpa using htouched), hrest, htrue, hfirst.1, hfirst.2]
        simp

theorem touchesIdentity_identityMount : touchesIdentity identityMount = true := by decide

/-- A container with the identity in place: one mount touches it, the identity mount. -/
def Mounted (container : Container) : Prop :=
  container.volumeMounts.filter touchesIdentity = [identityMount]

theorem mountIdentity_mounted {result : Container} (hmount : mountIdentity container = .ok result) :
    Mounted result ∧ (result = container ∨
      result = { container with volumeMounts := container.volumeMounts ++ [identityMount] }) := by
  obtain ⟨found, hfound, hresult⟩ := bind_eq_ok.mp hmount
  cases hresult
  have hfilter := (identityMounted_eq_ok hfound).1
  cases found with
  | true => exact ⟨hfilter, .inl rfl⟩
  | false =>
    refine ⟨?_, .inr rfl⟩
    rw [if_pos rfl] at hfilter
    simp [Mounted, List.filter_append, hfilter, touchesIdentity_identityMount]

def identityVolumeOf (pod : String) : Volume :=
  ⟨identityVolumeName, identitySource pod⟩

def Volume.isIdentity (volume : Volume) : Bool :=
  volume.name == identityVolumeName

theorem identityVolume_eq_ok {found result : Option Volume} {volumes : List Volume}
    (hscan : identityVolume found volumes = .ok result) :
    found.toList ++ volumes.filter Volume.isIdentity = result.toList ∧
      ∀ volume ∈ volumes, volume.isIdentity = false → volume.Plain := by
  induction volumes generalizing found with
  | nil =>
    cases hscan
    simp
  | cons volume volumes ih =>
    by_cases hidentity : volume.name = identityVolumeName
    · have hself : volume.isIdentity = true := beq_iff_eq.mpr hidentity
      unfold identityVolume at hscan
      rw [if_pos hidentity] at hscan
      cases found with
      | some _ => cases hscan
      | none =>
        obtain ⟨hfilter, hplain⟩ := ih hscan
        rw [List.filter_cons_of_pos hself]
        exact ⟨hfilter, List.forall_mem_cons.mpr ⟨by simp [hself], hplain⟩⟩
    · have hother : volume.isIdentity = false := beq_eq_false_iff_ne.mpr hidentity
      have hfirst : volume.Plain := by
        refine ⟨hidentity, fun hostPath hsource ↦ ?_⟩
        unfold identityVolume at hscan
        rw [if_neg hidentity, hsource] at hscan
        cases hreserved : reservedHostPath hostPath.path with
        | true => simp [hreserved] at hscan
        | false => rfl
      rw [identityVolume_cons_plain hfirst] at hscan
      obtain ⟨hfilter, hplain⟩ := ih hscan
      rw [List.filter_cons_of_neg (by simp [hother])]
      exact ⟨hfilter, List.forall_mem_cons.mpr ⟨fun _ ↦ hfirst, hplain⟩⟩

/-- The identity volume is there once, and no other volume reaches into the runtime root. -/
structure Provided (volumes : List Volume) (pod : String) : Prop where
  once : volumes.filter Volume.isIdentity = [identityVolumeOf pod]
  plain : ∀ volume ∈ volumes, volume.isIdentity = false → volume.Plain

theorem addIdentityVolume_provided {volumes result : List Volume} {pod : String}
    (hvolumes : addIdentityVolume volumes pod = .ok result) :
    Provided result pod ∧ (result = volumes ∨ result = volumes ++ [identityVolumeOf pod]) := by
  obtain ⟨found, hfound, hresult⟩ := bind_eq_ok.mp hvolumes
  obtain ⟨hfilter, hplain⟩ := identityVolume_eq_ok hfound
  rw [Option.toList_none, List.nil_append] at hfilter
  cases found with
  | none =>
    cases hresult
    refine ⟨⟨?_, ?_⟩, .inr rfl⟩
    · rw [List.filter_append, hfilter]
      rfl
    · intro volume hvolume hother
      rcases List.mem_append.mp hvolume with hbefore | hadded
      · exact hplain volume hbefore hother
      · rw [List.mem_singleton.mp hadded] at hother
        cases hother
  | some volume =>
    have hsource : volume.source = identitySource pod := by
      by_contra hother
      simp [hother] at hresult
    have hname : volume.name = identityVolumeName := by
      have hmem : volume ∈ volumes.filter Volume.isIdentity := by simp [hfilter]
      exact beq_iff_eq.mp (List.mem_filter.mp hmem).2
    simp only [hsource, ne_eq, not_true_eq_false, if_false, Except.ok.injEq] at hresult
    cases hresult
    refine ⟨⟨?_, hplain⟩, .inl rfl⟩
    rw [hfilter, identityVolumeOf, ← hname, ← hsource]
    rfl

/-! ## The override of a container -/

/-- The two sides of a named override. -/
def overrideName (raw : String) : String :=
  String.ofList (raw.toList.takeWhile (· ≠ '='))

def overrideImage (raw : String) : String :=
  String.ofList ((raw.toList.dropWhile (· ≠ '=')).drop 1)

/-- The image given for a container by name. -/
def namedOverride (images : List String) (name : String) : Option String :=
  (images.find? fun raw ↦ raw.toList.contains '=' && overrideName raw == name).map overrideImage

/-- The image given without a name. -/
def bareOverride (images : List String) : Option String :=
  images.find? fun raw ↦ !raw.toList.contains '='

/-- The image a container is to have, before normalization: its named override, else the bare one if it is
the only regular container, else its own. -/
def chosenImage (spec : PodSpec) (images : List String) (container : Container) : String :=
  match namedOverride images container.name with
  | some image => image
  | none =>
    match bareOverride images with
    | some image => if spec.containers = [container] then image else container.image
    | none => container.image

theorem namedOverride_concat (images : List String) (raw name : String) :
    namedOverride (images ++ [raw]) name = (namedOverride images name).or
      (if raw.toList.contains '=' ∧ overrideName raw = name then some (overrideImage raw) else none) := by
  rw [namedOverride, List.find?_append, Option.map_or, List.find?_singleton, ← namedOverride]
  congr 1
  by_cases hraw : raw.toList.contains '=' ∧ overrideName raw = name
  · simp [hraw.2]
  · rw [if_neg hraw, if_neg (by simpa using hraw)]
    rfl

theorem bareOverride_concat (images : List String) (raw : String) :
    bareOverride (images ++ [raw]) =
      (bareOverride images).or (if raw.toList.contains '=' then none else some raw) := by
  rw [bareOverride, List.find?_append, List.find?_singleton, ← bareOverride]
  cases raw.toList.contains '=' <;> rfl

/-- What has been read of the `--image` values. -/
structure ReadOverrides (images : List String) (state : String × GoMap String String) : Prop where
  bare : bareOverride images = if state.1 = "" then none else some state.1
  named : ∀ name, namedOverride images name = state.2.lookup name
  nonempty : ∀ name image, state.2.lookup name = some image → image ≠ ""

theorem readOverride_reads {raw : String} {state next : String × GoMap String String}
    (hstate : ReadOverrides images state) (hread : readOverride state raw = .ok next) :
    ReadOverrides (images ++ [raw]) next := by
  obtain ⟨bare, named⟩ := state
  unfold readOverride at hread
  dsimp only at hread
  split at hread
  · next hnamed =>
    rw [← overrideName, ← overrideImage] at hread
    split at hread
    · cases hread
    · next hvalid =>
      cases hread
      simp only [not_or, ne_eq, not_not] at hvalid
      obtain ⟨_, himage, hfresh⟩ := hvalid
      -- nothing was given for this name before
      have hnone : named.lookup (overrideName raw) = none := by
        cases hlookup : named.lookup (overrideName raw) with
        | none => rfl
        | some image =>
          rw [hlookup] at hfresh
          exact absurd hfresh (hstate.nonempty _ image hlookup)
      constructor
      · rw [bareOverride_concat, hstate.bare, hnamed]
        simp
      · intro name
        rw [namedOverride_concat, hstate.named, GoMap.lookup_insert_eq]
        by_cases hname : name = overrideName raw
        · rw [if_pos ⟨hnamed, hname.symm⟩, if_pos hname, hname, hnone]
          rfl
        · rw [if_neg (fun hboth ↦ hname hboth.2.symm), if_neg hname, Option.or_none]
      · intro name image hlookup
        rw [GoMap.lookup_insert_eq] at hlookup
        split at hlookup
        · cases hlookup
          exact himage
        · exact hstate.nonempty name image hlookup
  · next hbare =>
    split at hread
    · cases hread
    · next hvalid =>
      cases hread
      simp only [not_or, ne_eq, not_not] at hvalid
      obtain ⟨rfl, hraw⟩ := hvalid
      constructor
      · rw [bareOverride_concat, hstate.bare, if_pos rfl, if_neg hbare, if_neg hraw]
        rfl
      · intro name
        rw [namedOverride_concat, hstate.named, if_neg (fun hboth ↦ hbare hboth.1), Option.or_none]
      · exact hstate.nonempty

theorem readOverrides_of_foldlM {state : String × GoMap String String}
    (hread : images.foldlM readOverride ("", ∅) = .ok state) : ReadOverrides images state := by
  have hstart : ReadOverrides [] ("", ∅) := by
    constructor
    · rfl
    · intro name
      simp [namedOverride]
    · intro name image hlookup
      simp at hlookup
  exact foldlM_success (fun _ _ _ _ hstate hnext ↦ readOverride_reads hstate hnext) hstart hread

/-! ## Applying the overrides -/

theorem checkNames_eq_ok {seen : List String} {containers : List Container} :
    checkNames seen containers = .ok () ↔ (∀ container ∈ containers, validID container.name = true) ∧
      (containers.map Container.name).Nodup ∧ ∀ container ∈ containers, container.name ∉ seen := by
  refine distinct_eq_ok (fun _ ↦ rfl) fun seen container containers ↦ ?_
  rw [checkNames]
  split_ifs with hname hseen
  · simp_all
  · simp [hseen]
  · simp_all

/-- Set the images of several containers by name. -/
def setImages (entries : List (String × String)) (container : Container) : Container :=
  entries.foldl (fun container entry ↦ setImage entry.1 entry.2 container) container

theorem setImages_of_not_mem (hfree : container.name ∉ entries.map Prod.fst) :
    setImages entries container = container := by
  induction entries with
  | nil => rfl
  | cons entry entries ih =>
    rw [List.map_cons, List.mem_cons, not_or] at hfree
    rw [setImages, List.foldl_cons, setImage, if_neg hfree.1]
    exact ih hfree.2

theorem setImages_of_mem (hnodup : (entries.map Prod.fst).Nodup) {image : String}
    (hentry : (container.name, image) ∈ entries) :
    setImages entries container = { container with image := image } := by
  induction entries with
  | nil => cases hentry
  | cons entry entries ih =>
    obtain ⟨hfresh, hrest⟩ := List.nodup_cons.mp hnodup
    rw [setImages, List.foldl_cons, setImage]
    rcases List.mem_cons.mp hentry with rfl | hlater
    · rw [if_pos rfl]
      exact setImages_of_not_mem hfresh
    · have hother : container.name ≠ entry.1 := by
        intro hsame
        exact hfresh (hsame ▸ List.mem_map.mpr ⟨_, hlater, rfl⟩)
      rw [if_neg hother]
      exact ih hrest hlater

theorem foldlM_overrideNamed {result : PodSpec} (hfold : entries.foldlM overrideNamed spec = .ok result) :
    result = spec.mapContainers (setImages entries) := by
  have hstep : ∀ (done : List (String × String)) entry (state next : PodSpec),
      state = spec.mapContainers (setImages done) → overrideNamed state entry = .ok next →
        next = spec.mapContainers (setImages (done ++ [entry])) := by
    intro done entry state next hstate hnext
    unfold overrideNamed at hnext
    split at hnext
    · cases hnext
      rw [hstate]
      simp [PodSpec.mapContainers, setImages, Function.comp_def]
    · cases hnext
  have hstart : spec = spec.mapContainers (setImages []) := by
    have hid : setImages [] = id := rfl
    rw [PodSpec.mapContainers, hid, List.map_id, List.map_id]
  exact @foldlM_success _ _ _ _ (fun done state ↦ state = spec.mapContainers (setImages done)) hstep _ [] _ _
    hstart hfold

theorem mapContainers_congr {change other : Container → Container}
    (hsame : ∀ container ∈ spec.allContainers, change container = other container) :
    spec.mapContainers change = spec.mapContainers other := by
  rw [PodSpec.mapContainers, PodSpec.mapContainers]
  congr 1
  · exact List.map_congr_left fun container hmem ↦ hsame container (List.mem_append_left _ hmem)
  · exact List.map_congr_left fun container hmem ↦ hsame container (List.mem_append_right _ hmem)

/-- Overrides change the images to the chosen ones, and nothing else. -/
theorem overrides_eq {result : PodSpec} (hnames : (spec.allContainers.map Container.name).Nodup)
    (hoverrides : overrides spec images = .ok result) :
    result = spec.mapContainers fun container ↦
      { container with image := chosenImage spec images container } := by
  obtain ⟨⟨bare, named⟩, hread, happlied⟩ := bind_eq_ok.mp hoverrides
  have hreads := readOverrides_of_foldlM hread
  dsimp only at happlied
  by_cases hbare : bare = ""
  · rw [if_neg (fun hboth ↦ hboth.1 hbare), if_neg (fun hsome ↦ hsome hbare)] at happlied
    rw [foldlM_overrideNamed happlied]
    apply mapContainers_congr
    intro container _
    rw [chosenImage, hreads.named, hreads.bare, if_pos hbare]
    dsimp only
    cases hlookup : named.lookup container.name with
    | some image =>
      exact setImages_of_mem named.nodup_pairs_keys (GoMap.mem_pairs.mpr hlookup)
    | none =>
      apply setImages_of_not_mem
      intro hmem
      obtain ⟨⟨_, image⟩, hentry, rfl⟩ := List.mem_map.mp hmem
      rw [GoMap.mem_pairs.mp hentry] at hlookup
      cases hlookup
  · split at happlied
    · cases happlied
    · next hboth =>
      have hnone : ∀ name, namedOverride images name = none := by
        intro name
        have hempty : named.pairs = [] := by simpa [hbare] using hboth
        rw [hreads.named]
        cases hlookup : named.lookup name with
        | none => rfl
        | some image =>
          have hentry := GoMap.mem_pairs.mpr hlookup
          rw [hempty] at hentry
          cases hentry
      split at happlied
      · next regular hregular =>
        cases happlied
        apply mapContainers_congr
        intro container hcontainer
        -- names differ, so the container named like the regular one is that one
        have hself : container.name = regular.name ↔ spec.containers = [container] := by
          rw [hregular]
          constructor
          · intro hname
            have hmem : regular ∈ spec.allContainers := by simp [PodSpec.allContainers, hregular]
            rw [List.inj_on_of_nodup_map hnames hcontainer hmem hname]
          · intro hsame
            rw [(List.cons.inj hsame).1]
        rw [chosenImage, hnone, hreads.bare, if_neg hbare]
        dsimp only
        rw [setImage]
        by_cases hname : container.name = regular.name
        · rw [if_pos hname, if_pos (hself.mp hname)]
        · rw [if_neg hname, if_neg (fun hsame ↦ hname (hself.mpr hsame))]
      · cases happlied

/-! ## What is changed -/

/-- What becomes of a container. -/
structure Revised (parser : TagParser) (spec : PodSpec) (images : List String) (container result : Container) :
    Prop where
  image : ∃ reference, parse parser (chosenImage spec images container) = .ok reference ∧
    result.image = reference.name
  mounted : Mounted result
  mounts : result.volumeMounts = container.volumeMounts ∨
    result.volumeMounts = container.volumeMounts ++ [identityMount]
  only : result = { container with
    image := result.image
    imagePullPolicy := if container.imagePullPolicy = "" then "Always" else container.imagePullPolicy
    volumeMounts := result.volumeMounts }

/-- What becomes of a Pod. -/
structure Projects (parser : TagParser) (pod : Pod) (images : List String) (revision : String) (result : Pod) :
    Prop where
  fixed : transformPod parser result [] "" = .ok result
  containers : List.Forall₂ (Revised parser pod.spec images) pod.spec.containers result.spec.containers
  initContainers :
    List.Forall₂ (Revised parser pod.spec images) pod.spec.initContainers result.spec.initContainers
  provided : Provided result.spec.volumes pod.name
  volumes : result.spec.volumes = pod.spec.volumes ∨
    result.spec.volumes = pod.spec.volumes ++ [identityVolumeOf pod.name]
  only : result = { pod with
    annotations :=
      if revision ≠ "" then pod.annotations.insert "podmin.dev/revision" revision else pod.annotations
    spec := { pod.spec with
      containers := result.spec.containers
      initContainers := result.spec.initContainers
      volumes := result.spec.volumes } }

theorem revised_of_steps {normalized result : Container}
    (hnormalize : normalizeImage parser
      { container with image := chosenImage spec images container } = .ok normalized)
    (hmount : mountIdentity normalized = .ok result) : Revised parser spec images container result := by
  obtain ⟨_, reference, hparse, rfl⟩ := normalizeImage_eq_ok.mp hnormalize
  obtain ⟨hmounted, rfl | rfl⟩ := mountIdentity_mounted hmount
  · exact ⟨⟨reference, hparse, rfl⟩, hmounted, .inl rfl, rfl⟩
  · exact ⟨⟨reference, hparse, rfl⟩, hmounted, .inr rfl, rfl⟩

theorem revised_of_mapM {containers normalized results : List Container}
    (hnormalize : (containers.map fun container ↦
      { container with image := chosenImage spec images container }).mapM (normalizeImage parser) =
        .ok normalized)
    (hmount : normalized.mapM mountIdentity = .ok results) :
    List.Forall₂ (Revised parser spec images) containers results := by
  have hfirst := List.forall₂_map_left_iff.mp (mapM_eq_ok.mp hnormalize)
  exact forall₂_comp hfirst (mapM_eq_ok.mp hmount) fun _ _ _ hone htwo ↦ revised_of_steps hone htwo

/-- In a transformed Pod the identity is in place. -/
theorem inPlace_of_transformPod {pod result : Pod} {revision : String}
    (htransform : transformPod parser pod images revision = .ok result) :
    Provided result.spec.volumes pod.name ∧ ∀ container ∈ result.spec.allContainers, Mounted container := by
  obtain ⟨_, _, _, overridden, normalized, normalizedInit, spec, _, _, _, hinject, hresult⟩ :=
    transformPod_eq_ok.mp htransform
  obtain ⟨volumes, containers, initContainers, hvolumes, hmount, hmountInit, hspec⟩ :=
    injectIdentity_eq_ok.mp hinject
  have hresultSpec : result.spec = spec := by rw [hresult]
  rw [hresultSpec, hspec]
  refine ⟨(addIdentityVolume_provided hvolumes).1, ?_⟩
  intro container hcontainer
  have hmounted := List.rel_append (mapM_eq_ok.mp hmount) (mapM_eq_ok.mp hmountInit)
  obtain ⟨before, _, hstep⟩ := forall₂_mem_right hmounted hcontainer
  exact (mountIdentity_mounted hstep).1

/-- A transformed Pod is a fixed point, with the images chosen by the overrides, and differs from the Pod in
nothing but what the transformation is for. -/
theorem transformPod_projects (parser : TagParser) (pod result : Pod) (images : List String)
    (revision : String) (htransform : transformPod parser pod images revision = .ok result) :
    Projects parser pod images revision result := by
  have hfixed := (transformed_of_transformPod htransform).fixed result.annotations
  obtain ⟨_, _, hnames, overridden, normalized, normalizedInit, spec, hoverrides, hcontainers, hinit, hinject,
    hresult⟩ := transformPod_eq_ok.mp htransform
  obtain ⟨volumes, containers, initContainers, hvolumes, hmount, hmountInit, hspec⟩ :=
    injectIdentity_eq_ok.mp hinject
  have hoverridden := overrides_eq (checkNames_eq_ok.mp hnames).2.1 hoverrides
  rw [hoverridden] at hcontainers hinit hvolumes hspec
  have hresultSpec : result.spec = { pod.spec with containers, initContainers, volumes } := by
    rw [hresult]
    exact hspec
  constructor
  · exact hfixed
  · rw [hresultSpec]
    exact revised_of_mapM hcontainers hmount
  · rw [hresultSpec]
    exact revised_of_mapM hinit hmountInit
  · exact (inPlace_of_transformPod htransform).1
  · rw [hresultSpec]
    exact (addIdentityVolume_provided hvolumes).2
  · rw [hresultSpec, hresult, hspec]
    by_cases hrevision : revision = ""
    · simp [hrevision, PodSpec.mapContainers]
    · simp [hrevision, PodSpec.mapContainers, Pod.annotate]

/-! ## A Pod with a named override -/

def siteTag : Tag := ⟨host, "apps/site", "v2"⟩

def siteParser : TagParser := .single siteTag (by decide)

/-- The regular container has an image of its own that is overridden; the init container keeps its own. -/
def sitePod : Pod where
  name := "site"
  spec :=
    { containers := [{ name := "main", image := "site:v1", imagePullPolicy := "Never" }]
      initContainers := [{ name := "setup", image := "site:v2" }] }

def siteResult : Pod where
  name := "site"
  annotations := (∅ : GoMap String String).insert "podmin.dev/revision" "7"
  spec :=
    { containers := [{ name := "main", image := siteTag.name, imagePullPolicy := "Never"
                       volumeMounts := [identityMount] }]
      initContainers := [{ name := "setup", image := siteTag.name, imagePullPolicy := "Always"
                           volumeMounts := [identityMount] }]
      volumes := [identityVolumeOf "site"] }

theorem transformPod_projects_site :
    transformPod siteParser sitePod ["main=apps/site:v2"] "7" = .ok siteResult ∧
      Projects siteParser sitePod ["main=apps/site:v2"] "7" siteResult := by
  have htransform : transformPod siteParser sitePod ["main=apps/site:v2"] "7" = .ok siteResult := rfl
  exact ⟨htransform, transformPod_projects siteParser sitePod siteResult _ "7" htransform⟩

end Podmin.Manifest
