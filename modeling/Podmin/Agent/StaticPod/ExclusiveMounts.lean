import Podmin.Agent.StaticPod.Acceptance
import Podmin.Agent.StaticPod.CleanCalls
import Podmin.Foundation.PathContainment
import Podmin.Manifest.Projection

/-!
# Exclusive mounts

The identity and the declared secrets are mounted by Podmin alone. Two injectors see to it, each with a test of
its own: the one for the identity compares relative paths and the names of volumes, the one for a provider
compares texts, which misses the root, and does not look at the names of mounts. The root is already refused by
the first one. A mount that names the volume of a provider is refused by neither: the volume does not exist yet
when the Pod is checked, and once it is added, the container has it a second time, where it likes and writable.
-/

namespace Podmin.Agent.StaticPod

open Foundation Fallible Manifest Path

variable {container : Container} {provider : Provider}

/-! ## The tests -/

theorem pathsOverlap_eq (left right : String) :
    pathsOverlap left right =
      ((rel left right).any staysBelow || (rel right left).any staysBelow) := by
  unfold pathsOverlap
  dsimp only
  cases rel left right <;> cases rel right left <;> rfl

theorem parse_identityMountPath :
    parse identityMountPath = ⟨true, ["var", "run", "secrets", "podmin.dev", "tls"]⟩ := by
  decide

theorem rooted_identityMountPath : (parse identityMountPath).rooted = true := by
  rw [parse_identityMountPath]

/-- The test for the identity is exact. -/
theorem touchesIdentity_eq (mount : VolumeMount) :
    touchesIdentity mount =
      (overlaps mount.mountPath identityMountPath || mount.name == identityVolumeName) := by
  rw [touchesIdentity, pathsOverlap_eq, rel_staysBelow (.inr rooted_identityMountPath),
    rel_staysBelow (.inl rooted_identityMountPath), contains_clean_left, contains_clean_right,
    overlaps]

theorem parse_runtimeHostRoot : parse runtimeHostRoot = ⟨true, ["run", "podmin"]⟩ := by
  decide

/-- The test for host paths is exact. -/
theorem reservedHostPath_eq (path : String) :
    reservedHostPath path = (parse runtimeHostRoot).contains (parse path) := by
  have hroot := parse_proper runtimeHostRoot
  have htext : (parse runtimeHostRoot).text = runtimeHostRoot := by
    rw [parse_runtimeHostRoot]
    rfl
  have hbelow := text_below_iff hroot (parse_proper path) (by rw [parse_runtimeHostRoot])
    (by simp [parse_runtimeHostRoot])
  rw [Bool.eq_iff_iff, ← hbelow, htext]
  simp [reservedHostPath, clean]

theorem parse_mountPath (provider : Provider) :
    parse provider.mountPath = ⟨true, ["var", "run", "podmin", provider.name]⟩ := by
  cases provider <;> decide

/-- The test for a provider misses the root, and nothing else. -/
theorem mountPathOverlaps_iff (path : String) {other : String} (hrooted : (parse other).rooted = true)
    (hparts : (parse other).parts ≠ []) :
    mountPathOverlaps path other = true ↔
      overlaps path other = true ∧ (parse path).parts ≠ [] := by
  have hpath := parse_proper path
  have hmount := parse_proper other
  have hbelow := text_below_iff hmount hpath hrooted hparts
  have hnone : (parse "").parts = [] := by decide
  rw [mountPathOverlaps]
  by_cases hempty : path = ""
  · rw [if_pos (.inl hempty), hempty]
    simp [hnone]
  · have hother : other ≠ "" := by
      rintro rfl
      exact hparts hnone
    rw [if_neg (not_or.mpr ⟨hempty, hother⟩)]
    dsimp only
    rw [clean, clean, Bool.or_eq_true, Bool.or_eq_true, beq_iff_eq, hbelow, overlaps,
      Bool.or_eq_true]
    constructor
    · intro htest
      rcases htest with hcontained | habove
      · refine ⟨.inr hcontained, ?_⟩
        obtain ⟨_, _, hleading⟩ := Cleaned.contains_iff.mp hcontained
        intro hnil
        rw [hnil] at hleading
        exact hparts (List.prefix_nil.mp hleading)
      · obtain ⟨hcontains, hroot⟩ := contains_of_hasPrefix hpath hmount hrooted habove
        exact ⟨.inl hcontains, hroot⟩
    · intro hboth
      obtain ⟨hcontains | hcontained, hroot⟩ := hboth
      · by_cases hequal : parse path = parse other
        · left
          rw [← hequal] at hcontains ⊢
          exact hcontains
        · exact .inr (hasPrefix_of_contains hpath hmount hcontains hroot hequal)
      · exact .inl hcontained

/-- The root is above the identity. -/
theorem overlaps_root {path : String} (hrooted : (parse path).rooted = true)
    (hroot : (parse path).parts = []) (other : String) (hother : (parse other).rooted = true) :
    overlaps path other = true := by
  rw [overlaps, Bool.or_eq_true]
  refine .inl (Cleaned.contains_iff.mpr ⟨hrooted, hother, ?_⟩)
  rw [hroot]
  exact List.nil_prefix

theorem rooted_of_overlaps {left right : String} (hoverlaps : overlaps left right = true) :
    (parse left).rooted = true := by
  rw [overlaps, Bool.or_eq_true] at hoverlaps
  rcases hoverlaps with hcontains | hcontained
  · exact (Cleaned.contains_iff.mp hcontains).1
  · exact (Cleaned.contains_iff.mp hcontained).2.1

section Agreement

variable {left right : String} (hleft : (parse left).rooted = true)
  (hright : (parse right).rooted = true)

include hleft

theorem clean_eq_slash_iff : clean left = "/" ↔ (parse left).parts = [] := by
  constructor
  · intro hclean
    have hparse := (parse_proper left).parse_text hleft
    rw [← clean, hclean] at hparse
    rw [← hparse]
    decide
  · intro hparts
    rw [clean, Cleaned.text, if_pos hleft, hparts]
    rfl

/-- On absolute paths the test of the command line is exact. -/
theorem pathsOverlap_clean : pathsOverlap (clean left) (clean right) = overlaps left right := by
  have hrooted : (parse (clean left)).rooted = true := by rw [parse_clean_rooted, hleft]
  rw [pathsOverlap_eq, rel_staysBelow (.inl hrooted), rel_staysBelow (.inr hrooted),
    contains_clean_left, contains_clean_right, contains_clean_left, contains_clean_right,
    overlaps]

include hright

theorem overlaps_iff_leads :
    overlaps left right = true ↔ (parse left).parts <+: (parse right).parts ∨
      (parse right).parts <+: (parse left).parts := by
  simp [overlaps, Cleaned.contains_iff, hleft, hright]

/-- The test of the agent is exact unless one of the paths is the root. -/
theorem mountPathOverlaps_rooted :
    mountPathOverlaps left right = true ↔ overlaps left right = true ∧
      ((parse left).parts = [] ↔ (parse right).parts = []) := by
  by_cases hroot : (parse right).parts = []
  · by_cases hsame : (parse left).parts = []
    · have hclean : clean left = clean right := by
        rw [(clean_eq_slash_iff hleft).mpr hsame, (clean_eq_slash_iff hright).mpr hroot]
      have hleftText : left ≠ "" := by
        rintro rfl
        exact absurd hleft (by decide)
      have hrightText : right ≠ "" := by
        rintro rfl
        exact absurd hright (by decide)
      simp [mountPathOverlaps, hleftText, hrightText, hclean, overlaps_root hleft hsame right hright,
        hsame, hroot]
    · have hcomm : mountPathOverlaps left right = mountPathOverlaps right left := by
        simp only [mountPathOverlaps, or_comm (a := left = ""), Bool.beq_comm (a := clean left),
          Bool.or_assoc,
          Bool.or_comm (Text.hasPrefix (clean left) _)]
      rw [hcomm, mountPathOverlaps_iff right hleft hsame]
      simp [hroot, hsame]
  · rw [mountPathOverlaps_iff left hright hroot]
    simp [hroot]

end Agreement

/-- The two tests agree with each other and with the components exactly when both paths are the root or neither
is. -/
theorem overlap_tests_agree_iff {left right : String} (hleft : Text.hasPrefix left "/" = true)
    (hright : Text.hasPrefix right "/" = true) :
    (mountPathOverlaps left right = pathsOverlap (clean left) (clean right) ∧
      (mountPathOverlaps left right = true ↔ (parse left).parts <+: (parse right).parts ∨
        (parse right).parts <+: (parse left).parts) ∧
      (pathsOverlap (clean left) (clean right) = true ↔
        (parse left).parts <+: (parse right).parts ∨
          (parse right).parts <+: (parse left).parts)) ↔
      (clean left = "/" ↔ clean right = "/") := by
  rw [← parse_rooted] at hleft hright
  rw [pathsOverlap_clean hleft, ← overlaps_iff_leads hleft hright, clean_eq_slash_iff hleft,
    clean_eq_slash_iff hright, Bool.eq_iff_iff, mountPathOverlaps_rooted hleft hright]
  constructor
  · rintro ⟨hagree, _⟩
    have hroot : (parse left).parts = [] ∨ (parse right).parts = [] →
        overlaps left right = true := by
      rw [overlaps_iff_leads hleft hright]
      rintro (hnil | hnil)
      · exact .inl (hnil ▸ List.nil_prefix)
      · exact .inr (hnil ▸ List.nil_prefix)
    by_cases hany : (parse left).parts = [] ∨ (parse right).parts = []
    · exact (hagree.mpr (hroot hany)).2
    · rw [not_or] at hany
      exact iff_of_false hany.1 hany.2
  · intro hroots
    simp [hroots]

theorem overlap_tests_agree_nested :
    Text.hasPrefix "/data" "/" = true ∧ Text.hasPrefix "/data//cache/." "/" = true ∧
      mountPathOverlaps "/data" "/data//cache/." =
        pathsOverlap (clean "/data") (clean "/data//cache/.") :=
  ⟨by decide, by decide, ((overlap_tests_agree_iff (by decide) (by decide)).mpr (by decide)).1⟩

/-- The root is above every path, but only one test says so. -/
theorem root_overlaps_one_test :
    mountPathOverlaps "/" "/data" = false ∧ pathsOverlap (clean "/") (clean "/data") = true ∧
      (parse "/").parts <+: (parse "/data").parts := by
  decide

theorem identity_overlaps_provider (provider : Provider) :
    overlaps identityMount.mountPath provider.mountPath = false := by
  rw [overlaps, identityMount, parse_identityMountPath, parse_mountPath]
  rfl

theorem provider_overlaps_identity (provider : Provider) :
    touchesIdentity (providerMount provider) = false := by
  rw [touchesIdentity_eq, overlaps, providerMount, parse_identityMountPath, parse_mountPath]
  cases provider <;> decide

/-- What the one test misses the other has refused. -/
theorem not_overlaps_provider (hmounted : Mounted container)
    (hfree : ∀ mount ∈ container.volumeMounts, mountPathOverlaps mount.mountPath provider.mountPath = false) :
    ∀ mount ∈ container.volumeMounts, overlaps mount.mountPath provider.mountPath = false := by
  intro mount hmount
  rw [← Bool.not_eq_true]
  intro hoverlaps
  have hroot : (parse mount.mountPath).parts = [] := by
    by_contra hparts
    have htest := (mountPathOverlaps_iff mount.mountPath (by rw [parse_mountPath])
      (by simp [parse_mountPath])).mpr
      ⟨hoverlaps, hparts⟩
    rw [hfree mount hmount] at htest
    cases htest
  have htouches : touchesIdentity mount = true := by
    rw [touchesIdentity_eq, overlaps_root (rooted_of_overlaps hoverlaps) hroot _ rooted_identityMountPath,
      Bool.true_or]
  have hidentity : mount ∈ container.volumeMounts.filter touchesIdentity :=
    List.mem_filter.mpr ⟨hmount, htouches⟩
  rw [show container.volumeMounts.filter touchesIdentity = [identityMount] from hmounted] at hidentity
  rw [List.mem_singleton.mp hidentity, identity_overlaps_provider] at hoverlaps
  cases hoverlaps

/-! ## The provider loop -/

/-- The providers with keys. -/
def declaredProviders (entries : List (Provider × List String)) : List Provider :=
  (entries.filter fun entry ↦ !entry.2.isEmpty).map Prod.fst

theorem withProviders_nil (directory : Provider → String) (spec : PodSpec) :
    withProviders directory [] spec = spec := by
  simp [withProviders, PodSpec.mapContainers]

theorem withProviders_concat (directory : Provider → String) (providers : List Provider) (provider : Provider)
    (spec : PodSpec) :
    withProviders directory [provider] (withProviders directory providers spec) =
      withProviders directory (providers ++ [provider]) spec := by
  simp [withProviders, PodSpec.mapContainers, Function.comp_def]

variable {directory : Provider → String} {providers : List Provider} {spec : PodSpec}

/-- A spec with more volumes and mounts is free for no more. -/
theorem freeFor_of_withProviders (hfree : FreeFor provider (withProviders directory providers spec)) :
    FreeFor provider spec := by
  constructor
  · intro volume hvolume
    exact hfree.1 volume (List.mem_append_left _ hvolume)
  · intro mount hmount
    obtain ⟨container, hcontainer, hmounted⟩ := mem_mounts.mp hmount
    apply hfree.2 mount
    refine mem_mounts.mpr ⟨{ container with
      volumeMounts := container.volumeMounts ++ providers.map providerMount }, ?_,
        List.mem_append_left _ hmounted⟩
    simp only [withProviders, PodSpec.mapContainers]
    rw [← List.map_append]
    exact List.mem_map.mpr ⟨container, hcontainer, rfl⟩

section Loop

variable {config : Config} {get : Provider → String → Except String (List UInt8)} {ns pod : String}

/-- Where the secrets of a Pod are on the host. -/
def secretDirectory (config : Config) (pod : String) (provider : Provider) : String :=
  join [config.secretDir, pod, provider.name]

theorem addProviders_eq {entries : List (Provider × List String)}
    {secrets : GoMap String (GoMap String (List UInt8))}
    {final : PodSpec × GoMap String (GoMap String (List UInt8))}
    (hfold : entries.foldlM (addProvider config get ns pod) (spec, secrets) = .ok final) :
    final.1 = withProviders (secretDirectory config pod) (declaredProviders entries) spec ∧
      ∀ provider ∈ declaredProviders entries, FreeFor provider spec := by
  have hstart : (spec, secrets).1 = withProviders (secretDirectory config pod) (declaredProviders []) spec ∧
      ∀ provider ∈ declaredProviders [], FreeFor provider spec :=
    ⟨(withProviders_nil _ _).symm, by simp [declaredProviders]⟩
  refine @foldlM_success _ _ _ _ (fun done state ↦
    state.1 = withProviders (secretDirectory config pod) (declaredProviders done) spec ∧
      ∀ provider ∈ declaredProviders done, FreeFor provider spec) ?_ _ [] _ _ hstart hfold
  rintro done ⟨provider, keys⟩ state next ⟨hstate, hdone⟩ hnext
  unfold addProvider at hnext
  dsimp only at hnext
  cases hkeys : keys.isEmpty with
  | true =>
    rw [if_pos hkeys] at hnext
    cases hnext
    have hsame : declaredProviders (done ++ [(provider, keys)]) = declaredProviders done := by
      simp [declaredProviders, hkeys]
    rw [hsame]
    exact ⟨hstate, hdone⟩
  | false =>
    rw [if_neg (by simp [hkeys])] at hnext
    have hmore : declaredProviders (done ++ [(provider, keys)]) = declaredProviders done ++ [provider] := by
      simp [declaredProviders, hkeys]
    obtain ⟨injected, hinject, hrest⟩ := bind_eq_ok.mp hnext
    obtain ⟨fetched, _, hresult⟩ := bind_eq_ok.mp hrest
    cases hresult
    obtain ⟨hfree, rfl⟩ := (injectProviderMount_eq_ok (secretDirectory config pod)).mp hinject
    rw [hmore, hstate, withProviders_concat]
    rw [hstate] at hfree
    refine ⟨rfl, List.forall_mem_append.mpr ⟨hdone, ?_⟩⟩
    simpa using freeFor_of_withProviders hfree

end Loop

/-! ## Exclusiveness -/

/-- Whether a mount touches the path of a provider or uses its volume. -/
def touchesProvider (provider : Provider) (mount : VolumeMount) : Bool :=
  overlaps mount.mountPath provider.mountPath || mount.name == provider.volume

/-- A Pod declares a provider when its annotation lists keys. -/
def DeclaresProvider (pod : Pod) (provider : Provider) : Prop :=
  ∃ keys, annotationKeys (pod.annotation provider.annotation) provider.title = .ok keys ∧ keys ≠ []

/-- What Podmin mounts into the containers of a Pod is mounted once and by nobody else. -/
structure Exclusive (config : Config) (pod : Pod) (spec : PodSpec) : Prop where
  identityMounts : ∀ container ∈ spec.allContainers, (container.volumeMounts.filter fun mount ↦
    overlaps mount.mountPath identityMountPath || mount.name == identityVolumeName) = [identityMount]
  providerMounts : ∀ provider, DeclaresProvider pod provider → ∀ container ∈ spec.allContainers,
    container.volumeMounts.filter (touchesProvider provider) = [providerMount provider]
  identityVolumes : (spec.volumes.filter fun volume ↦ volume.name == identityVolumeName) =
    [identityVolumeOf pod.name]
  providerVolumes : ∀ provider, DeclaresProvider pod provider →
    (spec.volumes.filter fun volume ↦ volume.name == provider.volume) =
      [providerVolume provider (secretDirectory config pod.name provider)]
  others : ∀ volume ∈ spec.volumes, volume.name ≠ identityVolumeName →
    (∀ provider, DeclaresProvider pod provider → volume.name ≠ provider.volume) →
    ∀ hostPath, volume.source.hostPath = some hostPath →
      (parse runtimeHostRoot).contains (parse hostPath.path) = false

/-- No mount of the Pod is named after the volume of a provider it declares. -/
def NamesApart (pod : Pod) : Prop :=
  ∀ provider, DeclaresProvider pod provider → ∀ mount ∈ pod.spec.mounts, mount.name ≠ provider.volume

theorem filter_map_single {Entry : Type*} (hnodup : providers.Nodup) (hmem : provider ∈ providers)
    {entry : Provider → Entry} {test : Entry → Bool}
    (htest : ∀ other, test (entry other) = decide (other = provider)) :
    (providers.map entry).filter test = [entry provider] := by
  have hsame : providers.filter (test ∘ entry) = providers.filter (· == provider) := by
    apply List.filter_congr
    intro other _
    rw [Function.comp_apply, htest, Bool.beq_eq_decide_eq]
  rw [List.filter_map, hsame, List.filter_beq, List.count_eq_one_of_mem hnodup hmem, List.replicate_one,
    List.map_singleton]

theorem filter_map_none {Entry : Type*} (providers : List Provider) {entry : Provider → Entry}
    {test : Entry → Bool} (htest : ∀ other, test (entry other) = false) :
    (providers.map entry).filter test = [] := by
  rw [List.filter_map, List.map_eq_nil_iff, List.filter_eq_nil_iff]
  intro other _
  simp [htest]

theorem touchesProvider_providerMount (provider other : Provider) :
    touchesProvider provider (providerMount other) = decide (other = provider) := by
  rw [touchesProvider, overlaps, providerMount, parse_mountPath, parse_mountPath]
  cases provider <;> cases other <;> decide

theorem volume_eq_iff (provider other : Provider) :
    (other.volume == provider.volume) = decide (other = provider) := by
  cases provider <;> cases other <;> decide

theorem volume_ne_identity (provider : Provider) : (provider.volume == identityVolumeName) = false := by
  cases provider <;> decide

/-- A container has a provider to itself exactly when none of its mounts was named after its volume. -/
theorem providerMounts_iff (hmounted : Mounted container) (hnodup : providers.Nodup)
    (hmem : provider ∈ providers)
    (hfree : ∀ mount ∈ container.volumeMounts, mountPathOverlaps mount.mountPath provider.mountPath = false) :
    (container.volumeMounts ++ providers.map providerMount).filter (touchesProvider provider) =
        [providerMount provider] ↔
      ∀ mount ∈ container.volumeMounts, mount.name ≠ provider.volume := by
  have hpaths := not_overlaps_provider hmounted hfree
  rw [List.filter_append, filter_map_single hnodup hmem fun other ↦
    touchesProvider_providerMount provider other,
    List.append_left_eq_self, List.filter_eq_nil_iff]
  constructor
  · intro hnone mount hmount hname
    apply hnone mount hmount
    rw [touchesProvider, hname, beq_self_eq_true, Bool.or_true]
  · intro hnames mount hmount
    rw [touchesProvider, hpaths mount hmount, Bool.false_or, beq_iff_eq]
    exact hnames mount hmount

section Written

variable {config : Config} {pod : Pod} {spec : PodSpec} {providers : List Provider}

/-- What is written for a spec with the identity in place: the providers are added to what is there. -/
structure Prepares (pod : Pod) (providers : List Provider) (spec : PodSpec) : Prop where
  provided : Provided spec.volumes pod.name
  mounted : ∀ container ∈ spec.allContainers, Mounted container
  nodup : providers.Nodup
  declared : ∀ provider, provider ∈ providers ↔ DeclaresProvider pod provider
  free : ∀ provider ∈ providers, FreeFor provider spec

theorem mem_withProviders :
    container ∈ (withProviders directory providers spec).allContainers ↔ ∃ before ∈ spec.allContainers,
      { before with volumeMounts := before.volumeMounts ++ providers.map providerMount } = container := by
  simp only [withProviders, PodSpec.mapContainers, PodSpec.allContainers]
  rw [← List.map_append, List.mem_map]

theorem Prepares.container_free (hprepares : Prepares pod providers spec) (hprovider : provider ∈ providers)
    (hcontainer : container ∈ spec.allContainers) :
    ∀ mount ∈ container.volumeMounts, mountPathOverlaps mount.mountPath provider.mountPath = false := by
  intro mount hmount
  exact (hprepares.free provider hprovider).2 mount (mem_mounts.mpr ⟨container, hcontainer, hmount⟩)

/-- All is exclusive when the mounts are not named after declared providers. -/
theorem Prepares.exclusive (hprepares : Prepares pod providers spec)
    (hnames : ∀ provider ∈ providers, ∀ mount ∈ spec.mounts, mount.name ≠ provider.volume) :
    Exclusive config pod (withProviders (secretDirectory config pod.name) providers spec) := by
  constructor
  · intro container hcontainer
    obtain ⟨before, hbefore, rfl⟩ := mem_withProviders.mp hcontainer
    have htouches : (fun mount : VolumeMount ↦ overlaps mount.mountPath identityMountPath ||
        mount.name == identityVolumeName) = touchesIdentity := by
      funext mount
      exact (touchesIdentity_eq mount).symm
    have hidentity : before.volumeMounts.filter touchesIdentity = [identityMount] :=
      hprepares.mounted before hbefore
    rw [htouches, List.filter_append, hidentity, filter_map_none providers provider_overlaps_identity,
      List.append_nil]
  · intro provider hdeclared container hcontainer
    obtain ⟨before, hbefore, rfl⟩ := mem_withProviders.mp hcontainer
    have hprovider := (hprepares.declared provider).mpr hdeclared
    apply (providerMounts_iff (hprepares.mounted before hbefore) hprepares.nodup hprovider
      (hprepares.container_free hprovider hbefore)).mpr
    intro mount hmount
    exact hnames provider hprovider mount (mem_mounts.mpr ⟨before, hbefore, hmount⟩)
  · have hnone : ((providers.map fun provider ↦
        providerVolume provider (secretDirectory config pod.name provider)).filter
          fun volume ↦ volume.name == identityVolumeName) = [] :=
      filter_map_none providers fun provider ↦ volume_ne_identity provider
    have honce : (spec.volumes.filter fun volume ↦ volume.name == identityVolumeName) =
        [identityVolumeOf pod.name] := hprepares.provided.once
    rw [withProviders, List.filter_append, honce, hnone, List.append_nil]
  · intro provider hdeclared
    have hprovider := (hprepares.declared provider).mpr hdeclared
    have hsingle : ((providers.map fun other ↦
        providerVolume other (secretDirectory config pod.name other)).filter
          fun volume ↦ volume.name == provider.volume) =
        [providerVolume provider (secretDirectory config pod.name provider)] :=
      filter_map_single hprepares.nodup hprovider fun other ↦ volume_eq_iff provider other
    have hnone : (spec.volumes.filter fun volume ↦ volume.name == provider.volume) = [] := by
      rw [List.filter_eq_nil_iff]
      intro volume hvolume
      rw [beq_iff_eq]
      exact (hprepares.free provider hprovider).1 volume hvolume
    rw [withProviders, List.filter_append, hnone, hsingle, List.nil_append]
  · intro volume hvolume hidentity hothers hostPath hsource
    rcases List.mem_append.mp hvolume with hbefore | hadded
    · have hplain := hprepares.provided.plain volume hbefore (beq_eq_false_iff_ne.mpr hidentity)
      rw [← reservedHostPath_eq]
      exact hplain.2 hostPath hsource
    · obtain ⟨provider, hprovider, rfl⟩ := List.mem_map.mp hadded
      exact absurd rfl (hothers provider ((hprepares.declared provider).mp hprovider))

/-- A mount named after a declared provider has its volume a second time. -/
theorem Prepares.names_apart (hprepares : Prepares pod providers spec)
    (hexclusive : Exclusive config pod (withProviders (secretDirectory config pod.name) providers spec)) :
    ∀ provider ∈ providers, ∀ mount ∈ spec.mounts, mount.name ≠ provider.volume := by
  intro provider hprovider mount hmount
  obtain ⟨container, hcontainer, hmounted⟩ := mem_mounts.mp hmount
  have honly := hexclusive.providerMounts provider ((hprepares.declared provider).mp hprovider) _
    (mem_withProviders.mpr ⟨container, hcontainer, rfl⟩)
  exact (providerMounts_iff (hprepares.mounted container hcontainer) hprepares.nodup hprovider
    (hprepares.container_free hprovider hcontainer)).mp honly mount hmounted

end Written

/-- The mounts of a spec that was kept are there, and what is new is the identity. -/
theorem mem_mounts_of_kept {result : PodSpec} (hkept : KeptSpec spec result) {mount : VolumeMount} :
    (mount ∈ spec.mounts → mount ∈ result.mounts) ∧
      (mount ∈ result.mounts → mount ∈ spec.mounts ∨ mount = identityMount) := by
  have hall := List.rel_append hkept.containers hkept.initContainers
  constructor
  · intro hmount
    obtain ⟨container, hcontainer, hmounted⟩ := mem_mounts.mp hmount
    obtain ⟨next, hnext, _, added, hmounts, _⟩ := forall₂_mem_left hall hcontainer
    refine mem_mounts.mpr ⟨next, hnext, ?_⟩
    rw [hmounts]
    exact List.mem_append_left _ hmounted
  · intro hmount
    obtain ⟨next, hnext, hmounted⟩ := mem_mounts.mp hmount
    obtain ⟨container, hcontainer, _, added, hmounts, hadded⟩ := forall₂_mem_right hall hnext
    rw [hmounts] at hmounted
    rcases List.mem_append.mp hmounted with hbefore | hnew
    · exact .inl (mem_mounts.mpr ⟨container, hcontainer, hbefore⟩)
    · exact .inr (hadded mount hnew)

theorem namesApart_iff_of_kept {result : PodSpec} (hkept : KeptSpec spec result) (provider : Provider) :
    (∀ mount ∈ result.mounts, mount.name ≠ provider.volume) ↔
      ∀ mount ∈ spec.mounts, mount.name ≠ provider.volume := by
  constructor
  · intro hresult mount hmount
    exact hresult mount ((mem_mounts_of_kept hkept).1 hmount)
  · intro hspec mount hmount
    rcases (mem_mounts_of_kept hkept).2 hmount with hbefore | rfl
    · exact hspec mount hbefore
    · exact (identity_apart provider).1

/-! ## Written manifests -/

theorem declaresProvider_iff {pod : Pod} {parameterKeys secretKeys : List String}
    (hparameters : annotationKeys (pod.annotation Provider.awsParameterStore.annotation)
      Provider.awsParameterStore.title = .ok parameterKeys)
    (hsecrets : annotationKeys (pod.annotation Provider.awsSecretsManager.annotation)
      Provider.awsSecretsManager.title = .ok secretKeys) (provider : Provider) :
    provider ∈ declaredProviders [(.awsParameterStore, parameterKeys), (.awsSecretsManager, secretKeys)] ↔
      DeclaresProvider pod provider := by
  have hmem : provider ∈ declaredProviders [(.awsParameterStore, parameterKeys),
      (.awsSecretsManager, secretKeys)] ↔
      (provider = .awsParameterStore ∧ parameterKeys ≠ []) ∨
        (provider = .awsSecretsManager ∧ secretKeys ≠ []) := by
    cases parameterKeys <;> cases secretKeys <;> simp [declaredProviders]
  rw [hmem]
  cases provider with
  | awsParameterStore => simp [DeclaresProvider, hparameters]
  | awsSecretsManager => simp [DeclaresProvider, hsecrets]

theorem nodup_declaredProviders (parameterKeys secretKeys : List String) :
    (declaredProviders [(.awsParameterStore, parameterKeys), (.awsSecretsManager, secretKeys)]).Nodup := by
  apply (List.filter_sublist.map Prod.fst).nodup
  exact (by decide : [Provider.awsParameterStore, Provider.awsSecretsManager].Nodup)

/-- Resolving names leaves containers and volumes alone. -/
theorem resolveWith_eq (config : Config) (ns : String) (spec : PodSpec) :
    ∃ policy dns, resolveWith config ns spec = { spec with dnsPolicy := policy, dnsConfig := dns } := by
  unfold resolveWith
  split
  · exact ⟨spec.dnsPolicy, spec.dnsConfig, rfl⟩
  · exact ⟨_, _, rfl⟩

/-- What is written: the providers that the Pod declares, added to its transformed spec. -/
theorem prepares_of_build {config : Config} {formats : Formats}
    {get : Provider → String → Except String (List UInt8)} {input : List UInt8} {revision : String}
    {built : Built} {payload : Pod} (hparse : parsePod formats.pods input = .ok payload)
    (hbuild : build config formats get input revision = .ok built) :
    ∃ providers base written, formats.pods.decode built.manifest = .ok written ∧
      written.spec = withProviders (secretDirectory config payload.name) providers base ∧
      Prepares payload providers base ∧ KeptSpec payload.spec base := by
  obtain ⟨pod, parameterKeys, secretKeys, spec, secrets, hinput, hparameters, hsecrets, hfold, hbuilt⟩ :=
    build_eq_ok.mp hbuild
  rw [transformInput, hparse, ok_bind] at hinput
  have htransformed := transformed_of_transformPod hinput
  obtain ⟨hprovided, hmounted⟩ := inPlace_of_transformPod hinput
  obtain ⟨hspec, hfree⟩ := addProviders_eq hfold
  have hannotations : ∀ key, pod.annotation key = payload.annotation key := by
    intro key
    rw [Pod.annotation, Pod.annotation, htransformed.annotations]
    rfl
  rw [hannotations] at hparameters hsecrets
  obtain ⟨policy, dns, hresolved⟩ := resolveWith_eq config (if pod.ns = "" then "default" else pod.ns) pod.spec
  rw [hresolved] at hspec hfree
  rw [htransformed.name] at hspec
  refine ⟨_, { pod.spec with dnsPolicy := policy, dnsConfig := dns },
    { ({ pod with spec }.annotate "podmin.dev/revision" revision) with apiVersion := "v1", kind := "Pod" },
    ?_, hspec, ⟨hprovided, hmounted, nodup_declaredProviders _ _,
      declaresProvider_iff hparameters hsecrets, hfree⟩, ?_⟩
  · rw [hbuilt]
    exact formats.pods.decode_encode _
  · exact ⟨htransformed.kept.containers, htransformed.kept.initContainers, htransformed.kept.volumes⟩

/-- Every manifest that is built has the identity and the declared providers to itself exactly when no mount of
the Pod is named after the volume of a provider that it declares. -/
theorem build_exclusive_iff (config : Config) (formats : Formats)
    (get : Provider → String → Except String (List UInt8)) (input : List UInt8) (revision : String)
    (built : Built) (payload : Pod) (hparse : parsePod formats.pods input = .ok payload)
    (hbuild : build config formats get input revision = .ok built) :
    (∃ written, formats.pods.decode built.manifest = .ok written ∧ Exclusive config payload written.spec) ↔
      NamesApart payload := by
  obtain ⟨providers, base, written, hwritten, hspec, hprepares, hkept⟩ := prepares_of_build hparse hbuild
  have hnames : NamesApart payload ↔ ∀ provider ∈ providers, ∀ mount ∈ base.mounts,
      mount.name ≠ provider.volume := by
    simp only [NamesApart, hprepares.declared, namesApart_iff_of_kept hkept]
  rw [hnames, hwritten]
  constructor
  · intro hexists
    obtain ⟨_, hequal, hexclusive⟩ := hexists
    cases hequal
    rw [hspec] at hexclusive
    exact hprepares.names_apart hexclusive
  · intro hapart
    refine ⟨written, rfl, ?_⟩
    rw [hspec]
    exact hprepares.exclusive hapart

/-! ## A Pod with a secret -/

/-- The container mounts a volume of the given name under `/data`. -/
def dataMount (volume : String) : VolumeMount where
  name := volume
  mountPath := "/data"

/-- A Pod that declares one secret, and a volume `data`. -/
def tokenPod (volume : String) : Pod where
  name := "site"
  ns := "default"
  annotations := (∅ : GoMap String String).insert "podmin.dev/aws-parameter-store" "token"
  spec :=
    { containers := [{ name := "main", image := webTag.name, volumeMounts := [dataMount volume] }]
      volumes := [⟨"data", { others := ["emptyDir"] }⟩] }

def tokenText (volume : String) : List UInt8 :=
  Text.utf8Bytes ("apiVersion: v1
kind: Pod
metadata:
  annotations:
    podmin.dev/aws-parameter-store: token
  name: site
  namespace: default
spec:
  containers:
  - image: registry.podmin.internal/apps/web:v1
    name: main
    volumeMounts:
    - mountPath: /data
      name: " ++ volume ++ "
  volumes:
  - emptyDir: \x7b\x7d
    name: data
")

/-- Formats that read this Pod and the one above. -/
noncomputable def tokenFormats (volume : String) : Formats :=
  { webFormats with pods := webFormats.pods.assign (tokenPod volume) (tokenText volume) }

def tokenGet : Provider → String → Except String (List UInt8) :=
  fun _ _ ↦ .ok [1]

theorem parsePod_tokenPod (volume : String) :
    parsePod (tokenFormats volume).pods (tokenText volume) = .ok (tokenPod volume) := by
  have hdecode : (tokenFormats volume).pods.decode (tokenText volume) = .ok (tokenPod volume) :=
    Codec.assign_decode _ _ _
  rw [parsePod, hdecode]
  rfl

theorem annotationKeys_token (title : String) : annotationKeys "token" title = .ok ["token"] := by
  have htrim : Text.trimSpace "token" = "token" := by decide
  have hsplit : Text.split ',' "token" = ["token"] := by decide
  have hvalid : validID "token" = true := by decide
  rw [annotationKeys, htrim, hsplit, if_neg (by decide), readKeys]
  simp [htrim, hvalid, readKeys, sortSlice]

theorem annotation_token (volume : String) :
    Pod.annotation (tokenPod volume) Provider.awsParameterStore.annotation = "token" ∧
      Pod.annotation (tokenPod volume) Provider.awsSecretsManager.annotation = "" := by
  constructor <;> rfl

variable {volume : String}

theorem declaresProvider_token :
    DeclaresProvider (tokenPod volume) provider ↔ provider = .awsParameterStore := by
  cases provider with
  | awsParameterStore =>
    rw [DeclaresProvider, (annotation_token volume).1, annotationKeys_token]
    simp
  | awsSecretsManager =>
    have hnone : annotationKeys "" Provider.awsSecretsManager.title = .ok [] := rfl
    rw [DeclaresProvider, (annotation_token volume).2, hnone]
    simp

def tokenTransformed (volume : String) : Pod :=
  { tokenPod volume with
    spec :=
      { containers := [{ name := "main", image := webTag.name, imagePullPolicy := "Always"
                         volumeMounts := [dataMount volume, identityMount] }]
        volumes := [⟨"data", { others := ["emptyDir"] }⟩, identityVolumeOf "site"] } }

theorem data_apart (provider : Provider) :
    "data" ≠ provider.volume ∧ mountPathOverlaps "/data" provider.mountPath = false := by
  cases provider <;> decide

theorem suits_token {spec : PodSpec} (hspec : FreeFor .awsParameterStore spec) (provider : Provider) :
    Suits (tokenPod volume).annotations spec provider := by
  cases provider with
  | awsParameterStore =>
    refine ⟨["token"], ?_, .inr hspec⟩
    exact (congrArg (annotationKeys · _) (annotation_token volume).1).trans (annotationKeys_token _)
  | awsSecretsManager => exact ⟨[], rfl, .inl rfl⟩

theorem transformInput_token
    (htransform : transformPod webParser (tokenPod volume) [] "" = .ok (tokenTransformed volume)) :
    transformInput (tokenFormats volume).parser (tokenFormats volume).pods (tokenText volume) [] "" =
      .ok (tokenTransformed volume) := by
  rw [transformInput, parsePod_tokenPod]
  exact htransform

theorem build_tokenPod {revision : String}
    (htransform : transformPod webParser (tokenPod volume) [] "" = .ok (tokenTransformed volume)) :
    ∃ built, build webConfig (tokenFormats volume) tokenGet (tokenText volume) revision = .ok built ∧
      built.name = "site" ∧ built.service = "" := by
  have hinput := transformInput_token htransform
  obtain ⟨hidentity, hmount⟩ := identity_apart .awsParameterStore
  obtain ⟨hdata, hpath⟩ := data_apart .awsParameterStore
  have hspec : FreeFor .awsParameterStore (tokenTransformed volume).spec :=
    ⟨List.forall_mem_cons.mpr ⟨hdata, List.forall_mem_singleton.mpr hidentity⟩,
      List.forall_mem_cons.mpr ⟨hpath, List.forall_mem_singleton.mpr hmount⟩⟩
  have hns : validNamespace "default" = true := by decide
  obtain ⟨built, hbuild⟩ := (@build_isOk webConfig _ tokenGet _ revision _ (by decide) hns
    (by decide : validID "site" = true) hinput fun _ _ _ _ _ _ _ ↦ ⟨_, rfl⟩).mpr (@suits_token volume _ hspec)
  obtain ⟨hname, _, hservice⟩ := build_reads hns hinput hbuild
  exact ⟨built, hbuild, hname, hservice⟩

/-- The Pod mounts a volume that does not exist; the manifest that is built for it has the secrets mounted
twice, and once writable. -/
theorem build_shares_provider :
    ∃ built written, build webConfig (tokenFormats "podmin-aws-parameter-store") tokenGet
        (tokenText "podmin-aws-parameter-store") "1" = .ok built ∧
      (tokenFormats "podmin-aws-parameter-store").pods.decode built.manifest = .ok written ∧
      DeclaresProvider (tokenPod "podmin-aws-parameter-store") .awsParameterStore ∧
      ∃ container ∈ written.spec.allContainers,
        dataMount "podmin-aws-parameter-store" ∈ container.volumeMounts ∧
        providerMount .awsParameterStore ∈ container.volumeMounts ∧
        touchesProvider .awsParameterStore (dataMount "podmin-aws-parameter-store") = true ∧
        (dataMount "podmin-aws-parameter-store").readOnly = false := by
  have hdeclares := (@declaresProvider_token .awsParameterStore "podmin-aws-parameter-store").mpr rfl
  obtain ⟨built, hbuild, _⟩ := @build_tokenPod "podmin-aws-parameter-store" "1" rfl
  obtain ⟨providers, base, written, hwritten, hspec, hprepares, hkept⟩ :=
    prepares_of_build (parsePod_tokenPod _) hbuild
  have hstray : dataMount "podmin-aws-parameter-store" ∈ (tokenPod "podmin-aws-parameter-store").spec.mounts :=
    List.mem_singleton.mpr rfl
  obtain ⟨container, hcontainer, hmounted⟩ := mem_mounts.mp ((mem_mounts_of_kept hkept).1 hstray)
  refine ⟨built, written, hbuild, hwritten, hdeclares, { container with
    volumeMounts := container.volumeMounts ++ providers.map providerMount }, ?_, ?_, ?_, by decide, rfl⟩
  · rw [hspec]
    exact mem_withProviders.mpr ⟨container, hcontainer, rfl⟩
  · exact List.mem_append_left _ hmounted
  · have hprovider := (hprepares.declared .awsParameterStore).mpr hdeclares
    exact List.mem_append_right _ (List.mem_map.mpr ⟨_, hprovider, rfl⟩)

/-- A Pod that mounts its own volume gets the secrets once. -/
theorem build_exclusive_iff_token :
    ∃ built written, build webConfig (tokenFormats "data") tokenGet (tokenText "data") "1" = .ok built ∧
      (tokenFormats "data").pods.decode built.manifest = .ok written ∧
      Exclusive webConfig (tokenPod "data") written.spec := by
  obtain ⟨built, hbuild, _⟩ := @build_tokenPod "data" "1" rfl
  obtain ⟨written, hwritten, hexclusive⟩ := (build_exclusive_iff webConfig (tokenFormats "data") tokenGet _ "1"
    built (tokenPod "data") (parsePod_tokenPod _) hbuild).mpr fun provider _ mount hmount ↦
      List.mem_singleton.mp hmount ▸ (data_apart provider).1
  exact ⟨built, written, hbuild, hwritten, hexclusive⟩

end Podmin.Agent.StaticPod
