import Podmin.Agent.StaticPod.Candidates
import Podmin.Cli.Deploy
import Podmin.Manifest.Canonical

/-!
# What the CLI commits and what the agent can run

The CLI decides with `ParseDeployment` what it commits, and the agent with `build` and the checks of
its candidate loop what it runs. The two differ: annotations that declare secrets, volumes and mounts
that collide with those of a secret provider, and a `podmin.dev/service` annotation on a Pod without a
Service pass the CLI and make every reconciliation of the NodeGroup fail.
-/

namespace Podmin.Agent.StaticPod

open Foundation Fallible Manifest Agent.Workload

variable {provider other : Provider} {result spec : PodSpec} {keys : List String}

/-! ## Provider mounts -/

/-- Nothing in a spec collides with the mount of a provider. -/
def FreeFor (provider : Provider) (spec : PodSpec) : Prop :=
  (∀ volume ∈ spec.volumes, volume.name ≠ provider.volume) ∧
    ∀ mount ∈ spec.mounts, mountPathOverlaps mount.mountPath provider.mountPath = false

theorem identity_apart (provider : Provider) :
    identityVolumeName ≠ provider.volume ∧
      mountPathOverlaps identityMount.mountPath provider.mountPath = false := by
  cases provider <;> decide

theorem providers_apart (hne : provider ≠ other) :
    provider.volume ≠ other.volume ∧
      mountPathOverlaps provider.mountPath other.mountPath = false := by
  revert hne
  cases provider <;> cases other <;> decide

theorem mountProvider_eq_ok {container result : Container} :
    mountProvider provider container = .ok result ↔
      (∀ mount ∈ container.volumeMounts,
        mountPathOverlaps mount.mountPath provider.mountPath = false) ∧
      result = { container with
        volumeMounts := container.volumeMounts ++ [providerMount provider] } := by
  unfold mountProvider
  split
  · next hoverlap =>
    simp only [List.any_eq_true] at hoverlap
    obtain ⟨mount, hmount, hbad⟩ := hoverlap
    simp only [reduceCtorEq, false_iff, not_and]
    intro hfree
    exact absurd hbad (by simp [hfree mount hmount])
  · next hfree =>
    simp only [List.any_eq_true, not_exists, not_and, Bool.not_eq_true] at hfree
    simp only [Except.ok.injEq]
    exact ⟨fun heq ↦ ⟨hfree, heq.symm⟩, fun hboth ↦ hboth.2.symm⟩

theorem mem_mounts {mount : VolumeMount} :
    mount ∈ spec.mounts ↔
      ∃ container ∈ spec.containers ++ spec.initContainers, mount ∈ container.volumeMounts := by
  rw [PodSpec.mounts, List.mem_flatMap, PodSpec.allContainers]

/-- The volume of a provider. -/
def providerVolume (provider : Provider) (hostPath : String) : Volume :=
  ⟨provider.volume, ⟨some ⟨hostPath, some "Directory"⟩, []⟩⟩

/-- A spec with the volumes and mounts of some providers. -/
def withProviders (directory : Provider → String) (providers : List Provider) (spec : PodSpec) : PodSpec :=
  { spec.mapContainers fun container ↦
      { container with volumeMounts := container.volumeMounts ++ providers.map providerMount } with
    volumes := spec.volumes ++ providers.map fun provider ↦ providerVolume provider (directory provider) }

theorem mapM_mountProvider {containers results : List Container} :
    containers.mapM (mountProvider provider) = .ok results ↔
      (∀ container ∈ containers, ∀ mount ∈ container.volumeMounts,
        mountPathOverlaps mount.mountPath provider.mountPath = false) ∧
      results = containers.map fun container ↦
        { container with volumeMounts := container.volumeMounts ++ [providerMount provider] } := by
  rw [mapM_eq_ok]
  constructor
  · intro hall
    induction hall with
    | nil => simp
    | cons hfirst _ ih =>
      obtain ⟨hfree, rfl⟩ := mountProvider_eq_ok.mp hfirst
      exact ⟨List.forall_mem_cons.mpr ⟨hfree, ih.1⟩, by rw [ih.2]; rfl⟩
  · intro hboth
    rw [hboth.2, List.forall₂_map_right_iff, List.forall₂_same]
    exact fun container hcontainer ↦ mountProvider_eq_ok.mpr ⟨hboth.1 container hcontainer, rfl⟩

/-- A provider is mounted exactly into specs that are free for it. -/
theorem injectProviderMount_eq_ok {spec result : PodSpec} {provider : Provider}
    (directory : Provider → String) :
    injectProviderMount spec provider (directory provider) = .ok result ↔
      FreeFor provider spec ∧ result = withProviders directory [provider] spec := by
  unfold injectProviderMount
  split
  · next htaken =>
    simp only [List.any_eq_true, decide_eq_true_eq] at htaken
    obtain ⟨volume, hvolume, hname⟩ := htaken
    simp only [reduceCtorEq, false_iff, not_and]
    exact fun hfree ↦ absurd hname (hfree.1 volume hvolume)
  next hvolumes =>
  simp only [List.any_eq_true, decide_eq_true_eq, not_exists, not_and] at hvolumes
  constructor
  · intro hresult
    obtain ⟨containers, hcontainers, hrest⟩ := bind_eq_ok.mp hresult
    obtain ⟨initContainers, hinit, hspec⟩ := bind_eq_ok.mp hrest
    obtain ⟨hfree, rfl⟩ := mapM_mountProvider.mp hcontainers
    obtain ⟨hfreeInit, rfl⟩ := mapM_mountProvider.mp hinit
    cases hspec
    refine ⟨⟨hvolumes, fun mount hmount ↦ ?_⟩, rfl⟩
    obtain ⟨container, hmem, hmounted⟩ := mem_mounts.mp hmount
    exact (List.mem_append.mp hmem).elim (fun hregular ↦ hfree container hregular mount hmounted)
      (fun hfirst ↦ hfreeInit container hfirst mount hmounted)
  · intro hboth
    obtain ⟨hfree, rfl⟩ := hboth
    have hcontainers := mapM_mountProvider.mpr ⟨fun container hcontainer mount hmount ↦
      hfree.2 mount (mem_mounts.mpr ⟨container, List.mem_append_left _ hcontainer, hmount⟩), rfl⟩
    have hinit := mapM_mountProvider.mpr ⟨fun container hcontainer mount hmount ↦
      hfree.2 mount (mem_mounts.mpr ⟨container, List.mem_append_right _ hcontainer, hmount⟩), rfl⟩
    exact bind_eq_ok.mpr ⟨_, hcontainers, bind_eq_ok.mpr ⟨_, hinit, rfl⟩⟩

theorem injectProviderMount_isOk {spec : PodSpec} {provider : Provider} {hostPath : String} :
    (∃ result, injectProviderMount spec provider hostPath = .ok result) ↔ FreeFor provider spec := by
  simp [@injectProviderMount_eq_ok spec _ provider (fun _ ↦ hostPath)]

/-- Volumes and mounts that a provider does not collide with make no difference to it. -/
theorem freeFor_grown
    (hvolumes : ∃ added, result.volumes = spec.volumes ++ added ∧
      ∀ volume ∈ added, volume.name ≠ provider.volume)
    (hmounts : List.Forall₂ (fun container next : Container ↦ ∃ added,
      next.volumeMounts = container.volumeMounts ++ added ∧
      ∀ mount ∈ added, mountPathOverlaps mount.mountPath provider.mountPath = false)
        (spec.containers ++ spec.initContainers) (result.containers ++ result.initContainers)) :
    FreeFor provider result ↔ FreeFor provider spec := by
  refine and_congr ?_ ?_
  · obtain ⟨added, heq, hadded⟩ := hvolumes
    rw [heq, List.forall_mem_append]
    exact ⟨And.left, fun hfree ↦ ⟨hfree, hadded⟩⟩
  · constructor
    · intro hfree mount hmount
      obtain ⟨container, hmem, hmounted⟩ := mem_mounts.mp hmount
      obtain ⟨next, hnext, added, heq, _⟩ := forall₂_mem_left hmounts hmem
      refine hfree mount (mem_mounts.mpr ⟨next, hnext, ?_⟩)
      rw [heq]
      exact List.mem_append_left _ hmounted
    · intro hfree mount hmount
      obtain ⟨next, hmem, hmounted⟩ := mem_mounts.mp hmount
      obtain ⟨container, hcontainer, added, heq, hadded⟩ := forall₂_mem_right hmounts hmem
      rw [heq] at hmounted
      rcases List.mem_append.mp hmounted with hold | hnew
      · exact hfree mount (mem_mounts.mpr ⟨container, hcontainer, hold⟩)
      · exact hadded mount hnew

/-- Mounting one provider leaves a spec as free for another as it was. -/
theorem freeFor_injected {hostPath : String} (hne : provider ≠ other)
    (hinject : injectProviderMount spec provider hostPath = .ok result) :
    FreeFor other result ↔ FreeFor other spec := by
  obtain ⟨hvolume, hpath⟩ := providers_apart hne
  obtain ⟨_, rfl⟩ := (injectProviderMount_eq_ok fun _ ↦ hostPath).mp hinject
  apply freeFor_grown
  · exact ⟨_, rfl, by simpa [providerVolume] using hvolume⟩
  · simp only [withProviders, PodSpec.mapContainers]
    rw [← List.map_append, List.forall₂_map_right_iff, List.forall₂_same]
    intro container _
    exact ⟨[providerMount provider], rfl, by simpa [providerMount] using hpath⟩

/-- The transformation of a Pod leaves its spec as free for a provider as the template was. -/
theorem freeFor_kept (hkept : KeptSpec spec result) (provider : Provider) :
    FreeFor provider result ↔ FreeFor provider spec := by
  obtain ⟨hvolume, hpath⟩ := identity_apart provider
  obtain ⟨volumes, hvolumes, hidentity⟩ := hkept.volumes
  refine freeFor_grown ⟨volumes, hvolumes, fun volume hmem ↦ hidentity volume hmem ▸ hvolume⟩ ?_
  refine (List.rel_append hkept.containers hkept.initContainers).imp ?_
  intro container next hstep
  obtain ⟨_, added, hmounts, hadded⟩ := hstep
  exact ⟨added, hmounts, fun mount hmem ↦ hadded mount hmem ▸ hpath⟩

theorem freeFor_resolveWith (config : Config) (ns : String) (spec : PodSpec) (provider : Provider) :
    FreeFor provider (resolveWith config ns spec) ↔ FreeFor provider spec := by
  unfold resolveWith
  split <;> exact Iff.rfl

/-! ## Declared secrets -/

theorem readKeys_valid {provider : String} {seen values : List String}
    (hseen : ∀ key ∈ seen, validID key = true) (hread : readKeys provider seen values = .ok keys) :
    ∀ key ∈ keys, validID key = true := by
  induction values generalizing seen with
  | nil =>
    cases hread
    exact fun key hkey ↦ hseen key (List.mem_reverse.mp hkey)
  | cons value values ih =>
    unfold readKeys at hread
    dsimp only at hread
    split at hread
    · cases hread
    · next hvalid =>
      simp only [Bool.or_eq_true, Bool.not_eq_true', decide_eq_true_eq, not_or,
        Bool.not_eq_false] at hvalid
      exact ih (List.forall_mem_cons.mpr ⟨hvalid.1, hseen⟩) hread

theorem annotationKeys_valid {raw provider : String} (hkeys : annotationKeys raw provider = .ok keys) :
    ∀ key ∈ keys, validID key = true := by
  unfold annotationKeys at hkeys
  split at hkeys
  · cases hkeys
    simp
  · obtain ⟨read, hread, hsorted⟩ := bind_eq_ok.mp hkeys
    cases hsorted
    exact fun key hkey ↦ readKeys_valid (by simp) hread key (mem_sortSlice.mp hkey)

/-- The secrets of a Pod that a provider has. -/
def Provides (config : Config) (get : String → Except String (List UInt8)) (ns pod : String)
    (keys : List String) : Prop :=
  ∀ key ∈ keys, ∀ path, secretName config.cluster ns pod key = .ok path →
    ∃ value, get path = .ok value

theorem fetchSecrets_total {config : Config} {get : String → Except String (List UInt8)} {ns pod : String}
    (hcluster : validID config.cluster = true) (hns : validNamespace ns = true) (hpod : validID pod = true)
    (hkeys : ∀ key ∈ keys, validID key = true) (hprovides : Provides config get ns pod keys)
    (fetched : GoMap String (List UInt8)) :
    ∃ result, fetchSecrets config get ns pod provider fetched keys = .ok result := by
  induction keys generalizing fetched with
  | nil => exact ⟨fetched, rfl⟩
  | cons key keys ih =>
    obtain ⟨hkey, hrest⟩ := List.forall_mem_cons.mp hkeys
    have hname : ∃ path, secretName config.cluster ns pod key = .ok path := by
      simp [secretName, hcluster, hns, hpod, hkey]
    obtain ⟨path, hpath⟩ := hname
    obtain ⟨value, hvalue⟩ := hprovides key List.mem_cons_self path hpath
    obtain ⟨result, hresult⟩ := ih hrest
      (fun other hother ↦ hprovides other (List.mem_cons_of_mem key hother)) (fetched.insert key value)
    refine ⟨result, ?_⟩
    rw [fetchSecrets, hpath, ok_bind, hvalue]
    exact hresult

/-! ## Building -/

section Build

variable {config : Config} {get : Provider → String → Except String (List UInt8)} {ns pod : String}
  {state next : PodSpec × GoMap String (GoMap String (List UInt8))}

/-- A provider whose secrets can be fetched is added unless the spec collides with it. -/
theorem addProvider_isOk {provider : Provider} {keys : List String}
    (hfetch : ∀ fetched, ∃ result,
      fetchSecrets config (get provider) ns pod provider fetched keys = .ok result) :
    (∃ next, addProvider config get ns pod state (provider, keys) = .ok next) ↔
      keys = [] ∨ FreeFor provider state.1 := by
  unfold addProvider
  dsimp only
  split
  · next hempty => simp [List.isEmpty_iff.mp hempty]
  · next hkeys =>
    have hsome : keys ≠ [] := fun hnil ↦ hkeys (List.isEmpty_iff.mpr hnil)
    rw [← @injectProviderMount_isOk state.1 provider
      (Path.join [config.secretDir, pod, provider.name])]
    simp only [hsome, false_or]
    constructor
    · intro hadded
      obtain ⟨added, hadded⟩ := hadded
      obtain ⟨spec, hspec, _⟩ := bind_eq_ok.mp hadded
      exact ⟨spec, hspec⟩
    · intro hinjected
      obtain ⟨spec, hspec⟩ := hinjected
      obtain ⟨values, hvalues⟩ := hfetch ∅
      exact ⟨_, bind_eq_ok.mpr ⟨spec, hspec, bind_eq_ok.mpr ⟨values, hvalues, rfl⟩⟩⟩

theorem freeFor_addProvider (hne : provider ≠ other)
    (hadd : addProvider config get ns pod state (provider, keys) = .ok next) :
    FreeFor other next.1 ↔ FreeFor other state.1 := by
  unfold addProvider at hadd
  dsimp only at hadd
  split at hadd
  · cases hadd
    exact Iff.rfl
  · obtain ⟨spec, hspec, hrest⟩ := bind_eq_ok.mp hadd
    obtain ⟨values, _, hnext⟩ := bind_eq_ok.mp hrest
    cases hnext
    exact freeFor_injected hne hspec

/-- Both providers are added exactly when neither collides with the spec. -/
theorem addProviders_isOk {parameterKeys secretKeys : List String}
    (hparameters : ∀ fetched, ∃ result, fetchSecrets config (get .awsParameterStore) ns pod
      .awsParameterStore fetched parameterKeys = .ok result)
    (hsecrets : ∀ fetched, ∃ result, fetchSecrets config (get .awsSecretsManager) ns pod
      .awsSecretsManager fetched secretKeys = .ok result) :
    (∃ final, [(Provider.awsParameterStore, parameterKeys),
        (Provider.awsSecretsManager, secretKeys)].foldlM (addProvider config get ns pod) state =
          .ok final) ↔
      (parameterKeys = [] ∨ FreeFor .awsParameterStore state.1) ∧
        (secretKeys = [] ∨ FreeFor .awsSecretsManager state.1) := by
  have hapart : Provider.awsParameterStore ≠ .awsSecretsManager := by decide
  simp only [List.foldlM_cons, List.foldlM_nil, bind_eq_ok]
  constructor
  · intro hfinal
    obtain ⟨final, first, hfirst, second, hsecond, _⟩ := hfinal
    refine ⟨(addProvider_isOk hparameters).mp ⟨first, hfirst⟩, ?_⟩
    rw [← freeFor_addProvider hapart hfirst]
    exact (addProvider_isOk hsecrets).mp ⟨second, hsecond⟩
  · intro hfree
    obtain ⟨first, hfirst⟩ := (@addProvider_isOk _ _ _ _ state _ _ hparameters).mpr hfree.1
    have hsecondFree := hfree.2
    rw [← freeFor_addProvider hapart hfirst] at hsecondFree
    obtain ⟨second, hsecond⟩ := (addProvider_isOk hsecrets).mpr hsecondFree
    exact ⟨second, first, hfirst, second, hsecond, rfl⟩

end Build

/-- The annotation of a provider declares valid keys, and the spec does not collide with its mount if
there are any. -/
def Suits (annotations : GoMap String String) (spec : PodSpec) (provider : Provider) : Prop :=
  ∃ keys, annotationKeys ((annotations.lookup provider.annotation).getD "") provider.title = .ok keys ∧
    (keys = [] ∨ FreeFor provider spec)

/-- Every secret that the annotations of a Pod declare exists. -/
def SecretsExist (config : Config) (get : Provider → String → Except String (List UInt8))
    (annotations : GoMap String String) (ns pod : String) : Prop :=
  ∀ provider keys,
    annotationKeys ((annotations.lookup provider.annotation).getD "") provider.title = .ok keys →
      Provides config (get provider) ns pod keys

/-- What a build reads off a stored Pod. -/
theorem build_reads {config : Config} {formats : Formats}
    {get : Provider → String → Except String (List UInt8)} {input : List UInt8} {revision : String}
    {pod : Pod} {built : Built} (hns : validNamespace pod.ns = true)
    (hinput : transformInput formats.parser formats.pods input [] "" = .ok pod)
    (hbuild : build config formats get input revision = .ok built) :
    built.name = pod.name ∧ built.ns = pod.ns ∧
      built.service = pod.annotation "podmin.dev/service" := by
  obtain ⟨other, _, _, _, _, hother, _, _, _, hbuilt⟩ := build_eq_ok.mp hbuild
  rw [hinput] at hother
  cases hother
  rw [hbuilt]
  exact ⟨rfl, if_neg (ne_empty_of_matchLabel hns), rfl⟩

/-- A stored Pod that transforms into itself builds exactly when it suits both providers. -/
theorem build_isOk {config : Config} {formats : Formats}
    {get : Provider → String → Except String (List UInt8)} {input : List UInt8} {revision : String}
    {pod : Pod} (hcluster : validID config.cluster = true) (hns : validNamespace pod.ns = true)
    (hname : validID pod.name = true)
    (hinput : transformInput formats.parser formats.pods input [] "" = .ok pod)
    (hexist : SecretsExist config get pod.annotations pod.ns pod.name) :
    (∃ built, build config formats get input revision = .ok built) ↔
      ∀ provider, Suits pod.annotations pod.spec provider := by
  have hnsSome := ne_empty_of_matchLabel hns
  have hfetch : ∀ provider keys, annotationKeys ((pod.annotations.lookup provider.annotation).getD "")
      provider.title = .ok keys → ∀ fetched, ∃ result,
        fetchSecrets config (get provider) pod.ns pod.name provider fetched keys = .ok result :=
    fun provider keys hkeys ↦ fetchSecrets_total hcluster hns hname (annotationKeys_valid hkeys)
      (hexist provider keys hkeys)
  constructor
  · intro hbuilt
    obtain ⟨built, hbuild⟩ := hbuilt
    obtain ⟨other, parameterKeys, secretKeys, spec, secrets, hother, hparameters, hsecrets, hfold, _⟩ :=
      build_eq_ok.mp hbuild
    rw [hinput] at hother
    cases hother
    rw [if_neg hnsSome] at hfold
    have hfree := (addProviders_isOk (hfetch _ _ hparameters) (hfetch _ _ hsecrets)).mp ⟨_, hfold⟩
    rw [freeFor_resolveWith, freeFor_resolveWith] at hfree
    intro provider
    cases provider with
    | awsParameterStore => exact ⟨parameterKeys, hparameters, hfree.1⟩
    | awsSecretsManager => exact ⟨secretKeys, hsecrets, hfree.2⟩
  · intro hsuits
    obtain ⟨parameterKeys, hparameters, hparametersFree⟩ := hsuits .awsParameterStore
    obtain ⟨secretKeys, hsecrets, hsecretsFree⟩ := hsuits .awsSecretsManager
    rw [← freeFor_resolveWith config pod.ns] at hparametersFree hsecretsFree
    obtain ⟨⟨spec, secrets⟩, hfold⟩ := (@addProviders_isOk _ _ _ _
      (resolveWith config pod.ns pod.spec, ∅) _ _ (hfetch _ _ hparameters) (hfetch _ _ hsecrets)).mpr
        ⟨hparametersFree, hsecretsFree⟩
    refine ⟨_, build_eq_ok.mpr ⟨pod, parameterKeys, secretKeys, spec, secrets, hinput, hparameters,
      hsecrets, ?_, rfl⟩⟩
    rw [if_neg hnsSome]
    exact hfold

end Podmin.Agent.StaticPod
