import Mathlib.Tactic.MkIffOfInductiveProp
import Podmin.Foundation.Fallible
import Podmin.Manifest.Deployment

/-!
# What the transformation of a Pod leaves behind

A transformed Pod is a fixed point of `transformPod`: its images are normalized and its identity mount
is in place. Nothing else of its volumes and mounts has changed.
-/

namespace Podmin.Manifest

open Foundation Fallible Registry

variable {parser : TagParser} {container result : Container} {containers : List Container}
  {found : Option Volume} {volumes : List Volume} {pod : Pod} {spec : PodSpec} {images : List String}
  {revision : String}

/-- All containers of a spec. -/
def PodSpec.allContainers (spec : PodSpec) : List Container :=
  spec.containers ++ spec.initContainers

/-- The mounts of all containers. -/
def PodSpec.mounts (spec : PodSpec) : List VolumeMount :=
  spec.allContainers.flatMap Container.volumeMounts

/-! ## Images -/

theorem normalizeImage_eq_ok :
    normalizeImage parser container = .ok result ↔
      container.image ≠ "" ∧ ∃ reference, parse parser container.image = .ok reference ∧
        result = { container with
          image := reference.name
          imagePullPolicy :=
            if container.imagePullPolicy = "" then "Always" else container.imagePullPolicy } := by
  unfold normalizeImage
  split
  · next hempty => simp [hempty]
  · next hsome =>
    cases parse parser container.image with
    | error message => simp
    | ok reference =>
      simp only [Except.ok.injEq, ne_eq, hsome, not_false_eq_true, exists_eq_left', true_and]
      exact eq_comm

/-- A normalized container stays as it is, whatever is mounted into it. -/
theorem normalizeImage_fixed (hnormalize : normalizeImage parser container = .ok result)
    (mounts : List VolumeMount) :
    normalizeImage parser { result with volumeMounts := mounts } =
      .ok { result with volumeMounts := mounts } := by
  obtain ⟨_, reference, hparse, rfl⟩ := normalizeImage_eq_ok.mp hnormalize
  refine normalizeImage_eq_ok.mpr ⟨name_ne_empty reference, reference, parse_name hparse, ?_⟩
  by_cases hpolicy : container.imagePullPolicy = ""
  · simp [hpolicy]
  · simp [hpolicy]

theorem checkNames_congr {others : List Container} (seen : List String)
    (hnames : containers.map Container.name = others.map Container.name) :
    checkNames seen containers = checkNames seen others := by
  induction containers generalizing seen others with
  | nil =>
    rw [List.map_nil, eq_comm, List.map_eq_nil_iff] at hnames
    rw [hnames]
  | cons container containers ih =>
    cases others with
    | nil => simp at hnames
    | cons other others =>
      obtain ⟨hfirst, hrest⟩ := List.cons.inj hnames
      unfold checkNames
      rw [hfirst, ih _ hrest]

/-! ## Identity mounts -/

theorem identityMounted_of_untouched {mounts rest : List VolumeMount}
    (huntouched : ∀ mount ∈ mounts, touchesIdentity mount = false) :
    identityMounted false (mounts ++ rest) = identityMounted false rest := by
  induction mounts with
  | nil => rfl
  | cons mount mounts ih =>
    obtain ⟨hfirst, hrest⟩ := List.forall_mem_cons.mp huntouched
    rw [List.cons_append, identityMounted, hfirst, Bool.not_false, if_pos rfl, ih hrest]

theorem untouched_of_identityMounted {found : Bool} {mounts : List VolumeMount}
    (hmounted : identityMounted found mounts = .ok false) :
    found = false ∧ ∀ mount ∈ mounts, touchesIdentity mount = false := by
  induction mounts generalizing found with
  | nil =>
    cases hmounted
    exact ⟨rfl, by simp⟩
  | cons mount mounts ih =>
    unfold identityMounted at hmounted
    split at hmounted
    · next huntouched =>
      obtain ⟨hfound, hrest⟩ := ih hmounted
      exact ⟨hfound, List.forall_mem_cons.mpr ⟨by simpa using huntouched, hrest⟩⟩
    · split at hmounted
      · cases hmounted
      · exact absurd (ih hmounted).1 (by simp)

/-- What `mountIdentity` gives has the identity mount, and nothing else is new. -/
theorem mountIdentity_eq_ok (hmount : mountIdentity container = .ok result) :
    (∃ added, result = { container with volumeMounts := container.volumeMounts ++ added } ∧
      ∀ mount ∈ added, mount = identityMount) ∧
    mountIdentity result = .ok result := by
  obtain ⟨found, hfound, hresult⟩ := bind_eq_ok.mp hmount
  cases hresult
  cases found with
  | true =>
    refine ⟨⟨[], by simp, by simp⟩, ?_⟩
    exact bind_eq_ok.mpr ⟨true, hfound, rfl⟩
  | false =>
    refine ⟨⟨[identityMount], by simp, by simp⟩, bind_eq_ok.mpr ⟨true, ?_, rfl⟩⟩
    have huntouched := (untouched_of_identityMounted hfound).2
    simp only [Bool.false_eq_true, if_false]
    rw [identityMounted_of_untouched huntouched]
    decide

/-- A volume that neither is the identity volume nor reaches into the runtime root. -/
def Volume.Plain (volume : Volume) : Prop :=
  volume.name ≠ identityVolumeName ∧
    ∀ hostPath, volume.source.hostPath = some hostPath → reservedHostPath hostPath.path = false

theorem identityVolume_cons_plain {volume : Volume} (hplain : volume.Plain) :
    identityVolume found (volume :: volumes) = identityVolume found volumes := by
  conv_lhs => unfold identityVolume
  rw [if_neg hplain.1]
  cases hsource : volume.source.hostPath with
  | none => rfl
  | some hostPath => simp [hplain.2 hostPath hsource]

theorem identityVolume_of_plain {rest : List Volume} (hplain : ∀ volume ∈ volumes, volume.Plain) :
    identityVolume found (volumes ++ rest) = identityVolume found rest := by
  induction volumes with
  | nil => rfl
  | cons volume volumes ih =>
    obtain ⟨hfirst, hrest⟩ := List.forall_mem_cons.mp hplain
    rw [List.cons_append, identityVolume_cons_plain hfirst, ih hrest]

theorem plain_of_identityVolume (hnone : identityVolume found volumes = .ok none) :
    found = none ∧ ∀ volume ∈ volumes, volume.Plain := by
  induction volumes generalizing found with
  | nil =>
    cases hnone
    exact ⟨rfl, by simp⟩
  | cons volume volumes ih =>
    by_cases hplain : volume.Plain
    · rw [identityVolume_cons_plain hplain] at hnone
      obtain ⟨hfound, hrest⟩ := ih hnone
      exact ⟨hfound, List.forall_mem_cons.mpr ⟨hplain, hrest⟩⟩
    · exfalso
      unfold identityVolume at hnone
      split at hnone
      · cases found with
        | some _ => cases hnone
        | none => exact absurd (ih hnone).1 (by simp)
      · next hname =>
        cases hsource : volume.source.hostPath with
        | none => exact hplain ⟨hname, fun _ hsome ↦ by simp [hsource] at hsome⟩
        | some hostPath =>
          rw [hsource] at hnone
          dsimp only at hnone
          split at hnone
          · cases hnone
          · next hfree =>
            refine hplain ⟨hname, fun other hsome ↦ ?_⟩
            rw [hsource, Option.some.injEq] at hsome
            rw [← hsome]
            simpa using hfree

theorem addIdentityVolume_eq_ok {result : List Volume} {pod : String}
    (hvolumes : addIdentityVolume volumes pod = .ok result) :
    (∃ added, result = volumes ++ added ∧ ∀ volume ∈ added, volume.name = identityVolumeName) ∧
      addIdentityVolume result pod = .ok result := by
  obtain ⟨found, hfound, hresult⟩ := bind_eq_ok.mp hvolumes
  cases found with
  | none =>
    cases hresult
    refine ⟨⟨_, rfl, by simp⟩, bind_eq_ok.mpr ⟨some ⟨identityVolumeName, identitySource pod⟩, ?_, ?_⟩⟩
    · rw [identityVolume_of_plain (plain_of_identityVolume hfound).2]
      simp [identityVolume]
    · simp
  | some volume =>
    have hsource : volume.source = identitySource pod := by
      by_contra hother
      simp [hother] at hresult
    simp only [hsource, ne_eq, not_true_eq_false, if_false, Except.ok.injEq] at hresult
    cases hresult
    exact ⟨⟨[], by simp, by simp⟩, hvolumes⟩

/-! ## Specs -/

/-- The containers of a list changed one by one, with their names and mounts kept but for identity
mounts that are new. -/
def Kept (container result : Container) : Prop :=
  result.name = container.name ∧
    ∃ added, result.volumeMounts = container.volumeMounts ++ added ∧
      ∀ mount ∈ added, mount = identityMount

theorem Kept.refl (container : Container) : Kept container container :=
  ⟨rfl, [], by simp, by simp⟩

theorem Kept.trans {first second third : Container} (hfirst : Kept first second)
    (hsecond : Kept second third) : Kept first third := by
  obtain ⟨hname, added, hmounts, hadded⟩ := hfirst
  obtain ⟨hname', more, hmounts', hmore⟩ := hsecond
  refine ⟨hname'.trans hname, added ++ more, by rw [hmounts', hmounts, List.append_assoc], ?_⟩
  intro mount hmount
  exact (List.mem_append.mp hmount).elim (hadded mount) (hmore mount)

/-- A spec changed in its containers only, and in identity volumes that are new. -/
structure KeptSpec (spec result : PodSpec) : Prop where
  containers : List.Forall₂ Kept spec.containers result.containers
  initContainers : List.Forall₂ Kept spec.initContainers result.initContainers
  volumes : ∃ added, result.volumes = spec.volumes ++ added ∧
    ∀ volume ∈ added, volume.name = identityVolumeName

theorem KeptSpec.refl (spec : PodSpec) : KeptSpec spec spec where
  containers := List.forall₂_same.mpr fun container _ ↦ Kept.refl container
  initContainers := List.forall₂_same.mpr fun container _ ↦ Kept.refl container
  volumes := ⟨[], by simp, by simp⟩

theorem KeptSpec.trans {first second third : PodSpec} (hfirst : KeptSpec first second)
    (hsecond : KeptSpec second third) : KeptSpec first third where
  containers := forall₂_comp hfirst.containers hsecond.containers fun _ _ _ hone htwo ↦ hone.trans htwo
  initContainers :=
    forall₂_comp hfirst.initContainers hsecond.initContainers fun _ _ _ hone htwo ↦ hone.trans htwo
  volumes := by
    obtain ⟨added, hvolumes, hadded⟩ := hfirst.volumes
    obtain ⟨more, hvolumes', hmore⟩ := hsecond.volumes
    refine ⟨added ++ more, by rw [hvolumes', hvolumes, List.append_assoc], ?_⟩
    intro volume hvolume
    exact (List.mem_append.mp hvolume).elim (hadded volume) (hmore volume)

theorem setImage_kept (name image : String) (container : Container) :
    Kept container (setImage name image container) := by
  unfold setImage
  split
  · exact ⟨rfl, [], by simp, by simp⟩
  · exact Kept.refl container

theorem mapContainers_kept (spec : PodSpec) (name image : String) :
    KeptSpec spec (spec.mapContainers (setImage name image)) where
  containers := List.forall₂_map_right_iff.mpr
    (List.forall₂_same.mpr fun container _ ↦ setImage_kept name image container)
  initContainers := List.forall₂_map_right_iff.mpr
    (List.forall₂_same.mpr fun container _ ↦ setImage_kept name image container)
  volumes := ⟨[], by simp [PodSpec.mapContainers], by simp⟩

theorem overrideNamed_kept {next : PodSpec} {entry : String × String}
    (hoverride : overrideNamed spec entry = .ok next) : KeptSpec spec next := by
  unfold overrideNamed at hoverride
  split at hoverride
  · cases hoverride
    exact mapContainers_kept spec entry.1 entry.2
  · cases hoverride

theorem overrides_kept {result : PodSpec} (hoverrides : overrides spec images = .ok result) :
    KeptSpec spec result := by
  obtain ⟨⟨bare, named⟩, _, happlied⟩ := bind_eq_ok.mp hoverrides
  dsimp only at happlied
  split at happlied
  · cases happlied
  · split at happlied
    · split at happlied
      · cases happlied
        exact mapContainers_kept spec _ bare
      · cases happlied
    · have hstep : ∀ (_ : List (String × String)) entry (state next : PodSpec),
          KeptSpec spec state → overrideNamed state entry = .ok next → KeptSpec spec next :=
        fun _ _ _ _ hkept hnext ↦ hkept.trans (overrideNamed_kept hnext)
      exact @foldlM_success _ _ _ _ (fun _ state ↦ KeptSpec spec state) hstep _ [] _ _
        (KeptSpec.refl spec) happlied

/-- Without overrides a spec stays as it is. -/
theorem overrides_nil (spec : PodSpec) : overrides spec [] = .ok spec := rfl

theorem normalizeImage_kept (hnormalize : normalizeImage parser container = .ok result) :
    Kept container result := by
  obtain ⟨_, reference, _, rfl⟩ := normalizeImage_eq_ok.mp hnormalize
  exact ⟨rfl, [], by simp, by simp⟩

theorem mountIdentity_kept (hmount : mountIdentity container = .ok result) : Kept container result := by
  obtain ⟨⟨added, rfl, hadded⟩, _⟩ := mountIdentity_eq_ok hmount
  exact ⟨rfl, added, rfl, hadded⟩

/-- A container that neither step of the transformation changes. -/
def Settled (parser : TagParser) (container : Container) : Prop :=
  normalizeImage parser container = .ok container ∧ mountIdentity container = .ok container

theorem settled_of_steps {normalized : Container}
    (hnormalize : normalizeImage parser container = .ok normalized)
    (hmount : mountIdentity normalized = .ok result) : Settled parser result := by
  obtain ⟨⟨added, rfl, _⟩, hfixed⟩ := mountIdentity_eq_ok hmount
  exact ⟨normalizeImage_fixed hnormalize _, hfixed⟩

variable {results : List Container}

theorem settled_of_mapM {normalized : List Container}
    (hnormalize : containers.mapM (normalizeImage parser) = .ok normalized)
    (hmount : normalized.mapM mountIdentity = .ok results) :
    List.Forall₂ Kept containers results ∧ ∀ result ∈ results, Settled parser result := by
  have hfirst := mapM_eq_ok.mp hnormalize
  have hsecond := mapM_eq_ok.mp hmount
  constructor
  · exact forall₂_comp hfirst hsecond fun _ _ _ hone htwo ↦
      (normalizeImage_kept hone).trans (mountIdentity_kept htwo)
  · intro result hresult
    obtain ⟨middle, hmiddle, hstep⟩ := forall₂_mem_right hsecond hresult
    obtain ⟨container, _, hbefore⟩ := forall₂_mem_right hfirst hmiddle
    exact settled_of_steps hbefore hstep

theorem names_of_kept (hkept : List.Forall₂ Kept containers results) :
    results.map Container.name = containers.map Container.name := by
  induction hkept with
  | nil => rfl
  | cons hfirst _ ih => rw [List.map_cons, List.map_cons, hfirst.1, ih]

/-! ## Pods -/

/-- What a transformation makes of a Pod: the parts the agent reads again, and that it would leave the
Pod alone, whatever its annotations. -/
structure Transformed (parser : TagParser) (pod result : Pod) (revision : String) : Prop where
  name : result.name = pod.name
  ns : result.ns = pod.ns
  apiVersion : result.apiVersion = pod.apiVersion
  kind : result.kind = pod.kind
  validName : validID pod.name = true
  annotations : result.annotations =
    if revision ≠ "" then pod.annotations.insert "podmin.dev/revision" revision else pod.annotations
  kept : KeptSpec pod.spec result.spec
  fixed : ∀ annotations, transformPod parser { result with annotations } [] "" =
    .ok { result with annotations }

/-- The parts of a successful transformation of a spec. -/
theorem injectIdentity_eq_ok {result : PodSpec} {pod : String} :
    injectIdentity spec pod = .ok result ↔
      ∃ volumes containers initContainers, addIdentityVolume spec.volumes pod = .ok volumes ∧
        spec.containers.mapM mountIdentity = .ok containers ∧
        spec.initContainers.mapM mountIdentity = .ok initContainers ∧
        result = { spec with volumes, containers, initContainers } := by
  unfold injectIdentity
  simp only [bind_eq_ok, Except.ok.injEq]
  constructor
  · intro hparts
    obtain ⟨volumes, hvolumes, containers, hcontainers, initContainers, hinit, heq⟩ := hparts
    exact ⟨volumes, containers, initContainers, hvolumes, hcontainers, hinit, heq.symm⟩
  · intro hparts
    obtain ⟨volumes, containers, initContainers, hvolumes, hcontainers, hinit, heq⟩ := hparts
    exact ⟨volumes, hvolumes, containers, hcontainers, initContainers, hinit, heq.symm⟩

variable {result : Pod}

theorem transformPod_eq_ok :
    transformPod parser pod images revision = .ok result ↔
      validID pod.name = true ∧ pod.spec.containers ≠ [] ∧
        checkNames [] (pod.spec.containers ++ pod.spec.initContainers) = .ok () ∧
        ∃ overridden containers initContainers spec,
          overrides pod.spec images = .ok overridden ∧
          overridden.containers.mapM (normalizeImage parser) = .ok containers ∧
          overridden.initContainers.mapM (normalizeImage parser) = .ok initContainers ∧
          injectIdentity { overridden with containers, initContainers } pod.name = .ok spec ∧
          result = { (if revision ≠ "" then pod.annotate "podmin.dev/revision" revision else pod) with
            spec } := by
  have hspec : (if revision ≠ "" then pod.annotate "podmin.dev/revision" revision else pod).spec =
      pod.spec := by
    split <;> rfl
  have hname : (if revision ≠ "" then pod.annotate "podmin.dev/revision" revision else pod).name =
      pod.name := by
    split <;> rfl
  unfold transformPod
  simp only [hspec, hname]
  by_cases hvalid : validID pod.name = true
  · by_cases hempty : pod.spec.containers = []
    · simp [hvalid, hempty]
    · simp only [hvalid, hempty, Bool.not_true, Bool.false_eq_true, if_false, List.isEmpty_iff,
        bind_eq_ok, Except.ok.injEq, ne_eq, not_false_eq_true, true_and]
      constructor
      · intro hparts
        obtain ⟨_, hnames, overridden, hoverrides, containers, hcontainers, initContainers, hinit,
          spec, hinject, heq⟩ := hparts
        exact ⟨hnames, overridden, containers, initContainers, spec, hoverrides, hcontainers, hinit,
          hinject, heq.symm⟩
      · intro hparts
        obtain ⟨hnames, overridden, containers, initContainers, spec, hoverrides, hcontainers, hinit,
          hinject, heq⟩ := hparts
        exact ⟨(), hnames, overridden, hoverrides, containers, hcontainers, initContainers, hinit,
          spec, hinject, heq.symm⟩
  · simp [hvalid]

/-- The transformation does not read annotations. -/
theorem transformPod_annotations (htransform : transformPod parser pod images "" = .ok result)
    (annotations : GoMap String String) :
    transformPod parser { pod with annotations } images "" = .ok { result with annotations } := by
  obtain ⟨hvalid, hsome, hnames, overridden, containers, initContainers, spec, hoverrides, hcontainers,
    hinit, hinject, hresult⟩ := transformPod_eq_ok.mp htransform
  refine transformPod_eq_ok.mpr ⟨hvalid, hsome, hnames, overridden, containers, initContainers, spec,
    hoverrides, hcontainers, hinit, hinject, ?_⟩
  rw [hresult]
  simp

theorem transformed_of_transformPod (htransform : transformPod parser pod images revision = .ok result) :
    Transformed parser pod result revision := by
  obtain ⟨hvalid, hsome, hnames, overridden, normalized, normalizedInit, spec, hoverrides, hcontainers,
    hinit, hinject, hresult⟩ := transformPod_eq_ok.mp htransform
  obtain ⟨volumes, containers, initContainers, hvolumes, hmount, hmountInit, hspec⟩ :=
    injectIdentity_eq_ok.mp hinject
  have hkept := overrides_kept hoverrides
  obtain ⟨hmounted, hsettled⟩ := settled_of_mapM hcontainers hmount
  obtain ⟨hmountedInit, hsettledInit⟩ := settled_of_mapM hinit hmountInit
  obtain ⟨hadded, hfixedVolumes⟩ := addIdentityVolume_eq_ok hvolumes
  have hkeptSpec : KeptSpec pod.spec spec := by
    refine hkept.trans ?_
    rw [hspec]
    exact ⟨hmounted, hmountedInit, hadded⟩
  have hfixedSpec : injectIdentity spec pod.name = .ok spec := by
    rw [hspec]
    exact injectIdentity_eq_ok.mpr ⟨volumes, containers, initContainers, hfixedVolumes,
      mapM_eq_self fun container hmem ↦ (hsettled container hmem).2,
      mapM_eq_self fun container hmem ↦ (hsettledInit container hmem).2, rfl⟩
  have hresultName : result.name = pod.name := by
    rw [hresult]
    split <;> rfl
  have hresultSpec : result.spec = spec := by rw [hresult]
  have hcontainersEq : spec.containers = containers := by rw [hspec]
  have hinitEq : spec.initContainers = initContainers := by rw [hspec]
  refine ⟨hresultName, ?_, ?_, ?_, hvalid, ?_, hresultSpec ▸ hkeptSpec, ?_⟩
  · rw [hresult]
    split <;> rfl
  · rw [hresult]
    split <;> rfl
  · rw [hresult]
    split <;> rfl
  · rw [hresult]
    split <;> rfl
  · intro annotations
    refine transformPod_eq_ok.mpr ⟨hresultName ▸ hvalid, ?_, ?_, spec, containers, initContainers, spec,
      ?_, ?_, ?_, ?_, ?_⟩
    · intro hempty
      have hlength := hkeptSpec.containers.length_eq
      rw [← hresultSpec, hempty] at hlength
      exact hsome (List.length_eq_zero_iff.mp hlength)
    · rw [← hnames]
      refine checkNames_congr [] ?_
      rw [List.map_append, List.map_append, hresultSpec, names_of_kept hkeptSpec.containers,
        names_of_kept hkeptSpec.initContainers]
    · rw [hresultSpec, overrides_nil]
    · rw [hcontainersEq]
      exact mapM_eq_self fun container hmem ↦ (hsettled container hmem).1
    · rw [hinitEq]
      exact mapM_eq_self fun container hmem ↦ (hsettledInit container hmem).1
    · rw [← hcontainersEq, ← hinitEq]
      exact hresultName ▸ hfixedSpec
    · simp [← hresultSpec]

/-! ## Services -/

/-- A port the Service parser accepts. -/
@[mk_iff]
structure ServicePort.Valid (port : ServicePort) : Prop where
  protocol : port.protocol = "TCP" ∨ port.protocol = "UDP"
  range : 1 ≤ port.port ∧ port.port ≤ 65535
  targetRange : 1 ≤ port.targetPort ∧ port.targetPort ≤ 65535

/-- What tells the ports of one Service apart. -/
def ServicePort.key (port : ServicePort) : String × Int :=
  (port.protocol, port.port)

/-- A Service the parser accepts. -/
@[mk_iff]
structure Service.Valid (service : Service) : Prop where
  name : validID service.name = true
  ns : validNamespace service.ns = true
  selector : service.selector.pairs.isEmpty = false
  nonempty : service.ports ≠ []
  ports : ∀ port ∈ service.ports, port.Valid
  nodup : (service.ports.map ServicePort.key).Nodup

instance decidableValidPort (port : ServicePort) : Decidable port.Valid :=
  decidable_of_iff _ (ServicePort.valid_iff port).symm

instance decidableValidService (service : Service) : Decidable service.Valid :=
  decidable_of_iff _ (Service.valid_iff service).symm

theorem parseServicePort_valid {wire : ServicePortDocument} {port : ServicePort}
    (hparse : parseServicePort wire = .ok port) : port.Valid ∧ port.name = wire.name := by
  unfold parseServicePort at hparse
  dsimp only at hparse
  generalize (if wire.protocol = "" then "TCP" else wire.protocol) = protocol at hparse
  split at hparse
  · cases hparse
  next hprotocol =>
  split at hparse
  · cases hparse
  next hport =>
  split at hparse
  · cases hparse
  next targetPort htarget =>
  split at hparse
  · cases hparse
  next hrange =>
  cases hparse
  rw [not_and_or, not_not, not_not] at hprotocol
  rw [not_or, not_lt, not_lt] at hport hrange
  exact ⟨⟨hprotocol, hport, hrange⟩, rfl⟩

theorem parseServicePorts_valid {parsed ports : List ServicePort} {wires : List ServicePortDocument}
    (hvalid : ∀ port ∈ parsed, port.Valid) (hnodup : (parsed.map ServicePort.key).Nodup)
    (hparse : parseServicePorts parsed wires = .ok ports) :
    (∀ port ∈ ports, port.Valid) ∧ (ports.map ServicePort.key).Nodup ∧
      ports.map ServicePort.name = (parsed.map ServicePort.name).reverse ++
        wires.map ServicePortDocument.name := by
  induction wires generalizing parsed with
  | nil =>
    cases hparse
    refine ⟨fun port hport ↦ hvalid port (List.mem_reverse.mp hport), ?_, by simp⟩
    rw [List.map_reverse]
    exact List.nodup_reverse.mpr hnodup
  | cons wire wires ih =>
    obtain ⟨port, hport, hrest⟩ := bind_eq_ok.mp hparse
    split at hrest
    · cases hrest
    · next hfresh =>
      have hkey : port.key ∉ parsed.map ServicePort.key := by
        intro hmem
        obtain ⟨other, hother, hsame⟩ := List.mem_map.mp hmem
        rw [ServicePort.key, ServicePort.key, Prod.mk.injEq] at hsame
        exact hfresh (List.any_eq_true.mpr ⟨other, hother, decide_eq_true hsame⟩)
      obtain ⟨hfirst, hname⟩ := parseServicePort_valid hport
      obtain ⟨hall, hkeys, hnames⟩ := ih (List.forall_mem_cons.mpr ⟨hfirst, hvalid⟩)
        (List.nodup_cons.mpr ⟨hkey, hnodup⟩) hrest
      refine ⟨hall, hkeys, ?_⟩
      rw [hnames]
      simp [hname]

variable {document : ServiceDocument}

/-- Whatever the parser accepts is valid, and as the document has it. -/
theorem parseService_eq_ok {service : Service} (hparse : parseService document = .ok service) :
    service.Valid ∧ service.name = document.name ∧
      service.ns = (if document.ns = "" then "default" else document.ns) ∧
        service.selector = document.selector ∧
      service.ports.map ServicePort.name = document.ports.map ServicePortDocument.name := by
  unfold parseService at hparse
  dsimp only at hparse
  generalize (if document.ns = "" then "default" else document.ns) = ns at hparse ⊢
  split at hparse
  · cases hparse
  split at hparse
  · cases hparse
  next hnames =>
  split at hparse
  · cases hparse
  next hempty =>
  obtain ⟨ports, hports, hservice⟩ := bind_eq_ok.mp hparse
  cases hservice
  simp only [Bool.or_eq_true, Bool.not_eq_true', not_or, Bool.not_eq_false] at hnames hempty
  obtain ⟨hvalid, hnodup, hread⟩ := parseServicePorts_valid (by simp) (by simp) hports
  refine ⟨⟨hnames.1, hnames.2, by simpa using hempty.1, ?_, hvalid, hnodup⟩, rfl, rfl, rfl, hread⟩
  intro hnil
  rw [show ports = [] from hnil] at hread
  exact hempty.2 (List.isEmpty_iff.mpr (List.map_eq_nil_iff.mp hread.symm))

theorem parseService_valid {service : Service} (hparse : parseService document = .ok service) : service.Valid :=
  (parseService_eq_ok hparse).1

/-! ## Deployments -/

theorem deploymentService_eq_ok {codec : ServiceCodec} {ns : String} {result : Service × List UInt8}
    (hservice : deploymentService codec ns document = .ok result) :
    parseService document = .ok result.1 ∧ result.1.ns = ns ∧
      result.2 = codec.encode (canonicalDocument result.1) := by
  obtain ⟨service, hparse, hchecked⟩ := bind_eq_ok.mp hservice
  split at hchecked
  · cases hchecked
  · next hns =>
    cases hchecked
    exact ⟨hparse, not_not.mp hns, rfl⟩

/-- What `ParseDeployment` makes of a DaemonSet and an optional Service. -/
structure Parsed (parser : TagParser) (pods : PodCodec) (services : ServiceCodec)
    (daemonSet : DaemonSet) (document : Option ServiceDocument) (revision : String) (pod : Pod)
    (deployment : Deployment) : Prop where
  validName : validID daemonSet.name = true
  ns : pod.ns = if daemonSet.ns = "" then "default" else daemonSet.ns
  validNs : validNamespace pod.ns = true
  transformed : Transformed parser (daemonSet.pod pod.ns) pod revision
  stored : match deployment.service with
    | none => document = none ∧ deployment.pod = pods.encode pod
    | some (service, yaml) => document ≠ none ∧ service.Valid ∧ service.ns = pod.ns ∧
        yaml = services.encode (canonicalDocument service) ∧
        deployment.pod = pods.encode (pod.annotate "podmin.dev/service" service.name)

theorem parseDeployment_eq_ok {pods : PodCodec} {services : ServiceCodec} {documents : List Document}
    {expectedName nodeGroup : String} {deployment : Deployment}
    (hparse : parseDeployment parser pods services documents images revision expectedName nodeGroup =
      .ok deployment) :
    ∃ daemonSet document pod, documents.foldlM readDocument (none, none) = .ok (some daemonSet, document) ∧
      (expectedName ≠ "" → daemonSet.name = expectedName) ∧
      Parsed parser pods services daemonSet document revision pod deployment := by
  obtain ⟨⟨found, document⟩, hread, hrest⟩ := bind_eq_ok.mp hparse
  cases found with
  | none => cases hrest
  | some daemonSet =>
    dsimp only at hrest
    generalize hns : (if daemonSet.ns = "" then "default" else daemonSet.ns) = ns at hrest
    generalize hexpected : (if expectedName = "" then daemonSet.name else expectedName) = expected at hrest
    generalize (if nodeGroup = "" then selectedNodeGroup daemonSet.spec else nodeGroup) = group at hrest
    split at hrest
    · cases hrest
    next hnames =>
    split at hrest
    · cases hrest
    split at hrest
    · cases hrest
    obtain ⟨pod, htransform, hstored⟩ := bind_eq_ok.mp hrest
    have htransformed := transformed_of_transformPod htransform
    have hpodNs : pod.ns = ns := htransformed.ns
    simp only [not_or, ne_eq, not_not, Bool.not_eq_true', Bool.not_eq_false] at hnames
    refine ⟨daemonSet, document, pod, hread, ?_, hnames.2.1, hpodNs.trans hns.symm,
      hpodNs ▸ hnames.2.2, hpodNs ▸ htransformed, ?_⟩
    · intro hsome
      rw [hnames.1, ← hexpected, if_neg hsome]
    · cases document with
      | none =>
        cases hstored
        exact ⟨rfl, rfl⟩
      | some document =>
        obtain ⟨service, hservice, hresult⟩ := bind_eq_ok.mp hstored
        obtain ⟨hparsed, hserviceNs, hyaml⟩ := deploymentService_eq_ok hservice
        cases hresult
        exact ⟨by simp, parseService_valid hparsed, hserviceNs.trans hpodNs.symm, hyaml, rfl⟩

end Podmin.Manifest
