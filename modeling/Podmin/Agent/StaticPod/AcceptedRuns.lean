import Podmin.Agent.StaticPod.ExclusiveMounts

/-!
# Committed deployments the agent can run

For an entry the CLI has committed, the agent's processing succeeds exactly when the template suits
both secret providers and annotates a Service only if the stream has one. One entry that does not
makes the candidate loop of the whole NodeGroup fail.
-/

namespace Podmin.Agent.StaticPod

open Foundation Fallible Manifest Registry
open Agent.Workload

variable {annotations : GoMap String String} {pod : Pod} {daemonSet : DaemonSet}
  {document : Option ServiceDocument} {built : Built} {progress : Progress}

/-! ## Submissions -/

/-- What a user hands to the CLI for one deployment. -/
structure Submission where
  documents : List Document
  images : List String := []
  revision : String := ""

/-- The DaemonSet and the Service of a stream. -/
def Submission.parts (submission : Submission) :
    Except String (Option DaemonSet × Option ServiceDocument) :=
  submission.documents.foldlM readDocument (none, none)

/-- The template suits both secret providers, and annotates no Service when the stream has none. -/
def Submission.Runnable (submission : Submission) : Prop :=
  ∀ daemonSet document, submission.parts = .ok (some daemonSet, document) →
    (∀ provider, Suits daemonSet.annotations daemonSet.spec provider) ∧
      (document = none → (daemonSet.annotations.lookup "podmin.dev/service").getD "" = "")

/-- Every secret the template declares exists. -/
def Submission.SecretsExist (submission : Submission) (config : Config)
    (get : Provider → String → Except String (List UInt8)) : Prop :=
  ∀ daemonSet document, submission.parts = .ok (some daemonSet, document) →
    StaticPod.SecretsExist config get daemonSet.annotations
      (if daemonSet.ns = "" then "default" else daemonSet.ns) daemonSet.name

/-- The CLI accepted the submission and committed the entry, its objects are readable and its secrets
exist. -/
structure Deployed (config : Config) (formats : Formats) (call : Call) (name : String)
    (submission : Submission) (deployment : Deployment) : Prop where
  parsed : parseDeployment formats.parser formats.pods formats.services submission.documents
    submission.images submission.revision name config.nodeGroup = .ok deployment
  valid : (Cli.Deploy.Call.apply config.nodeGroup name deployment).valid = true
  readable : ∀ payload ∈ (Cli.Deploy.Call.apply config.nodeGroup name deployment).payloads,
    call.objects payload.1 = .ok payload.2
  secrets : submission.SecretsExist config call.secrets

/-- The entry a deployment is committed under. -/
def committedEntry (config : Config) (deployment : Deployment) : IndexDeployment :=
  Cli.Deploy.indexDeployment config.nodeGroup deployment

/-! ## One entry -/

theorem lookup_revision (annotations : GoMap String String) (revision key : String)
    (hkey : key ≠ "podmin.dev/revision") :
    (if revision ≠ "" then annotations.insert "podmin.dev/revision" revision
      else annotations).lookup key = annotations.lookup key := by
  split
  · rw [GoMap.lookup_insert_eq, if_neg hkey]
  · rfl

variable {others : GoMap String String}

theorem suits_congr {spec result : PodSpec}
    (hlookup : ∀ provider : Provider,
      annotations.lookup provider.annotation = others.lookup provider.annotation)
    (hfree : ∀ provider, FreeFor provider result ↔ FreeFor provider spec) (provider : Provider) :
    Suits annotations result provider ↔ Suits others spec provider := by
  unfold Suits
  simp only [hlookup, hfree]

theorem secretsExist_congr {config : Config} {get : Provider → String → Except String (List UInt8)}
    {ns pod : String}
    (hlookup : ∀ provider : Provider,
      annotations.lookup provider.annotation = others.lookup provider.annotation)
    (hexist : SecretsExist config get others ns pod) :
    SecretsExist config get annotations ns pod := by
  intro provider keys hkeys
  rw [hlookup] at hkeys
  exact hexist provider keys hkeys

theorem provider_annotation_ne (provider : Provider) :
    provider.annotation ≠ "podmin.dev/revision" ∧ provider.annotation ≠ "podmin.dev/service" := by
  cases provider <;> decide

/-- The stored Pod is read back as it was written. -/
theorem transformInput_encode {formats : Formats} (hversion : pod.apiVersion = "v1") (hkind : pod.kind = "Pod")
    (hfixed : transformPod formats.parser pod [] "" = .ok pod) :
    transformInput formats.parser formats.pods (formats.pods.encode pod) [] "" = .ok pod := by
  have hparse : parsePod formats.pods (formats.pods.encode pod) = .ok pod := by
    simp [parsePod, formats.pods.decode_encode, hversion, hkind]
  rw [transformInput, hparse, ok_bind, hfixed]

section Entry

variable {config : Config} {formats : Formats} {call : Call} {name : String}
  {submission : Submission} {deployment : Deployment}

/-- The Pod a committed entry stores, and what the agent reads of it. -/
structure StoredPod (config : Config) (formats : Formats) (call : Call) (deployment : Deployment)
    (daemonSet : DaemonSet) (document : Option ServiceDocument) (pod : Pod) : Prop where
  input : transformInput formats.parser formats.pods deployment.pod [] "" = .ok pod
  name : pod.name = daemonSet.name
  validName : validID pod.name = true
  validNs : validNamespace pod.ns = true
  secrets : SecretsExist config call.secrets pod.annotations pod.ns pod.name
  suits : ∀ provider, Suits pod.annotations pod.spec provider ↔
    Suits daemonSet.annotations daemonSet.spec provider
  service : match deployment.service with
    | none => document = none ∧ pod.annotation "podmin.dev/service" =
        (daemonSet.annotations.lookup "podmin.dev/service").getD ""
    | some (service, yaml) => document ≠ none ∧ service.Valid ∧ service.ns = pod.ns ∧
        yaml = formats.services.encode (canonicalDocument service) ∧
        pod.annotation "podmin.dev/service" = service.name

theorem storedPod_of_parsed
    (hparsed : Parsed formats.parser formats.pods formats.services daemonSet document submission.revision pod
      deployment)
    (hsecrets : SecretsExist config call.secrets daemonSet.annotations
      (if daemonSet.ns = "" then "default" else daemonSet.ns) daemonSet.name) :
    ∃ stored, StoredPod config formats call deployment daemonSet document stored := by
  have htransformed := hparsed.transformed
  have hname : pod.name = daemonSet.name := htransformed.name
  have hnameds : ∀ key, key ≠ "podmin.dev/revision" →
      pod.annotations.lookup key = daemonSet.annotations.lookup key := by
    intro key hkey
    rw [htransformed.annotations]
    exact lookup_revision daemonSet.annotations submission.revision key hkey
  have hprovider : ∀ provider : Provider, pod.annotations.lookup provider.annotation =
      daemonSet.annotations.lookup provider.annotation :=
    fun provider ↦ hnameds _ (provider_annotation_ne provider).1
  have hfree : ∀ provider, FreeFor provider pod.spec ↔ FreeFor provider daemonSet.spec :=
    fun provider ↦ freeFor_kept htransformed.kept provider
  have hstored := hparsed.stored
  -- Without a Service the Pod is stored as it is, otherwise with one more annotation.
  cases hservice : deployment.service with
  | none =>
    rw [hservice] at hstored
    refine ⟨pod, ?_, hname, hname ▸ hparsed.validName, hparsed.validNs, ?_,
      suits_congr hprovider hfree, ?_⟩
    · rw [hstored.2]
      exact transformInput_encode htransformed.apiVersion htransformed.kind
        (htransformed.fixed pod.annotations)
    · rw [hparsed.ns, hname]
      exact secretsExist_congr hprovider hsecrets
    · rw [hservice]
      refine ⟨hstored.1, ?_⟩
      rw [Pod.annotation, hnameds _ (by decide)]
  | some parts =>
    obtain ⟨service, yaml⟩ := parts
    rw [hservice] at hstored
    obtain ⟨hdocument, hvalid, hserviceNs, hyaml, hpod⟩ := hstored
    have hannotated : ∀ provider : Provider,
        (pod.annotate "podmin.dev/service" service.name).annotations.lookup provider.annotation =
          daemonSet.annotations.lookup provider.annotation := by
      intro provider
      rw [Pod.annotate, GoMap.lookup_insert_eq, if_neg (provider_annotation_ne provider).2]
      exact hprovider provider
    refine ⟨pod.annotate "podmin.dev/service" service.name, ?_, hname, hname ▸ hparsed.validName,
      hparsed.validNs, ?_, suits_congr hannotated hfree, ?_⟩
    · rw [hpod]
      exact transformInput_encode htransformed.apiVersion htransformed.kind
        (htransformed.fixed _)
    · have hns : (pod.annotate "podmin.dev/service" service.name).ns =
          if daemonSet.ns = "" then "default" else daemonSet.ns := hparsed.ns
      have hsameName : (pod.annotate "podmin.dev/service" service.name).name = daemonSet.name := hname
      rw [hns, hsameName]
      exact secretsExist_congr hannotated hsecrets
    · rw [hservice]
      refine ⟨hdocument, hvalid, hserviceNs, hyaml, ?_⟩
      rw [Pod.annotation, Pod.annotate, GoMap.lookup_insert_eq, if_pos rfl]
      rfl

theorem Deployed.stored (hdeployed : Deployed config formats call name submission deployment) :
    ∃ daemonSet document pod, submission.parts = .ok (some daemonSet, document) ∧
      daemonSet.name = name ∧ StoredPod config formats call deployment daemonSet document pod := by
  obtain ⟨daemonSet, document, pod, hparts, hname, hparsed⟩ := parseDeployment_eq_ok hdeployed.parsed
  have hvalid := hdeployed.valid
  simp only [Cli.Deploy.Call.valid, Bool.and_eq_true] at hvalid
  have hsome : name ≠ "" := ne_empty_of_matchLabel hvalid.2
  obtain ⟨stored, hstored⟩ := storedPod_of_parsed hparsed
    (hdeployed.secrets daemonSet document hparts)
  exact ⟨daemonSet, document, stored, hparts, hname hsome, hstored⟩

/-- The agent loads the Pod of a committed entry exactly when the template suits both providers. -/
theorem loadPod_isOk (hcluster : validID config.cluster = true)
    (hdeployed : Deployed config formats call name submission deployment) (hname : daemonSet.name = name)
    (hstored : StoredPod config formats call deployment daemonSet document pod) :
    (∃ built, loadPod config formats call name (committedEntry config deployment) = .ok built) ↔
      ∀ provider, Suits daemonSet.annotations daemonSet.spec provider := by
  have hread : call.objects (committedEntry config deployment).pod = .ok deployment.pod :=
    hdeployed.readable (_, _) List.mem_cons_self
  have hverify : verify (committedEntry config deployment).pod deployment.pod = true :=
    Cli.Deploy.verify_podKey config.nodeGroup deployment.pod
  have hbuild := @build_isOk config formats call.secrets deployment.pod
    (deploymentRevision (committedEntry config deployment)) pod hcluster hstored.validNs
    hstored.validName hstored.input hstored.secrets
  rw [← forall_congr' hstored.suits, ← hbuild]
  refine exists_congr fun built ↦ ?_
  rw [loadPod_eq_ok]
  constructor
  · intro hload
    obtain ⟨input, hinput, _, hbuilt, _⟩ := hload
    rw [hread] at hinput
    cases hinput
    exact hbuilt
  · intro hbuilt
    have hbuiltName := (build_reads hstored.validNs hstored.input hbuilt).1
    exact ⟨deployment.pod, hread, hverify, hbuilt, by rw [hbuiltName, hstored.name, hname]⟩

theorem loadPod_reads (hdeployed : Deployed config formats call name submission deployment)
    (hstored : StoredPod config formats call deployment daemonSet document pod)
    (hload : loadPod config formats call name (committedEntry config deployment) = .ok built) :
    built.ns = pod.ns ∧ built.service = pod.annotation "podmin.dev/service" := by
  have hread : call.objects (committedEntry config deployment).pod = .ok deployment.pod :=
    hdeployed.readable (_, _) List.mem_cons_self
  obtain ⟨input, hinput, _, hbuilt, _⟩ := loadPod_eq_ok.mp hload
  rw [hread] at hinput
  cases hinput
  exact (build_reads hstored.validNs hstored.input hbuilt).2

theorem loadService_committed {service : Service} {yaml : List UInt8}
    (hdeployed : Deployed config formats call name submission deployment)
    (hservice : deployment.service = some (service, yaml)) (hvalid : service.Valid)
    (hyaml : yaml = formats.services.encode (canonicalDocument service)) (hname : built.service = service.name)
    (hns : built.ns = service.ns) :
    loadService formats call built (committedEntry config deployment).service = .ok service := by
  have hpath : (committedEntry config deployment).service = Cli.Deploy.serviceKey service yaml := by
    simp [committedEntry, Cli.Deploy.indexDeployment, hservice]
  have hread : call.objects (Cli.Deploy.serviceKey service yaml) = .ok yaml := by
    refine hdeployed.readable (Cli.Deploy.serviceKey service yaml, yaml) (List.mem_cons_of_mem _ ?_)
    rw [hservice]
    exact List.mem_cons_self
  rw [hpath]
  refine loadService_eq_ok.mpr ⟨yaml, hread, Cli.Deploy.verify_serviceKey service yaml, ?_, hname, hns,
    Cli.Deploy.serviceIdentity_serviceKey hvalid.ns hvalid.name yaml⟩
  rw [parseServiceInput, hyaml, formats.services.decode_encode]
  exact parseService_canonicalDocument hvalid

/-- The agent can process a committed entry exactly when the submission is runnable. -/
theorem runs_iff_runnable (hcluster : validID config.cluster = true)
    (hdeployed : Deployed config formats call name submission deployment) :
    Runs config formats call name (committedEntry config deployment) ↔ submission.Runnable := by
  obtain ⟨daemonSet, document, pod, hparts, hname, hstored⟩ := hdeployed.stored
  have hload := loadPod_isOk hcluster hdeployed hname hstored
  have hrunnable : submission.Runnable ↔
      (∀ provider, Suits daemonSet.annotations daemonSet.spec provider) ∧
        (document = none → (daemonSet.annotations.lookup "podmin.dev/service").getD "" = "") := by
    constructor
    · intro hrunnable
      exact hrunnable daemonSet document hparts
    · intro hboth other otherDocument hother
      rw [hparts] at hother
      cases hother
      exact hboth
  have hkind := hstored.service
  rw [hrunnable, ← hload, ← exists_and_right]
  refine exists_congr fun built ↦ and_congr_right fun hbuilt ↦ ?_
  obtain ⟨hns, hannotated⟩ := loadPod_reads hdeployed hstored hbuilt
  cases hservice : deployment.service with
  | none =>
    rw [hservice] at hkind
    obtain ⟨hdocument, hnamed⟩ := hkind
    have hempty : (committedEntry config deployment).service = "" := by
      simp [committedEntry, Cli.Deploy.indexDeployment, hservice]
    simp [hempty, hdocument, hannotated, hnamed]
  | some parts =>
    obtain ⟨service, yaml⟩ := parts
    rw [hservice] at hkind
    obtain ⟨hdocument, hvalid, hserviceNs, hyaml, hnamed⟩ := hkind
    have hname : built.service = service.name := hannotated.trans hnamed
    have hsameNs : built.ns = service.ns := hns.trans hserviceNs.symm
    have hentry : (committedEntry config deployment).service ≠ "" := by
      simpa [committedEntry, Cli.Deploy.indexDeployment, hservice] using
        Cli.Deploy.serviceKey_ne_empty service yaml
    have hsome : built.service ≠ "" := hname ▸ ne_empty_of_matchLabel hvalid.name
    have hloaded := loadService_committed hdeployed hservice hvalid hyaml hname hsameNs
    simp only [hdocument, false_implies, iff_true]
    exact ⟨by simp [hsome, hentry], fun _ ↦ ⟨service, hloaded, hname.symm, hsameNs.symm⟩⟩

end Entry

/-- The authority issues an identity for every valid Pod and Service. -/
def Issues (call : Call) : Prop :=
  ∀ ns pod service now, validNamespace ns = true → validID pod = true →
    (service = "" ∨ validID service = true) → ∃ material, call.issue ns pod service now = .ok material

/-- An identity can be had for every committed entry that can be processed. -/
theorem identity_of_runs {Tag : Type} {memory : Memory Tag} {config : Config} {formats : Formats} {call : Call}
    {submission : Submission} {deployment : Deployment} (hissues : Issues call)
    (hdeployed : Deployed config formats call name submission deployment)
    (hruns : Runs config formats call name (committedEntry config deployment))
    (hload : loadPod config formats call name (committedEntry config deployment) = .ok built) :
    ∃ material, memory.identity call built (committedEntry config deployment) = .ok material := by
  obtain ⟨daemonSet, document, pod, _, hname, hstored⟩ := hdeployed.stored
  obtain ⟨hns, _⟩ := loadPod_reads hdeployed hstored hload
  obtain ⟨_, _, _, _, hbuiltName⟩ := loadPod_eq_ok.mp hload
  obtain ⟨other, hother, hnamed, hreferenced⟩ := hruns
  rw [hload] at hother
  cases hother
  refine Memory.identity_isOk (hissues _ _ _ _ (hns ▸ hstored.validNs) ?_ ?_)
  · rw [hbuiltName, ← hname, ← hstored.name]
    exact hstored.validName
  · by_cases hempty : built.service = ""
    · exact .inl hempty
    · obtain ⟨service, hloaded, hserviceName, _⟩ := hreferenced (hnamed.mp hempty)
      obtain ⟨_, _, _, _, _, _, hkey⟩ := loadService_eq_ok.mp hloaded
      right
      rw [← hserviceName]
      exact (serviceIdentity_valid hkey).2

/-! ## A Pod that annotates a Service it does not have -/

/-- A DaemonSet whose container mounts a volume of its own. -/
def siteSet (annotations : GoMap String String) : DaemonSet where
  name := "site"
  ns := "default"
  annotations
  spec := { (tokenPod "data").spec with nodeSelector := AList.insert "podmin.dev/nodegroup" "workers" ∅ }

/-- A stream with that DaemonSet and perhaps a Service. -/
def siteSubmission (annotations : GoMap String String) (service : Option Service) : Submission where
  documents := .daemonSet (.ok (siteSet annotations)) ::
    service.toList.map fun service ↦ .service (.ok (canonicalDocument service))

/-- The Pod of the DaemonSet, annotated with its Service. -/
def committedPod (annotations : GoMap String String) : Option Service → Pod
  | none => { tokenTransformed "data" with annotations }
  | some service => Pod.annotate { tokenTransformed "data" with annotations } "podmin.dev/service" service.name

/-- What the CLI makes of it. -/
noncomputable def siteCommitted (annotations : GoMap String String) (service : Option Service) :
    Deployment where
  pod := webFormats.pods.encode (committedPod annotations service)
  service := service.map fun service ↦ (service, webFormats.services.encode (canonicalDocument service))

/-- A call that can read what was committed, and every secret. -/
noncomputable def siteCall (annotations : GoMap String String) (service : Option Service) : Call :=
  { webCall none {} with
    objects := fun path ↦
      .ok (if path = Cli.Deploy.podKey "workers" (siteCommitted annotations service).pod then
      (siteCommitted annotations service).pod
      else ((siteCommitted annotations service).service.map Prod.snd).getD [])
    secrets := fun _ _ ↦ .ok [1] }

theorem site_parts {service : Option Service} :
    (siteSubmission annotations service).documents.foldlM readDocument (none, none) =
      .ok (some (siteSet annotations), service.map canonicalDocument) := by
  cases service <;> rfl

theorem site_deployed {service : Option Service}
    (hservice : ∀ declared, service = some declared → declared.Valid ∧ declared.ns = "default") :
    Deployed webConfig webFormats (siteCall annotations service) "site" (siteSubmission annotations service)
      (siteCommitted annotations service) where
  parsed := by
    have htransform : transformPod webParser ((siteSet ∅).pod "default") [] "" =
        .ok { tokenTransformed "data" with annotations := ∅ } := by rfl
    have hannotated := transformPod_annotations htransform annotations
    have hnames : ¬("site" ≠ (if "site" = "" then "site" else "site") ∨ (!validID "site") = true ∨
        (!validNamespace (if "default" = "" then "default" else "default")) = true) := by decide
    have hgroup : ¬((!validID "workers") = true ∨ (siteSet ∅).spec.nodeSelector.pairs.length ≠ 1 ∨
        selectedNodeGroup (siteSet ∅).spec ≠ "workers") := by decide
    have hschedules : ¬ schedules (siteSet ∅).spec = true := by decide
    unfold parseDeployment
    rw [site_parts, ok_bind]
    refine (if_neg hnames).trans ((if_neg hgroup).trans ((if_neg hschedules).trans ?_))
    refine bind_eq_ok.mpr ⟨_, hannotated, ?_⟩
    cases service with
    | none => rfl
    | some declared =>
      obtain ⟨hvalid, hns⟩ := hservice declared rfl
      refine bind_eq_ok.mpr ⟨(declared, webFormats.services.encode (canonicalDocument declared)), ?_, rfl⟩
      rw [deploymentService, parseService_canonicalDocument hvalid, ok_bind]
      exact if_neg (not_not.mpr hns)
  valid := (by decide : (validID "workers" && validID "site") = true)
  readable := by
    intro payload hpayload
    rcases List.mem_cons.mp hpayload with rfl | hrest
    · exact congrArg Except.ok (if_pos rfl)
    · cases service with
      | none => cases hrest
      | some declared =>
        rw [List.mem_singleton.mp hrest]
        exact congrArg Except.ok (if_neg (Cli.Deploy.podKey_ne_serviceKey _ _ _ _).symm)
  secrets _ _ _ _ _ _ _ _ _ _ := ⟨_, rfl⟩

theorem site_runnable_iff {service : Option Service}
    (hsuits : ∀ provider, Suits annotations (siteSet annotations).spec provider) :
    (siteSubmission annotations service).Runnable ↔
      (service = none → (annotations.lookup "podmin.dev/service").getD "" = "") := by
  rw [Submission.Runnable, Submission.parts, site_parts]
  simp only [Except.ok.injEq, Prod.mk.injEq, Option.some.injEq]
  constructor
  · intro hrunnable hnone
    exact (hrunnable _ _ ⟨rfl, rfl⟩).2 (by rw [hnone]; rfl)
  · rintro hnone daemonSet document ⟨rfl, rfl⟩
    exact ⟨hsuits, fun hdocument ↦ hnone (Option.map_eq_none_iff.mp hdocument)⟩

/-- The CLI commits the Pod, and no round of the agent's candidate loop on its entry succeeds. -/
theorem annotated_pod_blocks :
    ∃ submission deployment call, Deployed webConfig webFormats call "site" submission deployment ∧
      Issues call ∧ ¬ Runs webConfig webFormats call "site" (committedEntry webConfig deployment) ∧
      ∀ (memory : Memory Body) (progress next : Progress),
        addCandidate webConfig webFormats memory call progress
          ("site", committedEntry webConfig deployment) ≠ .ok next := by
  have hdeployed := @site_deployed (AList.insert "podmin.dev/service" "shop" ∅) none (by simp)
  have hruns := mt (runs_iff_runnable (by decide) hdeployed).mp
  rw [site_runnable_iff fun provider ↦ ⟨[], by cases provider <;> rfl, .inl rfl⟩] at hruns
  refine ⟨_, _, _, hdeployed, fun _ _ _ _ _ _ _ ↦ ⟨webMaterial, rfl⟩, hruns (by decide), ?_⟩
  intro memory progress next hadd
  obtain ⟨_, hprocessed, _⟩ := addCandidate_eq_ok hadd
  exact hruns (by decide) hprocessed

/-- For deployments the CLI has committed to one NodeGroup, the agent can process an entry exactly when
its submission is runnable, and it can reconcile the NodeGroup exactly when all of them are. -/
theorem committed_runs_iff {Tag : Type} (memory : Memory Tag) (config : Config) (formats : Formats)
    (call : Call) (index : Index) (submission : String → Submission)
    (deployment : String → Deployment) (hcluster : validID config.cluster = true)
    (hissues : Issues call) (hindex : ValidIndex index)
    (hdeployed : ∀ name entry, Selects config index name entry →
      Deployed config formats call name (submission name) (deployment name) ∧
        entry = committedEntry config (deployment name)) :
    (∀ name entry, Selects config index name entry →
      (Runs config formats call name entry ↔ (submission name).Runnable)) ∧
    ((∃ progress, (selected config call.iteration index).foldlM
        (addCandidate config formats memory call) {} = .ok progress) ↔
      ∀ name entry, Selects config index name entry → (submission name).Runnable) := by
  have heach : ∀ name entry, Selects config index name entry →
      (Runs config formats call name entry ↔ (submission name).Runnable) := by
    intro name entry hselects
    obtain ⟨hcommitted, rfl⟩ := hdeployed name entry hselects
    exact runs_iff_runnable hcluster hcommitted
  refine ⟨heach, ?_⟩
  rw [collect_isOk selected_names_nodup (selected_services_distinct hindex) ?_ (by simp) (by simp)]
  · constructor
    · intro hruns name entry hselects
      exact (heach name entry hselects).mp (hruns (name, entry) (mem_selected.mpr hselects))
    · intro hrunnable item hitem
      have hselects := mem_selected.mp hitem
      exact (heach item.1 item.2 hselects).mpr (hrunnable item.1 item.2 hselects)
  · intro item hitem hruns built hload
    obtain ⟨hcommitted, hentry⟩ := hdeployed item.1 item.2 (mem_selected.mp hitem)
    rw [hentry] at hruns hload ⊢
    exact identity_of_runs hissues hcommitted hruns hload

def siteService : Service :=
  ⟨"site", "default", AList.insert "app" "site" ∅, [⟨"", "TCP", 80, 80⟩]⟩

/-- A Pod with a mount of its own, a secret and a Service. -/
theorem committed_runs_iff_site :
    ∃ progress, (selected webConfig (siteCall (tokenPod "data").annotations siteService).iteration
        (AList.insert "workers/site" (committedEntry webConfig
          (siteCommitted (tokenPod "data").annotations siteService)) ∅)).foldlM
      (addCandidate webConfig webFormats ({} : Memory Body)
        (siteCall (tokenPod "data").annotations siteService)) {} = .ok progress := by
  have hvalid : siteService.Valid := by decide
  have hdeployed := @site_deployed (tokenPod "data").annotations siteService
    (by rintro _ ⟨rfl⟩; exact ⟨hvalid, rfl⟩)
  have hentry : ValidEntry "workers/site" (committedEntry webConfig
      (siteCommitted (tokenPod "data").annotations siteService)) :=
    ⟨"workers", "site", by decide, Cli.Deploy.podObject_podKey (by decide) _, fun _ ↦
      Option.isSome_iff_exists.mpr ⟨_, Cli.Deploy.serviceIdentity_serviceKey hvalid.ns hvalid.name _⟩⟩
  refine (committed_runs_iff {} webConfig webFormats (siteCall (tokenPod "data").annotations siteService) _
    (fun _ ↦ siteSubmission (tokenPod "data").annotations siteService)
    (fun _ ↦ siteCommitted (tokenPod "data").annotations siteService) (by decide)
    (fun _ _ _ _ _ _ _ ↦ ⟨webMaterial, rfl⟩) hentry.single ?_).2.mpr fun _ _ _ ↦ ?_
  · intro name entry hselects
    have hitem : (name, entry) ∈ selected webConfig deployCall.iteration _ := mem_selected.mpr hselects
    cases List.mem_singleton.mp hitem
    exact ⟨hdeployed, rfl⟩
  · obtain ⟨hdata, hpath⟩ := data_apart .awsParameterStore
    exact (site_runnable_iff (@suits_token "data" _
      ⟨List.forall_mem_singleton.mpr hdata, List.forall_mem_singleton.mpr hpath⟩)).mpr (by simp)

end Podmin.Agent.StaticPod
