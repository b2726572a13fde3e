import Podmin.Agent.StaticPod.Reconciler
import Podmin.Manifest.Accepted

/-!
# What the candidate loop collects

A loop that succeeds has one candidate for every selected entry, built from a payload with the
digest of the entry, and one Service for every entry that references one.
-/

namespace Podmin.Agent.StaticPod

open Foundation Fallible Manifest Agent.Workload

variable {name : String} {deployment : IndexDeployment} {progress : Progress}

/-! ## Built manifests -/

theorem parsePod_marshalPod (codec : PodCodec) (pod : Pod) :
    parsePod codec (marshalPod codec pod) = .ok { pod with apiVersion := "v1", kind := "Pod" } := by
  simp [parsePod, marshalPod, codec.decode_encode]

/-- The parts of a successful build. -/
theorem build_eq_ok {config : Config} {formats : Formats}
    {get : Provider → String → Except String (List UInt8)} {input : List UInt8} {revision : String}
    {built : Built} :
    build config formats get input revision = .ok built ↔
      ∃ pod parameterKeys secretKeys spec secrets,
        transformInput formats.parser formats.pods input [] "" = .ok pod ∧
        annotationKeys (pod.annotation Provider.awsParameterStore.annotation)
          Provider.awsParameterStore.title = .ok parameterKeys ∧
        annotationKeys (pod.annotation Provider.awsSecretsManager.annotation)
          Provider.awsSecretsManager.title = .ok secretKeys ∧
        [(Provider.awsParameterStore, parameterKeys),
          (Provider.awsSecretsManager, secretKeys)].foldlM
            (addProvider config get (if pod.ns = "" then "default" else pod.ns) pod.name)
            (resolveWith config (if pod.ns = "" then "default" else pod.ns) pod.spec, ∅) =
          .ok (spec, secrets) ∧
        built =
          { name := pod.name
            ns := if pod.ns = "" then "default" else pod.ns
            service := pod.annotation "podmin.dev/service"
            manifest := marshalPod formats.pods
              ({ pod with spec }.annotate "podmin.dev/revision" revision)
            secrets } := by
  unfold build
  simp only [bind_eq_ok, Except.ok.injEq, Prod.exists]
  constructor
  · intro hbuild
    obtain ⟨pod, hpod, parameterKeys, hparameters, secretKeys, hsecrets, spec, values, hfold, rfl⟩ :=
      hbuild
    exact ⟨pod, parameterKeys, secretKeys, spec, values, hpod, hparameters, hsecrets, hfold, rfl⟩
  · intro hparts
    obtain ⟨pod, parameterKeys, secretKeys, spec, values, hpod, hparameters, hsecrets, hfold, rfl⟩ :=
      hparts
    exact ⟨pod, hpod, parameterKeys, hparameters, secretKeys, hsecrets, spec, values, hfold, rfl⟩

/-- The file of a deployment: built from a Pod payload with the digest the entry names. -/
def BuiltFrom (config : Config) (formats : Formats) (name : String) (deployment : IndexDeployment)
    (body : List UInt8) : Prop :=
  ∃ payload secrets certificate built generation, verify deployment.pod payload = true ∧
    build config formats secrets payload (deploymentRevision deployment) = .ok built ∧
    built.name = name ∧
    identityRevision formats built.manifest certificate = .ok (body, generation)

variable {config : Config} {formats : Formats}

/-- Such a file carries the revision of the entry. -/
theorem BuiltFrom.revision {body : List UInt8} (hbuilt : BuiltFrom config formats name deployment body) :
    ∃ pod, parsePod formats.pods body = .ok pod ∧
      pod.annotations.lookup "podmin.dev/revision" = some (deploymentRevision deployment) := by
  obtain ⟨payload, secrets, certificate, built, generation, _, hbuild, _, hidentity⟩ := hbuilt
  obtain ⟨pod, parameterKeys, secretKeys, spec, values, _, _, _, _, rfl⟩ := build_eq_ok.mp hbuild
  simp only [identityRevision, parsePod_marshalPod, Except.ok.injEq, Prod.mk.injEq] at hidentity
  refine ⟨_, hidentity.1 ▸ parsePod_marshalPod _ _, ?_⟩
  simp only [Pod.annotate]
  rw [GoMap.lookup_insert_eq, if_neg (by decide), GoMap.lookup_insert_eq, if_pos rfl]

/-- The Service of a deployment: parsed from a payload with the digest the entry names. -/
def References (formats : Formats) (deployment : IndexDeployment) (service : Service) : Prop :=
  ∃ payload, verify deployment.service payload = true ∧
    parseServiceInput formats.services payload = .ok service

variable {call : Call}

theorem loadPayload_eq_ok {path : String} {input : List UInt8} :
    loadPayload call path = .ok input ↔ call.objects path = .ok input ∧ verify path input = true := by
  unfold loadPayload
  cases call.objects path with
  | error message => simp
  | ok stored =>
    dsimp only
    split
    · next hverify =>
      simp only [reduceCtorEq, Except.ok.injEq, false_iff, not_and]
      intro heq
      rw [← heq]
      simpa using hverify
    · next hverify =>
      simp only [Except.ok.injEq]
      constructor
      · intro heq
        exact ⟨heq, heq ▸ by simpa using hverify⟩
      · exact And.left

theorem loadPod_eq_ok {built : Built} :
    loadPod config formats call name deployment = .ok built ↔
      ∃ input, call.objects deployment.pod = .ok input ∧ verify deployment.pod input = true ∧
        build config formats call.secrets input (deploymentRevision deployment) = .ok built ∧
        built.name = name := by
  unfold loadPod
  rw [bind_eq_ok]
  simp only [loadPayload_eq_ok, and_assoc]
  refine exists_congr fun input ↦ and_congr_right fun _ ↦ and_congr_right fun _ ↦ ?_
  cases build config formats call.secrets input (deploymentRevision deployment) with
  | error message => simp
  | ok parsed =>
    simp only [Except.ok.injEq]
    split
    · next hne =>
      simp only [reduceCtorEq, false_iff, not_and]
      intro heq
      exact heq ▸ hne
    · next heq =>
      simp only [Except.ok.injEq]
      constructor
      · intro hsame
        exact ⟨hsame, hsame ▸ not_not.mp heq⟩
      · exact And.left

theorem loadService_eq_ok {built : Built} {path : String} {service : Service} :
    loadService formats call built path = .ok service ↔
      ∃ input, call.objects path = .ok input ∧ verify path input = true ∧
        parseServiceInput formats.services input = .ok service ∧
        built.service = service.name ∧ built.ns = service.ns ∧
        serviceIdentity path = some (service.ns, service.name) := by
  unfold loadService
  rw [bind_eq_ok]
  simp only [loadPayload_eq_ok, and_assoc]
  refine exists_congr fun input ↦ and_congr_right fun _ ↦ and_congr_right fun _ ↦ ?_
  cases parseServiceInput formats.services input with
  | error message => simp
  | ok parsed =>
    simp only [Except.ok.injEq]
    constructor
    · intro hload
      split at hload
      · simp at hload
      · next hmatch =>
        split at hload
        · simp at hload
        · next hidentity =>
          cases hload
          simp only [not_or, ne_eq, not_not] at hmatch hidentity
          exact ⟨rfl, hmatch.1, hmatch.2, hidentity⟩
    · intro hchecks
      obtain ⟨rfl, hname, hns, hidentity⟩ := hchecks
      simp [hname, hns, hidentity]

/-! ## The loop -/

section Loop

variable {Tag : Type} {config : Config} {formats : Formats} {memory : Memory Tag} {call : Call}

/-- The agent's processing of one entry succeeds: its Pod builds, its annotation names a Service
exactly when the entry has one, and that Service matches the annotation and the namespace. -/
def Runs (config : Config) (formats : Formats) (call : Call) (name : String)
    (entry : IndexDeployment) : Prop :=
  ∃ built, loadPod config formats call name entry = .ok built ∧
    (built.service ≠ "" ↔ entry.service ≠ "") ∧
    (entry.service ≠ "" → ∃ service, loadService formats call built entry.service = .ok service ∧
      service.name = built.service ∧ service.ns = built.ns)

/-- The candidate of one entry. -/
structure Loaded (config : Config) (formats : Formats) (memory : Memory Tag) (call : Call)
    (item : String × IndexDeployment) (candidate : Candidate) : Prop where
  name : candidate.name = item.1
  deployment : candidate.deployment = item.2
  publish : candidate.publish = !memory.skips call.authorityRevision (call.now item.1) item.1 item.2
  built : BuiltFrom config formats item.1 item.2 candidate.manifest
  identity : ∃ built, built.name = item.1 ∧
    memory.identity call built item.2 = .ok candidate.identity
  assembled : ∃ built, loadPod config formats call item.1 item.2 = .ok built ∧
    candidate.secrets = built.secrets ∧
    identityRevision formats built.manifest candidate.identity.certificate =
      .ok (candidate.manifest, candidate.identityGeneration)

variable {item : String × IndexDeployment}

/-- The identity of a published candidate was issued in the call. -/
theorem Loaded.issued {candidate : Candidate}
    (hloaded : Loaded config formats memory call item candidate) (hpublish : candidate.publish = true) :
    ∃ ns service, call.issue ns item.1 service (call.now item.1) = .ok candidate.identity := by
  obtain ⟨built, hname, hidentity⟩ := hloaded.identity
  have hskips : memory.skips call.authorityRevision (call.now item.1) item.1 item.2 = false := by
    simpa [hpublish] using hloaded.publish
  unfold Memory.identity at hidentity
  rw [hname, hskips, if_neg Bool.false_ne_true] at hidentity
  split at hidentity
  · exact nomatch hidentity
  · next hissue =>
    cases hidentity
    exact ⟨built.ns, built.service, hissue⟩

/-- The identity of a skipped candidate is the remembered one. -/
theorem Loaded.remembered {candidate : Candidate}
    (hloaded : Loaded config formats memory call item candidate) (hskipped : candidate.publish = false) :
    memory.skips call.authorityRevision (call.now item.1) item.1 item.2 = true ∧
      memory.identityMaterial.lookup item.1 = some candidate.identity := by
  have hskips : memory.skips call.authorityRevision (call.now item.1) item.1 item.2 = true := by
    simpa [hskipped] using hloaded.publish
  obtain ⟨built, hname, hidentity⟩ := hloaded.identity
  unfold Memory.identity at hidentity
  rw [hname, hskips, if_pos rfl] at hidentity
  split at hidentity
  · next hmaterial =>
    cases hidentity
    exact ⟨hskips, hmaterial⟩
  · exact nomatch hidentity

/-- What one round adds for an entry that can be processed: a candidate with a new name, and the Service
the entry references. -/
theorem addCandidate_eq_ok {next : Progress}
    (hadd : addCandidate config formats memory call progress item = .ok next) :
    ∃ candidate, Runs config formats call item.1 item.2 ∧ Loaded config formats memory call item candidate ∧
      candidate.name ∉ progress.names ∧
      next.candidates = progress.candidates ++ [candidate] ∧
      next.names = candidate.name :: progress.names ∧
      ((item.2.service = "" ∧ next.services = progress.services) ∨
        (item.2.service ≠ "" ∧ ∃ service, References formats item.2 service ∧
          next.services = progress.services ++ [service])) := by
  obtain ⟨name, deployment⟩ := item
  unfold addCandidate at hadd
  obtain ⟨built, hload, hchecked⟩ := bind_eq_ok.mp hadd
  clear hadd
  obtain ⟨input, _, hverify, hbuild, rfl⟩ := loadPod_eq_ok.mp hload
  split at hchecked
  · simp at hchecked
  next hfresh =>
  obtain ⟨material, hmaterial, hannotated⟩ := bind_eq_ok.mp hchecked
  split at hannotated
  · simp at hannotated
  next manifest generation hidentity =>
  refine ⟨⟨built.name, built.service, manifest, built.secrets, material, generation, deployment,
    !memory.skips call.authorityRevision (call.now built.name) built.name deployment⟩, ?_,
    ⟨rfl, rfl, rfl, ⟨input, call.secrets, material.certificate, built, generation, hverify, hbuild, rfl,
      hidentity⟩, ⟨built, rfl, hmaterial⟩, ⟨built, hload, rfl, hidentity⟩⟩, hfresh, ?_⟩
  all_goals
    dsimp only at hannotated
    split at hannotated
  · next hempty =>
    split at hannotated
    · cases hannotated
    · next hnone =>
      exact ⟨built, hload, by simp [hempty, not_not.mp hnone], fun hservice ↦ absurd hempty hservice⟩
  · next hservice =>
    obtain ⟨service, hloaded, _⟩ := bind_eq_ok.mp hannotated
    obtain ⟨_, _, _, hparse, hname, hns, _⟩ := loadService_eq_ok.mp hloaded
    have hvalid : service.Valid := by
      unfold parseServiceInput at hparse
      split at hparse
      · cases hparse
      · exact parseService_valid hparse
    have hsome : built.service ≠ "" := hname ▸ ne_empty_of_matchLabel hvalid.name
    exact ⟨built, hload, by simp [hsome, hservice], fun _ ↦ ⟨service, hloaded, hname.symm, hns.symm⟩⟩
  · next hempty =>
    split at hannotated
    · cases hannotated
    · cases hannotated
      exact ⟨rfl, rfl, .inl ⟨hempty, rfl⟩⟩
  · next hservice =>
    obtain ⟨service, hservices, hadded⟩ := bind_eq_ok.mp hannotated
    obtain ⟨payload, _, hpayload, hparse, _⟩ := loadService_eq_ok.mp hservices
    split at hadded
    · cases hadded
    · cases hadded
      exact ⟨rfl, rfl, .inr ⟨hservice, service, ⟨payload, hpayload, hparse⟩, rfl⟩⟩

/-- What the loop has collected for the entries it visited. -/
structure Collected (config : Config) (formats : Formats) (memory : Memory Tag) (call : Call)
    (items : List (String × IndexDeployment)) (progress : Progress) : Prop where
  candidates : List.Forall₂ (Loaded config formats memory call) items progress.candidates
  services : List.Forall₂ (fun item service ↦ References formats item.2 service)
    (items.filter fun item ↦ item.2.service ≠ "") progress.services
  names : ∀ name, name ∈ progress.names ↔ name ∈ progress.candidates.map Candidate.name
  nodup : (progress.candidates.map Candidate.name).Nodup

variable {items : List (String × IndexDeployment)}

theorem Collected.add {next : Progress} (hcollected : Collected config formats memory call items progress)
    (hadd : addCandidate config formats memory call progress item = .ok next) :
    Collected config formats memory call (items ++ [item]) next := by
  obtain ⟨candidate, _, hloaded, hfresh, hcandidates, hnames, hservices⟩ := addCandidate_eq_ok hadd
  have hnew : candidate.name ∉ progress.candidates.map Candidate.name :=
    fun hmem ↦ hfresh ((hcollected.names _).mpr hmem)
  refine ⟨?_, ?_, ?_, ?_⟩
  · rw [hcandidates]
    exact List.rel_append hcollected.candidates (.cons hloaded .nil)
  · rw [List.filter_append]
    rcases hservices with ⟨hempty, hsame⟩ | ⟨hservice, service, hreferences, hsame⟩
    · rw [hsame]
      simpa [hempty] using hcollected.services
    · rw [hsame]
      refine List.rel_append hcollected.services ?_
      simpa [hservice] using hreferences
  · intro name
    rw [hnames, hcandidates, List.map_append, List.mem_append, List.mem_cons, hcollected.names]
    simp [or_comm]
  · rw [hcandidates, List.map_append]
    exact List.nodup_append.mpr ⟨hcollected.nodup, List.nodup_singleton _, by
      intro name hname other hother
      rw [List.map_singleton, List.mem_singleton] at hother
      exact fun heq ↦ hnew (hother ▸ heq ▸ hname)⟩

/-- A loop that succeeds has collected every entry. -/
theorem collected_of_foldlM (hfold : items.foldlM (addCandidate config formats memory call) {} = .ok progress) :
    Collected config formats memory call items progress := by
  have hstart : Collected config formats memory call [] ({} : Progress) :=
    ⟨.nil, .nil, fun _ ↦ Iff.rfl, List.nodup_nil⟩
  exact foldlM_success (fun _ _ _ _ hdone hadd ↦ Collected.add hdone hadd) hstart hfold

end Loop

/-- What is remembered of candidates, by name. -/
theorem lookup_remembered {Value : Type} {candidates : List Candidate} {found : Value}
    (hnodup : (candidates.map Candidate.name).Nodup) (value : Candidate → Value) :
    (GoMap.ofPairs (candidates.map fun other ↦ (other.name, value other))).lookup name = some found ↔
      ∃ candidate ∈ candidates, candidate.name = name ∧ value candidate = found := by
  rw [GoMap.lookup_ofPairs (by rw [List.map_map]; exact hnodup), List.mem_map]
  simp only [Prod.mk.injEq]

/-! ## Selected entries -/

theorem readIndex_valid {read : Except String (Option Body)} {index : Index}
    (hread : readIndex read = .ok index) : ValidIndex index := by
  unfold readIndex at hread
  split at hread
  · simp at hread
  · cases hread
    exact ⟨fun key deployment hlookup ↦ by simp at hlookup,
      fun left right first second identity hleft ↦ by simp at hleft⟩
  · split at hread
    · simp at hread
    · next parsed hparse =>
      cases hread
      obtain ⟨_, _, _, _, hvalid⟩ := parseIndex_eq_ok.mp hparse
      exact hvalid

/-- The index names a deployment of the NodeGroup. -/
def Selects (config : Config) (index : Index) (name : String) (deployment : IndexDeployment) : Prop :=
  ∃ key, index.lookup key = some deployment ∧
    deploymentIdentity key = some (config.nodeGroup, name)

theorem selectedName_eq_some {nodeGroup key : String} :
    selectedName nodeGroup key = some name ↔ deploymentIdentity key = some (nodeGroup, name) := by
  unfold selectedName
  cases deploymentIdentity key with
  | none => simp
  | some parts =>
    obtain ⟨group, found⟩ := parts
    dsimp only
    split
    · next heq => simp [heq]
    · next hne => simp [hne]

theorem mem_selected {iteration : Iteration} {index : Index} :
    (name, deployment) ∈ selected config iteration index ↔ Selects config index name deployment := by
  unfold selected Selects
  rw [List.mem_filterMap]
  constructor
  · intro hitem
    obtain ⟨⟨key, stored⟩, hrange, hsome⟩ := hitem
    obtain ⟨found, hfound, hpair⟩ := Option.map_eq_some_iff.mp hsome
    cases hpair
    exact ⟨key, Iteration.mem_range.mp hrange, selectedName_eq_some.mp hfound⟩
  · intro hentry
    obtain ⟨key, hlookup, hidentity⟩ := hentry
    refine ⟨(key, deployment), Iteration.mem_range.mpr hlookup, ?_⟩
    rw [selectedName_eq_some.mpr hidentity]
    rfl

/-- Entries of a valid index are never the zero value. -/
theorem Selects.ne_zero {index : Index} (hselects : Selects config index name deployment)
    (hvalid : ValidIndex index) : deployment ≠ ⟨"", ""⟩ := by
  obtain ⟨key, hlookup, _⟩ := hselects
  obtain ⟨nodeGroup, _, _, hpod, _⟩ := hvalid.entries key deployment hlookup
  intro hzero
  have hempty : Text.split '/' "" = [""] := by decide
  rw [hzero, podObject, hempty] at hpod
  simp at hpod

/-! ## Entries that can be processed -/

theorem Memory.identity_isOk {Tag : Type} {memory : Memory Tag} {call : Call} {built : Built}
    {entry : IndexDeployment}
    (hissue : ∃ material, call.issue built.ns built.name built.service (call.now built.name) = .ok material) :
    ∃ material, memory.identity call built entry = .ok material := by
  unfold Memory.identity
  split
  · next hskips =>
    simp only [Memory.skips, Bool.and_eq_true] at hskips
    obtain ⟨material, hmaterial⟩ := Option.isSome_iff_exists.mp hskips.1.2
    exact ⟨material, by rw [hmaterial]⟩
  · obtain ⟨material, hmaterial⟩ := hissue
    exact ⟨material, by rw [hmaterial]⟩

/-- The Service identity an entry takes in the loop. -/
def serviceName (entry : IndexDeployment) : Option String :=
  (referenced entry).map fun identity ↦ identity.1 ++ "/" ++ identity.2

variable {name : String}

section Loop

variable {Tag : Type} {config : Config} {formats : Formats} {memory : Memory Tag} {call : Call}

/-- A round on an entry that can be processed succeeds if its names are new. -/
theorem addCandidate_of_runs {entry : IndexDeployment} (hruns : Runs config formats call name entry)
    (hfresh : name ∉ progress.names)
    (hidentity : ∀ built, loadPod config formats call name entry = .ok built →
      ∃ material, memory.identity call built entry = .ok material)
    (hservice : ∀ identity, serviceName entry = some identity → identity ∉ progress.serviceNames) :
    ∃ next, addCandidate config formats memory call progress (name, entry) = .ok next ∧
      next.names = name :: progress.names ∧
      ∀ identity ∈ next.serviceNames, identity ∈ progress.serviceNames ∨
        serviceName entry = some identity := by
  obtain ⟨built, hload, hnamed, hreferenced⟩ := hruns
  obtain ⟨material, hmaterial⟩ := hidentity built hload
  obtain ⟨input, _, _, hbuild, hname⟩ := loadPod_eq_ok.mp hload
  have hrevision : ∃ result, identityRevision formats built.manifest material.certificate =
      .ok result := by
    obtain ⟨pod, _, _, spec, _, _, _, _, _, hbuilt⟩ := build_eq_ok.mp hbuild
    rw [hbuilt, identityRevision, parsePod_marshalPod]
    exact ⟨_, rfl⟩
  obtain ⟨⟨manifest, generation⟩, hrevision⟩ := hrevision
  have hnew : built.name ∉ progress.names := hname ▸ hfresh
  unfold addCandidate
  simp only [hload, ok_bind, if_neg hnew, hmaterial, hrevision]
  by_cases hempty : entry.service = ""
  · have hnone : ¬built.service ≠ "" := fun hsome ↦ hnamed.mp hsome hempty
    simp only [if_pos hempty, if_neg hnone]
    exact ⟨_, rfl, by rw [hname], fun identity hmem ↦ .inl hmem⟩
  · obtain ⟨service, hloaded, _⟩ := hreferenced hempty
    obtain ⟨_, _, _, _, _, _, hkey⟩ := loadService_eq_ok.mp hloaded
    have hidentityName : serviceName entry = some (service.ns ++ "/" ++ service.name) := by
      simp [serviceName, referenced, hempty, hkey]
    simp only [if_neg hempty, hloaded, ok_bind, if_neg (hservice _ hidentityName)]
    refine ⟨_, rfl, by rw [hname], fun identity hmem ↦ ?_⟩
    rcases List.mem_cons.mp hmem with hself | hbefore
    · exact .inr (hself ▸ hidentityName)
    · exact .inl hbefore

/-- The loop succeeds exactly when every entry can be processed, names and Services being distinct. -/
theorem collect_isOk {items : List (String × IndexDeployment)} (hnames : (items.map Prod.fst).Nodup)
    (hservices : items.Pairwise fun left right ↦
      ∀ identity, serviceName left.2 = some identity → serviceName right.2 ≠ some identity)
    (hidentity : ∀ item ∈ items, Runs config formats call item.1 item.2 → ∀ built,
      loadPod config formats call item.1 item.2 = .ok built →
        ∃ material, memory.identity call built item.2 = .ok material)
    (hfresh : ∀ item ∈ items, item.1 ∉ progress.names)
    (hfreshServices : ∀ item ∈ items, ∀ identity, serviceName item.2 = some identity →
      identity ∉ progress.serviceNames) :
    (∃ final, items.foldlM (addCandidate config formats memory call) progress = .ok final) ↔
      ∀ item ∈ items, Runs config formats call item.1 item.2 := by
  constructor
  · intro hfold
    obtain ⟨final, hfold⟩ := hfold
    have hround : ∀ (done : List (String × IndexDeployment)) item (state next : Progress),
        (∀ other ∈ done, Runs config formats call other.1 other.2) →
        addCandidate config formats memory call state item = .ok next →
        ∀ other ∈ done ++ [item], Runs config formats call other.1 other.2 := by
      intro done item state next hdone hnext other hother
      rcases List.mem_append.mp hother with hbefore | hlast
      · exact hdone other hbefore
      · rw [List.mem_singleton.mp hlast]
        exact (addCandidate_eq_ok hnext).choose_spec.1
    exact @foldlM_success _ _ _ _
      (fun done (_ : Progress) ↦ ∀ other ∈ done, Runs config formats call other.1 other.2)
      hround items [] progress final (by simp) hfold
  · intro hruns
    induction items generalizing progress with
    | nil => exact ⟨progress, rfl⟩
    | cons item items ih =>
      rw [List.map_cons, List.nodup_cons] at hnames
      rw [List.pairwise_cons] at hservices
      obtain ⟨hitemRuns, hrestRuns⟩ := List.forall_mem_cons.mp hruns
      obtain ⟨next, hnext, hnextNames, hnextServices⟩ := addCandidate_of_runs hitemRuns
        (hfresh item List.mem_cons_self) (hidentity item List.mem_cons_self hitemRuns)
        (hfreshServices item List.mem_cons_self)
      have hrest : ∃ final, items.foldlM (addCandidate config formats memory call) next = .ok final := by
        refine ih hnames.2 hservices.2
          (fun other hother ↦ hidentity other (List.mem_cons_of_mem item hother)) ?_ ?_ hrestRuns
        · intro other hother hmem
          rw [hnextNames, List.mem_cons] at hmem
          rcases hmem with hsame | hbefore
          · exact hnames.1 (hsame ▸ List.mem_map.mpr ⟨other, hother, rfl⟩)
          · exact hfresh other (List.mem_cons_of_mem item hother) hbefore
        · intro other hother identity hname hmem
          rcases hnextServices identity hmem with hbefore | hself
          · exact hfreshServices other (List.mem_cons_of_mem item hother) identity hname hbefore
          · exact hservices.1 other hother identity hself hname
      obtain ⟨final, hfinal⟩ := hrest
      exact ⟨final, bind_eq_ok.mpr ⟨next, hnext, hfinal⟩⟩

end Loop

/-! ## The entries of a NodeGroup -/

variable {identity : String × String}

theorem deploymentIdentity_injective {left right : String} (hleft : deploymentIdentity left = some identity)
    (hright : deploymentIdentity right = some identity) : left = right := by
  have hsplit : ∀ key, deploymentIdentity key = some identity →
      Text.split '/' key = [identity.1, identity.2] := by
    intro key hkey
    unfold deploymentIdentity at hkey
    split at hkey
    · next nodeGroup name hparts =>
      split at hkey
      · cases hkey
        exact hparts
      · cases hkey
    · cases hkey
  rw [← Text.join_split '/' left, ← Text.join_split '/' right, hsplit left hleft, hsplit right hright]

theorem serviceIdentity_valid {key : String} (hidentity : serviceIdentity key = some identity) :
    validNamespace identity.1 = true ∧ validID identity.2 = true := by
  unfold serviceIdentity at hidentity
  split at hidentity
  · split at hidentity
    · next hvalid =>
      cases hidentity
      simp only [Bool.and_eq_true] at hvalid
      exact ⟨hvalid.1.1.1.2, hvalid.1.1.2⟩
    · cases hidentity
  · cases hidentity

/-- Names of Services in the loop differ whenever the identities do. -/
theorem serviceName_injective {left right : IndexDeployment} (hleft : serviceName left = some name)
    (hright : serviceName right = some name) :
    referenced left = referenced right := by
  have hparts : ∀ entry, serviceName entry = some name →
      ∃ ns service, referenced entry = some (ns, service) ∧
        Text.split '/' name = [ns, service] := by
    intro entry hentry
    obtain ⟨⟨ns, service⟩, hidentity, rfl⟩ := Option.map_eq_some_iff.mp hentry
    refine ⟨ns, service, hidentity, ?_⟩
    unfold referenced at hidentity
    split at hidentity
    · cases hidentity
    · obtain ⟨hns, hservice⟩ := serviceIdentity_valid hidentity
      have hjoin : ns ++ "/" ++ service = Text.join '/' [ns, service] := by
        apply String.toList_injective
        simp [Text.join, List.intercalate]
      dsimp only
      rw [hjoin]
      refine Text.split_join (by simp) ?_
      simp [slash_not_mem (validNamespace_chars hns), slash_not_mem (validID_chars hservice)]
  obtain ⟨ns, service, hreferenced, hsplit⟩ := hparts left hleft
  obtain ⟨otherNs, other, hotherReferenced, hotherSplit⟩ := hparts right hright
  rw [hsplit] at hotherSplit
  cases hotherSplit
  rw [hreferenced, hotherReferenced]

section Group

variable {config : Config} {iteration : Iteration} {index : Index}

/-- Two entries of a NodeGroup with one name have one key. -/
theorem selected_pairwise {Rel : String × IndexDeployment → String × IndexDeployment → Prop}
    (hrel : ∀ leftKey rightKey left right, leftKey ≠ rightKey →
      index.lookup leftKey = some left.2 → index.lookup rightKey = some right.2 →
      deploymentIdentity leftKey = some (config.nodeGroup, left.1) →
      deploymentIdentity rightKey = some (config.nodeGroup, right.1) → Rel left right) :
    (selected config iteration index).Pairwise Rel := by
  have hkeys : (iteration.range "index" index).Pairwise fun left right ↦ left.1 ≠ right.1 :=
    List.pairwise_map.mp (iteration.nodup_range "index" index)
  unfold selected
  rw [List.pairwise_filterMap]
  refine hkeys.imp_of_mem ?_
  intro left right hleft hright hne first hfirst second hsecond
  obtain ⟨firstName, hfirstName, rfl⟩ := Option.map_eq_some_iff.mp hfirst
  obtain ⟨secondName, hsecondName, rfl⟩ := Option.map_eq_some_iff.mp hsecond
  exact hrel left.1 right.1 _ _ hne (Iteration.mem_range.mp hleft) (Iteration.mem_range.mp hright)
    (selectedName_eq_some.mp hfirstName) (selectedName_eq_some.mp hsecondName)

theorem selected_names_nodup : ((selected config iteration index).map Prod.fst).Nodup := by
  refine List.pairwise_map.mpr (selected_pairwise ?_)
  intro leftKey rightKey left right hne _ _ hleft hright hsame
  rw [← hsame] at hright
  exact hne (deploymentIdentity_injective hleft hright)

theorem selected_services_distinct (hvalid : ValidIndex index) :
    (selected config iteration index).Pairwise fun left right ↦
      ∀ identity, serviceName left.2 = some identity → serviceName right.2 ≠ some identity := by
  refine selected_pairwise ?_
  intro leftKey rightKey left right hne hleft hright _ _ name hleftName hrightName
  have hsame := serviceName_injective hleftName hrightName
  obtain ⟨identity, hidentity, _⟩ := Option.map_eq_some_iff.mp hleftName
  exact hne (hvalid.owner leftKey rightKey left.2 right.2 identity hleft hright hidentity
    (hsame ▸ hidentity))

/-- A call that can issue every identity collects an index whose entries can all be processed. -/
theorem collect_of_runs {Tag : Type} {memory : Memory Tag} {formats : Formats} {call : Call}
    (hvalid : ValidIndex index)
    (hissue : ∀ ns pod service now, ∃ material, call.issue ns pod service now = .ok material)
    (hruns : ∀ name entry, Selects config index name entry → Runs config formats call name entry) :
    ∃ progress, (selected config call.iteration index).foldlM (addCandidate config formats memory call) {} =
      .ok progress := by
  refine (collect_isOk selected_names_nodup (selected_services_distinct hvalid)
    (fun _ _ _ _ _ ↦ Memory.identity_isOk (hissue ..)) (by simp) (by simp)).mpr fun item hitem ↦ ?_
  exact hruns item.1 item.2 (mem_selected.mp hitem)

end Group

end Podmin.Agent.StaticPod
