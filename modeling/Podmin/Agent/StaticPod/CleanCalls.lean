import Podmin.Agent.StaticPod.Candidates
import Podmin.Agent.StaticPod.Publication
import Podmin.Cli.Deploy

/-!
# Calls that meet no failure

How a call ends whose file operations all succeed, and one deployment that such calls publish.
-/

namespace Podmin.Agent.StaticPod

open Foundation CasRegister Fallible
open Manifest Registry Agent.Workload

/-! ## Calls whose file operations succeed -/

section Clean

variable {Tag : Type} [DecidableEq Tag] {config : Config} {formats : Formats}
  {tagging : Tagging Body Tag} {call : Call} {process : Process Tag} {index : Index}
  {progress : Progress}

/-- A call that builds its candidates and meets no failure publishes them. -/
theorem reconcile_of_clean (hread : readIndex call.index = .ok index)
    (hstale : process.memory.upToDate call (call.etag tagging) = false)
    (hfold : (selected config call.iteration index).foldlM
      (addCandidate config formats process.memory call) {} = .ok progress)
    (hconfirm : confirm tagging call (call.etag tagging) = .ok ()) (hclean : call.faults.Clean) :
    ∃ disk, reconcile config formats tagging call process =
        (progress.remember call (call.etag tagging) disk, none) ∧
      ∀ file, disk.static.lookup file =
        if stale (progress.candidates.map Candidate.name) file = true then none
        else (progress.candidates.foldl writeCandidate process.disk.static).lookup file := by
  have hstage := stage_clean hclean (progress.changes call) process.disk
  have hstatic := runAll_static (stage_static call.faults) (progress.changes call) process.disk
  cases hstaged : runAll (stage call.faults) (progress.changes call) process.disk with
  | mk staged failure =>
    rw [hstaged] at hstage hstatic
    cases hstage
    have hnone := publishChanges_clean hclean progress.candidates (progress.changes call) staged
    have hlookup := publishChanges_success hnone
    cases hpublish : publishChanges call progress.candidates (progress.changes call) staged with
    | mk disk outcome =>
      rw [hpublish] at hnone hlookup
      cases hnone
      refine ⟨disk, ?_, fun file ↦ ?_⟩
      · simp only [reconcile, hread, hstale, Bool.false_eq_true, if_false, hfold, Process.publish,
          hstaged, hconfirm, hpublish]
      · rw [hlookup file, hstatic]

/-- A call that can issue every identity and meets no failure publishes an index whose entries can all be
processed. -/
theorem reconcile_of_runs (hread : readIndex call.index = .ok index)
    (hstale : process.memory.upToDate call (call.etag tagging) = false)
    (hissue : ∀ ns pod service now, ∃ material, call.issue ns pod service now = .ok material)
    (hruns : ∀ name entry, Selects config index name entry → Runs config formats call name entry)
    (hconfirm : confirm tagging call (call.etag tagging) = .ok ()) (hclean : call.faults.Clean) :
    ∃ progress disk,
      Collected config formats process.memory call (selected config call.iteration index) progress ∧
      reconcile config formats tagging call process =
        (progress.remember call (call.etag tagging) disk, none) := by
  obtain ⟨progress, hfold⟩ := @collect_of_runs config index _ process.memory _ _ (readIndex_valid hread)
    hissue hruns
  obtain ⟨disk, hreconcile, _⟩ := reconcile_of_clean hread hstale hfold hconfirm hclean
  exact ⟨progress, disk, collected_of_foldlM hfold, hreconcile⟩

/-- A call that builds and stages its candidates and finds the index or the CA changed discards them. -/
theorem reconcile_of_superseded {message : String} (hread : readIndex call.index = .ok index)
    (hstale : process.memory.upToDate call (call.etag tagging) = false)
    (hfold : (selected config call.iteration index).foldlM
      (addCandidate config formats process.memory call) {} = .ok progress)
    (hconfirm : confirm tagging call (call.etag tagging) = .error message) (hclean : call.faults.Clean) :
    reconcile config formats tagging call process = process.fail (discardAll call.faults (progress.changes call)
        (runAll (stage call.faults) (progress.changes call) process.disk).1) message := by
  have hstage := stage_clean hclean (progress.changes call) process.disk
  cases hstaged : runAll (stage call.faults) (progress.changes call) process.disk with
  | mk staged failure =>
    rw [hstaged] at hstage
    cases hstage
    simp only [reconcile, hread, hstale, Bool.false_eq_true, if_false, hfold, Process.publish, hstaged,
      hconfirm]

end Clean

/-! ## One deployment -/

def webTag : Registry.Tag := ⟨host, "apps/web", "v1"⟩

def webParser : TagParser := .single webTag (by decide)

def webPod : Pod where
  name := "web"
  ns := "default"
  spec := { containers := [{ name := "web", image := webTag.name }] }

def webText : List UInt8 :=
  Text.utf8Bytes "apiVersion: v1
kind: Pod
metadata:
  name: web
  namespace: default
spec:
  containers:
  - image: registry.podmin.internal/apps/web:v1
    name: web
"

noncomputable def webFormats : Formats where
  parser := webParser
  pods := (Codec.ofCountable Pod).assign webPod webText
  services := Codec.ofCountable ServiceDocument

def webTransformed : Pod where
  name := "web"
  ns := "default"
  spec :=
    { containers := [{ name := "web", image := webTag.name, imagePullPolicy := "Always"
                       volumeMounts := [identityMount] }]
      volumes := [⟨identityVolumeName, identitySource "web"⟩] }

def webConfig : Config := ⟨"cluster", "workers", "/run/podmin/workloads", ""⟩

def webDeployment : IndexDeployment := ⟨Cli.Deploy.podKey "workers" webText, ""⟩

def webIndex : Index := AList.insert "workers/web" webDeployment ∅

def webBody : Body := some (encodeIndex webIndex)

def webMaterial : Material := ⟨[], [], [], 7 * hour⟩

def contentTagging : Tagging Body Body := ⟨id, Function.injective_id⟩

noncomputable instance decidableEqJson : DecidableEq Json := Classical.decEq Json

/-- A call that finds the given index before and after it builds its candidates. -/
def webCall (index : Option Body) (faults : Faults) : Call where
  authorityRevision := 1
  index := .ok index
  checkedRevision := 1
  checkedAt _ := 0
  objects _ := .ok webText
  secrets _ _ := .error "not found"
  now _ := 0
  issue _ _ _ _ := .ok webMaterial
  confirmed := .ok index
  confirmedRevision := 1
  iteration := ⟨fun _ keys ↦ keys, fun _ _ ↦ .refl _⟩
  faults

/-- The deployment is in the index. -/
def deployCall : Call := webCall (some webBody) {}

/-- The index is gone, and the static Pod directory cannot be synced. -/
def withdrawCall : Call := webCall none { sync := fun path ↦ path ≠ ["static"] }

theorem defaults_clean : ({} : Faults).Clean :=
  ⟨fun _ ↦ rfl, fun _ ↦ rfl, fun _ ↦ rfl, fun _ ↦ rfl, fun _ ↦ rfl, fun _ ↦ rfl⟩

theorem deploy_reads : readIndex deployCall.index = .ok webIndex := by
  have hnodeGroup : validID "workers" = true := by decide
  have hentry : ValidEntry "workers/web" webDeployment :=
    ⟨"workers", "web", by decide, Cli.Deploy.podObject_podKey hnodeGroup webText, by simp [webDeployment]⟩
  have hparse : parseIndex webBody = .ok webIndex := hentry.parseIndex_single
  have hread : readIndex (.ok (some webBody)) = .ok webIndex := by rw [readIndex, hparse]
  exact hread

theorem deploy_selects : selected webConfig deployCall.iteration webIndex = [("web", webDeployment)] :=
  rfl

theorem web_loaded {formats : Formats} {call : Call} (hparser : formats.parser = webParser)
    (hdecode : formats.pods.decode webText = .ok webPod)
    (hobject : call.objects webDeployment.pod = .ok webText) :
    ∃ built, loadPod webConfig formats call "web" webDeployment = .ok built ∧ built.service = "" ∧
      built.secrets = ∅ := by
  have hparse : parsePod formats.pods webText = .ok webPod := by
    simp [parsePod, hdecode, webPod]
  have htransform : transformInput formats.parser formats.pods webText [] "" = .ok webTransformed := by
    rw [transformInput, hparse, hparser]
    rfl
  have hproviders : [(Provider.awsParameterStore, []), (Provider.awsSecretsManager, [])].foldlM
      (addProvider webConfig call.secrets "default" "web")
      (resolveWith webConfig "default" webTransformed.spec, ∅) = .ok (webTransformed.spec, ∅) := rfl
  have hbuild := (@build_eq_ok webConfig formats call.secrets webText (deploymentRevision webDeployment) _).mpr
    ⟨webTransformed, [], [], webTransformed.spec, ∅, htransform, rfl, rfl, hproviders, rfl⟩
  have hverify : verify webDeployment.pod webText = true := Cli.Deploy.verify_podKey "workers" webText
  exact ⟨_, loadPod_eq_ok.mpr ⟨webText, hobject, hverify, hbuild, rfl⟩, rfl, rfl⟩

theorem web_runs {formats : Formats} {call : Call} (hparser : formats.parser = webParser)
    (hdecode : formats.pods.decode webText = .ok webPod)
    (hobject : call.objects webDeployment.pod = .ok webText) :
    Runs webConfig formats call "web" webDeployment := by
  obtain ⟨built, hload, hservice, _⟩ := web_loaded hparser hdecode hobject
  exact ⟨built, hload, by simp [hservice, webDeployment], fun hsome ↦ absurd rfl hsome⟩

/-! ## Publishing it -/

/-- A process that starts on empty directories. -/
def webProcess : Process Body := ⟨{}, ⟨∅, ∅⟩, none⟩

/-- Whatever the process remembers, a call that finds the deployment and can issue its identity builds
one candidate. -/
theorem web_collected_of {memory : Memory Body} {call : Call}
    (hobject : call.objects webDeployment.pod = .ok webText)
    (hiteration : call.iteration = deployCall.iteration)
    (hissue : ∀ ns pod service now, ∃ material, call.issue ns pod service now = .ok material) :
    ∃ progress candidate, (selected webConfig call.iteration webIndex).foldlM
        (addCandidate webConfig webFormats memory call) {} = .ok progress ∧
      progress.candidates = [candidate] ∧
      Loaded webConfig webFormats memory call ("web", webDeployment) candidate := by
  have hselected : selected webConfig call.iteration webIndex = [("web", webDeployment)] :=
    hiteration ▸ deploy_selects
  obtain ⟨progress, hfold⟩ := @collect_of_runs webConfig webIndex _ memory webFormats call
    (readIndex_valid deploy_reads) hissue fun name entry hselects ↦ by
      have hitem : (name, entry) ∈ selected webConfig call.iteration webIndex := mem_selected.mpr hselects
      rw [hselected] at hitem
      cases List.mem_singleton.mp hitem
      exact web_runs rfl (Codec.assign_decode _ _ _) hobject
  have hcandidates := (collected_of_foldlM hfold).candidates
  rw [hselected] at hcandidates
  obtain ⟨candidate, _, hloaded, hnil, hsame⟩ := List.forall₂_cons_left_iff.mp hcandidates
  cases hnil
  exact ⟨progress, candidate, hfold, hsame, hloaded⟩

theorem web_collected {memory : Memory Body} :
    ∃ progress candidate, (selected webConfig deployCall.iteration webIndex).foldlM
        (addCandidate webConfig webFormats memory deployCall) {} = .ok progress ∧
      progress.candidates = [candidate] ∧
      Loaded webConfig webFormats memory deployCall ("web", webDeployment) candidate :=
  web_collected_of rfl rfl fun _ _ _ _ ↦ ⟨webMaterial, rfl⟩

theorem deploy_confirms : confirm contentTagging deployCall (deployCall.etag contentTagging) = .ok () := by
  simp [confirm, deployCall, webCall, Call.etag, contentTagging]

/-- The first call publishes the Pod and remembers it. -/
theorem deploy_publishes : ∃ process,
    reconcile webConfig webFormats contentTagging deployCall webProcess = (process, none) ∧
      process.memory.indexETag = some webBody ∧
      process.memory.skips 1 0 "web" webDeployment = true := by
  obtain ⟨progress, candidate, hfold, hcandidates, hloaded⟩ := @web_collected webProcess.memory
  obtain ⟨disk, hreconcile, _⟩ := reconcile_of_clean deploy_reads rfl hfold deploy_confirms
    defaults_clean
  have hidentity : candidate.identity = webMaterial := by
    obtain ⟨_, _, hissue⟩ := hloaded.issued (by simp [hloaded.publish, Memory.skips, webProcess])
    exact (Except.ok.inj hissue).symm
  have hremembered : ∀ {Value : Type} (value : Candidate → Value), (GoMap.ofPairs
      (progress.candidates.map fun other ↦ (other.name, value other))).lookup "web" = some (value candidate) :=
    fun value ↦ (lookup_remembered (by simp [hcandidates]) value).mpr
      ⟨candidate, by simp [hcandidates], hloaded.name, rfl⟩
  refine ⟨_, hreconcile, rfl, ?_⟩
  have hrenew : needsRenewal webMaterial.notAfter 0 = false := by decide
  have hrevision : deployCall.authorityRevision = 1 := rfl
  simp only [Memory.skips, Memory.unchanged, Progress.remember, hremembered, hloaded.deployment, hidentity,
    hrevision]
  simp [hrenew]

end Podmin.Agent.StaticPod
