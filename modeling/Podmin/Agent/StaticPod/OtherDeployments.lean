import Podmin.Agent.StaticPod.DiskMatchesIndex
import Podmin.Agent.StaticPod.ExclusiveMounts
import Podmin.Agent.StaticPod.SecretDir

/-!
# Deployments a reconciliation does not concern

After a successful call the process remembers every deployment of the index, and no Pod has a generation
that cleaning up would remove. So the next successful call leaves every deployment alone whose entry
and CA are the same and whose leaf is not due, whatever happens to the others.
-/

namespace Podmin.Agent.StaticPod

open Foundation CasRegister Fallible
open Foundation.Transition Manifest Agent.Workload

variable {provider : Provider} {candidates : List Candidate} {candidate : Candidate}

/-! ## Declared secrets -/

/-- The Pod of a payload declares a secret of a provider. -/
def Declares (formats : Formats) (payload : List UInt8) (provider : Provider) (key : String) : Prop :=
  ∃ pod keys, transformInput formats.parser formats.pods payload [] "" = .ok pod ∧
    annotationKeys (pod.annotation provider.annotation) provider.title = .ok keys ∧ key ∈ keys

variable {config : Config} {values : GoMap String (List UInt8)}

theorem fetchSecrets_lookup {get : String → Except String (List UInt8)} {ns pod : String}
    {fetched : GoMap String (List UInt8)} {keys : List String}
    (hfetch : fetchSecrets config get ns pod provider fetched keys = .ok values) :
    ∀ key, key ∈ keys ∨ (∃ value, fetched.lookup key = some value) →
      ∃ value, values.lookup key = some value := by
  induction keys generalizing fetched with
  | nil =>
    cases hfetch
    intro key hkey
    exact hkey.resolve_left List.not_mem_nil
  | cons first keys ih =>
    unfold fetchSecrets at hfetch
    obtain ⟨path, _, hget⟩ := bind_eq_ok.mp hfetch
    split at hget
    · exact nomatch hget
    next value _ =>
    intro key hkey
    apply ih hget key
    by_cases hfirst : key = first
    · exact .inr ⟨value, (GoMap.lookup_insert_eq ..).trans (if_pos hfirst)⟩
    · rcases hkey with hmem | ⟨stored, hstored⟩
      · exact .inl ((List.mem_cons.mp hmem).resolve_left hfirst)
      · exact .inr ⟨stored, (GoMap.lookup_insert_eq ..).trans ((if_neg hfirst).trans hstored)⟩

variable {get : Provider → String → Except String (List UInt8)}

theorem addProvider_lookup {ns pod : String} {state next : PodSpec × GoMap String (GoMap String (List UInt8))}
    {keys : List String} (hadd : addProvider config get ns pod state (provider, keys) = .ok next) :
    (∀ key ∈ keys, ∃ values value, next.2.lookup provider.name = some values ∧
      values.lookup key = some value) ∧
    ∀ name ≠ provider.name, next.2.lookup name = state.2.lookup name := by
  unfold addProvider at hadd
  dsimp only at hadd
  split at hadd
  · next hempty =>
    cases hadd
    rw [List.isEmpty_iff.mp hempty]
    exact ⟨by simp, fun _ _ ↦ rfl⟩
  · obtain ⟨spec, _, hspec⟩ := bind_eq_ok.mp hadd
    obtain ⟨values, hvalues, hnext⟩ := bind_eq_ok.mp hspec
    cases hnext
    refine ⟨fun key hkey ↦ ?_, fun name hname ↦ (GoMap.lookup_insert_eq ..).trans (if_neg hname)⟩
    obtain ⟨value, hvalue⟩ := fetchSecrets_lookup hvalues key (.inl hkey)
    exact ⟨values, value, (GoMap.lookup_insert_eq ..).trans (if_pos rfl), hvalue⟩

/-- A successful build has fetched every declared secret. -/
theorem build_secrets {formats : Formats} {payload : List UInt8} {revision : String} {built : Built}
    (hbuild : build config formats get payload revision = .ok built) {key : String}
    (hdeclares : Declares formats payload provider key) :
    ∃ values value, built.secrets.lookup provider.name = some values ∧ values.lookup key = some value := by
  obtain ⟨pod, parameterKeys, secretKeys, spec, secrets, hpod, hparameters, hsecrets, hfold, rfl⟩ :=
    build_eq_ok.mp hbuild
  obtain ⟨declared, keys, hdeclared, hkeys, hkey⟩ := hdeclares
  cases hpod.symm.trans hdeclared
  obtain ⟨first, hfirst, hrest⟩ := bind_eq_ok.mp hfold
  obtain ⟨second, hsecond, hlast⟩ := bind_eq_ok.mp hrest
  cases hlast
  cases provider with
  | awsParameterStore =>
    cases hparameters.symm.trans hkeys
    obtain ⟨values, value, hvalues, hvalue⟩ := (addProvider_lookup hfirst).1 key hkey
    exact ⟨values, value, ((addProvider_lookup hsecond).2 _ (by decide)).trans hvalues, hvalue⟩
  | awsSecretsManager =>
    cases hsecrets.symm.trans hkeys
    exact (addProvider_lookup hsecond).1 key hkey

theorem mem_desiredOf (hnodup : (candidates.map Candidate.name).Nodup) (hmem : candidate ∈ candidates)
    {provider key : String} {value : List UInt8} (hvalues : candidate.secrets.lookup provider = some values)
    (hvalue : values.lookup key = some value) :
    key ∈ (desiredOf candidates).secrets candidate.name provider := by
  have hfind : candidates.find? (·.name = candidate.name) = some candidate := by
    cases hfound : candidates.find? (·.name = candidate.name) with
    | none => exact absurd (List.find?_eq_none.mp hfound candidate hmem) (by simp)
    | some found =>
      have hname : found.name = candidate.name := by simpa using List.find?_some hfound
      rw [List.inj_on_of_nodup_map hnodup (List.mem_of_find?_eq_some hfound) hmem hname]
  simp only [desiredOf, hfind, Option.bind_some, hvalues, Option.elim_some]
  exact List.mem_map.mpr ⟨(key, value), GoMap.mem_pairs.mpr hvalue, rfl⟩

/-! ## After a successful call -/

section Remembered

variable {Tag : Type} {config : Config} {formats : Formats} {tagging : Tagging Body Tag}

/-- What a healthy process remembers: the deployments of the index it last read, each with an identity,
next to which there is at most one other generation. -/
structure Remembers (config : Config) (tagging : Tagging Body Tag) (process : Process Tag) : Prop where
  index : process.memory.health = true → ∃ body index, readIndex (.ok body) = .ok index ∧
    process.memory.indexETag = body.map tagging.tag ∧
    ∀ name deployment, Selects config index name deployment →
      process.memory.deployments.lookup name = some deployment ∧
        ∃ material, process.memory.identityMaterial.lookup name = some material
  settled : process.memory.health = true → ∀ name material,
    process.memory.identityMaterial.lookup name = some material →
      (process.disk.dir name).obsolete (shortDigest material.certificate) = []

/-- A directory without obsolete generations has none again once they are removed. -/
theorem Cleaned.settled {desired : Desired} {written after : PodDir}
    (hcleaned : Cleaned desired candidate written after) :
    after.obsolete candidate.identityGeneration = [] := by
  have hkept : ∀ name kept, after.generations.lookup name = some kept →
      name ≠ candidate.identityGeneration →
        some name = written.previous candidate.identityGeneration := by
    intro name kept hlookup hne
    rw [hcleaned.generations] at hlookup
    split at hlookup
    · exact nomatch hlookup
    next hnot =>
    rw [PodDir.mem_obsolete] at hnot
    by_contra hprevious
    exact hnot ⟨⟨kept, hlookup⟩, hne, hprevious⟩
  rw [List.eq_nil_iff_forall_not_mem]
  intro name hname
  obtain ⟨⟨kept, hlookup⟩, hne, hprevious⟩ := PodDir.mem_obsolete.mp hname
  obtain ⟨found, latest, hfound, hother, hlatest, _⟩ := PodDir.previous_latest hlookup hne
  -- what is left next to the current generation is one generation, which is then the kept one
  have hsame : some found = some name :=
    (hkept found latest hlatest hother).trans (hkept name kept hlookup hne).symm
  exact hprevious (hsame ▸ hfound).symm

variable {call : Call}

theorem Loaded.generation {memory : Memory Tag} {item : String × IndexDeployment}
    (hloaded : Loaded config formats memory call item candidate) :
    candidate.identityGeneration = shortDigest candidate.identity.certificate := by
  obtain ⟨built, _, _, hrevision⟩ := hloaded.assembled
  unfold identityRevision at hrevision
  split at hrevision
  · exact nomatch hrevision
  · exact (Prod.mk.inj (Except.ok.inj hrevision)).2.symm

theorem Remembers.published {memory : Memory Tag} {call : Call} {index : Index} {progress : Progress}
    {before staged disk : Disk} (hread : readIndex call.index = .ok index)
    (hcollected : Collected config formats memory call (selected config call.iteration index) progress)
    (hstage : runAll (stage call.faults) (progress.changes call) before = (staged, none))
    (hpublish : publishChanges call progress.candidates (progress.changes call) staged = (disk, none)) :
    Remembers config tagging (progress.remember call (call.etag tagging) disk) where
  index _ := by
    cases hindex : call.index with
    | error message =>
      rw [hindex] at hread
      exact nomatch hread
    | ok body =>
      refine ⟨body, index, hindex ▸ hread, by simp [Progress.remember, Call.etag, hindex], ?_⟩
      intro name deployment hselects
      obtain ⟨candidate, hmem, hloaded⟩ := forall₂_mem_left hcollected.candidates
        (mem_selected.mpr hselects)
      exact ⟨(lookup_remembered hcollected.nodup _).mpr ⟨candidate, hmem, hloaded.name, hloaded.deployment⟩, _,
        (lookup_remembered hcollected.nodup _).mpr ⟨candidate, hmem, hloaded.name, rfl⟩⟩
  settled _ name material hmaterial := by
    obtain ⟨candidate, hmem, rfl, rfl⟩ := (lookup_remembered hcollected.nodup _).mp hmaterial
    obtain ⟨item, _, hloaded⟩ := forall₂_mem_right hcollected.candidates hmem
    obtain ⟨written, _, hcleaned⟩ := publishChanges_dir hcollected.nodup hmem hstage hpublish
    rw [← hloaded.generation]
    exact hcleaned.settled

variable [DecidableEq Tag]

variable {process : Process Tag}

theorem Remembers.reconcile (hremembers : Remembers config tagging process) :
    Remembers config tagging (reconcile config formats tagging call process).1 := by
  have hends := reconcile_ends config formats tagging call process
  generalize StaticPod.reconcile config formats tagging call process = result at hends ⊢
  cases hends with
  | failed disk message =>
    exact ⟨by simp [Process.fail], by simp [Process.fail]⟩
  | upToDate hread hcurrent => exact hremembers
  | published hread hcollected _ hstage hpublish => exact .published hread hcollected hstage hpublish

theorem remembers_of_reachable {state : Tracked Tag}
    (hreach : Reachable (system config formats tagging) state) :
    Remembers config tagging state.process := by
  refine @Reachable.invariant _ _ _ (fun state ↦ Remembers config tagging state.process) ?_ ?_ _ hreach
  · intro state hinit
    have hunhealthy : state.process.memory.health ≠ true := by simp [hinit.1]
    exact ⟨fun hhealth ↦ absurd hhealth hunhealthy, fun hhealth ↦ absurd hhealth hunhealthy⟩
  · intro state call next _ hremembers hstep
    rw [hstep]
    exact hremembers.reconcile

/-- After a nil return the process is healthy and knows the index it read. -/
theorem reconcile_nil (hnil : (reconcile config formats tagging call process).2 = none) :
    (reconcile config formats tagging call process).1.memory.health = true ∧
      (reconcile config formats tagging call process).1.memory.indexETag = call.etag tagging := by
  have hends := reconcile_ends config formats tagging call process
  generalize StaticPod.reconcile config formats tagging call process = result at hnil hends ⊢
  cases hends with
  | failed disk message => exact nomatch hnil
  | upToDate hread hcurrent =>
    simp only [Memory.upToDate, Bool.and_eq_true, decide_eq_true_eq] at hcurrent
    exact ⟨hcurrent.1.1.2, hcurrent.1.1.1.symm⟩
  | published hread hcollected _ hstage hpublish => exact ⟨rfl, rfl⟩

omit [DecidableEq Tag] in
/-- A process that just read an index remembers its deployments. -/
theorem Remembers.deployments {index : Index} (hremembers : Remembers config tagging process)
    (hhealth : process.memory.health = true) (hetag : process.memory.indexETag = call.etag tagging)
    (hread : readIndex call.index = .ok index) {name : String} {deployment : IndexDeployment}
    (hselects : Selects config index name deployment) :
    process.memory.deployments.lookup name = some deployment ∧
      ∃ material, process.memory.identityMaterial.lookup name = some material := by
  obtain ⟨body, known, hknown, hstored, hdeployments⟩ := hremembers.index hhealth
  cases hindex : call.index with
  | error message =>
    rw [hindex] at hread
    exact nomatch hread
  | ok current =>
    have htag : current.map tagging.tag = body.map tagging.tag := by
      rw [← hstored, hetag, Call.etag, hindex]
    rw [hindex, Option.map_injective tagging.injective htag, hknown] at hread
    cases hread
    exact hdeployments name deployment hselects

end Remembered

/-! ## The next call -/

/-- What a deployment has on disk is the same: its Pod file, its identity link and the generation it
designates, and the secrets it declares. -/
structure Untouched (declares : Provider → String → Prop) (name : String) (before after : Disk) :
    Prop where
  podFile : after.static.lookup (podFileName name) = before.static.lookup (podFileName name)
  link : (after.dir name).link = (before.dir name).link
  generation : ∀ generation, (before.dir name).link = some generation →
    (after.dir name).generations.lookup generation = (before.dir name).generations.lookup generation
  secrets : ∀ provider key, declares provider key →
    (after.dir name).secretFile provider.name key = (before.dir name).secretFile provider.name key

section Next

variable {Tag : Type} [DecidableEq Tag] {config : Config} {formats : Formats}
  {tagging : Tagging Body Tag} {state : Tracked Tag} {previous call : Call} {before index : Index}
  {name : String} {deployment : IndexDeployment}

omit [DecidableEq Tag] in
/-- The candidate of an unchanged deployment is skipped and keeps its identity. -/
theorem Loaded.skipped {memory : Memory Tag} {material : Material}
    (hloaded : Loaded config formats memory call (name, deployment) candidate)
    (hdeployment : memory.deployments.lookup name = some deployment)
    (hmaterial : memory.identityMaterial.lookup name = some material)
    (hrevision : call.authorityRevision = memory.identityRevision)
    (hlasting : needsRenewal ((memory.identities.lookup name).getD 0) (call.now name) = false) :
    candidate.publish = false ∧ candidate.identity = material := by
  have hskips : memory.skips call.authorityRevision (call.now name) name deployment = true := by
    simp [Memory.skips, Memory.unchanged, hdeployment, hmaterial, hrevision, hlasting]
  have hpublish : candidate.publish = false := by rw [hloaded.publish, hskips]; rfl
  exact ⟨hpublish, Option.some.inj ((hloaded.remembered hpublish).2.symm.trans hmaterial)⟩

/-- From any state after a successful call on, the next successful call leaves a deployment alone whose
index entry and CA revision are the same and whose leaf is not due for renewal. -/
theorem reconcile_untouched (hreach : Reachable (system config formats tagging) state)
    (hprevious : (reconcile config formats tagging previous state.process).2 = none)
    (hbefore : readIndex previous.index = .ok before) (hindex : readIndex call.index = .ok index)
    (hold : Selects config before name deployment) (hnew : Selects config index name deployment)
    (hrevision : call.authorityRevision =
      (reconcile config formats tagging previous state.process).1.memory.identityRevision)
    (hlasting : needsRenewal (((reconcile config formats tagging previous
      state.process).1.memory.identities.lookup name).getD 0) (call.now name) = false)
    (hnil : (reconcile config formats tagging call
      (reconcile config formats tagging previous state.process).1).2 = none) :
    Untouched (fun provider key ↦ ∃ payload, call.objects deployment.pod = .ok payload ∧
        Declares formats payload provider key) name
      (reconcile config formats tagging previous state.process).1.disk
      (reconcile config formats tagging call
        (reconcile config formats tagging previous state.process).1).1.disk := by
  have hremembers : Remembers config tagging
      (reconcile config formats tagging previous state.process).1 :=
    (remembers_of_reachable hreach).reconcile
  obtain ⟨hhealth, hetag⟩ := reconcile_nil hprevious
  obtain ⟨hdeployment, material, hmaterial⟩ := hremembers.deployments hhealth hetag hbefore hold
  have hsettled := hremembers.settled hhealth name material hmaterial
  generalize (reconcile config formats tagging previous state.process).1 = process at *
  have hends := reconcile_ends config formats tagging call process
  generalize reconcile config formats tagging call process = result at hnil hends ⊢
  cases hends with
  | failed disk message => exact nomatch hnil
  | upToDate hread hcurrent => exact ⟨rfl, rfl, fun _ _ ↦ rfl, fun _ _ _ ↦ rfl⟩
  | published hread hcollected hstaged hstage hpublish =>
    cases hindex.symm.trans hread
    obtain ⟨candidate, hmem, hloaded⟩ := forall₂_mem_left hcollected.candidates
      (mem_selected.mpr hnew)
    obtain ⟨hskipped, hidentity⟩ := hloaded.skipped hdeployment hmaterial hrevision hlasting
    obtain ⟨written, hwrites, hcleaned⟩ := publishChanges_dir hcollected.nodup hmem hstage hpublish
    have hname : candidate.name = name := hloaded.name
    rw [hwrites.skipped hskipped, hname] at hcleaned
    have hobsolete : (process.disk.dir name).obsolete candidate.identityGeneration = [] := by
      rw [hloaded.generation, hidentity]
      exact hsettled
    refine ⟨?_, hcleaned.link, fun generation _ ↦ ?_, ?_⟩
    · have hfile := publishChanges_podFile hcollected.nodup hmem hpublish
      rw [hskipped, hname, hstaged] at hfile
      exact hfile
    · have hlookup := hcleaned.generations generation
      rw [hobsolete] at hlookup
      exact hlookup
    · intro provider key hdeclares
      obtain ⟨payload, hpayload, hdeclares⟩ := hdeclares
      obtain ⟨built, hload, hsecrets, _⟩ := hloaded.assembled
      obtain ⟨input, hinput, _, hbuild, _⟩ := loadPod_eq_ok.mp hload
      cases hpayload.symm.trans hinput
      obtain ⟨values, value, hvalues, hvalue⟩ := build_secrets hbuild hdeclares
      rw [← hsecrets] at hvalues
      have hdesired := mem_desiredOf hcollected.nodup hmem hvalues hvalue
      exact hcleaned.secrets provider.name key hdesired

end Next

/-! ## A second deployment -/

/-- The Pod that declares a secret. -/
def siteDeployment : IndexDeployment := ⟨Cli.Deploy.podKey "workers" (tokenText "data"), ""⟩

def siteIndex : Index := AList.insert "workers/site" siteDeployment ∅

def pairIndex : Index := AList.insert "workers/web" webDeployment siteIndex

/-- A call that finds the given index, the payloads of both Pods and the secret. -/
def pairCall (index : Index) : Call :=
  { webCall (some (some (encodeIndex index))) {} with
    objects := fun path ↦ .ok (if path = webDeployment.pod then webText else tokenText "data")
    secrets := tokenGet }

theorem decode_webText : (tokenFormats "data").pods.decode webText = .ok webPod := by
  have hweb : webFormats.pods.encode webPod = webText := if_pos rfl
  have htext : webText ≠ tokenText "data" := by decide +kernel
  have hdecode := Codec.assign_decode_of_ne webFormats.pods
    (fun hsame ↦ absurd (congrArg Pod.name hsame) (by decide) : webPod ≠ tokenPod "data") (hweb ▸ htext)
  rw [hweb] at hdecode
  exact hdecode

theorem pair_runs (index : Index) {name : String} {entry : IndexDeployment}
    (hselects : Selects webConfig pairIndex name entry) :
    Runs webConfig (tokenFormats "data") (pairCall index) name entry := by
  have hpaths : siteDeployment.pod ≠ webDeployment.pod := by decide +kernel
  obtain ⟨built, hbuild, hname, hservice⟩ := @build_tokenPod "data" (deploymentRevision siteDeployment) rfl
  have hitem : (name, entry) ∈ selected webConfig deployCall.iteration pairIndex := mem_selected.mpr hselects
  have hpair : selected webConfig deployCall.iteration pairIndex =
      [("web", webDeployment), ("site", siteDeployment)] := rfl
  simp only [hpair, List.mem_cons, List.not_mem_nil, or_false, Prod.mk.injEq] at hitem
  rcases hitem with ⟨rfl, rfl⟩ | ⟨rfl, rfl⟩
  · exact web_runs rfl decode_webText (congrArg Except.ok (if_pos rfl))
  · exact ⟨built, loadPod_eq_ok.mpr ⟨tokenText "data", congrArg Except.ok (if_neg hpaths),
      Cli.Deploy.verify_podKey "workers" _, hbuild, hname⟩, by simp [hservice, siteDeployment],
      fun hsome ↦ absurd rfl hsome⟩

/-- Whatever the process remembers, a call on a part of the two entries publishes them. -/
theorem pair_publishes {index : Index} {process : Process Body} (hvalid : ValidIndex index)
    (hpart : ∀ key entry, index.lookup key = some entry → pairIndex.lookup key = some entry)
    (hstale : some (some (encodeIndex index)) ≠ process.memory.indexETag) :
    ∃ parsed progress disk, readIndex (pairCall index).index = .ok parsed ∧
      (∀ key, parsed.lookup key = index.lookup key) ∧
      Collected webConfig (tokenFormats "data") process.memory (pairCall index)
        (selected webConfig (pairCall index).iteration parsed) progress ∧
      reconcile webConfig (tokenFormats "data") contentTagging (pairCall index) process =
        (progress.remember (pairCall index) (some (some (encodeIndex index))) disk, none) := by
  have hread : readIndex (pairCall index).index = .ok (GoMap.ofPairs (sortSlice entryLess index.pairs)) := by
    simp only [pairCall, webCall, readIndex, parseIndex_encodeIndex hvalid]
  obtain ⟨progress, disk, hcollected, hreconcile⟩ := @reconcile_of_runs _ _ webConfig (tokenFormats "data")
    contentTagging (pairCall index) process _ hread
    (by simp only [Memory.upToDate, Bool.and_eq_false_imp]
        simp_all [pairCall, webCall, Call.etag, contentTagging])
    (fun _ _ _ _ ↦ ⟨webMaterial, rfl⟩) (fun name entry hselects ↦ by
      obtain ⟨key, hlookup, hidentity⟩ := hselects
      exact pair_runs index ⟨key, hpart key entry ((lookup_sorted_pairs index key).symm.trans hlookup),
        hidentity⟩)
    (by simp [confirm, pairCall, webCall, Call.etag, contentTagging]) defaults_clean
  exact ⟨_, progress, disk, hread, lookup_sorted_pairs index, hcollected, hreconcile⟩

/-- Another deployment is added next to one that declares a secret. -/
theorem reconcile_untouched_added : ∃ process : Process Body,
    reconcile webConfig (tokenFormats "data") contentTagging (pairCall siteIndex) webProcess = (process, none) ∧
      (reconcile webConfig (tokenFormats "data") contentTagging (pairCall pairIndex) process).2 = none ∧
      Declares (tokenFormats "data") (tokenText "data") .awsParameterStore "token" ∧
      Untouched (fun provider key ↦ ∃ payload, (pairCall pairIndex).objects siteDeployment.pod = .ok payload ∧
          Declares (tokenFormats "data") payload provider key) "site" process.disk
        (reconcile webConfig (tokenFormats "data") contentTagging (pairCall pairIndex) process).1.disk := by
  have hsite : ValidEntry "workers/site" siteDeployment := ⟨"workers", "site", by decide,
    Cli.Deploy.podObject_podKey (by decide) _, by simp [siteDeployment]⟩
  have hweb : ValidEntry "workers/web" webDeployment := ⟨"workers", "web", by decide,
    Cli.Deploy.podObject_podKey (by decide) _, by simp [webDeployment]⟩
  have hpair : ValidIndex pairIndex := hsite.single.insert hweb (by simp [referenced, webDeployment])
  have hdiffers : encodeIndex pairIndex ≠ encodeIndex siteIndex := by
    intro hsame
    have hparsed := parseIndex_encodeIndex hpair
    rw [hsame, @parseIndex_encodeIndex siteIndex hsite.single] at hparsed
    have hlookup := congrArg (·.lookup "workers/web") (Except.ok.inj hparsed)
    simp only [lookup_sorted_pairs] at hlookup
    cases hlookup
  have hpart : ∀ key entry, siteIndex.lookup key = some entry → pairIndex.lookup key = some entry := by
    intro key entry hlookup
    rw [pairIndex, GoMap.lookup_insert_eq, if_neg, hlookup]
    rintro rfl
    cases hlookup
  obtain ⟨before, progress, disk, hbefore, hsame, hcollected, hfirst⟩ := @pair_publishes siteIndex webProcess
    hsite.single hpart (by simp [webProcess])
  obtain ⟨index, _, _, hindex, hlookup, _, hsecond⟩ := @pair_publishes pairIndex
    (progress.remember (pairCall siteIndex) (some (some (encodeIndex siteIndex))) disk) hpair
      (fun _ _ hentry ↦ hentry)
    (by simpa [Progress.remember] using hdiffers)
  have hold : Selects webConfig before "site" siteDeployment := ⟨"workers/site", hsame _, by decide⟩
  obtain ⟨candidate, hmem, hloaded⟩ := forall₂_mem_left hcollected.candidates (mem_selected.mpr hold)
  obtain ⟨_, _, hissue⟩ := hloaded.issued (by simp [hloaded.publish, Memory.skips, webProcess])
  have hidentity : candidate.identity = webMaterial := (Except.ok.inj hissue).symm
  have hnotAfter := (lookup_remembered hcollected.nodup fun other ↦ other.identity.notAfter).mpr
    ⟨candidate, hmem, hloaded.name, congrArg Material.notAfter hidentity⟩
  have huntouched := @reconcile_untouched _ _ webConfig (tokenFormats "data") contentTagging
    ⟨webProcess, fun _ ↦ False⟩ (pairCall siteIndex) (pairCall pairIndex) before index "site" siteDeployment
    (.init ⟨rfl, fun _ hfalse ↦ hfalse⟩) (by rw [hfirst]) hbefore hindex hold
    ⟨"workers/site", hlookup _, by decide⟩ (by rw [hfirst]; rfl)
    (by
      rw [hfirst]
      exact (congrArg (fun time ↦ needsRenewal (time.getD 0) 0) hnotAfter).trans
        (by decide : needsRenewal webMaterial.notAfter 0 = false))
    (by rw [hfirst, hsecond])
  rw [hfirst] at huntouched
  exact ⟨_, hfirst, by rw [hsecond], ⟨_, _, transformInput_token rfl,
    (congrArg (annotationKeys · _) (annotation_token "data").1).trans (annotationKeys_token _),
      List.mem_singleton_self _⟩,
    huntouched⟩

end Podmin.Agent.StaticPod
