import Podmin.Agent.StaticPod.CleanCalls

/-!
# The directory after a successful reconciliation

A call skips the files of a deployment that it remembers as published. What it remembers is only
updated by calls that succeed, while a call that fails may already have replaced or removed Pod
files. Runs in which no call that returns nil skips a file that a failed call changed keep directory
and index in step; one file skipped after such a failure is enough to lose a Pod.
-/

namespace Podmin.Agent.StaticPod

open Foundation CasRegister Fallible
open Foundation.Transition Manifest Agent.Workload

/-! ## How a call ends -/

section Ends

variable {Tag : Type} [DecidableEq Tag]

/-- How one call can end. -/
inductive Ends (config : Config) (formats : Formats) (tagging : Tagging Body Tag) (call : Call)
    (process : Process Tag) : Process Tag × Option String → Prop
  | failed (disk : Disk) (message : String) :
      Ends config formats tagging call process (process.fail disk message)
  | upToDate {index : Index} (hread : readIndex call.index = .ok index)
      (hcurrent : process.memory.upToDate call (call.etag tagging) = true) :
      Ends config formats tagging call process (process, none)
  | published {index : Index} {progress : Progress} {staged disk : Disk}
      (hread : readIndex call.index = .ok index)
      (hcollected : Collected config formats process.memory call
        (selected config call.iteration index) progress)
      (hstaged : staged.static = process.disk.static)
      (hstage : runAll (stage call.faults) (progress.candidates.flatMap (·.changes call.iteration))
        process.disk = (staged, none))
      (hpublish : publishChanges call progress.candidates
        (progress.candidates.flatMap (·.changes call.iteration)) staged = (disk, none))
      (houtdated : process.memory.upToDate call (call.etag tagging) = false) :
      Ends config formats tagging call process
        (progress.remember call (call.etag tagging) disk, none)

theorem reconcile_ends (config : Config) (formats : Formats) (tagging : Tagging Body Tag)
    (call : Call) (process : Process Tag) :
    Ends config formats tagging call process (reconcile config formats tagging call process) := by
  unfold reconcile
  cases hread : readIndex call.index with
  | error message => exact .failed _ _
  | ok index =>
    dsimp only
    split
    · next hcurrent => exact .upToDate hread hcurrent
    · next houtdated =>
      split
      · exact .failed _ _
      · next progress hfold =>
        unfold Process.publish
        dsimp only
        split
        · exact .failed _ _
        · next staged hstage =>
          split
          · exact .failed _ _
          · split
            · exact .failed _ _
            · next disk hpublish =>
              refine .published hread (collected_of_foldlM hfold) ?_ hstage hpublish
                (Bool.eq_false_iff.mpr houtdated)
              have hstatic := runAll_static (stage_static call.faults) (progress.changes call) process.disk
              rwa [hstage] at hstatic

end Ends

/-! ## The directory and the index -/

/-- The Pod files are those of the index's deployments, each built from the payload of its entry, and
the published Services are those the entries reference. -/
structure Matches {Tag : Type} (config : Config) (formats : Formats) (index : Index)
    (process : Process Tag) : Prop where
  present : ∀ name deployment, Selects config index name deployment →
    ∃ body, process.disk.static.lookup (podFileName name) = some body ∧
      BuiltFrom config formats name deployment body
  only : ∀ file body, process.disk.static.lookup file = some body →
    Text.hasSuffix file ".yaml" = true →
      ∃ name deployment, Selects config index name deployment ∧ file = podFileName name
  services : ∃ services iteration, process.published = some services ∧
    List.Forall₂ (fun item service ↦ References formats item.2 service)
      ((selected config iteration index).filter fun item ↦ item.2.service ≠ "") services

/-- A process, and the Pods whose file was changed by a call that failed since the last one that did
not. -/
structure Tracked (Tag : Type) where
  process : Process Tag
  disturbed : String → Prop

section Tracked

variable {Tag : Type} [DecidableEq Tag] (config : Config) (formats : Formats)
  (tagging : Tagging Body Tag)

def track (state : Tracked Tag) (call : Call) : Tracked Tag where
  process := (reconcile config formats tagging call state.process).1
  disturbed name := (reconcile config formats tagging call state.process).2.isSome ∧
    (state.disturbed name ∨
      (reconcile config formats tagging call state.process).1.disk.static.lookup (podFileName name) ≠
        state.process.disk.static.lookup (podFileName name))

/-- A new process on any directory contents. -/
def system : System (Tracked Tag) Call where
  init state := state.process.memory = {} ∧ ∀ name, ¬state.disturbed name
  step state call next := next = track config formats tagging state call

/-- The call skips no deployment whose file a failed call changed. -/
def skipsUndisturbed (state : Tracked Tag) (call : Call) : Prop :=
  ∀ index name deployment, readIndex call.index = .ok index →
    Selects config index name deployment →
    state.process.memory.skips call.authorityRevision (call.now name) name deployment = true →
      ¬state.disturbed name

/-- What is asked of the calls that return nil. -/
def undisturbed (state : Tracked Tag) (call : Call) : Prop :=
  (reconcile config formats tagging call state.process).2 = none → skipsUndisturbed config state call

structure Invariant (state : Tracked Tag) : Prop where
  remembered : ∀ name deployment,
    state.process.memory.deployments.lookup name = some deployment → ¬state.disturbed name →
      ∃ body, state.process.disk.static.lookup (podFileName name) = some body ∧
        BuiltFrom config formats name deployment body
  healthy : state.process.memory.health = true →
    ∃ body index, readIndex (.ok body) = .ok index ∧
      state.process.memory.indexETag = body.map tagging.tag ∧
      Matches config formats index state.process
  calm : state.process.memory.health = true → ∀ name, ¬state.disturbed name

end Tracked

section Step

variable {Tag : Type} {config : Config} {formats : Formats} {tagging : Tagging Body Tag}
  {state : Tracked Tag} {call : Call} {index : Index} {progress : Progress} {staged disk : Disk}

theorem skips_deployments {memory : Memory Tag} {authorityRevision : Nat} {now : Int} {name : String}
    {deployment : IndexDeployment} (hnonzero : deployment ≠ ⟨"", ""⟩)
    (hskips : memory.skips authorityRevision now name deployment = true) :
    memory.deployments.lookup name = some deployment := by
  simp only [Memory.skips, Memory.unchanged, Bool.and_eq_true, decide_eq_true_eq] at hskips
  have hsame := hskips.1.1.1
  cases hlookup : memory.deployments.lookup name with
  | none =>
    rw [hlookup, Option.getD_none] at hsame
    exact absurd hsame.symm hnonzero
  | some stored =>
    rw [hlookup, Option.getD_some] at hsame
    rw [hsame]

section Published

variable (hinv : Invariant config formats tagging state) (hcall : skipsUndisturbed config state call)
  (hread : readIndex call.index = .ok index)
  (hcollected : Collected config formats state.process.memory call
    (selected config call.iteration index) progress)
  (hstaged : staged.static = state.process.disk.static)
  (hpublish : publishChanges call progress.candidates (progress.changes call) staged = (disk, none))

include hinv hcall hread hcollected hstaged hpublish

/-- Every candidate has its file once the call has published. -/
theorem published_file
    {item : String × IndexDeployment} {candidate : Candidate}
    (hselects : Selects config index item.1 item.2) (hmem : candidate ∈ progress.candidates)
    (hloaded : Loaded config formats state.process.memory call item candidate) :
    ∃ body, disk.static.lookup (podFileName item.1) = some body ∧
      BuiltFrom config formats item.1 item.2 body := by
  have hlookup := publishChanges_podFile hcollected.nodup hmem hpublish
  rw [hstaged, hloaded.publish, hloaded.name] at hlookup
  cases hskips : state.process.memory.skips call.authorityRevision (call.now item.1) item.1 item.2 with
  | false =>
    rw [hskips] at hlookup
    exact ⟨candidate.manifest, hlookup, hloaded.built⟩
  | true =>
    rw [hskips] at hlookup
    have hremembered := skips_deployments (hselects.ne_zero (readIndex_valid hread)) hskips
    have hundisturbed := hcall index item.1 item.2 hread hselects hskips
    obtain ⟨body, hbody, hbuilt⟩ := hinv.remembered item.1 item.2 hremembered hundisturbed
    exact ⟨body, hlookup.trans hbody, hbuilt⟩

theorem published_matches :
    Matches config formats index (progress.remember call (call.etag tagging) disk) where
  present name deployment hselects := by
    obtain ⟨candidate, hmem, hloaded⟩ := forall₂_mem_left hcollected.candidates
      (mem_selected.mpr hselects)
    exact published_file hinv hcall hread hcollected hstaged hpublish hselects hmem hloaded
  only file body hlookup hyaml := by
    have hfile := publishChanges_success (congrArg Prod.snd hpublish) file
    have hstale : ¬stale (progress.candidates.map Candidate.name) file = true := by
      intro hstale
      rw [hpublish, if_pos hstale] at hfile
      exact absurd (hfile.symm.trans hlookup) (by simp)
    have hkept : Text.trimSuffix file ".yaml" ∈ progress.candidates.map Candidate.name := by
      simpa [stale, hyaml] using hstale
    obtain ⟨candidate, hmem, hname⟩ := List.mem_map.mp hkept
    obtain ⟨item, hitem, hloaded⟩ := forall₂_mem_right hcollected.candidates hmem
    refine ⟨item.1, item.2, mem_selected.mp hitem, ?_⟩
    rw [← hloaded.name, hname, podFileName, Text.append_trimSuffix hyaml]
  services := ⟨progress.services, call.iteration, rfl, hcollected.services⟩

theorem Invariant.published {disturbed : String → Prop} (hcalm : ∀ name, ¬disturbed name) :
    Invariant config formats tagging
      ⟨progress.remember call (call.etag tagging) disk, disturbed⟩ where
  remembered name deployment hlookup _ := by
    have hkeys : ((progress.candidates.map fun candidate ↦
        (candidate.name, candidate.deployment)).map Prod.fst).Nodup := by
      rw [List.map_map]
      exact hcollected.nodup
    obtain ⟨candidate, hmem, hpair⟩ := List.mem_map.mp ((GoMap.lookup_ofPairs hkeys _ _).mp hlookup)
    cases hpair
    obtain ⟨item, hitem, hloaded⟩ := forall₂_mem_right hcollected.candidates hmem
    rw [hloaded.name, hloaded.deployment]
    exact published_file hinv hcall hread hcollected hstaged hpublish (mem_selected.mp hitem) hmem
      hloaded
  healthy _ := by
    have hmatches := published_matches hinv hcall hread hcollected hstaged hpublish
    cases hindex : call.index with
    | error message =>
      rw [hindex] at hread
      simp [readIndex] at hread
    | ok body =>
      refine ⟨body, index, hindex ▸ hread, ?_, hmatches⟩
      simp [Progress.remember, Call.etag, hindex]
  calm _ := hcalm

end Published

variable [DecidableEq Tag]

/-- A process that is up to date is in step with the index the call read. -/
theorem upToDate_matches (hinv : Invariant config formats tagging state)
    (hread : readIndex call.index = .ok index)
    (hcurrent : state.process.memory.upToDate call (call.etag tagging) = true) :
    Matches config formats index state.process := by
  simp only [Memory.upToDate, Bool.and_eq_true, decide_eq_true_eq] at hcurrent
  obtain ⟨body, stored, hstored, hetag, hmatches⟩ := hinv.healthy hcurrent.1.1.2
  cases hindex : call.index with
  | error message =>
    rw [hindex] at hread
    simp [readIndex] at hread
  | ok current =>
    have htag : current.map tagging.tag = body.map tagging.tag := by
      have hsame := hcurrent.1.1.1
      rw [Call.etag, hindex] at hsame
      exact hsame.trans hetag
    have hbody : current = body := Option.map_injective tagging.injective htag
    rw [hindex, hbody, hstored] at hread
    cases hread
    exact hmatches

theorem Invariant.step (hinv : Invariant config formats tagging state)
    (hcall : undisturbed config formats tagging state call) :
    Invariant config formats tagging (track config formats tagging state call) := by
  have hends := reconcile_ends config formats tagging call state.process
  unfold undisturbed at hcall
  unfold track
  generalize reconcile config formats tagging call state.process = result at hcall hends ⊢
  cases hends with
  | failed disk message =>
    refine ⟨fun name deployment hlookup hsame ↦ ?_, fun hhealth ↦ ?_, fun hhealth ↦ ?_⟩
    · -- a file that is not disturbed is as it was before the call
      simp only [Process.fail, Option.isSome_some, true_and, not_or, ne_eq, not_not] at hsame
      obtain ⟨body, hbody, hbuilt⟩ := hinv.remembered name deployment hlookup hsame.1
      exact ⟨body, hsame.2.trans hbody, hbuilt⟩
    · simp [Process.fail] at hhealth
    · simp [Process.fail] at hhealth
  | upToDate hread hcurrent =>
    have hhealth : state.process.memory.health = true := by
      simp only [Memory.upToDate, Bool.and_eq_true] at hcurrent
      exact hcurrent.1.1.2
    exact ⟨fun name deployment hlookup _ ↦
      hinv.remembered name deployment hlookup (hinv.calm hhealth name), hinv.healthy, by simp⟩
  | published hread hcollected hstaged _ hpublish =>
    exact hinv.published (hcall rfl) hread hcollected hstaged hpublish (by simp)

theorem invariant_of_reachable
    (hreach : Reachable ((system config formats tagging).guarded (undisturbed config formats tagging)) state) :
    Invariant config formats tagging state := by
  refine Reachable.invariant ?_ ?_ hreach
  · intro state hinit
    refine ⟨fun name deployment hlookup ↦ ?_, fun hhealth ↦ ?_, fun _ ↦ hinit.2⟩
    · rw [hinit.1] at hlookup
      simp at hlookup
    · rw [hinit.1] at hhealth
      simp at hhealth
  · intro state call next _ hinv hstep
    rw [hstep.2]
    exact hinv.step hstep.1

/-- In runs whose calls skip no file that a failed call changed, a call that returns nil leaves the
directory in step with the index it read, each file carrying the revision of its entry. -/
theorem reconciled_matches
    (hreach : Reachable ((system config formats tagging).guarded (undisturbed config formats tagging)) state)
    (hcall : undisturbed config formats tagging state call)
    (hnil : (reconcile config formats tagging call state.process).2 = none) :
    ∃ index, readIndex call.index = .ok index ∧
      Matches config formats index (reconcile config formats tagging call state.process).1 ∧
      ∀ name deployment, Selects config index name deployment → ∃ body pod,
        (reconcile config formats tagging call state.process).1.disk.static.lookup
          (podFileName name) = some body ∧
        parsePod formats.pods body = .ok pod ∧
        pod.annotations.lookup "podmin.dev/revision" = some (deploymentRevision deployment) := by
  have hinv := invariant_of_reachable hreach
  have hends := reconcile_ends config formats tagging call state.process
  have hskips := hcall hnil
  generalize reconcile config formats tagging call state.process = result at hnil hends ⊢
  have hmatches : ∃ index, readIndex call.index = .ok index ∧ Matches config formats index result.1 := by
    cases hends with
    | failed disk message => simp [Process.fail] at hnil
    | upToDate hread hcurrent => exact ⟨_, hread, upToDate_matches hinv hread hcurrent⟩
    | published hread hcollected hstaged _ hpublish =>
      exact ⟨_, hread, published_matches hinv hskips hread hcollected hstaged hpublish⟩
  obtain ⟨index, hread, hmatches⟩ := hmatches
  refine ⟨index, hread, hmatches, fun name deployment hselects ↦ ?_⟩
  obtain ⟨body, hbody, hbuilt⟩ := hmatches.present name deployment hselects
  obtain ⟨pod, hpod, hrevision⟩ := hbuilt.revision
  exact ⟨body, pod, hbody, hpod, hrevision⟩

end Step

/-- The second call removes the file and fails. -/
theorem withdraw_fails {process : Process Body} (hetag : process.memory.indexETag = some webBody) :
    ∃ disk message,
      reconcile webConfig webFormats contentTagging withdrawCall process = process.fail disk message ∧
        disk.static.lookup (podFileName "web") = none := by
  have hread : withdrawCall.faults.readDir ["static"] = true := rfl
  have hstatic := cleanupStatic_clean hread (fun _ ↦ rfl) (desiredOf []) process.disk
  have hlookup := cleanupStatic_success hstatic (podFileName "web")
  rw [if_pos (stale_podFileName.mpr (by simp [desiredOf]))] at hlookup
  rw [← cleanup_static_of_none hstatic] at hlookup
  have hfailed : (cleanup withdrawCall.faults (desiredOf []) process.disk).2 ≠ none := by
    intro hnone
    have hsync := (andThen_eq_none.mp (andThen_eq_none.mp (andThen_eq_none.mp hnone).2).2).1
    simp [syncDirectory, withdrawCall, webCall] at hsync
  cases hcleanup : cleanup withdrawCall.faults (desiredOf []) process.disk with
  | mk disk failure =>
    rw [hcleanup] at hlookup hfailed
    cases failure with
    | none => exact absurd rfl hfailed
    | some message =>
      refine ⟨disk, message, ?_, hlookup⟩
      have hstale : process.memory.upToDate withdrawCall (withdrawCall.etag contentTagging) = false := by
        simp [Memory.upToDate, Call.etag, withdrawCall, webCall, hetag]
      have hpublish : publishChanges withdrawCall [] [] process.disk = (disk, some message) := by
        simp only [publishChanges, runAll, andThen, hcleanup]
      have hindex : readIndex withdrawCall.index = .ok ∅ := rfl
      have hselected : selected webConfig withdrawCall.iteration ∅ = [] := rfl
      have hconfirm : confirm contentTagging withdrawCall (withdrawCall.etag contentTagging) =
          .ok () := rfl
      simp only [reconcile, hindex, hstale, Bool.false_eq_true, if_false, hselected, List.foldlM_nil,
        pure, Except.pure, Process.publish, List.flatMap_nil, runAll, hconfirm, hpublish]
      rfl

/-- A nil return without the file of a deployment that is in the index: the file was removed by a call
that failed afterwards. -/
theorem reconcile_loses_pod : ∃ state : Tracked Body,
    Reachable (system webConfig webFormats contentTagging) state ∧
      readIndex deployCall.index = .ok webIndex ∧ Selects webConfig webIndex "web" webDeployment ∧
      (reconcile webConfig webFormats contentTagging deployCall state.process).2 = none ∧
      (reconcile webConfig webFormats contentTagging deployCall
        state.process).1.disk.static.lookup (podFileName "web") = none := by
  obtain ⟨first, hfirst, hetag, hskips⟩ := deploy_publishes
  obtain ⟨disk, message, hwithdraw, hremoved⟩ := withdraw_fails hetag
  have hstart : Reachable (system webConfig webFormats contentTagging)
      ⟨webProcess, fun _ ↦ False⟩ := .init ⟨rfl, fun _ hfalse ↦ hfalse⟩
  have hdeployed := Reachable.step hstart (rfl : (system webConfig webFormats contentTagging).step _
    deployCall _)
  have hwithdrawn := Reachable.step hdeployed (rfl : (system webConfig webFormats contentTagging).step _
    withdrawCall _)
  refine ⟨_, hwithdrawn, deploy_reads, ⟨"workers/web", rfl, by decide⟩, ?_⟩
  have hprocess : (track webConfig webFormats contentTagging
      (track webConfig webFormats contentTagging ⟨webProcess, fun _ ↦ False⟩ deployCall)
        withdrawCall).process = (first.fail disk message).1 := by
    simp only [track, hfirst, hwithdraw]
  rw [hprocess]
  obtain ⟨progress, candidate, hfold, hcandidates, hloaded⟩ :=
    @web_collected (first.fail disk message).1.memory
  have hstale : (first.fail disk message).1.memory.upToDate deployCall
      (deployCall.etag contentTagging) = false := by
    simp [Memory.upToDate, Process.fail]
  obtain ⟨last, hreconcile, hlookup⟩ := reconcile_of_clean deploy_reads hstale hfold
    deploy_confirms defaults_clean
  have hpublish : candidate.publish = false := by
    rw [hloaded.publish]
    exact congrArg not hskips
  rw [hreconcile]
  refine ⟨rfl, ?_⟩
  have hfile := hlookup (podFileName "web")
  rw [hcandidates, List.foldl_cons, List.foldl_nil, writeCandidate, hpublish] at hfile
  have hkept : stale ([candidate].map Candidate.name) (podFileName "web") ≠ true := by
    rw [ne_eq, stale_podFileName, not_not, List.map_singleton, hloaded.name]
    exact List.mem_singleton_self _
  rw [if_neg hkept] at hfile
  exact hfile.trans hremoved

/-- A first call on empty directories. -/
theorem reconciled_matches_first :
    (reconcile webConfig webFormats contentTagging deployCall webProcess).2 = none ∧
      ∃ index, readIndex deployCall.index = .ok index ∧
        Matches webConfig webFormats index
          (reconcile webConfig webFormats contentTagging deployCall webProcess).1 := by
  obtain ⟨first, hfirst, _⟩ := deploy_publishes
  have hnil : (reconcile webConfig webFormats contentTagging deployCall webProcess).2 = none := by
    rw [hfirst]
  have hstart : Reachable ((system webConfig webFormats contentTagging).guarded
      (undisturbed webConfig webFormats contentTagging)) ⟨webProcess, fun _ ↦ False⟩ :=
        .init ⟨rfl, fun _ hfalse ↦ hfalse⟩
  have hcall : undisturbed webConfig webFormats contentTagging (⟨webProcess, fun _ ↦ False⟩ : Tracked Body)
      deployCall := fun _ _ _ _ _ _ _ hfalse ↦ hfalse
  obtain ⟨index, hread, hmatches, _⟩ := reconciled_matches hstart hcall hnil
  exact ⟨hnil, index, hread, hmatches⟩

end Podmin.Agent.StaticPod
