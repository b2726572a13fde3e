import Podmin.Agent.StaticPod.Fence
import Podmin.Agent.StaticPod.OtherDeployments

/-!
# Switching the identity of a Pod

A published Pod has a link to a generation with the three files of one issued identity, whose
fingerprint its manifest carries. The generation it leaves behind is found again by its modification
time only, and staging that is discarded leaves newer generations than the live one. Runs in which no
call meets such a generation, or skips a Pod that a failed call changed, keep both.
-/

namespace Podmin.Agent.StaticPod

open Foundation CasRegister Fallible PodDir
open Foundation.Transition Manifest Agent.Workload

/-! ## Live identities -/

/-- A generation has its three files. -/
def PodDir.Complete (dir : PodDir) (generation : String) : Prop :=
  ∀ file ∈ [certificateFilename, privateKeyFilename, caBundleFilename],
    ∃ body, dir.identityFile generation file = some body

/-- A Pod runs with an identity: its manifest carries the fingerprint, and its link leads to the three
files. -/
structure Presents (formats : Formats) (disk : Disk) (name : String) (material : Material) : Prop where
  podFile : ∃ body pod, disk.static.lookup (podFileName name) = some body ∧
    parsePod formats.pods body = .ok pod ∧
    pod.annotations.lookup "podmin.dev/identity-revision" = some (shortDigest material.certificate)
  link : (disk.dir name).link = some (shortDigest material.certificate)
  files : ∀ entry ∈ identityFiles material,
    (disk.dir name).identityFile (shortDigest material.certificate) entry.1 = some entry.2

/-- What is live of a Pod: its manifest, its link, and the files the link leads to. -/
def Disk.presence (disk : Disk) (name : String) :
    Option (List UInt8) × Option String × (String → Option (List UInt8)) :=
  (disk.static.lookup (podFileName name), (disk.dir name).link,
    fun file ↦ (disk.dir name).link.bind fun generation ↦ (disk.dir name).identityFile generation file)

theorem Presents.of_presence {formats : Formats} {before after : Disk} {name : String}
    {material : Material} (hpresents : Presents formats before name material)
    (hsame : after.presence name = before.presence name) : Presents formats after name material := by
  have hstatic := congrArg Prod.fst hsame
  have hlink := congrArg (·.2.1) hsame
  have hfiles := congrArg (·.2.2) hsame
  dsimp only [Disk.presence] at hstatic hlink hfiles
  have hafter : (after.dir name).link = some (shortDigest material.certificate) :=
    hlink.trans hpresents.link
  refine ⟨by rw [hstatic]; exact hpresents.podFile, hafter, fun entry hentry ↦ ?_⟩
  have hfile := congrFun hfiles entry.1
  rw [hafter, hpresents.link] at hfile
  exact hfile.trans (hpresents.files entry hentry)

variable {generation : String} {body : List UInt8}

theorem identityRevision_annotation {formats : Formats} {input certificate : List UInt8}
    (hrevision : identityRevision formats input certificate = .ok (body, generation)) :
    ∃ pod, parsePod formats.pods body = .ok pod ∧
      pod.annotations.lookup "podmin.dev/identity-revision" = some (shortDigest certificate) := by
  unfold identityRevision at hrevision
  split at hrevision
  · exact nomatch hrevision
  · cases hrevision
    exact ⟨_, parsePod_marshalPod _ _, (GoMap.lookup_insert_eq ..).trans (if_pos rfl)⟩

/-! ## Publishing one Pod -/

variable {written : PodDir}

section Candidate

variable {Tag : Type} {config : Config} {formats : Formats} {memory : Memory Tag} {call : Call}
  {index : Index} {progress : Progress} {before staged disk : Disk} {item : String × IndexDeployment}
  {candidate : Candidate}

/-- Cleaning up never removes the generation of the candidate. -/
theorem Cleaned.identityFile {desired : Desired} {after : PodDir}
    (hcleaned : Cleaned desired candidate written after) (file : String) :
    after.identityFile candidate.identityGeneration file =
      written.identityFile candidate.identityGeneration file := by
  have hcurrent : candidate.identityGeneration ∉ written.obsolete candidate.identityGeneration :=
    fun hmem ↦ (mem_obsolete.mp hmem).2.1 rfl
  unfold PodDir.identityFile
  rw [hcleaned.generations, if_neg hcurrent]

section Collected

variable (hcollected : Collected config formats memory call (selected config call.iteration index) progress)
  (hmem : candidate ∈ progress.candidates) (hloaded : Loaded config formats memory call item candidate)

include hcollected hmem hloaded

/-- A published candidate runs with its identity. -/
theorem presents_published (hpublish : candidate.publish = true)
    (hstage : runAll (stage call.faults) (progress.changes call) before = (staged, none))
    (hpublished : publishChanges call progress.candidates (progress.changes call) staged = (disk, none)) :
    Presents formats disk item.1 candidate.identity := by
  obtain ⟨written, hwrites, hcleaned⟩ := publishChanges_dir hcollected.nodup hmem hstage hpublished
  have hgeneration := hloaded.generation
  rw [hloaded.name] at hcleaned
  refine ⟨?_, ?_, fun entry hentry ↦ ?_⟩
  · have hfile := publishChanges_podFile hcollected.nodup hmem hpublished
    rw [hpublish, if_pos rfl, hloaded.name] at hfile
    obtain ⟨built, _, _, hrevision⟩ := hloaded.assembled
    obtain ⟨pod, hpod, hannotation⟩ := identityRevision_annotation hrevision
    exact ⟨candidate.manifest, pod, hfile, hpod, hannotation⟩
  · rw [hcleaned.link, hwrites.link hpublish, hgeneration]
  · obtain ⟨kept, hkept, hfiles⟩ := hwrites.files hpublish
    rw [← hgeneration, hcleaned.identityFile, identityFile, hkept]
    exact hfiles entry hentry

/-- A skipped candidate runs with the identity it ran with. -/
theorem presents_skipped (hskipped : candidate.publish = false) (hstaged : staged.static = before.static)
    (hstage : runAll (stage call.faults) (progress.changes call) before = (staged, none))
    (hpublished : publishChanges call progress.candidates (progress.changes call) staged = (disk, none))
    (hbefore : Presents formats before item.1 candidate.identity) :
    Presents formats disk item.1 candidate.identity := by
  obtain ⟨written, hwrites, hcleaned⟩ := publishChanges_dir hcollected.nodup hmem hstage hpublished
  rw [hwrites.skipped hskipped, hloaded.name] at hcleaned
  refine ⟨?_, hcleaned.link.trans hbefore.link, fun entry hentry ↦ ?_⟩
  · have hfile := publishChanges_podFile hcollected.nodup hmem hpublished
    rw [hskipped, if_neg Bool.false_ne_true, hloaded.name, hstaged] at hfile
    rw [hfile]
    exact hbefore.podFile
  · have hcurrent := hcleaned.identityFile entry.1
    rw [hloaded.generation] at hcurrent
    exact hcurrent.trans (hbefore.files entry hentry)

end Collected

/-- The generation is later than the other ones of the directory. -/
def PodDir.Latest (dir : PodDir) (designated : String) : Prop :=
  ∀ left, dir.generations.lookup designated = some left →
    ∀ other kept, other ≠ designated → dir.generations.lookup other = some kept → kept.modTime < left.modTime

/-- The generation a Pod leaves behind survives if it is later than every other one. -/
theorem previous_survives {desired : Desired} {earlier after : PodDir} {designated : String} {left : Generation}
    (hwrites : Writes candidate earlier written) (hcleaned : Cleaned desired candidate written after)
    (hdesignated : designated ≠ candidate.identityGeneration)
    (hleft : earlier.generations.lookup designated = some left) (hlatest : earlier.Latest designated) :
    after.generations.lookup designated = some left := by
  have hwritten := (hwrites.others designated hdesignated).trans hleft
  obtain ⟨found, latest, hfound, hother, hlookup, hle⟩ := previous_latest hwritten hdesignated
  have hsame : found = designated := by
    by_contra hne
    have hold := (hwrites.others found hother).symm.trans hlookup
    exact absurd (hlatest left hleft found latest hne hold) (not_lt.mpr hle)
  have hkept : designated ∉ written.obsolete candidate.identityGeneration := by
    intro hobsolete
    exact (mem_obsolete.mp hobsolete).2.2 (hsame ▸ hfound.symm)
  rw [hcleaned.generations, if_neg hkept, hwritten]

end Candidate

/-! ## Runs -/

/-- A process, the identities issued so far, and the Pods whose live files were changed by a call that
failed since the last one that did not. -/
structure Watched (Tag : Type) where
  process : Process Tag
  issued : Material → Prop
  disturbed : String → Prop

section Watched

variable {Tag : Type} [DecidableEq Tag] (config : Config) (formats : Formats)
  (tagging : Tagging Body Tag)

def watch (state : Watched Tag) (call : Call) : Watched Tag where
  process := (reconcile config formats tagging call state.process).1
  issued material := state.issued material ∨
    ∃ ns pod service now, call.issue ns pod service now = .ok material
  disturbed name := (reconcile config formats tagging call state.process).2.isSome ∧
    (state.disturbed name ∨
      (reconcile config formats tagging call state.process).1.disk.presence name ≠
        state.process.disk.presence name)

/-- A new process on any directory contents. -/
def watchedSystem : System (Watched Tag) Call where
  init state := state.process.memory = {} ∧ (∀ material, ¬state.issued material) ∧
    ∀ name, ¬state.disturbed name
  step state call next := next = watch config formats tagging state call

/-- If the call returns nil, it skips no Pod that a failed call changed. -/
def skipsSettled (state : Watched Tag) (call : Call) : Prop :=
  (reconcile config formats tagging call state.process).2 = none →
    ∀ index name deployment, readIndex call.index = .ok index → Selects config index name deployment →
      state.process.memory.skips call.authorityRevision (call.now name) name deployment = true →
        ¬state.disturbed name

structure SwitchInvariant (state : Watched Tag) : Prop where
  remembers : Remembers config tagging state.process
  present : ∀ name material, state.process.memory.identityMaterial.lookup name = some material →
    ¬state.disturbed name →
      state.issued material ∧ Presents formats state.process.disk name material
  calm : state.process.memory.health = true → ∀ name, ¬state.disturbed name

end Watched

theorem watch_process {Tag : Type} [DecidableEq Tag] (config : Config) (formats : Formats)
    (tagging : Tagging Body Tag) (state : Watched Tag) (call : Call) :
    (watch config formats tagging state call).process =
      (reconcile config formats tagging call state.process).1 := by
  unfold watch
  rfl

section Step

variable {Tag : Type} {config : Config} {formats : Formats} {tagging : Tagging Body Tag}
  {state : Watched Tag} {call : Call} {index : Index} {progress : Progress} {staged disk : Disk}

variable {item : String × IndexDeployment}

variable [DecidableEq Tag]

/-- After a publication every candidate runs with its identity, which was issued in the run. -/
theorem SwitchInvariant.candidate (hinv : SwitchInvariant config formats tagging state)
    (hskipped : ∀ name deployment, Selects config index name deployment →
      state.process.memory.skips call.authorityRevision (call.now name) name deployment = true →
        ¬state.disturbed name)
    (hcollected : Collected config formats state.process.memory call
      (selected config call.iteration index) progress)
    (hstaged : staged.static = state.process.disk.static)
    (hstage : runAll (stage call.faults) (progress.changes call) state.process.disk = (staged, none))
    (hpublish : publishChanges call progress.candidates (progress.changes call) staged = (disk, none))
    {candidate : Candidate} (hitem : item ∈ selected config call.iteration index)
    (hmem : candidate ∈ progress.candidates)
    (hloaded : Loaded config formats state.process.memory call item candidate) :
    (watch config formats tagging state call).issued candidate.identity ∧
      Presents formats disk item.1 candidate.identity := by
  cases hpublishes : candidate.publish with
  | true =>
    obtain ⟨ns, service, hissue⟩ := hloaded.issued hpublishes
    exact ⟨.inr ⟨ns, item.1, service, call.now item.1, hissue⟩,
      presents_published hcollected hmem hloaded hpublishes hstage hpublish⟩
  | false =>
    obtain ⟨hskips, hmaterial⟩ := hloaded.remembered hpublishes
    have hundisturbed := hskipped item.1 item.2 (mem_selected.mp hitem) hskips
    obtain ⟨hissued, hpresents⟩ := hinv.present item.1 candidate.identity hmaterial hundisturbed
    exact ⟨.inl hissued,
      presents_skipped hcollected hmem hloaded hpublishes hstaged hstage hpublish hpresents⟩

theorem SwitchInvariant.step (hinv : SwitchInvariant config formats tagging state)
    (hcall : skipsSettled config formats tagging state call) :
    SwitchInvariant config formats tagging (watch config formats tagging state call) := by
  have hremembers : Remembers config tagging (reconcile config formats tagging call state.process).1 :=
    hinv.remembers.reconcile
  have hends := reconcile_ends config formats tagging call state.process
  unfold skipsSettled at hcall
  refine ⟨hremembers, ?_, ?_⟩
  · intro name material hmaterial hundisturbed
    dsimp only [watch] at hmaterial hundisturbed ⊢
    generalize hresult : reconcile config formats tagging call state.process = result at *
    cases hends with
    | failed disk message =>
      -- what is not disturbed is as it was before the call
      simp only [Process.fail, Option.isSome_some, true_and, not_or, ne_eq, not_not] at hundisturbed
      obtain ⟨hissued, hpresents⟩ := hinv.present name material hmaterial hundisturbed.1
      exact ⟨.inl hissued, hpresents.of_presence hundisturbed.2⟩
    | upToDate hread hcurrent =>
      have hhealth : state.process.memory.health = true := by
        simp only [Memory.upToDate, Bool.and_eq_true] at hcurrent
        exact hcurrent.1.1.2
      obtain ⟨hissued, hpresents⟩ := hinv.present name material hmaterial (hinv.calm hhealth name)
      exact ⟨.inl hissued, hpresents⟩
    | published hread hcollected hstaged hstage hpublish =>
      obtain ⟨candidate, hmem, rfl, rfl⟩ := (lookup_remembered hcollected.nodup _).mp hmaterial
      obtain ⟨item, hitem, hloaded⟩ := forall₂_mem_right hcollected.candidates hmem
      rw [hloaded.name]
      exact hinv.candidate (fun _ _ ↦ hcall rfl _ _ _ hread) hcollected hstaged hstage hpublish hitem hmem
        hloaded
  · intro hhealth name hdisturbed
    obtain ⟨hfailed, _⟩ := hdisturbed
    dsimp only [watch] at hhealth
    generalize reconcile config formats tagging call state.process = result at *
    cases hends with
    | failed disk message => cases hhealth
    | upToDate hread hcurrent => cases hfailed
    | published hread hcollected hstaged hstage hpublish => cases hfailed

theorem switchInvariant_of_reachable
    (hreach : Reachable ((watchedSystem config formats tagging).guarded
      (skipsSettled config formats tagging)) state) :
    SwitchInvariant config formats tagging state := by
  refine Reachable.invariant ?_ ?_ hreach
  · intro state hinit
    have hunhealthy : state.process.memory.health ≠ true := by simp [hinit.1]
    refine ⟨⟨fun hhealth ↦ absurd hhealth hunhealthy, fun hhealth ↦ absurd hhealth hunhealthy⟩,
      fun name material hmaterial ↦ ?_, fun _ ↦ hinit.2.2⟩
    rw [hinit.1] at hmaterial
    exact nomatch hmaterial
  · intro state call next _ hinv hstep
    rw [hstep.2]
    exact hinv.step hstep.1

/-- In runs whose calls that return nil skip no Pod that a failed call changed, such a call leaves every
Pod of the index it read with the three files of one issued identity whose fingerprint the manifest
carries, and with the complete generation its link led to before, if that one was the latest. -/
theorem identity_switched
    (hreach : Reachable ((watchedSystem config formats tagging).guarded (skipsSettled config formats tagging))
      state)
    (hcall : skipsSettled config formats tagging state call)
    (hnil : (reconcile config formats tagging call state.process).2 = none)
    (hindex : readIndex call.index = .ok index) {name : String} {deployment : IndexDeployment}
    (hselects : Selects config index name deployment) :
    (∃ material, (watch config formats tagging state call).issued material ∧
      Presents formats (watch config formats tagging state call).process.disk name material) ∧
    ∀ designated, (state.process.disk.dir name).link = some designated →
      (state.process.disk.dir name).Complete designated →
      (state.process.disk.dir name).Latest designated →
      ((watch config formats tagging state call).process.disk.dir name).link ≠ some designated →
        ((watch config formats tagging state call).process.disk.dir name).generations.lookup designated =
          (state.process.disk.dir name).generations.lookup designated := by
  have hinv := switchInvariant_of_reachable hreach
  have hskipped := hcall hnil
  have hends := reconcile_ends config formats tagging call state.process
  rw [watch_process]
  generalize reconcile config formats tagging call state.process = result at hnil hends ⊢
  cases hends with
  | failed disk message => exact nomatch hnil
  | upToDate hread hcurrent =>
    refine ⟨?_, fun _ _ _ _ _ ↦ rfl⟩
    simp only [Memory.upToDate, Bool.and_eq_true, decide_eq_true_eq] at hcurrent
    obtain ⟨_, material, hmaterial⟩ :=
      hinv.remembers.deployments hcurrent.1.1.2 hcurrent.1.1.1.symm hindex hselects
    obtain ⟨hissued, hpresents⟩ := hinv.present name material hmaterial (hinv.calm hcurrent.1.1.2 name)
    exact ⟨material, .inl hissued, hpresents⟩
  | published hread hcollected hstaged hstage hpublish =>
    cases hindex.symm.trans hread
    obtain ⟨candidate, hmem, hloaded⟩ := forall₂_mem_left hcollected.candidates
      (mem_selected.mpr hselects)
    refine ⟨⟨candidate.identity, hinv.candidate (fun _ _ ↦ hskipped _ _ _ hindex) hcollected hstaged hstage
      hpublish (mem_selected.mpr hselects) hmem hloaded⟩,
      fun designated hlink hcomplete hlatest hswitched ↦ ?_⟩
    obtain ⟨written, hwrites, hcleaned⟩ := publishChanges_dir hcollected.nodup hmem hstage hpublish
    have hname : candidate.name = name := hloaded.name
    rw [hname] at hwrites hcleaned
    cases hpublishes : candidate.publish with
    | false =>
      exact absurd ((hcleaned.link.trans (congrArg link (hwrites.skipped hpublishes))).trans hlink)
        hswitched
    | true =>
      have hdesignated : designated ≠ candidate.identityGeneration := by
        intro hsame
        apply hswitched
        rw [hsame]
        exact hcleaned.link.trans (hwrites.link hpublishes)
      obtain ⟨body, hbody⟩ := hcomplete certificateFilename List.mem_cons_self
      obtain ⟨left, hleft, _⟩ := Option.bind_eq_some_iff.mp hbody
      rw [hleft]
      exact previous_survives hwrites hcleaned hdesignated hleft hlatest

end Step

/-! ## Generations that staging leaves -/

theorem PodDir.updateGeneration_lookup (dir : PodDir) (generation other : String) (time : Int) :
    (dir.updateGeneration generation time id).generations.lookup other =
      if other = generation then
        some ⟨time, ((dir.generations.lookup generation).map Generation.files).getD ∅⟩
      else dir.generations.lookup other :=
  GoMap.lookup_insert_eq ..

theorem PodDir.updateGeneration_again (dir : PodDir) (generation : String) (time : Int) :
    (dir.updateGeneration generation time id).updateGeneration generation time id =
      dir.updateGeneration generation time id := by
  have hfiles := dir.updateGeneration_lookup generation generation time
  rw [if_pos rfl] at hfiles
  unfold updateGeneration at hfiles ⊢
  dsimp only at hfiles ⊢
  rw [hfiles, AList.insert_insert]
  rfl

/-- Discarding a file changes the time of its generation, which staging made. -/
theorem Disk.discard_dir {disk : Disk} {pod : String} {time : Int} {before : PodDir} (file : String)
    (body : List UInt8) (hdir : disk.dir pod = before.updateGeneration generation time id) :
    (disk.discard time (.identityFile pod generation file body)).dir pod =
      before.updateGeneration generation time id := by
  have hmade : ∃ made, (disk.secret.lookup pod).bind (·.generations.lookup generation) = some made := by
    have hlookup := before.updateGeneration_lookup generation generation time
    rw [if_pos rfl, ← hdir, Disk.dir] at hlookup
    cases hpod : disk.secret.lookup pod with
    | none => rw [hpod] at hlookup; cases hlookup
    | some dir => rw [hpod] at hlookup; exact ⟨_, hlookup⟩
  obtain ⟨made, hmade⟩ := hmade
  unfold discard
  dsimp only
  rw [hmade]
  dsimp only
  rw [Disk.updatePod_dir, if_pos rfl, hdir, updateGeneration_again]

/-! ## A lost generation -/

section Published

variable {Tag : Type} [DecidableEq Tag] {config : Config} {formats : Formats}
  {tagging : Tagging Body Tag} {process : Process Tag} {call : Call} {index : Index} {name : String}
  {deployment : IndexDeployment}

/-- What a successful call that publishes a Pod does to its directory. -/
theorem reconcile_publishes (hread : readIndex call.index = .ok index)
    (hselects : Selects config index name deployment)
    (houtdated : process.memory.upToDate call (call.etag tagging) = false)
    (hskips : process.memory.skips call.authorityRevision (call.now name) name deployment = false)
    (hnil : (reconcile config formats tagging call process).2 = none) :
    ∃ candidate written desired, Loaded config formats process.memory call (name, deployment) candidate ∧
      candidate.publish = true ∧ Writes candidate (process.disk.dir name) written ∧
      Cleaned desired candidate written
        ((reconcile config formats tagging call process).1.disk.dir name) ∧
      (reconcile config formats tagging call process).1.memory.identityRevision =
        call.authorityRevision := by
  have hends := reconcile_ends config formats tagging call process
  generalize reconcile config formats tagging call process = result at hnil hends ⊢
  cases hends with
  | failed disk message => exact nomatch hnil
  | upToDate _ hcurrent => exact nomatch houtdated.symm.trans hcurrent
  | @published read progress staged disk hreads hcollected hstaged hstage hpublish _ =>
    cases hread.symm.trans hreads
    obtain ⟨candidate, hmem, hloaded⟩ := forall₂_mem_left hcollected.candidates
      (mem_selected.mpr hselects)
    have hpublishes : candidate.publish = true := by simpa [hskips] using hloaded.publish
    obtain ⟨written, hwrites, hcleaned⟩ := publishChanges_dir hcollected.nodup hmem hstage hpublish
    have hname : candidate.name = name := hloaded.name
    rw [hname] at hwrites hcleaned
    exact ⟨candidate, written, _, hloaded, hpublishes, hwrites, hcleaned, rfl⟩

end Published

theorem Writes.complete {candidate : Candidate} {before : PodDir} (hwrites : Writes candidate before written)
    (hpublish : candidate.publish = true) :
    written.Complete candidate.identityGeneration := by
  obtain ⟨kept, hkept, hfiles⟩ := hwrites.files hpublish
  intro file hfile
  obtain ⟨entry, hentry, rfl⟩ : ∃ entry ∈ identityFiles candidate.identity, entry.1 = file :=
    List.mem_map.mp hfile
  refine ⟨entry.2, ?_⟩
  rw [identityFile, hkept]
  exact hfiles entry hentry

/-- A call at a CA revision that issues a certificate and uses the file system at one time. -/
def issueCall (revision confirmed : Nat) (certificate : List UInt8) (time : Int) : Call :=
  { deployCall with
    authorityRevision := revision
    checkedRevision := revision
    confirmedRevision := confirmed
    issue := fun _ _ _ _ ↦ .ok ⟨certificate, [], [], 7 * hour⟩
    faults := { stagedAt := fun _ ↦ time, renamedAt := fun _ ↦ time, discardedAt := fun _ ↦ time } }

theorem Process.fail_identityRevision {Tag : Type} (process : Process Tag) (disk : Disk)
    (message : String) :
    (process.fail disk message).1.memory.identityRevision = process.memory.identityRevision :=
  rfl

section Issue

variable {process : Process Body} {revision confirmed : Nat} {certificate : List UInt8} {time : Int}

theorem issueCall_clean : (issueCall revision confirmed certificate time).faults.Clean :=
  ⟨fun _ ↦ rfl, fun _ ↦ rfl, fun _ ↦ rfl, fun _ ↦ rfl, fun _ ↦ rfl, fun _ ↦ rfl⟩

theorem web_selected : Selects webConfig webIndex "web" webDeployment := ⟨"workers/web", rfl, by decide⟩

theorem skips_of_ne {now : Int} (hrevision : process.memory.identityRevision ≠ revision) :
    process.memory.skips revision now "web" webDeployment = false := by
  simp [Memory.skips, Memory.unchanged, hrevision]

theorem upToDate_of_ne (hrevision : process.memory.identityRevision ≠ revision) :
    process.memory.upToDate (issueCall revision confirmed certificate time)
      ((issueCall revision confirmed certificate time).etag contentTagging) = false := by
  have hchecked : (issueCall revision confirmed certificate time).checkedRevision ≠
      process.memory.identityRevision := hrevision.symm
  simp [Memory.upToDate, hchecked]

section Candidate

variable {candidate : Candidate} (hloaded : Loaded webConfig webFormats process.memory
  (issueCall revision confirmed certificate time) ("web", webDeployment) candidate)

include hloaded

theorem Loaded.issueCall_generation (hpublish : candidate.publish = true) :
    candidate.identityGeneration = shortDigest certificate := by
  obtain ⟨_, _, hissue⟩ := hloaded.issued hpublish
  rw [hloaded.generation, ← Except.ok.inj hissue]

theorem Loaded.issueCall_changes (hpublish : candidate.publish = true) :
    candidate.changes (issueCall revision confirmed certificate time).iteration =
      (identityFiles candidate.identity).reverse.map (fun entry ↦
        .identityFile "web" (shortDigest certificate) entry.1 entry.2) ++
      [.identityLink "web" (shortDigest certificate), .podFile "web" candidate.manifest] := by
  obtain ⟨built, hload, _, hsecrets⟩ := @web_loaded webFormats
    (issueCall revision confirmed certificate time) rfl (Codec.assign_decode _ _ _) rfl
  obtain ⟨other, hother, hkept, _⟩ := hloaded.assembled
  cases hother.symm.trans hload
  have hname : candidate.name = "web" := hloaded.name
  rw [Candidate.changes, hpublish, hloaded.issueCall_generation hpublish, hname, hkept, hsecrets]
  rfl

/-- Staging the candidate and discarding it leaves a generation as late as the call. -/
theorem Loaded.issueCall_discarded (hpublish : candidate.publish = true) (disk : Disk) :
    (discardAll (issueCall revision confirmed certificate time).faults
      (candidate.changes (issueCall revision confirmed certificate time).iteration)
      (runAll (stage (issueCall revision confirmed certificate time).faults)
        (candidate.changes (issueCall revision confirmed certificate time).iteration) disk).1).dir "web" =
      (disk.dir "web").updateGeneration (shortDigest certificate) time id := by
  rw [hloaded.issueCall_changes hpublish]
  refine Disk.discard_dir certificateFilename candidate.identity.certificate
    (Disk.discard_dir privateKeyFilename candidate.identity.privateKey
      (Disk.discard_dir caBundleFilename candidate.identity.caBundle ?_))
  have hstaged : ∀ (disk : Disk) file body, (disk.prepare time
      (.identityFile "web" (shortDigest certificate) file body)).dir "web" =
        (disk.dir "web").updateGeneration (shortDigest certificate) time id :=
    fun disk file body ↦ (Disk.prepare_dir ..).trans (if_pos rfl)
  have hlink : ∀ disk : Disk,
      (disk.prepare time (.identityLink "web" (shortDigest certificate))).dir "web" = disk.dir "web" :=
    fun disk ↦ (Disk.prepare_dir ..).trans (if_pos rfl)
  refine (hlink _).trans ((hstaged _ certificateFilename candidate.identity.certificate).trans ?_)
  dsimp only [issueCall]
  rw [hstaged, hstaged, updateGeneration_again, updateGeneration_again]

end Candidate

section Revision

variable (hrevision : process.memory.identityRevision ≠ revision)

include hrevision

/-- The call publishes a new generation if the CA stays the same, -/
theorem issueCall_nil :
    (reconcile webConfig webFormats contentTagging (issueCall revision revision certificate time)
      process).2 = none := by
  obtain ⟨progress, _, hfold, _⟩ := @web_collected_of process.memory
    (issueCall revision revision certificate time) rfl rfl fun _ _ _ _ ↦ ⟨_, rfl⟩
  have hconfirm : confirm contentTagging (issueCall revision revision certificate time)
      ((issueCall revision revision certificate time).etag contentTagging) = .ok () := by
    simp [confirm, issueCall, deployCall, webCall, Call.etag, contentTagging]
  obtain ⟨disk, hreconcile, _⟩ := @reconcile_of_clean _ _ webConfig webFormats contentTagging
    (issueCall revision revision certificate time) process webIndex progress deploy_reads
    (upToDate_of_ne hrevision) hfold hconfirm issueCall_clean
  rw [hreconcile]

/-- and leaves it staged if the CA changes meanwhile. -/
theorem issueCall_superseded (hconfirmed : confirmed ≠ revision) : ∃ disk message,
    reconcile webConfig webFormats contentTagging (issueCall revision confirmed certificate time)
      process = process.fail disk message ∧
    disk.dir "web" = (process.disk.dir "web").updateGeneration (shortDigest certificate) time id := by
  obtain ⟨progress, candidate, hfold, hcandidates, hloaded⟩ := @web_collected_of process.memory
    (issueCall revision confirmed certificate time) rfl rfl fun _ _ _ _ ↦ ⟨_, rfl⟩
  have hpublish : candidate.publish = true := by
    rw [hloaded.publish]
    exact congrArg not (skips_of_ne hrevision)
  have hconfirm : confirm contentTagging (issueCall revision confirmed certificate time)
      ((issueCall revision confirmed certificate time).etag contentTagging) =
        .error "workload CA: desired state changed while reconciling" := by
    simp [confirm, issueCall, deployCall, webCall, Call.etag, contentTagging, hconfirmed]
  have hreconcile := @reconcile_of_superseded _ _ webConfig webFormats contentTagging
    (issueCall revision confirmed certificate time) process webIndex progress _ deploy_reads
    (upToDate_of_ne hrevision) hfold hconfirm issueCall_clean
  rw [Progress.changes, hcandidates, List.flatMap_singleton] at hreconcile
  exact ⟨_, _, hreconcile, hloaded.issueCall_discarded hpublish process.disk⟩

/-- A successful call leads the link to the new generation, which is then complete; it leaves no
generation that was not there. -/
theorem issueCall_switches :
    ∃ candidate written desired, candidate.identityGeneration = shortDigest certificate ∧
      Writes candidate (process.disk.dir "web") written ∧
      Cleaned desired candidate written ((reconcile webConfig webFormats contentTagging
        (issueCall revision revision certificate time) process).1.disk.dir "web") ∧
      ((reconcile webConfig webFormats contentTagging (issueCall revision revision certificate time)
        process).1.disk.dir "web").link = some (shortDigest certificate) ∧
      ((reconcile webConfig webFormats contentTagging (issueCall revision revision certificate time)
        process).1.disk.dir "web").Complete (shortDigest certificate) ∧
      (reconcile webConfig webFormats contentTagging (issueCall revision revision certificate time)
        process).1.memory.identityRevision = revision := by
  obtain ⟨candidate, written, desired, hloaded, hpublish, hwrites, hcleaned, hmemory⟩ :=
    @reconcile_publishes _ _ webConfig webFormats contentTagging process
      (issueCall revision revision certificate time) webIndex "web" webDeployment deploy_reads
      web_selected (upToDate_of_ne hrevision) (skips_of_ne hrevision) (issueCall_nil hrevision)
  have hgeneration := hloaded.issueCall_generation hpublish
  refine ⟨candidate, written, desired, hgeneration, hwrites, hcleaned, ?_, ?_, hmemory⟩
  · rw [hcleaned.link, hwrites.link hpublish, hgeneration]
  · intro file hfile
    rw [← hgeneration, hcleaned.identityFile]
    exact hwrites.complete hpublish file hfile

end Revision

end Issue

theorem digests_nodup : [shortDigest [1], shortDigest [2], shortDigest [3]].Nodup := by
  decide +kernel

/-- A call that is superseded leaves a later generation, so the next one removes the generation the link
led to. -/
theorem generation_lost : ∃ state : Watched Body,
    Reachable (watchedSystem webConfig webFormats contentTagging) state ∧
      (reconcile webConfig webFormats contentTagging (issueCall 3 3 [3] 2) state.process).2 = none ∧
      readIndex (issueCall 3 3 [3] 2).index = .ok webIndex ∧
      Selects webConfig webIndex "web" webDeployment ∧
      (state.process.disk.dir "web").link = some (shortDigest [1]) ∧
      (state.process.disk.dir "web").Complete (shortDigest [1]) ∧
      ((watch webConfig webFormats contentTagging state (issueCall 3 3 [3] 2)).process.disk.dir
        "web").link ≠ some (shortDigest [1]) ∧
      ((watch webConfig webFormats contentTagging state (issueCall 3 3 [3] 2)).process.disk.dir
        "web").generations.lookup (shortDigest [1]) = none := by
  have hdigests := digests_nodup
  simp only [List.nodup_cons, List.mem_cons, List.not_mem_nil, or_false, not_or] at hdigests
  obtain ⟨⟨honeTwo, honeThree⟩, htwoThree, _⟩ := hdigests
  have hstart : Reachable (watchedSystem webConfig webFormats contentTagging)
      ⟨webProcess, fun _ ↦ False, fun _ ↦ False⟩ := .init ⟨rfl, fun _ hfalse ↦ hfalse, fun _ hfalse ↦ hfalse⟩
  have hissued := Reachable.step hstart
    (rfl : (watchedSystem webConfig webFormats contentTagging).step _ (issueCall 1 1 [1] 0) _)
  obtain ⟨_, _, _, _, _, _, hlink, hcomplete, hmemory⟩ :=
    @issueCall_switches webProcess 1 [1] 0 (by decide)
  obtain ⟨body, hbody⟩ := hcomplete certificateFilename List.mem_cons_self
  obtain ⟨left, hleft, _⟩ := Option.bind_eq_some_iff.mp hbody
  -- the second call comes after the live generation was written
  have hsuperseded := Reachable.step hissued
    (rfl : (watchedSystem webConfig webFormats contentTagging).step _
      (issueCall 2 3 [2] (left.modTime + 1)) _)
  refine ⟨_, hsuperseded, ?_⟩
  simp only [watch_process]
  generalize (reconcile webConfig webFormats contentTagging (issueCall 1 1 [1] 0) webProcess).1 =
    first at hlink hcomplete hmemory hleft ⊢
  obtain ⟨disk, message, hsecond, hdir⟩ :=
    @issueCall_superseded first 2 3 [2] (left.modTime + 1) (by rw [hmemory]; decide) (by decide)
  rw [hsecond]
  have hrevision : (first.fail disk message).1.memory.identityRevision ≠ 3 := by
    rw [Process.fail_identityRevision, hmemory]
    decide
  obtain ⟨candidate, written, desired, hgeneration, hwrites, hcleaned, hswitched, _⟩ :=
    @issueCall_switches (first.fail disk message).1 3 [3] 2 hrevision
  have hgenerations : ∀ other, ((first.fail disk message).1.disk.dir "web").generations.lookup other = _ :=
    fun other ↦ (congrArg (·.generations.lookup other) hdir).trans
      (updateGeneration_lookup (first.disk.dir "web") (shortDigest [2]) other (left.modTime + 1))
  have hlive := (hgenerations (shortDigest [1])).trans ((if_neg honeTwo).trans hleft)
  refine ⟨issueCall_nil hrevision, deploy_reads, web_selected,
    (congrArg link hdir).trans ((SameDir.updateGeneration ..).link.trans hlink), ?_, ?_, ?_⟩
  · intro file hfile
    obtain ⟨body, hbody⟩ := hcomplete file hfile
    refine ⟨body, ?_⟩
    rw [identityFile, hleft] at hbody
    rw [identityFile, hlive]
    exact hbody
  · rw [hswitched]
    exact fun hsame ↦ honeThree (Option.some.inj hsame).symm
  · -- the kept generation is as late as the staged one, and the live one is earlier
    have hstaged := (hwrites.others _ (hgeneration ▸ htwoThree)).trans
      ((hgenerations (shortDigest [2])).trans (if_pos rfl))
    have hdesignated : written.generations.lookup (shortDigest [1]) = some left :=
      (hwrites.others _ (hgeneration ▸ honeThree)).trans hlive
    obtain ⟨found, latest, hfound, _, hlatest, hle⟩ :=
      previous_latest hstaged (hgeneration ▸ htwoThree)
    have hother : some (shortDigest [1]) ≠ written.previous candidate.identityGeneration := by
      intro hprevious
      have hfirst : found = shortDigest [1] := Option.some.inj (hfound.symm.trans hprevious.symm)
      rw [hfirst, hdesignated] at hlatest
      cases hlatest
      exact absurd hle (not_le.mpr (Int.lt_succ left.modTime))
    have hobsolete : shortDigest [1] ∈ written.obsolete candidate.identityGeneration :=
      mem_obsolete.mpr ⟨⟨left, hdesignated⟩, hgeneration ▸ honeThree, hother⟩
    rw [hcleaned.generations, if_pos hobsolete]

/-- Two calls that publish the Pod: the second one keeps the generation of the first. -/
theorem identity_switched_reissued : ∃ state : Watched Body,
    Reachable ((watchedSystem webConfig webFormats contentTagging).guarded
      (skipsSettled webConfig webFormats contentTagging)) state ∧
    (∃ material, (watch webConfig webFormats contentTagging state (issueCall 2 2 [2] 1)).issued material ∧
      Presents webFormats (watch webConfig webFormats contentTagging state
        (issueCall 2 2 [2] 1)).process.disk "web" material) ∧
    ((watch webConfig webFormats contentTagging state (issueCall 2 2 [2] 1)).process.disk.dir
        "web").generations.lookup (shortDigest [1]) =
      (state.process.disk.dir "web").generations.lookup (shortDigest [1]) := by
  have hstart : Reachable ((watchedSystem webConfig webFormats contentTagging).guarded
      (skipsSettled webConfig webFormats contentTagging)) ⟨webProcess, fun _ ↦ False, fun _ ↦ False⟩ :=
    .init ⟨rfl, fun _ hfalse ↦ hfalse, fun _ hfalse ↦ hfalse⟩
  have hissued := hstart.guarded_step (rfl : (watchedSystem webConfig webFormats contentTagging).step _
    (issueCall 1 1 [1] 0) _) fun _ _ _ _ _ _ _ hfalse ↦ hfalse
  obtain ⟨_, _, _, hgeneration, hwrites, hcleaned, hlink, hcomplete, hmemory⟩ :=
    @issueCall_switches webProcess 1 [1] 0 (by decide)
  have hothers : ∀ other ≠ shortDigest [1], ((reconcile webConfig webFormats contentTagging
      (issueCall 1 1 [1] 0) webProcess).1.disk.dir "web").generations.lookup other = none := by
    intro other hother
    rw [hcleaned.generations, hwrites.others other (hgeneration ▸ hother)]
    exact ite_self none
  have hnil := @issueCall_nil webProcess 1 [1] 0 (by decide)
  have hprocess := watch_process webConfig webFormats contentTagging
    ⟨webProcess, fun _ ↦ False, fun _ ↦ False⟩ (issueCall 1 1 [1] 0)
  dsimp only at hprocess
  rw [← hprocess] at hlink hcomplete hmemory hothers
  have hsecond : skipsSettled webConfig webFormats contentTagging (watch webConfig webFormats contentTagging
      ⟨webProcess, fun _ ↦ False, fun _ ↦ False⟩ (issueCall 1 1 [1] 0)) (issueCall 2 2 [2] 1) := by
    intro _ index name deployment _ _ _ hdisturbed
    have hfailed := hdisturbed.1
    rw [hnil] at hfailed
    exact nomatch hfailed
  have hrevision : (watch webConfig webFormats contentTagging ⟨webProcess, fun _ ↦ False, fun _ ↦ False⟩
      (issueCall 1 1 [1] 0)).process.memory.identityRevision ≠ 2 := by
    rw [hmemory]
    decide
  obtain ⟨hpresents, hsurvives⟩ := identity_switched hissued hsecond (issueCall_nil hrevision) deploy_reads
    web_selected
  obtain ⟨_, _, _, _, _, _, hswitched, _⟩ := @issueCall_switches _ 2 [2] 1 hrevision
  refine ⟨_, hissued, hpresents, hsurvives (shortDigest [1]) hlink hcomplete
    (fun _ _ other _ hother hstored ↦ nomatch (hothers other hother).symm.trans hstored) ?_⟩
  rw [watch_process]
  intro hsame
  have hdigests := digests_nodup
  simp only [List.nodup_cons, List.mem_cons, List.not_mem_nil, or_false, not_or] at hdigests
  exact hdigests.1.1 (Option.some.inj (hswitched.symm.trans hsame)).symm

end Podmin.Agent.StaticPod
