import Podmin.Agent.StaticPod.DiskMatchesIndex
import Podmin.Agent.StaticPod.Temporaries
import Podmin.Agent.Workload.Authority

/-!
# Nothing is live before the fence

Between its two reads of the index and of the CA revision a call only stages. So a call that stops
before its first rename leaves every live file as it was, and whatever a call renames was built from
one index and one installed CA state, both of which were current after the last staging step.
-/

namespace Podmin.Agent.StaticPod

open Foundation CasRegister Fallible Files
open Manifest Agent.Workload

/-! ## Live contents -/

/-- A file of an identity generation. -/
def PodDir.identityFile (dir : PodDir) (generation file : String) : Option (List UInt8) :=
  (dir.generations.lookup generation).bind (·.files.lookup file)

/-- The live files of a Pod's secret directory are the same. -/
structure SameDir (before after : PodDir) : Prop where
  link : after.link = before.link
  identityFile : ∀ generation file,
    after.identityFile generation file = before.identityFile generation file
  secretFile : ∀ provider key, after.secretFile provider key = before.secretFile provider key

/-- The live files are the same: Pod files, identity links, identity files and secrets. -/
structure SameContents (before after : Disk) : Prop where
  static : after.static = before.static
  dir : ∀ pod, SameDir (before.dir pod) (after.dir pod)

theorem SameDir.refl (dir : PodDir) : SameDir dir dir :=
  ⟨rfl, fun _ _ ↦ rfl, fun _ _ ↦ rfl⟩

theorem SameContents.refl (disk : Disk) : SameContents disk disk :=
  ⟨rfl, fun pod ↦ .refl (disk.dir pod)⟩

theorem SameContents.trans (first second third : Disk) (hfirst : SameContents first second)
    (hsecond : SameContents second third) : SameContents first third where
  static := hsecond.static.trans hfirst.static
  dir pod :=
    { link := (hsecond.dir pod).link.trans (hfirst.dir pod).link
      identityFile := fun generation file ↦
        ((hsecond.dir pod).identityFile generation file).trans
          ((hfirst.dir pod).identityFile generation file)
      secretFile := fun provider key ↦
        ((hsecond.dir pod).secretFile provider key).trans ((hfirst.dir pod).secretFile provider key) }

theorem SameContents.updatePod {disk : Disk} {pod : String} {change : PodDir → PodDir}
    (hchange : ∀ dir, SameDir dir (change dir)) : SameContents disk (disk.updatePod pod change) where
  static := Disk.updatePod_static disk pod change
  dir other := by
    rw [Disk.updatePod_dir]
    split
    · exact hchange (disk.dir other)
    · exact .refl (disk.dir other)

/-- Making a generation, or changing its time, changes no file. -/
theorem SameDir.updateGeneration (dir : PodDir) (generation : String) (time : Int) :
    SameDir dir (dir.updateGeneration generation time id) where
  link := rfl
  identityFile other file := by
    unfold PodDir.identityFile PodDir.updateGeneration
    dsimp only
    rw [GoMap.lookup_insert_eq]
    split
    · next hsame =>
      rw [hsame]
      cases dir.generations.lookup generation <;> rfl
    · rfl
  secretFile _ _ := rfl

theorem SameDir.updateProvider (dir : PodDir) (provider : String) :
    SameDir dir (dir.updateProvider provider id) where
  link := rfl
  identityFile _ _ := rfl
  secretFile other key := by
    unfold PodDir.secretFile PodDir.updateProvider
    dsimp only
    rw [GoMap.lookup_insert_eq]
    split
    · next hsame =>
      rw [hsame]
      cases dir.providers.lookup provider <;> rfl
    · rfl

theorem Disk.prepare_same (disk : Disk) (time : Int) (change : Change) :
    SameContents disk (disk.prepare time change) := by
  cases change with
  | identityFile pod generation file body =>
    exact SameContents.updatePod fun dir ↦ .updateGeneration dir generation time
  | identityLink pod generation => exact SameContents.updatePod .refl
  | secretFile pod provider key body => exact SameContents.updatePod fun dir ↦ .updateProvider dir provider
  | podFile name body => exact .refl disk

theorem Disk.discard_same (disk : Disk) (time : Int) (change : Change) :
    SameContents disk (disk.discard time change) := by
  cases change with
  | identityFile pod generation file body =>
    unfold Disk.discard
    dsimp only
    split
    · exact SameContents.updatePod fun dir ↦ .updateGeneration dir generation time
    · exact .refl disk
  | identityLink pod generation => exact .refl disk
  | secretFile pod provider key body => exact .refl disk
  | podFile name body => exact .refl disk

theorem stage_same (faults : Faults) (change : Change) (disk : Disk) :
    SameContents disk (stage faults change disk).1 := by
  unfold stage
  split
  · exact Disk.prepare_same disk (faults.stagedAt change) change
  · exact Disk.prepare_same disk (faults.stagedAt change) change
  · exact .refl disk

/-- Staging changes no live file, failing or not. -/
theorem stageAll_same (faults : Faults) (changes : List Change) (disk : Disk) :
    SameContents disk (runAll (stage faults) changes disk).1 :=
  runAll_related SameContents.refl SameContents.trans
    (fun change _ disk ↦ stage_same faults change disk) disk

theorem discardAll_same (faults : Faults) (changes : List Change) (disk : Disk) :
    SameContents disk (discardAll faults changes disk) := by
  induction changes generalizing disk with
  | nil => exact .refl disk
  | cons change changes ih =>
    exact (Disk.discard_same disk (faults.discardedAt change) change).trans _ _ _
      (ih (disk.discard (faults.discardedAt change) change))

/-- The live files are the same, and nothing was renamed. -/
structure Staged (before after : Files) : Prop where
  contents : SameContents before.disk after.disk
  renamed : after.renamed = before.renamed

theorem Staged.refl (files : Files) : Staged files files :=
  ⟨.refl files.disk, rfl⟩

theorem Staged.trans (first second third : Files) (hfirst : Staged first second)
    (hsecond : Staged second third) : Staged first third :=
  ⟨hfirst.contents.trans _ _ _ hsecond.contents, hsecond.renamed.trans hfirst.renamed⟩

theorem Files.stageAll_staged (faults : Faults) (suffix : Change → String) (changes : List Change)
    (files : Files) : Staged files (runAll (stage faults suffix) changes files).1 where
  contents := by
    have hdisk := runAll_map disk (stage_disk faults suffix) changes files
    have hsame := stageAll_same faults changes files.disk
    rwa [hdisk] at hsame
  renamed := by
    refine runAll_same renamed (fun change _ files ↦ ?_) files
    have hprepare : ∀ time, (files.prepare suffix time change).renamed = files.renamed := by
      intro time
      cases change <;> rfl
    unfold stage
    split
    · exact hprepare _
    · exact hprepare _
    · rfl

theorem Files.discardAll_staged (faults : Faults) (suffix : Change → String) (changes : List Change)
    (files : Files) : Staged files (files.discardAll faults suffix changes) where
  contents := by
    rw [discardAll_disk]
    exact discardAll_same faults changes files.disk
  renamed := by
    induction changes generalizing files with
    | nil => rfl
    | cons change changes ih => exact ih (files.discard faults suffix change)

/-! ## How far a call gets -/

section Concludes

variable {Tag : Type} [DecidableEq Tag] (config : Config) (formats : Formats)
  (tagging : Tagging Body Tag) (call : Call) (suffix : Change → String) (process : Process Tag)

/-- The call builds and stages everything and then finds the index and the CA unchanged. -/
structure Passes (index : Index) (progress : Progress) : Prop where
  read : readIndex call.index = .ok index
  outdated : process.memory.upToDate call (call.etag tagging) = false
  collected : (selected config call.iteration index).foldlM
    (addCandidate config formats process.memory call) {} = .ok progress
  staged : (runAll (stage call.faults) (progress.candidates.flatMap (·.changes call.iteration))
    process.disk).2 = none
  confirmed : confirm tagging call (call.etag tagging) = .ok ()

/-- Nothing is renamed: the call does not get past the fence, or its first rename fails. -/
def StopsBeforeCommit : Prop :=
  ∀ index progress, Passes config formats tagging call process index progress →
    ∃ change, (progress.candidates.flatMap (·.changes call.iteration)).head? = some change ∧
      call.faults.commit change = .notRenamed

/-- How a call ends. -/
inductive Concludes : Ended Tag → Prop
  | upToDate : Concludes { process, failure := none }
  | stopped {files : Files} {message : String} (hstaged : Staged ⟨process.disk, [], []⟩ files) :
      Concludes (process.failFiles files message)
  | passed {index : Index} {progress : Progress} {files : Files}
      (hpasses : Passes config formats tagging call process index progress)
      (hstaged : Staged ⟨process.disk, [], []⟩ files) :
      Concludes (process.commitFiles call suffix (call.etag tagging) progress files)

theorem reconcileFiles_concludes :
    Concludes config formats tagging call suffix process
      (reconcileFiles config formats tagging call suffix process) := by
  unfold reconcileFiles
  cases hread : readIndex call.index with
  | error message => exact .stopped (.refl _)
  | ok index =>
    dsimp only
    split
    · exact .upToDate
    next houtdated =>
    split
    · exact .stopped (.refl _)
    next progress hfold =>
    unfold Process.publishFiles
    dsimp only
    have hstaged := stageAll_staged call.faults suffix (progress.changes call) ⟨process.disk, [], []⟩
    have hdisk := runAll_map disk (stage_disk call.faults suffix)
      (progress.changes call) ⟨process.disk, [], []⟩
    split
    · next files message hstage =>
      rw [hstage] at hstaged
      exact .stopped (hstaged.trans _ _ _ (discardAll_staged ..))
    · next files hstage =>
      rw [hstage] at hstaged hdisk
      split
      · exact .stopped (hstaged.trans _ _ _ (discardAll_staged ..))
      · next hconfirm =>
        exact .passed ⟨hread, by simpa using houtdated, hfold, congrArg Prod.snd hdisk, hconfirm⟩ hstaged

end Concludes

/-! ## Renamed changes -/

variable {suffix : Change → String} {files : Files}

theorem Files.mem_renamed {faults : Faults} {changes : List Change} {change : Change}
    (hchange : change ∈ (runAll (commit faults suffix) changes files).1.renamed) :
    change ∈ files.renamed ∨ change ∈ changes := by
  refine @runAll_invariant _ _ _ (commit faults suffix)
    (fun next ↦ change ∈ next.renamed → change ∈ files.renamed ∨ change ∈ changes) changes ?_ files .inl
    hchange
  intro item hitem next hnext hmem
  unfold commit at hmem
  have hrename : ∀ time, change ∈ (next.rename suffix time item).renamed →
      change ∈ files.renamed ∨ change ∈ changes := by
    intro time hrenamed
    rcases List.mem_append.mp hrenamed with hold | hnew
    · exact hnext hold
    · exact .inr (List.mem_singleton.mp hnew ▸ hitem)
  split at hmem
  · exact hrename _ hmem
  · exact hnext hmem
  · exact hrename _ hmem

theorem Files.publishChanges_renamed (call : Call) (suffix : Change → String)
    (candidates : List Candidate) (changes : List Change) (files : Files) :
    (files.publishChanges call suffix candidates changes).1.renamed =
      (runAll (commit call.faults suffix) changes files).1.renamed :=
  andThen_same renamed fun _ ↦ rfl

/-- A call renames only what it staged. -/
theorem commitFiles_renamed {Tag : Type} {process : Process Tag} {call : Call} {etag : Option Tag}
    {progress : Progress} {change : Change} (hfiles : files.renamed = [])
    (hchange : change ∈ (process.commitFiles call suffix etag progress files).renamed) :
    change ∈ progress.changes call := by
  have hpublished : ∀ {changes : List Change},
      change ∈ (files.publishChanges call suffix progress.candidates changes).1.renamed →
        change ∈ changes := by
    intro changes hmem
    rw [publishChanges_renamed] at hmem
    exact (mem_renamed hmem).resolve_left (by simp [hfiles])
  unfold Process.commitFiles at hchange
  dsimp only at hchange
  split at hchange
  · next published message hpublish =>
    have hdiscard := discardAll_staged call.faults suffix (unpublished call.faults
      (progress.changes call)) published
    exact hpublished (hpublish ▸ hdiscard.renamed ▸ hchange)
  · next published hpublish => exact hpublished (hpublish ▸ hchange)

theorem Files.renamed_of_commit {faults : Faults} {changes : List Change}
    (hcommit : (runAll (commit faults suffix) changes files).2 = none) :
    (runAll (commit faults suffix) changes files).1.renamed = files.renamed ++ changes := by
  refine @runAll_success _ _ _ (commit faults suffix)
    (fun done next ↦ next.renamed = files.renamed ++ done) ?_ changes [] files (by simp) hcommit
  intro done change before after hdone hstep
  unfold commit at hstep
  split at hstep
  · cases hstep
    rw [← List.append_assoc, ← hdone]
    rfl
  · exact nomatch hstep
  · exact nomatch hstep

/-- Where the first rename fails, nothing is changed. -/
theorem commitFiles_stopped {Tag : Type} {process : Process Tag} {call : Call}
    {suffix : Change → String} {etag : Option Tag} {progress : Progress} {files : Files} {change : Change}
    (hhead : (progress.changes call).head? = some change)
    (hfails : call.faults.commit change = .notRenamed) :
    ∃ stopped message, Staged files stopped ∧
      process.commitFiles call suffix etag progress files = process.failFiles stopped message := by
  obtain ⟨rest, hchanges⟩ := List.head?_eq_some_iff.mp hhead
  have hpublish : files.publishChanges call suffix progress.candidates
      (progress.changes call) = (files, some "rename failed") := by
    unfold Files.publishChanges
    rw [hchanges]
    simp only [runAll, Files.commit, hfails, andThen]
  refine ⟨_, "rename failed", discardAll_staged call.faults suffix (unpublished call.faults
    (progress.changes call)) files, ?_⟩
  unfold Process.commitFiles
  simp only [hpublish]

/-! ## One index and one CA -/

/-- The number of CA states installed. -/
def revision (held : Option Synced) : Nat :=
  (held.map Synced.revision).getD 0

/-- A call and the CA states installed on its agent meanwhile: the moments at which the call reads the
revision and at which it has the identity of each Pod issued. -/
structure Observes (authority : Authority) (issues : Option Synced → Material → Prop)
    (history : Nat → Option Synced) (call : Call) (start finish : Nat) (issuedAt : String → Nat) :
    Prop where
  synced : ∀ moment, history (moment + 1) = history moment ∨
    ∃ stored now held, sync authority stored (history moment) now = .ok held ∧
      history (moment + 1) = some held
  read : call.authorityRevision = revision (history start)
  reread : call.confirmedRevision = revision (history finish)
  between : ∀ pod, start ≤ issuedAt pod ∧ issuedAt pod ≤ finish
  issued : ∀ ns pod service now material, call.issue ns pod service now = .ok material →
    issues (history (issuedAt pod)) material

theorem sync_revision {authority : Authority} {stored : Option CaState} {held : Option Synced} {now : Int}
    {installed : Synced} (hsync : sync authority stored held now = .ok installed) :
    revision held ≤ installed.revision ∧
      (installed.revision = revision held → held.map Synced.state = some installed.state) := by
  cases stored with
  | none => exact nomatch hsync
  | some state =>
    obtain ⟨_, _, hvalidated⟩ := bind_eq_ok.mp hsync
    dsimp only at hvalidated
    split at hvalidated
    · exact nomatch hvalidated
    cases hvalidated
    dsimp only
    split
    · next hsame => exact ⟨le_rfl, fun _ ↦ hsame⟩
    · exact ⟨Nat.le_succ _, fun hrevision ↦ absurd hrevision (Nat.succ_ne_self _)⟩

section Observes

variable {authority : Authority} {issues : Option Synced → Material → Prop}
  {history : Nat → Option Synced} {call : Call} {start finish : Nat} {issuedAt : String → Nat}

section Observes

variable (hobserves : Observes authority issues history call start finish issuedAt)

include hobserves

theorem Observes.step (moment : Nat) : revision (history moment) ≤ revision (history (moment + 1)) ∧
      (revision (history (moment + 1)) = revision (history moment) →
        (history moment).map Synced.state = (history (moment + 1)).map Synced.state) := by
  rcases hobserves.synced moment with hsame | hsync
  · rw [hsame]
    exact ⟨le_rfl, fun _ ↦ rfl⟩
  · obtain ⟨stored, now, held, hsync, hnext⟩ := hsync
    rw [hnext]
    exact sync_revision hsync

theorem Observes.monotone :
    Monotone fun moment ↦ revision (history moment) :=
  monotone_nat_of_le_succ fun moment ↦ (hobserves.step moment).1

/-- While the revision is the same, the installed state is the same. -/
theorem Observes.state {early late : Nat} (hle : early ≤ late)
    (hrevision : revision (history early) = revision (history late)) :
    (history early).map Synced.state = (history late).map Synced.state := by
  induction late, hle using Nat.le_induction with
  | base => rfl
  | succ late hle ih =>
    have hearly : revision (history early) ≤ revision (history late) := hobserves.monotone hle
    have hlate := (hobserves.step late).1
    have hsame : revision (history (late + 1)) = revision (history late) := by omega
    calc
      (history early).map Synced.state = (history late).map Synced.state := ih (hrevision.trans hsame)
      _ = (history (late + 1)).map Synced.state := (hobserves.step late).2 hsame

end Observes

end Observes

theorem confirm_eq_ok {Tag : Type} [DecidableEq Tag] {tagging : Tagging Body Tag} {call : Call}
    {index : Index} (hread : readIndex call.index = .ok index)
    (hconfirm : confirm tagging call (call.etag tagging) = .ok ()) :
    call.confirmed = call.index ∧ call.confirmedRevision = call.authorityRevision := by
  cases hindex : call.index with
  | error message =>
    rw [hindex] at hread
    cases hread
  | ok first =>
    have hetag : call.etag tagging = first.map tagging.tag := by rw [Call.etag, hindex]
    rw [hetag] at hconfirm
    unfold confirm at hconfirm
    split at hconfirm
    · cases hconfirm
    · next hconfirmed =>
      split_ifs at hconfirm with habsent hrevision
      have hfirst : first = none := by simpa using habsent
      exact ⟨by rw [hconfirmed, hfirst], not_not.mp hrevision⟩
    · next body hconfirmed =>
      split_ifs at hconfirm with htag hrevision
      have hfirst : first = some body :=
        Option.map_injective tagging.injective (not_not.mp htag).symm
      exact ⟨by rw [hconfirmed, hfirst], not_not.mp hrevision⟩

/-! ## The fence -/

section Fence

variable {Tag : Type}

/-- What a call that stops before its first commit leaves: the live files as they were, no Service
published, an unhealthy process and no temporary file. -/
structure Unpublished (process : Process Tag) (ended : Ended Tag) : Prop where
  contents : SameContents process.disk ended.process.disk
  published : ended.notified = none ∧ ended.process.published = process.published
  unhealthy : ended.process.memory.health = false
  temporaries : ended.temporaries = []

/-- A Pod file of an index and an installed CA state: built from the payload of its entry, with an
identity that was issued while that state was installed. -/
def StemsFrom (config : Config) (formats : Formats) (issues : Option Synced → Material → Prop)
    (memory : Memory Tag) (call : Call) (index : Index) (current : Option Synced) (name : String)
    (body : List UInt8) : Prop :=
  ∃ deployment candidate held, Selects config index name deployment ∧
    Loaded config formats memory call (name, deployment) candidate ∧ candidate.manifest = body ∧
    issues held candidate.identity ∧ revision held = revision current ∧
    held.map Synced.state = current.map Synced.state

variable {config : Config} {formats : Formats} {authority : Authority}
  {issues : Option Synced → Material → Prop} {history : Nat → Option Synced} {call : Call}
  {start finish : Nat} {issuedAt : String → Nat}

theorem StemsFrom.of_change {memory : Memory Tag} {index : Index} {progress : Progress}
    (hobserves : Observes authority issues history call start finish issuedAt)
    (hrevision : call.confirmedRevision = call.authorityRevision)
    (hcollected : Collected config formats memory call (selected config call.iteration index) progress)
    {name : String} {body : List UInt8}
    (hchange : .podFile name body ∈ progress.changes call) :
    StemsFrom config formats issues memory call index (history finish) name body := by
  obtain ⟨candidate, hmem, hown⟩ := List.mem_flatMap.mp hchange
  obtain ⟨hpublish, hkind⟩ := mem_changes.mp hown
  have hfile : name = candidate.name ∧ body = candidate.manifest := by simpa using hkind
  obtain ⟨item, hitem, hloaded⟩ := forall₂_mem_right hcollected.candidates hmem
  have hitemName : item.1 = name := hloaded.name.symm.trans hfile.1.symm
  obtain ⟨ns, service, hissue⟩ := hloaded.issued hpublish
  obtain ⟨hstart, hfinish⟩ := hobserves.between item.1
  -- the revision is the same at both ends, so it is the same in between
  have hends : revision (history start) = revision (history finish) :=
    hobserves.read.symm.trans (hrevision.symm.trans hobserves.reread)
  have hearly : revision (history start) ≤ revision (history (issuedAt item.1)) :=
    hobserves.monotone hstart
  have hlate : revision (history (issuedAt item.1)) ≤ revision (history finish) :=
    hobserves.monotone hfinish
  have hsame : revision (history (issuedAt item.1)) = revision (history finish) := by omega
  subst hitemName
  exact ⟨item.2, candidate, history (issuedAt item.1), mem_selected.mp hitem, hloaded, hfile.2.symm,
    hobserves.issued _ _ _ _ _ hissue, hsame, hobserves.state hfinish hsame⟩

variable [DecidableEq Tag] {tagging : Tagging Body Tag}

/-- Nothing goes live before the fence, and what goes live was built from one index and one CA state
that were both current after the last staging step. -/
theorem reconcile_fenced (suffix : Change → String) (process : Process Tag)
    (hobserves : Observes authority issues history call start finish issuedAt) :
    (∀ message, (reconcileFiles config formats tagging call suffix process).failure = some message →
      StopsBeforeCommit config formats tagging call process →
        Unpublished process (reconcileFiles config formats tagging call suffix process)) ∧
    ((reconcileFiles config formats tagging call suffix process).renamed ≠ [] →
      ∃ index, readIndex call.index = .ok index ∧ call.confirmed = call.index ∧
        call.confirmedRevision = call.authorityRevision ∧
        ∀ name body, .podFile name body ∈
            (reconcileFiles config formats tagging call suffix process).renamed →
          StemsFrom config formats issues process.memory call index (history finish) name body) := by
  have hconcludes := reconcileFiles_concludes config formats tagging call suffix process
  have htemporaries := reconcileFiles_temporaries config formats tagging call suffix process
  generalize reconcileFiles config formats tagging call suffix process = ended at hconcludes htemporaries ⊢
  constructor
  · intro message hfailure hstops
    cases hconcludes with
    | upToDate => exact nomatch hfailure
    | stopped hstaged => exact ⟨hstaged.contents, ⟨rfl, rfl⟩, rfl, htemporaries⟩
    | passed hpasses hstaged =>
      obtain ⟨change, hhead, hfails⟩ := hstops _ _ hpasses
      obtain ⟨stopped, reason, hsame, hended⟩ := @commitFiles_stopped _ process call suffix
        (call.etag tagging) _ _ change hhead hfails
      rw [hended] at htemporaries ⊢
      exact ⟨(hstaged.trans _ _ _ hsame).contents, ⟨rfl, rfl⟩, rfl, htemporaries⟩
  · intro hrenamed
    cases hconcludes with
    | upToDate => exact absurd rfl hrenamed
    | stopped hstaged => exact absurd hstaged.renamed hrenamed
    | passed hpasses hstaged =>
      obtain ⟨hindex, hrevision⟩ := confirm_eq_ok hpasses.read hpasses.confirmed
      refine ⟨_, hpasses.read, hindex, hrevision, fun name body hfile ↦ ?_⟩
      exact .of_change hobserves hrevision (collected_of_foldlM hpasses.collected)
        (commitFiles_renamed hstaged.renamed hfile)

end Fence

/-- The index is gone when it is read again. -/
def vanishedCall : Call :=
  { deployCall with confirmed := .ok none }

def webAuthority : Authority := ⟨[], 1, by decide, by decide⟩

def webSynced : Synced := ⟨newRecord webAuthority 1 0, ⟨1, 1, [newRecord webAuthority 1 0]⟩, 1⟩

theorem webSynced_observes (call : Call) (hread : call.authorityRevision = 1)
    (hreread : call.confirmedRevision = 1) :
    Observes webAuthority (fun _ _ ↦ True) (fun _ ↦ some webSynced) call 0 0 fun _ ↦ 0 where
  synced _ := .inl rfl
  read := hread
  reread := hreread
  between _ := ⟨le_rfl, le_rfl⟩
  issued _ _ _ _ _ _ := trivial

/-- A call that finds the index gone fails before it renames anything. -/
theorem vanished_stops :
    (reconcileFiles webConfig webFormats contentTagging vanishedCall (fun _ ↦ "") webProcess).failure =
        some "confirm index: not found" ∧
      StopsBeforeCommit webConfig webFormats contentTagging vanishedCall webProcess := by
  obtain ⟨progress, candidate, hfold, _⟩ := @web_collected webProcess.memory
  have hfailed : confirm contentTagging vanishedCall (vanishedCall.etag contentTagging) =
      .error "confirm index: not found" := rfl
  constructor
  · rw [reconcileFiles_failure, @reconcile_of_superseded _ _ webConfig webFormats contentTagging
      vanishedCall webProcess webIndex progress _ deploy_reads rfl hfold hfailed defaults_clean]
    rfl
  · intro index progress hpasses
    exact nomatch hfailed.symm.trans hpasses.confirmed

/-- A first call renames the Pod file of its deployment. -/
theorem deploy_renames :
    (reconcileFiles webConfig webFormats contentTagging deployCall (fun _ ↦ "") webProcess).renamed ≠ [] := by
  obtain ⟨process, hdeploy, hetag, _⟩ := deploy_publishes
  have heq := reconcileFiles_eq webConfig webFormats contentTagging deployCall (fun _ ↦ "") webProcess
  have hconcludes := reconcileFiles_concludes webConfig webFormats contentTagging deployCall (fun _ ↦ "")
    webProcess
  generalize reconcileFiles webConfig webFormats contentTagging deployCall (fun _ ↦ "") webProcess =
    ended at heq hconcludes ⊢
  rw [hdeploy] at heq
  cases hconcludes with
  | upToDate =>
    have hprocess : process = webProcess := congrArg Prod.fst heq
    rw [hprocess] at hetag
    cases hetag
  | stopped hstaged => cases congrArg Prod.snd heq
  | @passed index progress files hpasses hstaged =>
    have hcollected := collected_of_foldlM hpasses.collected
    cases deploy_reads.symm.trans hpasses.read
    obtain ⟨candidate, hmem, hloaded⟩ := forall₂_mem_left hcollected.candidates
      (deploy_selects ▸ List.mem_singleton_self ("web", webDeployment))
    have hpublish : candidate.publish = true := by
      rw [hloaded.publish]
      simp [Memory.skips, webProcess]
    have hchange : .identityLink candidate.name candidate.identityGeneration ∈
        progress.candidates.flatMap (·.changes deployCall.iteration) :=
      List.mem_flatMap.mpr ⟨candidate, hmem, mem_changes.mpr ⟨hpublish, .inr (.inl rfl)⟩⟩
    unfold Process.commitFiles at heq ⊢
    dsimp only at heq ⊢
    split at heq
    · cases congrArg Prod.snd heq
    next published hfiles =>
    have hcommit := (andThen_eq_none.mp (congrArg Prod.snd hfiles)).1
    have hrenamed : published.renamed =
        files.renamed ++ progress.candidates.flatMap (·.changes deployCall.iteration) := by
      rw [← renamed_of_commit hcommit, ← publishChanges_renamed]
      exact (congrArg (·.1.renamed) hfiles).symm
    exact List.ne_nil_of_mem (hrenamed ▸ List.mem_append_right _ hchange)

/-- One call that is stopped at the fence and one that gets past it. -/
theorem reconcile_fenced_web :
    Unpublished webProcess
        (reconcileFiles webConfig webFormats contentTagging vanishedCall (fun _ ↦ "") webProcess) ∧
      ∃ index, readIndex deployCall.index = .ok index ∧ deployCall.confirmed = deployCall.index :=
  have hvanished := (reconcile_fenced (fun _ ↦ "") webProcess (webSynced_observes vanishedCall rfl rfl)).1
    _ vanished_stops.1 vanished_stops.2
  have hdeployed := (reconcile_fenced (fun _ ↦ "") webProcess (webSynced_observes deployCall rfl rfl)).2
    deploy_renames
  ⟨hvanished, hdeployed.imp fun _ hindex ↦ ⟨hindex.1, hindex.2.1⟩⟩

end Podmin.Agent.StaticPod
