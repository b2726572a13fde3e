import Podmin.Agent.StaticPod.SecretDir

/-!
# Temporary files of a reconciliation

Staging writes every change to a temporary file next to its live path, and publishing renames it. A
second model of `Reconcile` keeps track of the temporary files of the call, of what it has renamed, and
of its call of `PublishServices`; leaving these out gives the first model. Whatever its operations do,
no temporary file of a call remains when it returns, provided that removing one does not fail.
-/

namespace Podmin.Agent.StaticPod

open Foundation CasRegister Fallible Manifest

variable {files : Files} {changes : List Change}

/-! ## Temporary files -/

/-- The directory of a change. -/
def Change.directory : Change → List String
  | .identityFile pod generation _ _ => ["secret", pod, "identity-generations", generation]
  | .identityLink pod _ => ["secret", pod]
  | .secretFile pod provider _ _ => ["secret", pod, provider]
  | .podFile _ _ => ["static"]

/-- The path of the temporary file of a change; the suffix is the one `os.CreateTemp` finds. -/
def Change.temporary (suffix : Change → String) (change : Change) : List String :=
  match change with
  | .identityLink _ generation => change.directory ++ [".podmin-link-" ++ generation]
  | _ => change.directory ++ [".podmin-" ++ suffix change]

/-- The directories during a call, with the temporary files of the call and the changes it renamed. -/
structure Files where
  disk : Disk
  temporaries : List (List String) := []
  renamed : List Change := []

def Files.create (files : Files) (path : List String) : Files :=
  { files with temporaries := path :: files.temporaries }

def Files.unlink (files : Files) (path : List String) : Files :=
  { files with temporaries := files.temporaries.filter (· ≠ path) }

/-- Make the temporary file of a change. A symbolic link has a fixed name, so what has that name is
removed first. -/
def Files.prepare (files : Files) (suffix : Change → String) (time : Int) (change : Change) : Files :=
  let files := { files with disk := files.disk.prepare time change }
  match change with
  | .identityLink _ _ => (files.unlink (change.temporary suffix)).create (change.temporary suffix)
  | _ => files.create (change.temporary suffix)

section Operations

variable (faults : Faults) (suffix : Change → String)

/-- Staging that fails removes its temporary file again. -/
def Files.stage (change : Change) (files : Files) : Files × Option String :=
  match faults.stage change with
  | .staged => (files.prepare suffix (faults.stagedAt change) change, none)
  | .failed true =>
    ((files.prepare suffix (faults.stagedAt change) change).unlink (change.temporary suffix),
      some "staging failed")
  | .failed false => (files, some "staging failed")

/-- Renaming takes the temporary file away. -/
def Files.rename (files : Files) (suffix : Change → String) (time : Int) (change : Change) : Files :=
  { files.unlink (change.temporary suffix) with
    disk := files.disk.rename time change, renamed := files.renamed ++ [change] }

def Files.commit (change : Change) (files : Files) : Files × Option String :=
  match faults.commit change with
  | .committed => (files.rename suffix (faults.renamedAt change) change, none)
  | .notRenamed => (files, some "rename failed")
  | .notSynced => (files.rename suffix (faults.renamedAt change) change, some "directory sync failed")

def Files.discard (files : Files) (change : Change) : Files :=
  { files.unlink (change.temporary suffix) with
    disk := files.disk.discard (faults.discardedAt change) change }

def Files.discardAll (changes : List Change) (files : Files) : Files :=
  changes.foldl (Files.discard faults suffix) files

end Operations

/-- An operation on what is live. -/
def Files.onDisk (operation : Disk → Disk × Option String) (files : Files) : Files × Option String :=
  ({ files with disk := (operation files.disk).1 }, (operation files.disk).2)

def Files.publishChanges (call : Call) (suffix : Change → String) (candidates : List Candidate)
    (changes : List Change) (files : Files) : Files × Option String :=
  let generations := GoMap.ofPairs (candidates.map fun candidate ↦
    (candidate.name, candidate.identityGeneration))
  andThen (runAll (Files.commit call.faults suffix) changes files) (Files.onDisk fun disk ↦
    andThen (cleanup call.faults (desiredOf candidates) disk) fun disk ↦
      runAll (cleanupGenerations call.faults) (call.iteration.range "identities" generations) disk)

/-! ## Calls -/

/-- What a call leaves: the process, its message, its temporary files, the changes it renamed, and what
it passed to `PublishServices`. -/
structure Ended (Tag : Type) where
  process : Process Tag
  failure : Option String
  temporaries : List (List String) := []
  renamed : List Change := []
  notified : Option (List Service) := none

section Reconcile

variable {Tag : Type}

def Process.failFiles (process : Process Tag) (files : Files) (message : String) : Ended Tag where
  process := (process.fail files.disk message).1
  failure := some message
  temporaries := files.temporaries
  renamed := files.renamed

/-- The last part of a call, once everything is staged and confirmed. -/
def Process.commitFiles (process : Process Tag) (call : Call) (suffix : Change → String)
    (etag : Option Tag) (progress : Progress) (files : Files) : Ended Tag :=
  let changes := progress.candidates.flatMap (·.changes call.iteration)
  match files.publishChanges call suffix progress.candidates changes with
  | (files, some message) =>
    process.failFiles (files.discardAll call.faults suffix (unpublished call.faults changes)) message
  | (files, none) =>
    { process := progress.remember call etag files.disk
      failure := none
      temporaries := files.temporaries
      renamed := files.renamed
      notified := some progress.services }

variable [DecidableEq Tag]

def Process.publishFiles (process : Process Tag) (tagging : Tagging Body Tag) (call : Call)
    (suffix : Change → String) (etag : Option Tag) (progress : Progress) : Ended Tag :=
  let changes := progress.candidates.flatMap (·.changes call.iteration)
  match runAll (Files.stage call.faults suffix) changes ⟨process.disk, [], []⟩ with
  | (files, some message) =>
    process.failFiles (files.discardAll call.faults suffix (stagedChanges call.faults changes)) message
  | (files, none) =>
    match confirm tagging call etag with
    | .error message => process.failFiles (files.discardAll call.faults suffix changes) message
    | .ok () => process.commitFiles call suffix etag progress files

/-- One reconciliation, with its temporary files. -/
def reconcileFiles (config : Config) (formats : Formats) (tagging : Tagging Body Tag) (call : Call)
    (suffix : Change → String) (process : Process Tag) : Ended Tag :=
  match readIndex call.index with
  | .error message => process.failFiles ⟨process.disk, [], []⟩ message
  | .ok index =>
    if process.memory.upToDate call (call.etag tagging) then { process, failure := none }
    else
      match (selected config call.iteration index).foldlM
          (addCandidate config formats process.memory call) {} with
      | .error message => process.failFiles ⟨process.disk, [], []⟩ message
      | .ok progress => process.publishFiles tagging call suffix (call.etag tagging) progress

end Reconcile

/-! ## Leaving the temporary files out -/

section Leaving

variable (faults : Faults) (suffix : Change → String)

theorem Files.stage_disk (change : Change) (files : Files) :
    StaticPod.stage faults change files.disk =
      (files.stage faults suffix change).map Files.disk id := by
  have hprepare : (files.prepare suffix (faults.stagedAt change) change).disk =
      files.disk.prepare (faults.stagedAt change) change := by
    cases change <;> rfl
  unfold StaticPod.stage Files.stage
  cases faults.stage change with
  | staged => exact congrArg (·, none) hprepare.symm
  | failed created =>
    cases created with
    | true => exact congrArg (·, some "staging failed") hprepare.symm
    | false => rfl

theorem Files.commit_disk (change : Change) (files : Files) :
    StaticPod.commit faults change files.disk =
      (files.commit faults suffix change).map Files.disk id := by
  unfold StaticPod.commit Files.commit
  cases faults.commit change <;> rfl

theorem Files.discardAll_disk (changes : List Change) (files : Files) :
    (files.discardAll faults suffix changes).disk = StaticPod.discardAll faults changes files.disk := by
  induction changes generalizing files with
  | nil => rfl
  | cons change changes ih => exact ih (files.discard faults suffix change)

end Leaving

theorem Files.publishChanges_disk (call : Call) (suffix : Change → String) (candidates : List Candidate)
    (changes : List Change) (files : Files) :
    StaticPod.publishChanges call candidates changes files.disk =
      (files.publishChanges call suffix candidates changes).map Files.disk id := by
  unfold StaticPod.publishChanges Files.publishChanges
  dsimp only
  rw [runAll_map Files.disk (Files.commit_disk call.faults suffix) changes files]
  exact andThen_map Files.disk fun _ ↦ rfl

section Reconcile

variable {Tag : Type} [DecidableEq Tag]

theorem publishFiles_eq (process : Process Tag) (tagging : Tagging Body Tag) (call : Call)
    (suffix : Change → String) (etag : Option Tag) (progress : Progress) :
    process.publish tagging call etag progress =
      ((process.publishFiles tagging call suffix etag progress).process,
        (process.publishFiles tagging call suffix etag progress).failure) := by
  unfold Process.publish Process.publishFiles
  dsimp only
  rw [runAll_map Files.disk (Files.stage_disk call.faults suffix) _ ⟨process.disk, [], []⟩]
  cases runAll (Files.stage call.faults suffix)
      (progress.candidates.flatMap (·.changes call.iteration)) ⟨process.disk, [], []⟩ with
  | mk files failure =>
    cases failure with
    | some message =>
      dsimp only [Prod.map, id, Process.failFiles]
      rw [Files.discardAll_disk]
      rfl
    | none =>
      dsimp only [Prod.map, id]
      cases confirm tagging call etag with
      | error message =>
        dsimp only [Process.failFiles]
        rw [Files.discardAll_disk]
        rfl
      | ok =>
        dsimp only [Process.commitFiles]
        rw [Files.publishChanges_disk call suffix]
        cases files.publishChanges call suffix progress.candidates
            (progress.candidates.flatMap (·.changes call.iteration)) with
        | mk published failure =>
          cases failure with
          | some message =>
            dsimp only [Prod.map, id, Process.failFiles]
            rw [Files.discardAll_disk]
            rfl
          | none => rfl

variable (config : Config) (formats : Formats) (tagging : Tagging Body Tag) (call : Call)
  (suffix : Change → String) (process : Process Tag)

/-- The two models of a call agree on the process and the message. -/
theorem reconcileFiles_eq :
    reconcile config formats tagging call process =
      ((reconcileFiles config formats tagging call suffix process).process,
        (reconcileFiles config formats tagging call suffix process).failure) := by
  unfold reconcile reconcileFiles
  cases readIndex call.index with
  | error message => rfl
  | ok index =>
    dsimp only
    by_cases hcurrent : process.memory.upToDate call (call.etag tagging) = true
    · rw [if_pos hcurrent, if_pos hcurrent]
    · rw [if_neg hcurrent, if_neg hcurrent]
      cases (selected config call.iteration index).foldlM
          (addCandidate config formats process.memory call) {} with
      | error message => rfl
      | ok progress => exact publishFiles_eq process tagging call suffix _ progress

theorem reconcileFiles_failure :
    (reconcileFiles config formats tagging call suffix process).failure =
      (reconcile config formats tagging call process).2 :=
  (congrArg Prod.snd (reconcileFiles_eq config formats tagging call suffix process)).symm

end Reconcile

/-! ## None remains -/

section Remaining

variable {faults : Faults} {suffix : Change → String} {path : List String}

theorem Files.mem_prepare {time : Int} {change : Change}
    (hpath : path ∈ (files.prepare suffix time change).temporaries) :
    path ∈ files.temporaries ∨ path = change.temporary suffix := by
  unfold Files.prepare at hpath
  split at hpath
  · rcases List.mem_cons.mp hpath with hnew | hold
    · exact .inr hnew
    · exact .inl (List.mem_of_mem_filter hold)
  · exact (List.mem_cons.mp hpath).symm

/-- The temporary files after staging are those of the staged changes. -/
theorem Files.mem_stage (hpath : path ∈ (runAll (Files.stage faults suffix) changes files).1.temporaries) :
    path ∈ files.temporaries ∨ ∃ change ∈ stagedChanges faults changes, path = change.temporary suffix := by
  induction changes generalizing files with
  | nil => exact .inl hpath
  | cons change changes ih =>
    unfold runAll Files.stage at hpath
    unfold stagedChanges at ih ⊢
    cases houtcome : faults.stage change with
    | staged =>
      rw [houtcome] at hpath
      rw [List.takeWhile_cons, houtcome]
      rcases ih hpath with hfirst | hrest
      · rcases Files.mem_prepare hfirst with hold | hnew
        · exact .inl hold
        · exact .inr ⟨change, List.mem_cons_self, hnew⟩
      · obtain ⟨other, hother, htemporary⟩ := hrest
        exact .inr ⟨other, List.mem_cons_of_mem change hother, htemporary⟩
    | failed created =>
      rw [houtcome] at hpath
      cases created with
      | true =>
        have hkept := List.mem_filter.mp hpath
        exact .inl ((Files.mem_prepare hkept.1).resolve_right (by simpa using hkept.2))
      | false => exact .inl hpath

/-- The temporary files after publishing are those of the changes that were not renamed. -/
theorem Files.mem_commit
    (hfiles : ∀ path ∈ files.temporaries, ∃ change ∈ changes, path = change.temporary suffix)
    (hpath : path ∈ (runAll (Files.commit faults suffix) changes files).1.temporaries) :
    ∃ change ∈ unpublished faults changes, path = change.temporary suffix := by
  induction changes generalizing files with
  | nil =>
    obtain ⟨change, hchange, _⟩ := hfiles path hpath
    exact nomatch hchange
  | cons change changes ih =>
    have hrest : ∀ time, ∀ path ∈ (files.rename suffix time change).temporaries,
        ∃ other ∈ changes, path = other.temporary suffix := by
      intro time path hmem
      obtain ⟨hmem, hne⟩ := List.mem_filter.mp hmem
      obtain ⟨other, hother, htemporary⟩ := hfiles path hmem
      rcases List.mem_cons.mp hother with hsame | hother
      · exact absurd (htemporary.trans (congrArg (Change.temporary suffix) hsame)) (by simpa using hne)
      · exact ⟨other, hother, htemporary⟩
    unfold runAll Files.commit at hpath
    unfold unpublished
    cases houtcome : faults.commit change with
    | committed =>
      rw [houtcome] at hpath
      exact ih (hrest _) hpath
    | notRenamed =>
      rw [houtcome] at hpath
      exact hfiles path hpath
    | notSynced =>
      rw [houtcome] at hpath
      exact hrest _ path hpath

theorem Files.mem_discardAll (hpath : path ∈ (files.discardAll faults suffix changes).temporaries) :
    path ∈ files.temporaries ∧ ∀ change ∈ changes, path ≠ change.temporary suffix := by
  induction changes generalizing files with
  | nil => exact ⟨hpath, fun _ hchange ↦ nomatch hchange⟩
  | cons change changes ih =>
    obtain ⟨hkept, hrest⟩ := ih hpath
    obtain ⟨hmem, hne⟩ := List.mem_filter.mp hkept
    refine ⟨hmem, fun other hother ↦ ?_⟩
    rcases List.mem_cons.mp hother with hsame | hother
    · rw [hsame]
      simpa using hne
    · exact hrest other hother

theorem Files.discardAll_temporaries
    (hfiles : ∀ path ∈ files.temporaries, ∃ change ∈ changes, path = change.temporary suffix) :
    (files.discardAll faults suffix changes).temporaries = [] := by
  rw [List.eq_nil_iff_forall_not_mem]
  intro path hpath
  obtain ⟨hmem, hne⟩ := Files.mem_discardAll hpath
  obtain ⟨change, hchange, htemporary⟩ := hfiles path hmem
  exact hne change hchange htemporary

theorem unpublished_of_commit (hcommit : (runAll (Files.commit faults suffix) changes files).2 = none) :
    unpublished faults changes = [] := by
  induction changes generalizing files with
  | nil => rfl
  | cons change changes ih =>
    unfold runAll Files.commit at hcommit
    unfold unpublished
    cases houtcome : faults.commit change with
    | committed =>
      rw [houtcome] at hcommit
      exact ih hcommit
    | notRenamed =>
      rw [houtcome] at hcommit
      cases hcommit
    | notSynced =>
      rw [houtcome] at hcommit
      cases hcommit

theorem Files.publishChanges_temporaries (call : Call) (candidates : List Candidate)
    (changes : List Change) (files : Files) :
    (files.publishChanges call suffix candidates changes).1.temporaries =
      (runAll (Files.commit call.faults suffix) changes files).1.temporaries :=
  andThen_same Files.temporaries fun _ ↦ rfl

end Remaining

section Reconcile

variable {Tag : Type} [DecidableEq Tag]

theorem publishFiles_temporaries (process : Process Tag) (tagging : Tagging Body Tag) (call : Call)
    (suffix : Change → String) (etag : Option Tag) (progress : Progress) :
    (process.publishFiles tagging call suffix etag progress).temporaries = [] := by
  unfold Process.publishFiles Process.commitFiles
  dsimp only
  generalize progress.candidates.flatMap (·.changes call.iteration) = changes
  have hstaged : ∀ path ∈ (runAll (Files.stage call.faults suffix) changes
      ⟨process.disk, [], []⟩).1.temporaries,
      ∃ change ∈ stagedChanges call.faults changes, path = change.temporary suffix :=
    fun path hpath ↦ (Files.mem_stage hpath).resolve_left List.not_mem_nil
  cases hstage : runAll (Files.stage call.faults suffix) changes ⟨process.disk, [], []⟩ with
  | mk files failure =>
    rw [hstage] at hstaged
    cases failure with
    | some message => exact Files.discardAll_temporaries hstaged
    | none =>
      have hall : ∀ path ∈ files.temporaries, ∃ change ∈ changes, path = change.temporary suffix := by
        intro path hpath
        obtain ⟨change, hchange, htemporary⟩ := hstaged path hpath
        exact ⟨change, (List.takeWhile_prefix _).subset hchange, htemporary⟩
      dsimp only
      split
      · exact Files.discardAll_temporaries hall
      · have hcommitted : ∀ path ∈ (files.publishChanges call suffix progress.candidates
            changes).1.temporaries,
            ∃ change ∈ unpublished call.faults changes, path = change.temporary suffix := by
          intro path hpath
          rw [Files.publishChanges_temporaries] at hpath
          exact Files.mem_commit hall hpath
        cases hpublish : files.publishChanges call suffix progress.candidates changes with
        | mk published failure =>
          rw [hpublish] at hcommitted
          cases failure with
          | some message => exact Files.discardAll_temporaries hcommitted
          | none =>
            have hnone := congrArg Prod.snd hpublish
            have hempty := unpublished_of_commit (andThen_eq_none.mp hnone).1
            rw [hempty] at hcommitted
            rw [List.eq_nil_iff_forall_not_mem]
            intro path hpath
            obtain ⟨change, hchange, _⟩ := hcommitted path hpath
            exact nomatch hchange

/-- No temporary file of a call remains when it returns. -/
theorem reconcileFiles_temporaries (config : Config) (formats : Formats) (tagging : Tagging Body Tag)
    (call : Call) (suffix : Change → String) (process : Process Tag) :
    (reconcileFiles config formats tagging call suffix process).temporaries = [] := by
  unfold reconcileFiles
  split
  · rfl
  · split
    · rfl
    · split
      · rfl
      · exact publishFiles_temporaries process tagging call suffix _ _

end Reconcile

end Podmin.Agent.StaticPod
