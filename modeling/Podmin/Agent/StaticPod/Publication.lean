import Podmin.Agent.StaticPod.Reconciler

/-!
# What a publication does to the static Pod directory

Staging and discarding leave the static Pod directory alone. Publishing without a failure writes one
file for every published candidate, and cleaning up without a failure leaves no Pod file but those
of the candidates.
-/

namespace Podmin.Agent.StaticPod

open Foundation Fallible Manifest

variable {faults : Faults} {disk : Disk} {candidates : List Candidate} {name : String} {call : Call}

/-! ## Operations that leave it alone -/

@[simp]
theorem Disk.updatePod_static (disk : Disk) (pod : String) (change : PodDir → PodDir) :
    (disk.updatePod pod change).static = disk.static := rfl

@[simp]
theorem Disk.prepare_static (disk : Disk) (time : Int) (change : Change) :
    (disk.prepare time change).static = disk.static := by
  cases change <;> rfl

/-- A loop of operations that leave the directory alone leaves it alone. -/
theorem runAll_static {Item : Type} {step : Item → Disk → Disk × Option String}
    (hstep : ∀ item disk, (step item disk).1.static = disk.static) (items : List Item) (disk : Disk) :
    (runAll step items disk).1.static = disk.static := by
  exact runAll_same Disk.static (fun item _ state ↦ hstep item state) disk

theorem andThen_static {first : Disk × Option String} {next : Disk → Disk × Option String}
    (hnext : ∀ disk, (next disk).1.static = disk.static) :
    (andThen first next).1.static = first.1.static := by
  exact andThen_same Disk.static hnext

theorem stage_static (faults : Faults) (change : Change) (disk : Disk) :
    (stage faults change disk).1.static = disk.static := by
  unfold stage
  split <;> simp

/-- An operation on the directory of one Pod leaves the static Pods and the other directories alone. -/
structure OnlyPod (pod : String) (before after : Disk) : Prop where
  static : after.static = before.static
  others : ∀ other ≠ pod, after.secret.lookup other = before.secret.lookup other

variable {pod : String} {desired : Desired}

theorem OnlyPod.refl (disk : Disk) : OnlyPod pod disk disk :=
  ⟨rfl, fun _ _ ↦ rfl⟩

theorem OnlyPod.trans (first second third : Disk) (hfirst : OnlyPod pod first second)
    (hsecond : OnlyPod pod second third) : OnlyPod pod first third :=
  ⟨hsecond.static.trans hfirst.static, fun other hne ↦
    (hsecond.others other hne).trans (hfirst.others other hne)⟩

theorem OnlyPod.updatePod (disk : Disk) (change : PodDir → PodDir) :
    OnlyPod pod disk (disk.updatePod pod change) :=
  ⟨rfl, fun _ hne ↦ (GoMap.lookup_insert_eq ..).trans (if_neg hne)⟩

theorem OnlyPod.removePodDir (disk : Disk) : OnlyPod pod disk (removePodDir faults pod disk).1 := by
  unfold StaticPod.removePodDir
  split
  · exact ⟨rfl, fun _ hne ↦ (GoMap.lookup_erase_eq ..).trans (if_neg hne)⟩
  · dsimp only
    exact .updatePod disk _

theorem OnlyPod.removeSecretFile (keys : List String) (provider key : String) (disk : Disk) :
    OnlyPod pod disk (removeSecretFile faults keys pod provider key disk).1 := by
  unfold StaticPod.removeSecretFile
  split
  · exact .refl disk
  · split
    · dsimp only
      exact .updatePod disk _
    · exact .refl disk

theorem OnlyPod.removeProvider (provider : String) (disk : Disk) :
    OnlyPod pod disk (removeProvider faults pod provider disk).1 := by
  unfold StaticPod.removeProvider
  split
  all_goals
    dsimp only
    exact .updatePod disk _

theorem OnlyPod.cleanupProvider (provider : String) (disk : Disk) :
    OnlyPod pod disk (cleanupProvider faults desired pod provider disk).1 := by
  unfold StaticPod.cleanupProvider
  dsimp only
  split
  · exact .refl disk
  · refine andThen_related trans (runAll_related refl trans
      (fun key _ ↦ .removeSecretFile _ provider key) disk) fun state ↦ ?_
    split
    · exact .removeProvider provider state
    · exact .refl state

theorem OnlyPod.cleanupPodDir (disk : Disk) : OnlyPod pod disk (cleanupPodDir faults desired pod disk).1 := by
  unfold StaticPod.cleanupPodDir
  split
  · exact runAll_related refl trans (fun provider _ ↦ .cleanupProvider provider) disk
  · exact .removePodDir disk

theorem OnlyPod.removeGeneration (generation : String) (disk : Disk) :
    OnlyPod pod disk (removeGeneration faults pod generation disk).1 := by
  unfold StaticPod.removeGeneration
  split
  all_goals
    dsimp only
    exact .updatePod disk _

theorem OnlyPod.cleanupGenerations (entry : String × String) (disk : Disk) :
    OnlyPod entry.1 disk (cleanupGenerations faults entry disk).1 := by
  unfold StaticPod.cleanupGenerations
  dsimp only
  split
  · exact .refl disk
  · split
    · exact .refl disk
    · exact runAll_related refl trans (fun generation _ ↦ .removeGeneration generation) disk

theorem readDirectory_disk (faults : Faults) (path : List String) (disk : Disk) :
    (readDirectory faults path disk).1 = disk := by
  unfold readDirectory
  split <;> rfl

theorem syncDirectory_disk (faults : Faults) (path : List String) (disk : Disk) :
    (syncDirectory faults path disk).1 = disk := by
  unfold syncDirectory
  split <;> rfl

theorem cleanupSecret_static (faults : Faults) (desired : Desired) (disk : Disk) :
    (cleanupSecret faults desired disk).1.static = disk.static := by
  unfold cleanupSecret
  rw [andThen_static, readDirectory_disk]
  exact fun after ↦ runAll_static (fun _ disk ↦ (OnlyPod.cleanupPodDir disk).static) _ after

/-! ## Writing Pod files -/

/-- The static Pod directory after a rename. -/
def writeStatic (static : GoMap String (List UInt8)) : Change → GoMap String (List UInt8)
  | .podFile name body => static.insert (podFileName name) body
  | _ => static

theorem Disk.rename_static (disk : Disk) (time : Int) (change : Change) :
    (disk.rename time change).static = writeStatic disk.static change := by
  cases change <;> rfl

theorem commit_success {change : Change} {next : Disk} (hcommit : commit faults change disk = (next, none)) :
    next.static = writeStatic disk.static change := by
  unfold commit at hcommit
  split at hcommit
  · cases hcommit
    exact Disk.rename_static _ _ _
  · simp at hcommit
  · simp at hcommit

theorem runAll_commit_success {changes : List Change} (hnone : (runAll (commit faults) changes disk).2 = none) :
    (runAll (commit faults) changes disk).1.static = changes.foldl writeStatic disk.static := by
  refine @runAll_success _ _ _ (commit faults)
    (fun done state ↦ state.static = done.foldl writeStatic disk.static) ?_ changes [] disk rfl hnone
  intro done change state next hdone hcommit
  rw [commit_success hcommit, hdone, List.foldl_append]
  rfl

theorem podFileName_injective : Function.Injective podFileName := by
  intro left right heq
  have hchars : (podFileName left).toList = (podFileName right).toList := congrArg String.toList heq
  rw [podFileName, podFileName, String.toList_append, String.toList_append] at hchars
  exact String.toList_injective (List.append_cancel_right hchars)

/-- The static Pod directory after the files of some candidates are written. -/
def writeCandidate (static : GoMap String (List UInt8)) (candidate : Candidate) :
    GoMap String (List UInt8) :=
  if candidate.publish then static.insert (podFileName candidate.name) candidate.manifest else static

theorem foldl_writeStatic_of_ne {changes : List Change}
    (hchanges : ∀ change ∈ changes, ∀ name body, change ≠ .podFile name body)
    (static : GoMap String (List UInt8)) : changes.foldl writeStatic static = static := by
  induction changes with
  | nil => rfl
  | cons change changes ih =>
    have hfirst : writeStatic static change = static := by
      cases change with
      | podFile name body => exact absurd rfl (hchanges _ List.mem_cons_self name body)
      | identityFile pod generation file body => rfl
      | identityLink pod generation => rfl
      | secretFile pod provider key body => rfl
    rw [List.foldl_cons, hfirst]
    exact ih fun other hother ↦ hchanges other (List.mem_cons_of_mem change hother)

theorem foldl_candidate_changes (candidate : Candidate) (iteration : Iteration)
    (static : GoMap String (List UInt8)) :
    (candidate.changes iteration).foldl writeStatic static = writeCandidate static candidate := by
  unfold Candidate.changes writeCandidate
  cases candidate.publish with
  | false => rfl
  | true =>
    simp only [Bool.not_true, Bool.false_eq_true, if_false, if_true]
    rw [List.foldl_append, List.foldl_cons, List.foldl_nil, foldl_writeStatic_of_ne]
    · rfl
    · intro change hchange name body
      simp only [List.mem_append, List.mem_map, List.mem_flatMap, List.mem_singleton] at hchange
      rcases hchange with (⟨entry, _, rfl⟩ | rfl) | ⟨provider, _, entry, _, rfl⟩ <;> simp

theorem foldl_changes (candidates : List Candidate) (iteration : Iteration)
    (static : GoMap String (List UInt8)) :
    (candidates.flatMap (·.changes iteration)).foldl writeStatic static =
      candidates.foldl writeCandidate static := by
  induction candidates generalizing static with
  | nil => rfl
  | cons candidate candidates ih =>
    rw [List.flatMap_cons, List.foldl_append, foldl_candidate_changes, ih, List.foldl_cons]

theorem lookup_foldl_of_not_mem (hname : name ∉ candidates.map Candidate.name)
    (static : GoMap String (List UInt8)) :
    (candidates.foldl writeCandidate static).lookup (podFileName name) =
      static.lookup (podFileName name) := by
  induction candidates generalizing static with
  | nil => rfl
  | cons candidate candidates ih =>
    rw [List.map_cons, List.mem_cons, not_or] at hname
    rw [List.foldl_cons, ih hname.2, writeCandidate]
    split
    · rw [GoMap.lookup_insert_eq, if_neg fun heq ↦ hname.1 (podFileName_injective heq)]
    · rfl

/-- Each published candidate has its file, and the file of a skipped one is as before. -/
theorem lookup_foldl_of_mem {candidate : Candidate} (hnodup : (candidates.map Candidate.name).Nodup)
    (hmem : candidate ∈ candidates) (static : GoMap String (List UInt8)) :
    (candidates.foldl writeCandidate static).lookup (podFileName candidate.name) =
      if candidate.publish then some candidate.manifest
      else static.lookup (podFileName candidate.name) := by
  induction candidates generalizing static with
  | nil => simp at hmem
  | cons first candidates ih =>
    rw [List.map_cons, List.nodup_cons] at hnodup
    rw [List.foldl_cons]
    rcases List.mem_cons.mp hmem with rfl | hrest
    · rw [lookup_foldl_of_not_mem hnodup.1, writeCandidate]
      split
      · rw [GoMap.lookup_insert_eq, if_pos rfl]
      · rfl
    · have hne : podFileName candidate.name ≠ podFileName first.name := by
        intro heq
        exact hnodup.1 (podFileName_injective heq ▸ List.mem_map.mpr ⟨candidate, hrest, rfl⟩)
      rw [ih hnodup.2 hrest, writeCandidate]
      split
      · rfl
      · split
        · rw [GoMap.lookup_insert_eq, if_neg hne]
        · rfl

/-! ## Removing stale Pod files -/

theorem mem_sortedNames {Value : Type} {entries : GoMap String Value} :
    name ∈ sortedNames entries ↔ ∃ value, entries.lookup name = some value := by
  rw [sortedNames, mem_sortSlice, List.mem_map]
  constructor
  · intro hname
    obtain ⟨⟨key, value⟩, hpair, rfl⟩ := hname
    exact ⟨value, GoMap.mem_pairs.mp hpair⟩
  · intro hname
    obtain ⟨value, hvalue⟩ := hname
    exact ⟨(name, value), GoMap.mem_pairs.mpr hvalue, rfl⟩

theorem removeStatic_success {keep : List String} {entry : String} {next : Disk}
    (hremove : removeStatic faults keep entry disk = (next, none)) (file : String) :
    next.static.lookup file =
      if file = entry ∧ stale keep file = true then none else disk.static.lookup file := by
  unfold removeStatic at hremove
  split at hremove
  · next hstale =>
    split at hremove
    · cases hremove
      rw [GoMap.lookup_erase_eq]
      by_cases heq : file = entry
      · subst heq
        simp [hstale]
      · simp [heq]
    · simp at hremove
  · next hfresh =>
    cases hremove
    by_cases heq : file = entry
    · subst heq
      simp [hfresh]
    · simp [heq]

/-- Cleaning up without a failure removes every stale Pod file and nothing else. -/
theorem cleanupStatic_success {desired : Desired} (hnone : (cleanupStatic faults desired disk).2 = none)
    (file : String) :
    (cleanupStatic faults desired disk).1.static.lookup file =
      if stale desired.keep file = true then none else disk.static.lookup file := by
  unfold cleanupStatic at hnone ⊢
  obtain ⟨hread, hremoved⟩ := andThen_eq_none.mp hnone
  rw [andThen_of_none hread, readDirectory_disk] at *
  have hall := @runAll_success _ _ _ (removeStatic faults desired.keep)
    (fun done state ↦ ∀ file, state.static.lookup file =
      if file ∈ done ∧ stale desired.keep file = true then none else disk.static.lookup file)
    (fun done entry state next hdone hremove file ↦ by
      rw [removeStatic_success hremove, hdone]
      by_cases heq : file = entry
      · subst heq
        by_cases hstale : stale desired.keep file = true <;> simp [hstale]
      · simp [heq])
    (sortedNames disk.static) [] disk (by simp) hremoved file
  rw [hall, List.nil_append]
  by_cases hstale : stale desired.keep file = true
  · by_cases hmem : file ∈ sortedNames disk.static
    · simp [hstale, hmem]
    · have hnone : disk.static.lookup file = none := by
        rw [mem_sortedNames, not_exists] at hmem
        exact Option.eq_none_iff_forall_ne_some.mpr hmem
      simp [hstale, hnone]
  · simp [hstale]

theorem cleanup_static_of_none {desired : Desired} (hnone : (cleanupStatic faults desired disk).2 = none) :
    (cleanup faults desired disk).1.static = (cleanupStatic faults desired disk).1.static := by
  unfold cleanup
  rw [andThen_of_none hnone, andThen_static, cleanupSecret_static]
  intro after
  rw [andThen_static, syncDirectory_disk]
  exact fun last ↦ by rw [syncDirectory_disk]

/-- The static Pod directory after a publication without a failure. -/
theorem publishChanges_success
    (hnone : (publishChanges call candidates (candidates.flatMap (·.changes call.iteration)) disk).2 = none)
    (file : String) :
    (publishChanges call candidates (candidates.flatMap (·.changes call.iteration))
      disk).1.static.lookup file =
        if stale (candidates.map Candidate.name) file = true then none
        else (candidates.foldl writeCandidate disk.static).lookup file := by
  unfold publishChanges at hnone ⊢
  dsimp only at hnone ⊢
  obtain ⟨hcommit, hrest⟩ := andThen_eq_none.mp hnone
  rw [andThen_of_none hcommit]
  obtain ⟨hcleanup, _⟩ := andThen_eq_none.mp hrest
  have hstatic : (cleanupStatic call.faults (desiredOf candidates)
      (runAll (commit call.faults) (candidates.flatMap (·.changes call.iteration)) disk).1).2 =
        none := by
    unfold cleanup at hcleanup
    exact (andThen_eq_none.mp hcleanup).1
  rw [andThen_static fun after ↦
      runAll_static (fun entry disk ↦ (OnlyPod.cleanupGenerations entry disk).static) _ after,
    cleanup_static_of_none hstatic, cleanupStatic_success hstatic, runAll_commit_success hcommit,
    foldl_changes]
  rfl

theorem stale_podFileName {keep : List String} :
    stale keep (podFileName name) = true ↔ name ∉ keep := by
  simp [stale, podFileName, Text.hasSuffix_append, Text.trimSuffix_append]

/-- The Pod file of a candidate after a publication without a failure. -/
theorem publishChanges_podFile {candidate : Candidate} {staged : Disk}
    (hnodup : (candidates.map Candidate.name).Nodup) (hmem : candidate ∈ candidates)
    (hpublish : publishChanges call candidates
      (candidates.flatMap (·.changes call.iteration)) staged = (disk, none)) :
    disk.static.lookup (podFileName candidate.name) =
      if candidate.publish then some candidate.manifest
      else staged.static.lookup (podFileName candidate.name) := by
  have hkept : ¬stale (candidates.map Candidate.name) (podFileName candidate.name) = true := by
    rw [stale_podFileName, not_not]
    exact List.mem_map.mpr ⟨candidate, hmem, rfl⟩
  have hlookup := publishChanges_success (congrArg Prod.snd hpublish) (podFileName candidate.name)
  rwa [hpublish, if_neg hkept, lookup_foldl_of_mem hnodup hmem] at hlookup

/-! ## Calls whose file operations succeed -/

/-- No file operation fails. -/
structure Faults.Clean (faults : Faults) : Prop where
  stage : ∀ change, faults.stage change = .staged
  commit : ∀ change, faults.commit change = .committed
  remove : ∀ path, faults.remove path = .removed
  readDir : ∀ path, faults.readDir path = true
  info : ∀ path, faults.info path = true
  sync : ∀ path, faults.sync path = true

theorem stage_clean (hclean : faults.Clean) (changes : List Change) (disk : Disk) :
    (runAll (StaticPod.stage faults) changes disk).2 = none :=
  runAll_of_none (fun change _ state ↦ by simp [StaticPod.stage, hclean.stage]) disk

theorem commit_clean (hclean : faults.Clean) (changes : List Change) (disk : Disk) :
    (runAll (StaticPod.commit faults) changes disk).2 = none :=
  runAll_of_none (fun change _ state ↦ by simp [StaticPod.commit, hclean.commit]) disk

theorem cleanupStatic_clean (hread : faults.readDir ["static"] = true)
    (hremove : ∀ path, faults.remove path = .removed) (desired : Desired) (disk : Disk) :
    (cleanupStatic faults desired disk).2 = none := by
  refine andThen_eq_none.mpr ⟨by simp [readDirectory, hread], ?_⟩
  refine runAll_of_none (fun entry _ state ↦ ?_) _
  unfold removeStatic
  split <;> simp [hremove]

theorem cleanupPodDir_clean (hclean : faults.Clean) (desired : Desired) (pod : String) (disk : Disk) :
    (cleanupPodDir faults desired pod disk).2 = none := by
  unfold cleanupPodDir
  split
  · refine runAll_of_none (fun provider _ state ↦ ?_) disk
    unfold cleanupProvider
    simp only [hclean.readDir, Bool.not_true, Bool.false_eq_true, if_false]
    refine andThen_eq_none.mpr ⟨runAll_of_none (fun key _ before ↦ ?_) state, ?_⟩
    · unfold removeSecretFile
      split <;> simp [hclean.remove]
    · split <;> simp [removeProvider, hclean.remove]
  · simp [removePodDir, hclean.remove]

theorem cleanup_clean (hclean : faults.Clean) (desired : Desired) (disk : Disk) :
    (cleanup faults desired disk).2 = none := by
  refine andThen_eq_none.mpr ⟨cleanupStatic_clean (hclean.readDir _) hclean.remove desired disk, ?_⟩
  refine andThen_eq_none.mpr ⟨?_, ?_⟩
  · refine andThen_eq_none.mpr ⟨by simp [readDirectory, hclean.readDir], ?_⟩
    exact runAll_of_none (fun pod _ state ↦ cleanupPodDir_clean hclean desired pod state) _
  · refine andThen_eq_none.mpr ⟨?_, ?_⟩ <;> simp [syncDirectory, hclean.sync]

theorem cleanupGenerations_clean (hclean : faults.Clean) (entry : String × String) (disk : Disk) :
    (cleanupGenerations faults entry disk).2 = none := by
  unfold cleanupGenerations
  dsimp only
  rw [if_neg (by simp [hclean.readDir]), if_neg (by simp [hclean.info])]
  exact runAll_of_none (fun generation _ state ↦ by simp [removeGeneration, hclean.remove]) disk

theorem publishChanges_clean (hclean : call.faults.Clean) (candidates : List Candidate) (changes : List Change)
    (disk : Disk) :
    (publishChanges call candidates changes disk).2 = none := by
  refine andThen_eq_none.mpr ⟨commit_clean hclean changes disk, ?_⟩
  refine andThen_eq_none.mpr ⟨cleanup_clean hclean _ _, ?_⟩
  exact runAll_of_none (fun entry _ state ↦ cleanupGenerations_clean hclean entry state) _

end Podmin.Agent.StaticPod
