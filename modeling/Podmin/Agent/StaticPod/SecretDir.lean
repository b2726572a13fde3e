import Podmin.Agent.StaticPod.Publication

/-!
# What a publication does to the secret directory of a Pod

Staging and publishing touch the directory of a Pod only for a published candidate of that name, and
then only one identity generation of it. Cleaning up spares the identity and the declared secrets of
every candidate, and leaves the current generation and the latest of the others.
-/

namespace Podmin.Agent.StaticPod

open Foundation Fallible Agent.Workload Disk PodDir GoMap

variable {change : Change} {current : String} {start : PodDir} {done changes : List Change}
  {iteration : Iteration}

/-- The secret directory of a Pod; an absent one has nothing in it. -/
def Disk.dir (disk : Disk) (pod : String) : PodDir :=
  (disk.secret.lookup pod).getD {}

/-- A file of a provider. -/
def PodDir.secretFile (dir : PodDir) (provider key : String) : Option (List UInt8) :=
  (dir.providers.lookup provider).bind (·.lookup key)

/-- The three files of an identity. -/
def identityFiles (material : Material) : List (String × List UInt8) :=
  [(certificateFilename, material.certificate), (privateKeyFilename, material.privateKey),
    (caBundleFilename, material.caBundle)]

theorem Disk.updatePod_dir (disk : Disk) (pod other : String) (change : PodDir → PodDir) :
    (disk.updatePod pod change).dir other =
      if pod = other then change (disk.dir other) else disk.dir other := by
  unfold dir updatePod
  rw [lookup_insert_eq]
  by_cases hpod : pod = other
  · rw [if_pos hpod.symm, if_pos hpod, hpod]
    rfl
  · rw [if_neg (Ne.symm hpod), if_neg hpod]

theorem OnlyPod.dir_eq {pod other : String} {before after : Disk} (honly : OnlyPod pod before after)
    (hne : pod ≠ other) : after.dir other = before.dir other := by
  rw [dir, honly.others other (Ne.symm hne), dir]

/-! ## Staging and publishing -/

/-- The Pod a change is for. -/
def Change.pod : Change → String
  | .identityFile pod _ _ _ => pod
  | .identityLink pod _ => pod
  | .secretFile pod _ _ _ => pod
  | .podFile name _ => name

/-- What staging a change does to the directory of its Pod. -/
def PodDir.prepare (dir : PodDir) (time : Int) : Change → PodDir
  | .identityFile _ generation _ _ => dir.updateGeneration generation time id
  | .identityLink _ _ => dir
  | .secretFile _ provider _ _ => dir.updateProvider provider id
  | .podFile _ _ => dir

/-- What publishing a change does to the directory of its Pod. -/
def PodDir.rename (dir : PodDir) (time : Int) : Change → PodDir
  | .identityFile _ generation file body => dir.updateGeneration generation time (·.insert file body)
  | .identityLink _ generation => { dir with link := some generation }
  | .secretFile _ provider key body => dir.updateProvider provider (·.insert key body)
  | .podFile _ _ => dir

theorem Disk.prepare_dir (disk : Disk) (time : Int) (change : Change) (pod : String) :
    (disk.prepare time change).dir pod =
      if change.pod = pod then (disk.dir pod).prepare time change else disk.dir pod := by
  cases change with
  | identityFile owner generation file body => exact updatePod_dir ..
  | identityLink owner generation => exact updatePod_dir ..
  | secretFile owner provider key body => exact updatePod_dir ..
  | podFile name body => exact (ite_self _).symm

theorem Disk.rename_dir (disk : Disk) (time : Int) (change : Change) (pod : String) :
    (disk.rename time change).dir pod =
      if change.pod = pod then (disk.dir pod).rename time change else disk.dir pod := by
  cases change with
  | identityFile owner generation file body => exact updatePod_dir ..
  | identityLink owner generation => exact updatePod_dir ..
  | secretFile owner provider key body => exact updatePod_dir ..
  | podFile name body => exact (ite_self _).symm

variable {faults : Faults} {pod : String}

theorem stage_dir_of_ne (hpod : change.pod ≠ pod) (disk : Disk) :
    (stage faults change disk).1.dir pod = disk.dir pod := by
  have hprepare : (disk.prepare (faults.stagedAt change) change).dir pod = disk.dir pod := by
    rw [prepare_dir, if_neg hpod]
  unfold stage
  split
  · exact hprepare
  · exact hprepare
  · rfl

theorem commit_dir_of_ne (hpod : change.pod ≠ pod) (disk : Disk) :
    (commit faults change disk).1.dir pod = disk.dir pod := by
  have hrename : (disk.rename (faults.renamedAt change) change).dir pod = disk.dir pod := by
    rw [rename_dir, if_neg hpod]
  unfold commit
  split
  · exact hrename
  · rfl
  · exact hrename

/-- Staging leaves every generation but the staged ones alone. -/
theorem stage_identity
    (hcurrent : ∀ generation file body, change = .identityFile pod generation file body → generation = current)
    {generation : String} (hne : generation ≠ current) (disk : Disk) :
    ((stage faults change disk).1.dir pod).generations.lookup generation =
      (disk.dir pod).generations.lookup generation := by
  have hprepare : ((disk.prepare (faults.stagedAt change) change).dir pod).generations.lookup generation =
      (disk.dir pod).generations.lookup generation := by
    rw [prepare_dir]
    split
    · next hpod =>
      cases change with
      | identityFile owner staged file body =>
        cases hpod
        rw [hcurrent staged file body rfl]
        exact (lookup_insert_eq ..).trans (if_neg hne)
      | identityLink owner staged => rfl
      | secretFile owner provider key body => rfl
      | podFile name body => rfl
    · rfl
  unfold stage
  split
  · exact hprepare
  · exact hprepare
  · rfl

/-- What the published changes of a Pod have put in place: the generation, and the link to it. -/
structure Installed (pod current : String) (start : PodDir) (done : List Change) (dir : PodDir) :
    Prop where
  link : .identityLink pod current ∈ done → dir.link = some current
  files : ∀ file body, .identityFile pod current file body ∈ done →
    ∃ kept, dir.generations.lookup current = some kept ∧ kept.files.lookup file = some body
  others : ∀ generation ≠ current,
    dir.generations.lookup generation = start.generations.lookup generation

/-- The changes of one Pod write one generation, each file of it once. -/
structure Consistent (pod current : String) (changes : List Change) : Prop where
  generation : ∀ generation file body, .identityFile pod generation file body ∈ changes →
    generation = current
  link : ∀ generation, .identityLink pod generation ∈ changes → generation = current
  files : ∀ file first second, .identityFile pod current file first ∈ changes →
    .identityFile pod current file second ∈ changes → first = second

variable {dir : PodDir}

section Installed

variable (hinstalled : Installed pod current start done dir)

include hinstalled

/-- A change of another kind leaves the identity alone. -/
theorem Installed.other {next : PodDir} (hlink : ∀ generation, change ≠ .identityLink pod generation)
    (hfile : ∀ generation file body, change ≠ .identityFile pod generation file body)
    (hsame : next.link = dir.link ∧ next.generations = dir.generations) :
    Installed pod current start (done ++ [change]) next where
  link hmem := by
    rcases List.mem_append.mp hmem with hdone | hlast
    · exact hsame.1.trans (hinstalled.link hdone)
    · exact absurd (List.mem_singleton.mp hlast).symm (hlink current)
  files file body hmem := by
    rcases List.mem_append.mp hmem with hdone | hlast
    · rw [hsame.2]
      exact hinstalled.files file body hdone
    · exact absurd (List.mem_singleton.mp hlast).symm (hfile current file body)
  others generation hne := by
    rw [hsame.2]
    exact hinstalled.others generation hne

theorem Installed.skip (hpod : change.pod ≠ pod) :
    Installed pod current start (done ++ [change]) dir :=
  hinstalled.other (fun _ hlink ↦ hpod (hlink ▸ rfl)) (fun _ _ _ hfile ↦ hpod (hfile ▸ rfl)) ⟨rfl, rfl⟩

theorem Installed.identityLink :
    Installed pod current start (done ++ [.identityLink pod current])
      { dir with link := some current } where
  link _ := rfl
  files file body hfile := by
    rcases List.mem_append.mp hfile with hdone | hlast
    · exact hinstalled.files file body hdone
    · exact nomatch List.mem_singleton.mp hlast
  others := hinstalled.others

theorem Installed.identityFile {file : String} {body : List UInt8}
    (hsame : ∀ other, .identityFile pod current file other ∈ done → other = body) (time : Int) :
    Installed pod current start (done ++ [.identityFile pod current file body])
      (dir.updateGeneration current time (·.insert file body)) where
  link hlink := by
    rcases List.mem_append.mp hlink with hdone | hlast
    · exact hinstalled.link hdone
    · exact nomatch List.mem_singleton.mp hlast
  files other stored hfile := by
    refine ⟨_, (lookup_insert_eq ..).trans (if_pos rfl), ?_⟩
    refine (lookup_insert_eq ..).trans ?_
    by_cases hother : other = file
    · rw [if_pos hother]
      subst hother
      rcases List.mem_append.mp hfile with hdone | hlast
      · rw [hsame stored hdone]
      · cases List.mem_singleton.mp hlast
        rfl
    · rw [if_neg hother]
      rcases List.mem_append.mp hfile with hdone | hlast
      · obtain ⟨kept, hkept, hstored⟩ := hinstalled.files other stored hdone
        rw [hkept]
        exact hstored
      · cases List.mem_singleton.mp hlast
        exact absurd rfl hother
  others generation hne :=
    ((lookup_insert_eq ..).trans (if_neg hne)).trans (hinstalled.others generation hne)

theorem Installed.rename (hconsistent : Consistent pod current changes)
    (hdone : ∀ other ∈ done, other ∈ changes) (hchange : change ∈ changes) (hpod : change.pod = pod)
    (time : Int) :
    Installed pod current start (done ++ [change]) (dir.rename time change) := by
  cases change with
  | identityFile owner generation file body =>
    cases hpod
    cases hconsistent.generation generation file body hchange
    exact hinstalled.identityFile
      (fun other hother ↦ hconsistent.files file other body (hdone _ hother) hchange) time
  | identityLink owner generation =>
    cases hpod
    cases hconsistent.link generation hchange
    exact hinstalled.identityLink
  | secretFile owner provider key body => exact hinstalled.other (by simp) (by simp) ⟨rfl, rfl⟩
  | podFile name body => exact hinstalled.other (by simp) (by simp) ⟨rfl, rfl⟩

end Installed

variable {disk : Disk}

/-- Publishing without a failure installs the generation of a Pod. -/
theorem runAll_commit_installed (hconsistent : Consistent pod current changes)
    (hnone : (runAll (commit faults) changes disk).2 = none) :
    Installed pod current (disk.dir pod) changes ((runAll (commit faults) changes disk).1.dir pod) := by
  have hstart : Installed pod current (disk.dir pod) [] (disk.dir pod) :=
    ⟨by simp, by simp, fun _ _ ↦ rfl⟩
  refine @runAll_success _ _ _ (commit faults)
    (fun done state ↦ (∀ other ∈ done, other ∈ changes) →
      Installed pod current (disk.dir pod) done (state.dir pod))
    ?_ changes [] disk (fun _ ↦ hstart) hnone fun _ hother ↦ hother
  intro done change state next hinstalled hcommit hall
  have hdone : ∀ other ∈ done, other ∈ changes :=
    fun other hother ↦ hall other (List.mem_append_left _ hother)
  have hchange : change ∈ changes := hall change (List.mem_append_right _ List.mem_cons_self)
  unfold commit at hcommit
  split at hcommit
  · cases hcommit
    rw [rename_dir]
    split
    · next hpod => exact (hinstalled hdone).rename hconsistent hdone hchange hpod _
    · next hpod => exact (hinstalled hdone).skip hpod
  · exact nomatch hcommit
  · exact nomatch hcommit

/-! ## Cleaning up -/

/-- The identity of a Pod is as it was, and so are its declared secrets. -/
structure Spares (desired : Desired) (pod : String) (before after : Disk) : Prop where
  link : (after.dir pod).link = (before.dir pod).link
  generations : (after.dir pod).generations = (before.dir pod).generations
  secrets : ∀ provider, ∀ key ∈ desired.secrets pod provider,
    (after.dir pod).secretFile provider key = (before.dir pod).secretFile provider key

variable {desired : Desired}

theorem Spares.of_dir {before after : Disk} (hdir : after.dir pod = before.dir pod) :
    Spares desired pod before after := by
  constructor
  · rw [hdir]
  · rw [hdir]
  · intro provider key _
    rw [hdir]

theorem Spares.updatePod {disk : Disk} {change : PodDir → PodDir}
    (hsame : ∀ dir, (change dir).link = dir.link ∧ (change dir).generations = dir.generations)
    (hsecrets : ∀ provider, ∀ key ∈ desired.secrets pod provider,
      (change (disk.dir pod)).secretFile provider key = (disk.dir pod).secretFile provider key) :
    Spares desired pod disk (disk.updatePod pod change) := by
  have hdir := updatePod_dir disk pod pod change
  rw [if_pos rfl] at hdir
  constructor
  · rw [hdir, (hsame _).1]
  · rw [hdir, (hsame _).2]
  · rwa [hdir]

theorem Spares.trans (first second third : Disk) (hfirst : Spares desired pod first second)
    (hsecond : Spares desired pod second third) :
    Spares desired pod first third where
  link := hsecond.link.trans hfirst.link
  generations := hsecond.generations.trans hfirst.generations
  secrets provider key hkey := (hsecond.secrets provider key hkey).trans (hfirst.secrets provider key hkey)

theorem PodDir.updateProvider_secretFile (dir : PodDir) (provider : String)
    (change : GoMap String (List UInt8) → GoMap String (List UInt8)) (other key : String) :
    (dir.updateProvider provider change).secretFile other key =
      if other = provider then (change ((dir.providers.lookup provider).getD ∅)).lookup key
      else dir.secretFile other key := by
  unfold secretFile updateProvider
  rw [lookup_insert_eq]
  split
  · rfl
  · rfl

theorem PodDir.secretFile_eq (dir : PodDir) (provider key : String) :
    dir.secretFile provider key = ((dir.providers.lookup provider).getD ∅).lookup key := by
  unfold secretFile
  cases dir.providers.lookup provider with
  | none => rfl
  | some files => rfl

theorem removeSecretFile_spares (faults : Faults) (desired : Desired) (pod provider key : String)
    (disk : Disk) : Spares desired pod disk
      (removeSecretFile faults (desired.secrets pod provider) pod provider key disk).1 := by
  unfold removeSecretFile
  split
  · exact .of_dir rfl
  next hstale =>
  split
  · dsimp only
    refine .updatePod (fun _ ↦ ⟨rfl, rfl⟩) fun other kept hkept ↦ ?_
    rw [updateProvider_secretFile]
    split
    · next hother =>
      subst hother
      have hne : kept ≠ key := fun heq ↦ hstale (heq ▸ hkept)
      rw [lookup_erase_eq, if_neg hne, secretFile_eq]
    · rfl
  · exact .of_dir rfl

theorem removeProvider_spares {provider : String} (hempty : desired.secrets pod provider = []) (disk : Disk) :
    Spares desired pod disk (removeProvider faults pod provider disk).1 := by
  have hother : ∀ other, ∀ key ∈ desired.secrets pod other, other ≠ provider := by
    intro other key hkey heq
    rw [heq, hempty] at hkey
    exact nomatch hkey
  unfold removeProvider
  split
  · dsimp only
    refine .updatePod (fun _ ↦ ⟨rfl, rfl⟩) fun other key hkey ↦ ?_
    unfold secretFile
    rw [lookup_erase_eq, if_neg (hother other key hkey)]
  · dsimp only
    refine .updatePod (fun _ ↦ ⟨rfl, rfl⟩) fun other key hkey ↦ ?_
    rw [updateProvider_secretFile, if_neg (hother other key hkey)]

theorem runAll_spares {Item : Type} {step : Item → Disk → Disk × Option String}
    (hstep : ∀ item disk, Spares desired pod disk (step item disk).1) (items : List Item) (disk : Disk) :
    Spares desired pod disk (runAll step items disk).1 :=
  runAll_related (fun _ ↦ .of_dir rfl) Spares.trans (fun item _ state ↦ hstep item state) disk

theorem cleanupProvider_spares (faults : Faults) (desired : Desired) (pod provider : String) (disk : Disk) :
    Spares desired pod disk (cleanupProvider faults desired pod provider disk).1 := by
  unfold cleanupProvider
  dsimp only
  split
  · exact .of_dir rfl
  · refine andThen_related Spares.trans
      (runAll_spares (removeSecretFile_spares faults desired pod provider) _ disk) fun state ↦ ?_
    split
    · next hempty => exact removeProvider_spares (List.isEmpty_iff.mp hempty.1) state
    · exact .of_dir rfl

section Others

variable {faults : Faults} {desired : Desired} {pod other : String}

theorem cleanupPodDir_spares (hkeep : pod ∈ desired.keep) (other : String) (disk : Disk) :
    Spares desired pod disk (cleanupPodDir faults desired other disk).1 := by
  by_cases hne : other = pod
  · subst hne
    unfold cleanupPodDir
    rw [if_pos hkeep]
    exact runAll_spares (cleanupProvider_spares faults desired other) _ disk
  · exact .of_dir ((OnlyPod.cleanupPodDir disk).dir_eq hne)

theorem cleanupStatic_dir (disk : Disk) : (cleanupStatic faults desired disk).1.dir pod = disk.dir pod := by
  have hstatic : ∀ entry state, (removeStatic faults desired.keep entry state).1.dir pod =
      state.dir pod := by
    intro entry state
    unfold removeStatic
    split
    · split
      · rfl
      · rfl
    · rfl
  unfold cleanupStatic
  rw [andThen_same (dir · pod)
    fun state ↦ runAll_same (dir · pod) (fun entry _ before ↦ hstatic entry before) state,
    readDirectory_disk]

/-- Cleaning up, failing or not, spares the identity and the declared secrets of what it keeps. -/
theorem cleanup_spares (hkeep : pod ∈ desired.keep) (disk : Disk) :
    Spares desired pod disk (cleanup faults desired disk).1 := by
  have hsync : ∀ path (state : Disk), Spares desired pod state (syncDirectory faults path state).1 :=
    fun path state ↦ .of_dir (by rw [syncDirectory_disk])
  have hread : ∀ path (state : Disk), Spares desired pod state (readDirectory faults path state).1 :=
    fun path state ↦ .of_dir (by rw [readDirectory_disk])
  have hsecret : ∀ state : Disk, Spares desired pod state (cleanupSecret faults desired state).1 :=
    fun state ↦ andThen_related Spares.trans (hread _ state)
      fun after ↦ runAll_spares (cleanupPodDir_spares hkeep) _ after
  exact andThen_related Spares.trans (.of_dir (cleanupStatic_dir disk)) fun state ↦
    andThen_related Spares.trans (hsecret state) fun after ↦
      andThen_related Spares.trans (hsync _ after) (hsync _)

end Others

/-! ## Identity generations -/

def modTimeOf (generations : GoMap String Generation) (name : String) : Int :=
  ((generations.lookup name).map Generation.modTime).getD 0

/-- A latest name other than the current one, if there is one. -/
def Latest (current : String) (generations : GoMap String Generation) (names : List String) :
    Option (String × Int) → Prop
  | none => ∀ name ∈ names, name = current
  | some (found, time) => found ∈ names ∧ found ≠ current ∧ time = modTimeOf generations found ∧
      ∀ name ∈ names, name ≠ current → modTimeOf generations name ≤ time

theorem previousGeneration_latest (current : String) (generations : GoMap String Generation)
    (names : List String) :
    Latest current generations names (previousGeneration current generations names) := by
  induction names using List.reverseRecOn with
  | nil => exact fun name hname ↦ nomatch hname
  | append_singleton names last ih =>
    unfold previousGeneration at ih ⊢
    rw [List.foldl_append, List.foldl_cons, List.foldl_nil]
    generalize List.foldl _ none names = previous at ih ⊢
    by_cases hlast : last = current
    · rw [if_pos hlast]
      cases previous with
      | none => exact List.forall_mem_append.mpr ⟨ih, List.forall_mem_singleton.mpr hlast⟩
      | some latest =>
        obtain ⟨hmem, hother, htime, hbound⟩ := ih
        exact ⟨List.mem_append_left _ hmem, hother, htime, List.forall_mem_append.mpr
          ⟨hbound, List.forall_mem_singleton.mpr fun hne ↦ absurd hlast hne⟩⟩
    · rw [if_neg hlast]
      have hself : last ∈ names ++ [last] := List.mem_append_right _ List.mem_cons_self
      cases previous with
      | none =>
        exact ⟨hself, hlast, rfl, List.forall_mem_append.mpr
          ⟨fun name hname hne ↦ absurd (ih name hname) hne, List.forall_mem_singleton.mpr fun _ ↦ le_rfl⟩⟩
      | some latest =>
        obtain ⟨hmem, hother, htime, hbound⟩ := ih
        dsimp only
        split
        · next hlater =>
          exact ⟨hself, hlast, rfl, List.forall_mem_append.mpr
            ⟨fun name hname hne ↦ (hbound name hname hne).trans hlater.le,
              List.forall_mem_singleton.mpr fun _ ↦ le_rfl⟩⟩
        · next hearlier =>
          exact ⟨List.mem_append_left _ hmem, hother, htime, List.forall_mem_append.mpr
            ⟨hbound, List.forall_mem_singleton.mpr fun _ ↦ not_lt.mp hearlier⟩⟩

/-- The generation that is kept next to the current one. -/
def PodDir.previous (dir : PodDir) (current : String) : Option String :=
  (previousGeneration current dir.generations (sortedNames dir.generations)).map Prod.fst

/-- The generations that cleaning up removes. -/
def PodDir.obsolete (dir : PodDir) (current : String) : List String :=
  (sortedNames dir.generations).filter fun name ↦ name ≠ current ∧ some name ≠ dir.previous current

theorem PodDir.mem_obsolete {name : String} :
    name ∈ dir.obsolete current ↔ (∃ kept, dir.generations.lookup name = some kept) ∧
      name ≠ current ∧ some name ≠ dir.previous current := by
  unfold obsolete
  rw [List.mem_filter, mem_sortedNames, decide_eq_true_eq]

/-- The kept generation is there and as late as any other. -/
theorem PodDir.previous_latest {name : String} {kept : Generation}
    (hkept : dir.generations.lookup name = some kept) (hne : name ≠ current) :
    ∃ found latest, dir.previous current = some found ∧ found ≠ current ∧
      dir.generations.lookup found = some latest ∧ kept.modTime ≤ latest.modTime := by
  have hname : name ∈ sortedNames dir.generations := mem_sortedNames.mpr ⟨kept, hkept⟩
  have hlatest := previousGeneration_latest current dir.generations (sortedNames dir.generations)
  unfold previous
  cases hfound : previousGeneration current dir.generations (sortedNames dir.generations) with
  | none =>
    rw [hfound] at hlatest
    exact absurd (hlatest name hname) hne
  | some found =>
    rw [hfound] at hlatest
    obtain ⟨hmem, hother, htime, hbound⟩ := hlatest
    obtain ⟨latest, hlookup⟩ := mem_sortedNames.mp hmem
    have hle := hbound name hname hne
    rw [htime, modTimeOf, modTimeOf, hkept, hlookup] at hle
    exact ⟨found.1, latest, rfl, hother, hlookup, hle⟩

/-- What is left when the obsolete generations are removed. -/
structure Pruned (current : String) (before after : PodDir) : Prop where
  link : after.link = before.link
  providers : after.providers = before.providers
  generations : ∀ name, after.generations.lookup name =
    if name ∈ before.obsolete current then none else before.generations.lookup name

theorem removeGeneration_success {generation : String} {next : Disk}
    (hremove : removeGeneration faults pod generation disk = (next, none)) :
    next.dir pod = { disk.dir pod with generations := (disk.dir pod).generations.erase generation } := by
  unfold removeGeneration at hremove
  split at hremove
  · cases hremove
    rw [updatePod_dir, if_pos rfl]
  · exact nomatch hremove

theorem runAll_removeGeneration {names : List String}
    (hnone : (runAll (removeGeneration faults pod) names disk).2 = none) :
    ((runAll (removeGeneration faults pod) names disk).1.dir pod).link = (disk.dir pod).link ∧
      ((runAll (removeGeneration faults pod) names disk).1.dir pod).providers = (disk.dir pod).providers ∧
      ∀ name, ((runAll (removeGeneration faults pod) names disk).1.dir pod).generations.lookup name =
        if name ∈ names then none else (disk.dir pod).generations.lookup name := by
  refine @runAll_success _ _ _ (removeGeneration faults pod)
    (fun done state ↦ (state.dir pod).link = (disk.dir pod).link ∧
      (state.dir pod).providers = (disk.dir pod).providers ∧
      ∀ name, (state.dir pod).generations.lookup name =
        if name ∈ done then none else (disk.dir pod).generations.lookup name)
    ?_ names [] disk ⟨rfl, rfl, by simp⟩ hnone
  intro done generation state next hdone hremove
  obtain ⟨hlink, hproviders, hgenerations⟩ := hdone
  rw [removeGeneration_success hremove]
  refine ⟨hlink, hproviders, fun name ↦ ?_⟩
  rw [lookup_erase_eq, hgenerations]
  by_cases hname : name = generation
  · simp [hname]
  · simp [hname]

theorem Disk.dir_generations (disk : Disk) (pod : String) :
    ((disk.secret.lookup pod).map generations).getD ∅ = (disk.dir pod).generations := by
  unfold dir
  cases disk.secret.lookup pod with
  | none => rfl
  | some dir => rfl

theorem cleanupGenerations_pruned {faults : Faults} {pod current : String} {disk : Disk}
    (hnone : (cleanupGenerations faults (pod, current) disk).2 = none) :
    Pruned current (disk.dir pod) ((cleanupGenerations faults (pod, current) disk).1.dir pod) := by
  unfold cleanupGenerations at hnone ⊢
  simp only [dir_generations] at hnone ⊢
  split at hnone
  · exact nomatch hnone
  next hread =>
  split at hnone
  · exact nomatch hnone
  next hinfo =>
  rw [if_neg hread, if_neg hinfo]
  obtain ⟨hlink, hproviders, hgenerations⟩ := runAll_removeGeneration hnone
  exact ⟨hlink, hproviders, hgenerations⟩

/-- Removing the obsolete generations of every Pod, each listed once. -/
theorem runAll_cleanupGenerations {entries : List (String × String)} (hnodup : (entries.map Prod.fst).Nodup)
    (hmem : (pod, current) ∈ entries) (hnone : (runAll (cleanupGenerations faults) entries disk).2 = none) :
    Pruned current (disk.dir pod) ((runAll (cleanupGenerations faults) entries disk).1.dir pod) := by
  induction entries generalizing disk with
  | nil => cases hmem
  | cons entry entries ih =>
    rw [List.map_cons, List.nodup_cons] at hnodup
    unfold runAll at hnone ⊢
    cases hentry : cleanupGenerations faults entry disk with
    | mk next failure =>
      rw [hentry] at hnone
      cases failure with
      | some message => cases hnone
      | none =>
        rcases List.mem_cons.mp hmem with rfl | hrest
        · -- the rest of the loop is about other Pods
          have hpruned := @cleanupGenerations_pruned faults pod current disk (by rw [hentry])
          have hsame : (runAll (cleanupGenerations faults) entries next).1.dir pod = next.dir pod :=
            runAll_same (dir · pod) (fun other hother state ↦ (OnlyPod.cleanupGenerations other state).dir_eq
              fun heq ↦ hnodup.1 (List.mem_map.mpr ⟨other, hother, heq⟩)) next
          rw [hentry] at hpruned
          exact hsame ▸ hpruned
        · have hne : entry.1 ≠ pod := fun heq ↦ hnodup.1 (List.mem_map.mpr ⟨_, hrest, heq.symm⟩)
          have hsame := (@OnlyPod.cleanupGenerations faults entry disk).dir_eq hne
          rw [hentry] at hsame
          exact hsame ▸ ih hnodup.2 hrest hnone

/-! ## The changes of a candidate -/

theorem lookup_identityFiles {material : Material} {file : String} {body : List UInt8} :
    (ofPairs (identityFiles material)).lookup file = some body ↔
      (file, body) ∈ identityFiles material := by
  have hnodup : ((identityFiles material).map Prod.fst).Nodup := by
    simp only [identityFiles, List.map_cons, List.map_nil]
    decide
  exact lookup_ofPairs hnodup file body

variable {candidate : Candidate}

theorem mem_changes :
    change ∈ candidate.changes iteration ↔ candidate.publish = true ∧
      ((∃ file body, (file, body) ∈ identityFiles candidate.identity ∧
          change = .identityFile candidate.name candidate.identityGeneration file body) ∨
        change = .identityLink candidate.name candidate.identityGeneration ∨
        (∃ provider values key body, candidate.secrets.lookup provider = some values ∧
          values.lookup key = some body ∧ change = .secretFile candidate.name provider key body) ∨
        change = .podFile candidate.name candidate.manifest) := by
  unfold Candidate.changes
  cases candidate.publish with
  | false => simp
  | true =>
    have hfiles := @lookup_identityFiles candidate.identity
    unfold identityFiles at hfiles ⊢
    simp only [Bool.not_true, Bool.false_eq_true, if_false, true_and, List.mem_append, List.mem_map,
      List.mem_flatMap, List.mem_singleton, Prod.exists, Iteration.mem_range, hfiles]
    constructor
    · rintro (((⟨file, body, hfile, rfl⟩ | hlink) | ⟨provider, values, hvalues, key, body, hbody, rfl⟩) | hpod)
      · exact .inl ⟨file, body, hfile, rfl⟩
      · exact .inr (.inl hlink)
      · exact .inr (.inr (.inl ⟨provider, values, key, body, hvalues, hbody, rfl⟩))
      · exact .inr (.inr (.inr hpod))
    · rintro (⟨file, body, hfile, rfl⟩ | hlink | ⟨provider, values, key, body, hvalues, hbody, rfl⟩ | hpod)
      · exact .inl (.inl (.inl ⟨file, body, hfile, rfl⟩))
      · exact .inl (.inl (.inr hlink))
      · exact .inl (.inr ⟨provider, values, hvalues, key, body, hbody, rfl⟩)
      · exact .inr hpod

theorem pod_of_mem_changes (hchange : change ∈ candidate.changes iteration) :
    change.pod = candidate.name := by
  rcases (mem_changes.mp hchange).2 with ⟨_, _, _, rfl⟩ | rfl | ⟨_, _, _, _, _, _, rfl⟩ | rfl
  · rfl
  · rfl
  · rfl
  · rfl

/-- Candidates of other names have changes for other Pods. -/
theorem mem_changes_of_pod {candidates : List Candidate} (hnodup : (candidates.map Candidate.name).Nodup)
    (hmem : candidate ∈ candidates) (hchange : change ∈ candidates.flatMap (·.changes iteration))
    (hpod : change.pod = candidate.name) :
    change ∈ candidate.changes iteration := by
  obtain ⟨owner, howner, hchange⟩ := List.mem_flatMap.mp hchange
  have hname : owner.name = candidate.name := (pod_of_mem_changes hchange).symm.trans hpod
  rwa [List.inj_on_of_nodup_map hnodup howner hmem hname] at hchange

theorem changes_consistent {candidates : List Candidate} {candidate : Candidate} {iteration : Iteration}
    (hnodup : (candidates.map Candidate.name).Nodup) (hmem : candidate ∈ candidates) :
    Consistent candidate.name candidate.identityGeneration
      (candidates.flatMap (·.changes iteration)) where
  generation generation file body hchange := by
    have hown := mem_changes.mp (mem_changes_of_pod hnodup hmem hchange rfl)
    simp only [Change.identityFile.injEq, reduceCtorEq, and_false, exists_false, or_false] at hown
    obtain ⟨_, _, _, _, _, hgeneration, _⟩ := hown
    exact hgeneration
  link generation hchange := by
    have hown := mem_changes.mp (mem_changes_of_pod hnodup hmem hchange rfl)
    simp only [Change.identityLink.injEq, reduceCtorEq, and_false, exists_false, or_false, false_or,
      true_and] at hown
    exact hown.2
  files file first second hfirst hsecond := by
    have hfile : ∀ body, .identityFile candidate.name candidate.identityGeneration file body ∈
        candidates.flatMap (·.changes iteration) → (file, body) ∈ identityFiles candidate.identity := by
      intro body hchange
      have hown := mem_changes.mp (mem_changes_of_pod hnodup hmem hchange rfl)
      simp only [Change.identityFile.injEq, reduceCtorEq, and_false, exists_false, or_false,
        true_and] at hown
      obtain ⟨_, _, _, hfile, rfl, rfl⟩ := hown
      exact hfile
    have hlookup := lookup_identityFiles.mpr (hfile first hfirst)
    rw [lookup_identityFiles.mpr (hfile second hsecond)] at hlookup
    exact (Option.some.inj hlookup).symm

/-! ## The directory of a candidate after a publication -/

/-- The directory once the changes are published: untouched for a skipped candidate, with the generation
and the link to it for a published one. -/
structure Writes (candidate : Candidate) (before written : PodDir) : Prop where
  skipped : candidate.publish = false → written = before
  link : candidate.publish = true → written.link = some candidate.identityGeneration
  files : candidate.publish = true →
    ∃ kept, written.generations.lookup candidate.identityGeneration = some kept ∧
      ∀ entry ∈ identityFiles candidate.identity, kept.files.lookup entry.1 = some entry.2
  others : ∀ generation ≠ candidate.identityGeneration,
    written.generations.lookup generation = before.generations.lookup generation

/-- The directory after cleaning up: without the obsolete generations, with the declared secrets. -/
structure Cleaned (desired : Desired) (candidate : Candidate) (written after : PodDir) : Prop where
  link : after.link = written.link
  generations : ∀ name, after.generations.lookup name =
    if name ∈ written.obsolete candidate.identityGeneration then none
    else written.generations.lookup name
  secrets : ∀ provider, ∀ key ∈ desired.secrets candidate.name provider,
    after.secretFile provider key = written.secretFile provider key

section Candidates

variable {call : Call} {candidates : List Candidate} {candidate : Candidate} {before staged disk : Disk}

section Nodup

variable (hnodup : (candidates.map Candidate.name).Nodup) (hmem : candidate ∈ candidates)

include hnodup hmem

theorem changes_writes
    (hstage : runAll (stage call.faults)
      (candidates.flatMap (·.changes call.iteration)) before = (staged, none))
    (hcommit : (runAll (commit call.faults) (candidates.flatMap (·.changes call.iteration)) staged).2 = none) :
    Writes candidate (before.dir candidate.name)
      ((runAll (commit call.faults) (candidates.flatMap (·.changes call.iteration)) staged).1.dir
        candidate.name) := by
  have hconsistent := @changes_consistent candidates candidate call.iteration hnodup hmem
  have hinstalled := runAll_commit_installed hconsistent hcommit
  have hstaged : (runAll (stage call.faults) (candidates.flatMap (·.changes call.iteration)) before).1 =
      staged := congrArg Prod.fst hstage
  have hothers : ∀ generation ≠ candidate.identityGeneration,
      (staged.dir candidate.name).generations.lookup generation =
        (before.dir candidate.name).generations.lookup generation := by
    intro generation hne
    rw [← hstaged]
    refine runAll_same (fun disk : Disk ↦ (disk.dir candidate.name).generations.lookup generation)
      (fun change hchange disk ↦ ?_) before
    exact stage_identity (fun other file body heq ↦
      hconsistent.generation other file body (heq ▸ hchange)) hne disk
  refine ⟨fun hskipped ↦ ?_, fun hpublish ↦ ?_, fun hpublish ↦ ?_, fun generation hne ↦ ?_⟩
  · -- a skipped candidate has no changes
    have hpod : ∀ change ∈ candidates.flatMap (·.changes call.iteration), change.pod ≠ candidate.name := by
      intro change hchange hpod
      have hown := mem_changes.mp (mem_changes_of_pod hnodup hmem hchange hpod)
      exact absurd (hskipped.symm.trans hown.1) Bool.false_ne_true
    calc
      _ = staged.dir candidate.name := runAll_same (dir · candidate.name)
        (fun change hchange disk ↦ commit_dir_of_ne (hpod change hchange) disk) staged
      _ = before.dir candidate.name := hstaged ▸ runAll_same (dir · candidate.name)
        (fun change hchange disk ↦ stage_dir_of_ne (hpod change hchange) disk) before
  · exact hinstalled.link (List.mem_flatMap.mpr
      ⟨candidate, hmem, mem_changes.mpr ⟨hpublish, .inr (.inl rfl)⟩⟩)
  · have hfile : ∀ entry ∈ identityFiles candidate.identity,
        .identityFile candidate.name candidate.identityGeneration entry.1 entry.2 ∈
          candidates.flatMap (·.changes call.iteration) := fun entry hentry ↦ List.mem_flatMap.mpr
      ⟨candidate, hmem, mem_changes.mpr ⟨hpublish, .inl ⟨entry.1, entry.2, hentry, rfl⟩⟩⟩
    obtain ⟨kept, hkept, _⟩ := hinstalled.files _ _
      (hfile (certificateFilename, candidate.identity.certificate) List.mem_cons_self)
    refine ⟨kept, hkept, fun entry hentry ↦ ?_⟩
    obtain ⟨found, hfound, hbody⟩ := hinstalled.files _ _ (hfile entry hentry)
    cases hkept.symm.trans hfound
    exact hbody
  · exact (hinstalled.others generation hne).trans (hothers generation hne)

theorem mem_generations (iteration : Iteration) :
    (candidate.name, candidate.identityGeneration) ∈ iteration.range "identities"
      (ofPairs (candidates.map fun candidate ↦ (candidate.name, candidate.identityGeneration))) := by
  have hkeys : ((candidates.map fun candidate ↦
      (candidate.name, candidate.identityGeneration)).map Prod.fst).Nodup := by
    rw [List.map_map]
    exact hnodup
  exact Iteration.mem_range.mpr ((lookup_ofPairs hkeys _ _).mpr
    (List.mem_map.mpr ⟨candidate, hmem, rfl⟩))

/-- What cleaning up after a publication leaves of the directory of a candidate. -/
theorem publishChanges_cleaned (hpublish : publishChanges call candidates changes staged = (disk, none)) :
    (runAll (commit call.faults) changes staged).2 = none ∧
      Cleaned (desiredOf candidates) candidate
        ((runAll (commit call.faults) changes staged).1.dir candidate.name) (disk.dir candidate.name) := by
  have hnone := congrArg Prod.snd hpublish
  have hdisk := congrArg Prod.fst hpublish
  unfold publishChanges at hnone hdisk
  dsimp only at hnone hdisk
  obtain ⟨hcommit, hrest⟩ := andThen_eq_none.mp hnone
  rw [andThen_of_none hcommit] at hdisk
  obtain ⟨hcleanup, hgenerations⟩ := andThen_eq_none.mp hrest
  rw [andThen_of_none hcleanup] at hdisk
  refine ⟨hcommit, ?_⟩
  generalize (runAll (commit call.faults) changes staged).1 = written at hgenerations hdisk ⊢
  have hkeep : candidate.name ∈ (desiredOf candidates).keep := List.mem_map.mpr ⟨candidate, hmem, rfl⟩
  have hspares := @cleanup_spares call.faults (desiredOf candidates) candidate.name hkeep written
  have hpruned := runAll_cleanupGenerations (Iteration.nodup_range _ _ _)
    (mem_generations hnodup hmem call.iteration) hgenerations
  rw [hdisk] at hpruned
  have hobsolete : ∀ current, ((cleanup call.faults (desiredOf candidates) written).1.dir
      candidate.name).obsolete current = (written.dir candidate.name).obsolete current := by
    intro current
    unfold obsolete previous
    rw [hspares.generations]
  refine ⟨hpruned.link.trans hspares.link, fun name ↦ ?_, fun provider key hkey ↦ ?_⟩
  · rw [hpruned.generations, hobsolete, hspares.generations]
  · unfold secretFile
    rw [hpruned.providers]
    exact hspares.secrets provider key hkey

/-- The directory of a candidate after staging and publishing without a failure. -/
theorem publishChanges_dir
    (hstage : runAll (stage call.faults)
      (candidates.flatMap (·.changes call.iteration)) before = (staged, none))
    (hpublish : publishChanges call candidates
      (candidates.flatMap (·.changes call.iteration)) staged = (disk, none)) :
    ∃ written, Writes candidate (before.dir candidate.name) written ∧
      Cleaned (desiredOf candidates) candidate written (disk.dir candidate.name) := by
  obtain ⟨hcommit, hcleaned⟩ := publishChanges_cleaned hnodup hmem hpublish
  exact ⟨_, changes_writes hnodup hmem hstage hcommit, hcleaned⟩

end Nodup

end Candidates

end Podmin.Agent.StaticPod
