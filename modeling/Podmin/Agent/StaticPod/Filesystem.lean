import Podmin.Agent.StaticPod.Manifest
import Podmin.Foundation.Fallible

/-!
# The reconciler's directories

`internal/agent/staticpod/filesystem.go`: changes are staged as temporary files, published one after
the other by renaming, and stale files are removed afterwards. Every operation may fail, and a
failed operation leaves what was done before it in place. Temporary files are not modelled, except
for the directories they need and the modification times they change.
-/

namespace Podmin.Agent.StaticPod

open Foundation Fallible

/-! ## Contents -/

/-- One directory below `identity-generations`. -/
structure Generation where
  modTime : Int
  files : GoMap String (List UInt8) := ∅

/-- The secret directory of one Pod: the target of its identity link, its identity generations and
its provider directories. -/
structure PodDir where
  link : Option String := none
  generations : GoMap String Generation := ∅
  providers : GoMap String (GoMap String (List UInt8)) := ∅

/-- The static Pod directory and the secret directory. -/
structure Disk where
  static : GoMap String (List UInt8)
  secret : GoMap String PodDir

def Disk.updatePod (disk : Disk) (pod : String) (change : PodDir → PodDir) : Disk :=
  { disk with secret := disk.secret.insert pod (change ((disk.secret.lookup pod).getD {})) }

/-- Change the files of a generation at a time, creating it if it is missing. -/
def PodDir.updateGeneration (dir : PodDir) (generation : String) (time : Int)
    (change : GoMap String (List UInt8) → GoMap String (List UInt8)) : PodDir :=
  let files := ((dir.generations.lookup generation).map Generation.files).getD ∅
  { dir with generations := dir.generations.insert generation ⟨time, change files⟩ }

def PodDir.updateProvider (dir : PodDir) (provider : String)
    (change : GoMap String (List UInt8) → GoMap String (List UInt8)) : PodDir :=
  { dir with
    providers := dir.providers.insert provider (change ((dir.providers.lookup provider).getD ∅)) }

/-! ## Staging and publishing -/

/-- One prepared publication. -/
inductive Change where
  | identityFile (pod generation file : String) (body : List UInt8)
  | identityLink (pod generation : String)
  | secretFile (pod provider key : String) (body : List UInt8)
  | podFile (name : String) (body : List UInt8)
  deriving DecidableEq

def podFileName (name : String) : String :=
  name ++ ".yaml"

/-- Staging makes the directory of a change and a temporary file in it. -/
def Disk.prepare (disk : Disk) (time : Int) : Change → Disk
  | .identityFile pod generation _ _ => disk.updatePod pod (·.updateGeneration generation time id)
  | .identityLink pod _ => disk.updatePod pod id
  | .secretFile pod provider _ _ => disk.updatePod pod (·.updateProvider provider id)
  | .podFile _ _ => disk

/-- Publishing renames the temporary file to its live path. -/
def Disk.rename (disk : Disk) (time : Int) : Change → Disk
  | .identityFile pod generation file body =>
    disk.updatePod pod (·.updateGeneration generation time (·.insert file body))
  | .identityLink pod generation => disk.updatePod pod ({ · with link := some generation })
  | .secretFile pod provider key body =>
    disk.updatePod pod (·.updateProvider provider (·.insert key body))
  | .podFile name body => { disk with static := disk.static.insert (podFileName name) body }

/-- Discarding removes the temporary file, which changes the time of a generation. -/
def Disk.discard (disk : Disk) (time : Int) : Change → Disk
  | .identityFile pod generation _ _ =>
    match (disk.secret.lookup pod).bind (·.generations.lookup generation) with
    | some _ => disk.updatePod pod (·.updateGeneration generation time id)
    | none => disk
  | _ => disk

/-- Staging fails before or after it made the directory. -/
inductive StageOutcome where
  | staged
  | failed (created : Bool)

/-- Publishing fails before the rename, or at the directory sync after it. -/
inductive CommitOutcome where
  | committed
  | notRenamed
  | notSynced

/-- Removing fails at some time and leaves some of the paths below. -/
inductive RemoveOutcome where
  | removed
  | failed (survives : List String → Bool) (time : Int)

/-- When and how each file operation of one call ends. -/
structure Faults where
  stage : Change → StageOutcome := fun _ ↦ .staged
  commit : Change → CommitOutcome := fun _ ↦ .committed
  remove : List String → RemoveOutcome := fun _ ↦ .removed
  readDir : List String → Bool := fun _ ↦ true
  info : List String → Bool := fun _ ↦ true
  sync : List String → Bool := fun _ ↦ true
  stagedAt : Change → Int := fun _ ↦ 0
  renamedAt : Change → Int := fun _ ↦ 0
  discardedAt : Change → Int := fun _ ↦ 0

variable (faults : Faults)

def stage (change : Change) (disk : Disk) : Disk × Option String :=
  match faults.stage change with
  | .staged => (disk.prepare (faults.stagedAt change) change, none)
  | .failed true => (disk.prepare (faults.stagedAt change) change, some "staging failed")
  | .failed false => (disk, some "staging failed")

def commit (change : Change) (disk : Disk) : Disk × Option String :=
  match faults.commit change with
  | .committed => (disk.rename (faults.renamedAt change) change, none)
  | .notRenamed => (disk, some "rename failed")
  | .notSynced => (disk.rename (faults.renamedAt change) change, some "directory sync failed")

/-- Discard what is staged and not published. -/
def discardAll (changes : List Change) (disk : Disk) : Disk :=
  changes.foldl (fun disk change ↦ disk.discard (faults.discardedAt change) change) disk

/-! ## Cleaning up -/

/-- What the candidates of a call keep: Pod names, and the secret keys of each Pod and provider. -/
structure Desired where
  keep : List String
  secrets : String → String → List String

def sortedNames {Value : Type} (entries : GoMap String Value) : List String :=
  sortSlice keyLess (entries.pairs.map Prod.fst)

/-- Whether an entry of the static Pod directory is a stale Pod file. -/
def stale (keep : List String) (entry : String) : Bool :=
  Text.hasSuffix entry ".yaml" && !decide (Text.trimSuffix entry ".yaml" ∈ keep)

def removeStatic (keep : List String) (entry : String) (disk : Disk) : Disk × Option String :=
  if stale keep entry then
    match faults.remove ["static", entry] with
    | .removed => ({ disk with static := disk.static.erase entry }, none)
    | .failed _ _ => (disk, some "remove failed")
  else (disk, none)

/-- What a failed removal leaves of a generation. -/
def Generation.survivors (generation : Generation) (survives : String → Bool) (time : Int) :
    Generation :=
  let files := generation.files.filter fun file _ ↦ survives file
  ⟨if files.pairs.length = generation.files.pairs.length then generation.modTime else time, files⟩

/-- What a failed removal leaves of a Pod's secret directory. -/
def PodDir.survivors (dir : PodDir) (survives : List String → Bool) (time : Int) : PodDir where
  link := dir.link.filter fun _ ↦ survives ["identity"]
  generations := (dir.generations.filter fun generation _ ↦
    survives ["identity-generations", generation]).mapValues fun generation kept ↦
      kept.survivors (fun file ↦ survives ["identity-generations", generation, file]) time
  providers := (dir.providers.filter fun provider _ ↦ survives [provider]).mapValues
    fun provider kept ↦ kept.filter fun key _ ↦ survives [provider, key]

def removePodDir (pod : String) (disk : Disk) : Disk × Option String :=
  match faults.remove ["secret", pod] with
  | .removed => ({ disk with secret := disk.secret.erase pod }, none)
  | .failed survives time => (disk.updatePod pod (·.survivors survives time), some "remove failed")

def removeSecretFile (desired : List String) (pod provider key : String)
    (disk : Disk) : Disk × Option String :=
  if key ∈ desired then (disk, none)
  else
    match faults.remove ["secret", pod, provider, key] with
    | .removed => (disk.updatePod pod (·.updateProvider provider (·.erase key)), none)
    | .failed _ _ => (disk, some "remove failed")

def removeProvider (pod provider : String) (disk : Disk) : Disk × Option String :=
  match faults.remove ["secret", pod, provider] with
  | .removed =>
    (disk.updatePod pod fun dir ↦ { dir with providers := dir.providers.erase provider }, none)
  | .failed survives _ =>
    (disk.updatePod pod (·.updateProvider provider (·.filter fun key _ ↦ survives [key])),
      some "remove failed")

/-- Remove the undesired files of one provider directory, and an empty one as a whole. -/
def cleanupProvider (desired : Desired) (pod provider : String) (disk : Disk) :
    Disk × Option String :=
  let dir := (disk.secret.lookup pod).bind (·.providers.lookup provider)
  if !faults.readDir ["secret", pod, provider] then (disk, some "read directory failed")
  else
    andThen
      (runAll (removeSecretFile faults (desired.secrets pod provider) pod provider)
        (sortedNames (dir.getD ∅)) disk)
      fun disk ↦
        if (desired.secrets pod provider).isEmpty ∧ dir.isSome then removeProvider faults pod provider disk
        else (disk, none)

def cleanupPodDir (desired : Desired) (pod : String) (disk : Disk) : Disk × Option String :=
  if pod ∈ desired.keep then
    runAll (cleanupProvider faults desired pod)
      [Provider.awsParameterStore.name, Provider.awsSecretsManager.name] disk
  else removePodDir faults pod disk

def readDirectory (path : List String) (disk : Disk) : Disk × Option String :=
  if faults.readDir path then (disk, none) else (disk, some "read directory failed")

def syncDirectory (path : List String) (disk : Disk) : Disk × Option String :=
  if faults.sync path then (disk, none) else (disk, some "directory sync failed")

def cleanupStatic (desired : Desired) (disk : Disk) : Disk × Option String :=
  andThen (readDirectory faults ["static"] disk) fun disk ↦
    runAll (removeStatic faults desired.keep) (sortedNames disk.static) disk

def cleanupSecret (desired : Desired) (disk : Disk) : Disk × Option String :=
  andThen (readDirectory faults ["secret"] disk) fun disk ↦
    runAll (cleanupPodDir faults desired) (sortedNames disk.secret) disk

/-- Remove stale Pod files and provider trees. -/
def cleanup (desired : Desired) (disk : Disk) : Disk × Option String :=
  andThen (cleanupStatic faults desired disk) fun disk ↦
    andThen (cleanupSecret faults desired disk) fun disk ↦
      andThen (syncDirectory faults ["static"] disk) (syncDirectory faults ["secret"])

/-- The latest generation other than the current one; the first of equally late ones. -/
def previousGeneration (current : String) (generations : GoMap String Generation)
    (names : List String) : Option (String × Int) :=
  names.foldl (fun previous name ↦
    if name = current then previous
    else
      let time := ((generations.lookup name).map Generation.modTime).getD 0
      match previous with
      | none => some (name, time)
      | some latest => if latest.2 < time then some (name, time) else some latest) none

def removeGeneration (pod generation : String) (disk : Disk) : Disk × Option String :=
  match faults.remove ["secret", pod, "identity-generations", generation] with
  | .removed =>
    (disk.updatePod pod fun dir ↦ { dir with generations := dir.generations.erase generation }, none)
  | .failed survives time =>
    (disk.updatePod pod fun dir ↦ { dir with
      generations := dir.generations.mapValues fun name kept ↦
        if name = generation then kept.survivors (fun file ↦ survives [file]) time else kept },
      some "remove failed")

/-- Keep the desired generation of a Pod and one previous one. -/
def cleanupGenerations (entry : String × String) (disk : Disk) : Disk × Option String :=
  let (pod, current) := entry
  let generations := ((disk.secret.lookup pod).map PodDir.generations).getD ∅
  let names := sortedNames generations
  let previous := (previousGeneration current generations names).map Prod.fst
  if !faults.readDir ["secret", pod, "identity-generations"] then (disk, some "read directory failed")
  else if names.any fun name ↦
      name != current && !faults.info ["secret", pod, "identity-generations", name] then
    (disk, some "read file information failed")
  else
    runAll (removeGeneration faults pod)
      (names.filter fun name ↦ name ≠ current ∧ some name ≠ previous) disk

end Podmin.Agent.StaticPod
