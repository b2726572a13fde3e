import Mathlib.Data.List.Infix
import Podmin.Agent.Workload.Material
import Podmin.Foundation.Fallible
import Podmin.Foundation.GoMap
import Podmin.Foundation.Sha512
import Podmin.Foundation.Transition

/-!
# Telemetry identities on disk

The files of `internal/agent/telemetry.go`: generations of a client identity, a link that selects one of them,
and the bundle that the collector trusts. Every call of the file system may fail; a call that fails changes
nothing, except that a file or a directory may be left in parts. The journal keeps every disk in between.
-/

namespace Podmin.Agent.Telemetry

open Foundation Fallible Transition Agent.Workload

variable {generation : String}

def maximumIdentityFileSize : Nat := 64 * 1024

/-- What the packages for certificates say. -/
structure Pki where
  /-- `tls.X509KeyPair` and the validity of the leaf. -/
  keyPair : List UInt8 → List UInt8 → Except String (Int × Int)
  /-- `pem.Decode`: the type and the bytes of the first block, and the rest. -/
  decode : (data : List UInt8) →
    Option (String × List UInt8 × { rest : List UInt8 // rest.length < data.length })
  /-- `x509.ParseCertificate`: whether the basic constraints are valid, and those of a CA. -/
  parseCertificate : List UInt8 → Except String (Bool × Bool)

/-! ## The disk -/

/-- An entry of the directory of generations. -/
inductive Entry where
  | directory (files : GoMap String (List UInt8))
  | other

def Entry.isDir : Entry → Bool
  | .directory _ => true
  | .other => false

structure Disk where
  generations : GoMap String Entry := ∅
  /-- The target of the link `identity`. -/
  selected : Option String := none
  /-- The target of the link `identity.next`. -/
  next : Option String := none
  serverCA : Option (List UInt8) := none

abbrev Volume := Journal Disk

/-- The calls of one pass that fail, with their messages. -/
structure Faults where
  ensurePrivateDirectory : String → Option String
  validatePrivateDirectory : String → Option String
  mkdir : Option String
  /-- A failed write leaves a part of the file, or nothing. -/
  writeFile : String → Option (String × Option (List UInt8))
  readFile : String → Option String
  lstat : Option String
  readlink : Option String
  /-- Reading the link before it is replaced. -/
  readPrevious : Bool
  remove : Option String
  symlink : Option String
  rename : Option String
  readDir : Option String
  /-- A failed removal leaves a part of the directory. -/
  removeAll : String → Option (String × Entry)
  mkdirAll : Option String
  readServerCA : Bool
  writeServerCA : Option String
  renameServerCA : Option String
  stat : Bool

/-- The target of a link to a generation. -/
def target (generation : String) : String :=
  "identity-generations/" ++ generation

def generationPath (root generation : String) : String :=
  root ++ "/identity-generations/" ++ generation

/-- The name of the generation of a certificate. -/
def generationOf (certificate : List UInt8) : String :=
  Sha512.hexEncode (Sha512.sum512 certificate)

section Operations

variable (pki : Pki) (faults : Faults)

/-! ## Validation -/

def readPrivateRegularFile (files : GoMap String (List UInt8)) (directory name : String) :
    Except String (List UInt8) :=
  match faults.readFile (directory ++ "/" ++ name), files.lookup name with
  | some message, _ => .error message
  | none, none => .error "no such file or directory"
  | none, some value =>
    if value.length = 0 ∨ maximumIdentityFileSize < value.length then
      .error ("unsafe identity file \"" ++ directory ++ "/" ++ name ++ "\"")
    else .ok value

def validateGeneration (root generation : String) (now : Int) (disk : Disk) : Except String Unit :=
  let directory := generationPath root generation
  match faults.validatePrivateDirectory directory, disk.generations.lookup generation with
  | some message, _ => .error message
  | none, none => .error "no such file or directory"
  | none, some .other => .error ("unsafe private directory \"" ++ directory ++ "\"")
  | none, some (.directory files) => do
    let certificate ← readPrivateRegularFile faults files directory certificateFilename
    let key ← readPrivateRegularFile faults files directory privateKeyFilename
    let (notBefore, notAfter) ← pki.keyPair certificate key
    if now < notBefore ∨ ¬now < notAfter then .error "identity certificate is not currently valid"
    else if generationOf certificate ≠ generation then
      .error "identity certificate does not match expected generation"
    else .ok ()

/-- The selected generation is the one that this process installed. -/
def validateClientIdentity (root parent generation : String) (now : Int) (disk : Disk) : Except String Unit :=
  if generation.utf8ByteSize ≠ 128 then .error "no expected identity generation"
  else
    match faults.validatePrivateDirectory parent, faults.validatePrivateDirectory root,
      faults.validatePrivateDirectory (root ++ "/identity-generations"), faults.lstat, faults.readlink with
    | some message, _, _, _, _ => .error message
    | none, some message, _, _, _ => .error message
    | none, none, some message, _, _ => .error message
    | none, none, none, some message, _ => .error message
    | none, none, none, none, some message => .error message
    | none, none, none, none, none =>
      match disk.selected with
      | none => .error "no such file or directory"
      | some selected =>
        if selected ≠ target generation ∨ ['.', '.'] <:+: selected.toList then
          .error "identity selector does not select the expected generation"
        else validateGeneration pki faults root generation now disk

/-! ## Installing an identity -/

/-- Create the directory of a generation; it must be new. -/
def mkdir (generation : String) (volume : Volume) : Volume × Option String :=
  match faults.mkdir, volume.current.generations.lookup generation with
  | some message, _ => (volume, some message)
  | none, some _ => (volume, some "file exists")
  | none, none =>
    (volume.write fun disk ↦
      { disk with generations := disk.generations.insert generation (.directory ∅) }, none)

/-- Put a file into a generation. -/
def Disk.putFile (disk : Disk) (generation name : String) (value : List UInt8) : Disk :=
  match disk.generations.lookup generation with
  | some (.directory files) =>
    { disk with generations := disk.generations.insert generation (.directory (files.insert name value)) }
  | _ => disk

def writeExclusiveFile (generation : String) (file : String × List UInt8) (volume : Volume) :
    Volume × Option String :=
  match faults.writeFile file.1 with
  | some (message, some left) => (volume.write fun disk ↦ disk.putFile generation file.1 left, some message)
  | some (message, none) => (volume, some message)
  | none => (volume.write fun disk ↦ disk.putFile generation file.1 file.2, none)

def removeAll (name : String) (volume : Volume) : Volume × Option String :=
  match faults.removeAll name with
  | some (message, left) =>
    (volume.write fun disk ↦ { disk with generations := disk.generations.insert name left }, some message)
  | none => (volume.write fun disk ↦ { disk with generations := disk.generations.erase name }, none)

/-- The two files of an identity. -/
def identityFiles (material : Material) : GoMap String (List UInt8) :=
  .ofPairs [(certificateFilename, material.certificate), (privateKeyFilename, material.privateKey)]

/-- Write the files of a new generation, and validate it. -/
def fillGeneration (iteration : Iteration) (root : String) (now : Int)
    (material : Material) (volume : Volume) : Volume × Option String :=
  let generation := generationOf material.certificate
  andThen (runAll (writeExclusiveFile faults generation)
    (iteration.range "identity" (identityFiles material)) volume)
    fun volume ↦
      match validateGeneration pki faults root generation now volume.current with
      | .error message => (volume, some ("validate new identity generation: " ++ message))
      | .ok _ => (volume, none)

/-- Replace the link by one to a generation. -/
def selectGeneration (generation : String) (volume : Volume) : Volume × Option String :=
  match faults.remove with
  | some message => (volume, some message)
  | none =>
    let volume := volume.write fun disk ↦ { disk with next := none }
    match faults.symlink with
    | some message => (volume, some message)
    | none =>
      let volume := volume.write fun disk ↦ { disk with next := some (target generation) }
      match faults.rename with
      | some message => (volume, some message)
      | none => (volume.write fun disk ↦ { disk with selected := disk.next, next := none }, none)

/-- The target of the link; an error is not looked at. -/
def previousTarget (disk : Disk) : String :=
  if faults.readPrevious then "" else disk.selected.getD ""

/-- Remove every generation but the current and the previous one. -/
def removeGenerations (generation previous : String) (volume : Volume) : Volume × Option String :=
  match faults.readDir with
  | some message => (volume, some message)
  | none =>
    let entries := sortSlice (fun left right ↦ decide (left.1 < right.1)) volume.current.generations.pairs
    runAll (fun entry volume ↦
      if entry.2.isDir = true ∧ target entry.1 ≠ target generation ∧ target entry.1 ≠ previous then
        removeAll faults entry.1 volume
      else (volume, none)) entries volume

/-- Select one new complete generation. -/
def installClientIdentity (iteration : Iteration) (root parent : String) (now : Int)
    (material : Material) (volume : Volume) : Volume × Option String :=
  let generation := generationOf material.certificate
  match faults.ensurePrivateDirectory parent, faults.ensurePrivateDirectory root,
    faults.ensurePrivateDirectory (root ++ "/identity-generations") with
  | some message, _, _ => (volume, some message)
  | none, some message, _ => (volume, some message)
  | none, none, some message => (volume, some message)
  | none, none, none =>
    match mkdir faults generation volume with
    | (volume, some message) => (volume, some ("create identity generation: " ++ message))
    | (volume, none) =>
      -- a generation that is not complete is removed on return
      match fillGeneration pki faults iteration root now material volume with
      | (volume, some message) => ((removeAll faults generation volume).1, some message)
      | (volume, none) =>
        let previous := previousTarget faults volume.current
        match selectGeneration faults generation volume with
        | (volume, some message) => ((removeAll faults generation volume).1, some message)
        | (volume, none) => removeGenerations faults generation previous volume

end Operations

/-! ## What an installation keeps -/

/-- The link, once it exists, leads to the certificate and the key of one issued identity. -/
def Resolves (issued : Material → Prop) (disk : Disk) : Prop :=
  ∀ selected, disk.selected = some selected → ∃ material files, issued material ∧
    selected = target (generationOf material.certificate) ∧
    disk.generations.lookup (generationOf material.certificate) = some (.directory files) ∧
    files.lookup certificateFilename = some material.certificate ∧
    files.lookup privateKeyFilename = some material.privateKey

/-- At most the named generations have changed. -/
structure Confined (touched : String → Prop) (before after : Disk) : Prop where
  selected : after.selected = before.selected
  serverCA : after.serverCA = before.serverCA
  generations : ∀ name, ¬touched name → after.generations.lookup name = before.generations.lookup name

theorem target_injective {left right : String} (hsame : target left = target right) : left = right :=
  (String.append_right_inj _).mp hsame

section Confined

variable {issued : Material → Prop} {touched : String → Prop} {before middle after : Disk}

theorem Confined.refl (touched : String → Prop) (disk : Disk) : Confined touched disk disk :=
  ⟨rfl, rfl, fun _ _ ↦ rfl⟩

theorem Confined.trans (hfirst : Confined touched before middle) (hsecond : Confined touched middle after) :
    Confined touched before after where
  selected := hsecond.selected.trans hfirst.selected
  serverCA := hsecond.serverCA.trans hfirst.serverCA
  generations name hname := (hsecond.generations name hname).trans (hfirst.generations name hname)

/-- The link still resolves where the selected generation has not changed. -/
theorem Resolves.confined (hresolves : Resolves issued before) (hconfined : Confined touched before after)
    (huntouched : ∀ name, before.selected = some (target name) → ¬touched name) : Resolves issued after := by
  intro selected hselected
  rw [hconfined.selected] at hselected
  obtain ⟨material, files, hissued, rfl, hlookup, hfiles⟩ := hresolves selected hselected
  refine ⟨material, files, hissued, rfl, ?_, hfiles⟩
  rw [hconfined.generations _ (huntouched _ hselected), hlookup]

/-- Since a disk on which the selected generation may not be touched, only others have been. -/
structure Spares (issued : Material → Prop) (touched : String → Prop) (start : Disk) (volume : Volume) :
    Prop where
  always : volume.Always (Resolves issued)
  confined : Confined touched start volume.current
  untouched : ∀ name, start.selected = some (target name) → ¬touched name

variable {start : Disk} {volume : Volume}

theorem Spares.write (hspares : Spares issued touched start volume) {change : Disk → Disk}
    (hchange : Confined touched volume.current (change volume.current)) :
    Spares issued touched start (volume.write change) where
  always := by
    refine hspares.always.write (hspares.always.current.confined hchange fun name hname ↦ ?_)
    rw [hspares.confined.selected] at hname
    exact hspares.untouched name hname
  confined := hspares.confined.trans hchange
  untouched := hspares.untouched

theorem confined_update (hgeneration : touched generation) {disk : Disk} {generations : GoMap String Entry}
    (hsame : ∀ name, name ≠ generation → generations.lookup name = disk.generations.lookup name) :
    Confined touched disk { disk with generations } where
  selected := rfl
  serverCA := rfl
  generations name hname := hsame name fun heq ↦ hname (heq ▸ hgeneration)

theorem confined_insert (hgeneration : touched generation) (disk : Disk) (entry : Entry) :
    Confined touched disk { disk with generations := disk.generations.insert generation entry } :=
  confined_update hgeneration fun name hne ↦ by rw [GoMap.lookup_insert_eq, if_neg hne]

theorem confined_erase (hgeneration : touched generation) (disk : Disk) :
    Confined touched disk { disk with generations := disk.generations.erase generation } :=
  confined_update hgeneration fun name hne ↦ by rw [GoMap.lookup_erase_eq, if_neg hne]

theorem confined_putFile (hgeneration : touched generation) (disk : Disk) (name : String) (value : List UInt8) :
    Confined touched disk (disk.putFile generation name value) := by
  unfold Disk.putFile
  split
  · exact confined_insert hgeneration disk _
  · exact .refl touched disk

variable (hspares : Spares issued touched start volume)

include hspares

theorem Spares.removeAll (faults : Faults) (hgeneration : touched generation) :
    Spares issued touched start (removeAll faults generation volume).1 := by
  unfold Telemetry.removeAll
  split
  · dsimp only
    refine hspares.write ?_
    exact confined_insert hgeneration _ _
  · dsimp only
    refine hspares.write ?_
    exact confined_erase hgeneration _

theorem Spares.writeExclusiveFile (faults : Faults)
    (hgeneration : touched generation) (file : String × List UInt8) :
    Spares issued touched start (writeExclusiveFile faults generation file volume).1 := by
  unfold Telemetry.writeExclusiveFile
  split
  · dsimp only
    refine hspares.write ?_
    exact confined_putFile hgeneration _ _ _
  · exact hspares
  · dsimp only
    refine hspares.write ?_
    exact confined_putFile hgeneration _ _ _

theorem Spares.fillGeneration (pki : Pki) (faults : Faults)
    (iteration : Iteration) (root : String) (now : Int) {material : Material}
    (hgeneration : touched (generationOf material.certificate)) :
    Spares issued touched start (fillGeneration pki faults iteration root now material volume).1 := by
  unfold Telemetry.fillGeneration
  refine andThen_invariant (runAll_invariant (fun file _ between hbetween ↦
    hbetween.writeExclusiveFile faults hgeneration file) hspares) fun between hbetween ↦ ?_
  split <;> exact hbetween

/-- A switch that fails leaves the link alone. -/
theorem Spares.selectGeneration {faults : Faults}
    {generation : String} (hfails : (selectGeneration faults generation volume).2 ≠ none) :
    Spares issued touched start (selectGeneration faults generation volume).1 := by
  have hnext : ∀ (between : Volume) (next : Option String), Spares issued touched start between →
      Spares issued touched start (between.write fun disk ↦ { disk with next := next }) :=
    fun between next hbetween ↦ hbetween.write ⟨rfl, rfl, fun _ _ ↦ rfl⟩
  unfold Telemetry.selectGeneration at hfails ⊢
  cases hremove : faults.remove with
  | some message => exact hspares
  | none =>
    cases hsymlink : faults.symlink with
    | some message => exact hnext _ _ hspares
    | none =>
      cases hrename : faults.rename with
      | some message => exact hnext _ _ (hnext _ _ hspares)
      | none =>
        rw [hremove, hsymlink, hrename] at hfails
        exact absurd rfl hfails

theorem Spares.removeGenerations (faults : Faults) {previous : String}
    (htouched : ∀ name, target name ≠ target generation → target name ≠ previous → touched name) :
    Spares issued touched start (removeGenerations faults generation previous volume).1 := by
  unfold Telemetry.removeGenerations
  split
  · exact hspares
  · refine runAll_invariant (fun entry _ between hbetween ↦ ?_) hspares
    split
    · next hremoved => exact hbetween.removeAll faults (htouched _ hremoved.2.1 hremoved.2.2)
    · exact hbetween

end Confined

theorem identityFiles_certificate (material : Material) :
    (identityFiles material).lookup certificateFilename = some material.certificate := by
  rw [identityFiles, GoMap.lookup_ofPairs (by simp [certificateFilename, privateKeyFilename])]
  exact List.mem_cons_self

theorem identityFiles_privateKey (material : Material) :
    (identityFiles material).lookup privateKeyFilename = some material.privateKey := by
  rw [identityFiles, GoMap.lookup_ofPairs (by simp [certificateFilename, privateKeyFilename])]
  exact List.mem_cons_of_mem _ List.mem_cons_self

theorem Disk.putFile_lookup {disk : Disk} {files : GoMap String (List UInt8)}
    (hlookup : disk.generations.lookup generation = some (.directory files)) (name : String)
    (value : List UInt8) :
    (disk.putFile generation name value).generations.lookup generation =
      some (.directory (files.insert name value)) := by
  unfold Disk.putFile
  rw [hlookup]
  exact (GoMap.lookup_insert_eq ..).trans (if_pos rfl)

section Installation

variable {pki : Pki} {faults : Faults} {iteration : Iteration} {root parent : String} {now : Int}
  {material : Material} {volume : Volume} {issued : Material → Prop}

/-- Writing all files of a generation puts them all in place. -/
theorem runAll_writeExclusiveFile {items : List (String × List UInt8)}
    (hvalues : ∀ file ∈ items, (identityFiles material).lookup file.1 = some file.2)
    (hdirectory : volume.current.generations.lookup generation = some (.directory ∅))
    (hsucceeds : (runAll (writeExclusiveFile faults generation) items volume).2 = none) :
    ∃ files,
      (runAll (writeExclusiveFile faults generation) items volume).1.current.generations.lookup generation =
      some (.directory files) ∧ ∀ file ∈ items, files.lookup file.1 = some file.2 := by
  -- the values of a file that is written again are the same ones
  let Done : List (String × List UInt8) → Volume → Prop := fun done between ↦
    (∀ file ∈ done, (identityFiles material).lookup file.1 = some file.2) →
      ∃ files, between.current.generations.lookup generation = some (.directory files) ∧
        ∀ file ∈ done, files.lookup file.1 = some file.2
  have hstep : ∀ done item between next, Done done between →
      writeExclusiveFile faults generation item between = (next, none) → Done (done ++ [item]) next := by
    intro done item between next hdone hwrite hall
    obtain ⟨files, hlookup, hfiles⟩ := hdone fun file hfile ↦ hall file (List.mem_append_left _ hfile)
    unfold writeExclusiveFile at hwrite
    split at hwrite <;> cases hwrite
    refine ⟨_, Disk.putFile_lookup hlookup item.1 item.2, fun file hfile ↦ ?_⟩
    rw [GoMap.lookup_insert_eq]
    split_ifs with hname
    · rw [← hall item (by simp), ← hall file hfile, hname]
    · rcases List.mem_append.mp hfile with hold | hlast
      · exact hfiles file hold
      · exact absurd (congrArg Prod.fst (List.mem_singleton.mp hlast)) hname
  have hfinal := @runAll_success _ _ _ (writeExclusiveFile faults generation) Done hstep items [] volume
    (fun _ ↦ ⟨∅, hdirectory, by simp⟩) hsucceeds
  exact hfinal hvalues

theorem fillGeneration_files
    (hdirectory : volume.current.generations.lookup (generationOf material.certificate) = some (.directory ∅))
    (hsucceeds : (fillGeneration pki faults iteration root now material volume).2 = none) :
    ∃ files, (fillGeneration pki faults iteration root now material volume).1.current.generations.lookup
        (generationOf material.certificate) = some (.directory files) ∧
      files.lookup certificateFilename = some material.certificate ∧
      files.lookup privateKeyFilename = some material.privateKey := by
  unfold fillGeneration at hsucceeds ⊢
  dsimp only at hsucceeds ⊢
  obtain ⟨hwritten, hvalid⟩ := andThen_eq_none.mp hsucceeds
  obtain ⟨files, hlookup, hfiles⟩ := runAll_writeExclusiveFile
    (fun file hfile ↦ Iteration.mem_range.mp hfile) hdirectory hwritten
  rw [andThen_of_none hwritten]
  refine ⟨files, ?_, hfiles _ (Iteration.mem_range.mpr (identityFiles_certificate material)),
    hfiles _ (Iteration.mem_range.mpr (identityFiles_privateKey material))⟩
  split <;> exact hlookup

/-- What a switch leaves: a complete generation is selected, and the one selected before is where it was if its
name could be read. -/
structure Switched (issued : Material → Prop) (faults : Faults) (generation : String) (before : Disk)
    (volume : Volume) : Prop where
  always : volume.Always (Resolves issued)
  selected : volume.current.selected = some (target generation)
  serverCA : volume.current.serverCA = before.serverCA
  previous : ∀ name, name ≠ generation → target name = previousTarget faults before →
    volume.current.generations.lookup name = before.generations.lookup name

/-- The generation that an installation may create. -/
def Fresh (before : Disk) (generation name : String) : Prop :=
  name = generation ∧ before.generations.lookup name = none

theorem spares_start (halways : volume.Always (Resolves issued)) (generation : String) :
    Spares issued (Fresh volume.current generation) volume.current volume where
  always := halways
  confined := .refl _ _
  untouched name hname hfresh := by
    obtain ⟨other, files, _, hsame, hlookup, _⟩ := halways.current _ hname
    have hnone := hfresh.2
    rw [target_injective hsame, hlookup] at hnone
    cases hnone

theorem mkdir_cases (faults : Faults) (generation : String) (volume : Volume) :
    (∃ message, mkdir faults generation volume = (volume, some message)) ∨
      (volume.current.generations.lookup generation = none ∧ mkdir faults generation volume =
        (volume.write fun disk ↦ { disk with generations := disk.generations.insert generation (.directory ∅) },
          none)) := by
  unfold mkdir
  cases faults.mkdir with
  | some message => exact .inl ⟨message, rfl⟩
  | none =>
    cases hlookup : volume.current.generations.lookup generation with
    | some entry => exact .inl ⟨_, rfl⟩
    | none => exact .inr ⟨rfl, rfl⟩

theorem selectGeneration_succeeds (hsucceeds : (selectGeneration faults generation volume).2 = none) :
    (selectGeneration faults generation volume).1 =
      ((volume.write fun disk ↦ { disk with next := none }).write fun disk ↦
        { disk with next := some (target generation) }).write fun disk ↦
          { disk with selected := disk.next, next := none } := by
  unfold selectGeneration at hsucceeds ⊢
  cases hremove : faults.remove with
  | some message => simp [hremove] at hsucceeds
  | none =>
    cases hsymlink : faults.symlink with
    | some message => simp [hremove, hsymlink] at hsucceeds
    | none =>
      cases hrename : faults.rename with
      | some message => simp [hremove, hsymlink, hrename] at hsucceeds
      | none => rfl

/-- Once its generation is complete, the link may lead to it. -/
theorem resolves_selected {disk : Disk} {files : GoMap String (List UInt8)} (hissued : issued material)
    (hselected : disk.selected = some (target (generationOf material.certificate)))
    (hlookup : disk.generations.lookup (generationOf material.certificate) = some (.directory files))
    (hcertificate : files.lookup certificateFilename = some material.certificate)
    (hprivateKey : files.lookup privateKeyFilename = some material.privateKey) : Resolves issued disk := by
  intro selected hsome
  rw [hselected] at hsome
  cases hsome
  exact ⟨material, files, hissued, rfl, hlookup, hcertificate, hprivateKey⟩

theorem previousTarget_eq {first second : Disk} (hsame : first.selected = second.selected) (faults : Faults) :
    previousTarget faults first = previousTarget faults second := by
  rw [previousTarget, previousTarget, hsame]

/-- The switch and the removal of the other generations. -/
theorem switched_of_filled {before : Disk} {files : GoMap String (List UInt8)} (hissued : issued material)
    (hspares : Spares issued (Fresh before (generationOf material.certificate)) before volume)
    (hlookup : volume.current.generations.lookup (generationOf material.certificate) = some (.directory files))
    (hcertificate : files.lookup certificateFilename = some material.certificate)
    (hprivateKey : files.lookup privateKeyFilename = some material.privateKey)
    (hselects : (selectGeneration faults (generationOf material.certificate) volume).2 = none) :
    Switched issued faults (generationOf material.certificate) before
      (removeGenerations faults (generationOf material.certificate) (previousTarget faults volume.current)
        (selectGeneration faults (generationOf material.certificate) volume).1).1 := by
  rw [selectGeneration_succeeds hselects]
  set generation := generationOf material.certificate
  set linked := (volume.write fun disk ↦ { disk with next := none }).write fun disk ↦
    { disk with next := some (target generation) } with hlinked
  set chosen := linked.write fun disk ↦ { disk with selected := disk.next, next := none } with hchosen
  have hlinks : Spares issued (Fresh before generation) before linked :=
    (hspares.write ⟨rfl, rfl, fun _ _ ↦ rfl⟩).write ⟨rfl, rfl, fun _ _ ↦ rfl⟩
  let touched : String → Prop := fun name ↦
    target name ≠ target generation ∧ target name ≠ previousTarget faults volume.current
  have hchoice : Spares issued touched chosen.current chosen := by
    refine ⟨hlinks.always.write ?_, .refl _ _, fun name hname htouched ↦ htouched.1 ?_⟩
    · exact resolves_selected hissued rfl hlookup hcertificate hprivateKey
    · exact (Option.some.inj hname).symm
  have hfinal := hchoice.removeGenerations faults fun name hcurrent hprevious ↦
    show touched name from ⟨hcurrent, hprevious⟩
  refine ⟨hfinal.always, hfinal.confined.selected, ?_, fun name hname hprevious ↦ ?_⟩
  · exact hfinal.confined.serverCA.trans hspares.confined.serverCA
  · have hkept : ¬touched name := by
      rw [← previousTarget_eq hspares.confined.selected] at hprevious
      exact fun htouched ↦ htouched.2 hprevious
    have hold : ¬Fresh before generation name := fun hfresh ↦ hname hfresh.1
    exact (hfinal.confined.generations name hkept).trans (hspares.confined.generations name hold)

/-- An installation fails and spares all generations there were, or switches. -/
theorem installClientIdentity_cases (halways : volume.Always (Resolves issued)) (hissued : issued material) :
    ((installClientIdentity pki faults iteration root parent now material volume).2 ≠ none ∧
        Spares issued (Fresh volume.current (generationOf material.certificate)) volume.current
          (installClientIdentity pki faults iteration root parent now material volume).1) ∨
      Switched issued faults (generationOf material.certificate) volume.current
        (installClientIdentity pki faults iteration root parent now material volume).1 := by
  have hstart := spares_start halways (generationOf material.certificate)
  unfold installClientIdentity
  dsimp only
  split
  · exact .inl ⟨Option.some_ne_none _, hstart⟩
  · exact .inl ⟨Option.some_ne_none _, hstart⟩
  · exact .inl ⟨Option.some_ne_none _, hstart⟩
  · rcases mkdir_cases faults (generationOf material.certificate) volume with ⟨message, hmkdir⟩ | ⟨hnew, hmkdir⟩
    · rw [hmkdir]
      exact .inl ⟨Option.some_ne_none _, hstart⟩
    · rw [hmkdir]
      dsimp only
      set made : Volume := volume.write fun disk ↦
        { disk with generations := disk.generations.insert (generationOf material.certificate) (.directory ∅) }
      have htouched : Fresh volume.current (generationOf material.certificate)
        (generationOf material.certificate) :=
        ⟨rfl, hnew⟩
      have hmade : Spares issued (Fresh volume.current (generationOf material.certificate))
        volume.current made :=
        hstart.write (confined_insert htouched _ _)
      have hdirectory : made.current.generations.lookup (generationOf material.certificate) =
          some (.directory ∅) := (GoMap.lookup_insert_eq ..).trans (if_pos rfl)
      have hfilled := hmade.fillGeneration pki faults iteration root now htouched
      have hfiles := @fillGeneration_files pki faults iteration root now material made hdirectory
      cases hfill : fillGeneration pki faults iteration root now material made with
      | mk filled failure =>
        rw [hfill] at hfilled hfiles
        cases failure with
        | some message => exact .inl ⟨Option.some_ne_none _, hfilled.removeAll faults htouched⟩
        | none =>
          obtain ⟨files, hlookup, hcertificate, hprivateKey⟩ := hfiles rfl
          have hfails := @hfilled.selectGeneration _ _ _ _ faults (generationOf material.certificate)
          have hswitches := @switched_of_filled faults material filled issued _ files hissued hfilled hlookup
            hcertificate hprivateKey
          dsimp only
          cases hselect : selectGeneration faults (generationOf material.certificate) filled with
          | mk selected failure =>
            rw [hselect] at hfails hswitches
            cases failure with
            | some message =>
              refine .inl ⟨Option.some_ne_none _, ?_⟩
              exact (hfails (Option.some_ne_none _)).removeAll faults htouched
            | none => exact .inr (hswitches rfl)

end Installation

/-! ## Installing the server CA -/

/-- The encodings of the white space that `bytes.TrimSpace` removes. -/
def spaces : List (List UInt8) :=
  [[9], [10], [11], [12], [13], [32], [0xc2, 0x85], [0xc2, 0xa0], [0xe1, 0x9a, 0x80], [0xe2, 0x80, 0x80],
    [0xe2, 0x80, 0x81], [0xe2, 0x80, 0x82], [0xe2, 0x80, 0x83], [0xe2, 0x80, 0x84], [0xe2, 0x80, 0x85],
    [0xe2, 0x80, 0x86], [0xe2, 0x80, 0x87], [0xe2, 0x80, 0x88], [0xe2, 0x80, 0x89], [0xe2, 0x80, 0x8a],
    [0xe2, 0x80, 0xa8], [0xe2, 0x80, 0xa9], [0xe2, 0x80, 0xaf], [0xe2, 0x81, 0x9f], [0xe3, 0x80, 0x80]]

/-- Remove leading members of a list of texts. -/
def dropLeading (texts : List (List UInt8)) : Nat → List UInt8 → List UInt8
  | 0, bytes => bytes
  | fuel + 1, bytes =>
    match texts.find? (·.isPrefixOf bytes) with
    | some text => dropLeading texts fuel (bytes.drop text.length)
    | none => bytes

def trimSpace (bytes : List UInt8) : List UInt8 :=
  let front := dropLeading spaces bytes.length bytes
  (dropLeading (spaces.map List.reverse) front.length front.reverse).reverse

theorem length_dropLeading (texts : List (List UInt8)) (fuel : Nat) (bytes : List UInt8) :
    (dropLeading texts fuel bytes).length ≤ bytes.length := by
  induction fuel generalizing bytes with
  | zero => exact le_rfl
  | succ fuel ih =>
    unfold dropLeading
    cases texts.find? (·.isPrefixOf bytes) with
    | none => exact le_rfl
    | some text => exact (ih _).trans (by simp)

theorem length_trimSpace (bytes : List UInt8) : (trimSpace bytes).length ≤ bytes.length := by
  unfold trimSpace
  rw [List.length_reverse]
  exact (length_dropLeading ..).trans (by rw [List.length_reverse]; exact length_dropLeading ..)

def certificateHeader : List UInt8 := "-----BEGIN CERTIFICATE-----".toUTF8.toList

/-- The loop over the blocks of a bundle, which counts its certificates. -/
def countCertificates (pki : Pki) (certificates : Nat) (remaining : List UInt8) : Except String Nat :=
  if remaining = [] then .ok certificates
  else if certificateHeader.isPrefixOf remaining = false then
    .error "server CA bundle contains non-certificate data"
  else
    match pki.decode remaining with
    | none => .error "server CA bundle is malformed"
    | some (kind, bytes, rest) =>
      if kind ≠ "CERTIFICATE" then .error "server CA bundle is malformed"
      else
        match pki.parseCertificate bytes with
        | .error message => .error ("parse server CA certificate: " ++ message)
        | .ok (basicConstraintsValid, isCA) =>
          if basicConstraintsValid = false ∨ isCA = false then
            .error "server CA bundle contains a non-CA certificate"
          else
            have : (trimSpace rest.1).length < remaining.length := (length_trimSpace rest.1).trans_lt rest.2
            countCertificates pki (certificates + 1) (trimSpace rest.1)
termination_by remaining.length

/-- Validate a bundle and put it in place; says whether the file has changed. -/
def installServerCA (pki : Pki) (faults : Faults) (bundle : List UInt8) (volume : Volume) :
    Volume × Except String Bool :=
  match countCertificates pki 0 (trimSpace bundle) with
  | .error message => (volume, .error message)
  | .ok certificates =>
    if certificates = 0 then (volume, .error "server CA bundle contains no certificates")
    else
      match faults.mkdirAll with
      | some message => (volume, .error message)
      | none =>
        if faults.readServerCA = false ∧ volume.current.serverCA = some bundle then (volume, .ok false)
        else
          match faults.writeServerCA, faults.renameServerCA with
          | some message, _ => (volume, .error message)
          | none, some message => (volume, .error message)
          | none, none => (volume.write fun disk ↦ { disk with serverCA := some bundle }, .ok true)

def syncServerCA (pki : Pki) (faults : Faults) (readServerCA : Except String (List UInt8)) (volume : Volume) :
    Volume × Except String Bool :=
  match readServerCA with
  | .error message => (volume, .error message)
  | .ok bundle => installServerCA pki faults bundle volume

/-- The bundle changes only where the change is reported. -/
theorem syncServerCA_cases (pki : Pki) (faults : Faults) (readServerCA : Except String (List UInt8))
    (volume : Volume) :
    (syncServerCA pki faults readServerCA volume).1 = volume ∨
      ∃ bundle, syncServerCA pki faults readServerCA volume =
        (volume.write fun disk ↦ { disk with serverCA := some bundle }, .ok true) := by
  unfold syncServerCA
  cases readServerCA with
  | error message => exact .inl rfl
  | ok bundle =>
    dsimp only [installServerCA]
    split
    · exact .inl rfl
    · split
      · exact .inl rfl
      · split
        · exact .inl rfl
        · split
          · exact .inl rfl
          · split
            · exact .inl rfl
            · exact .inl rfl
            · exact .inr ⟨bundle, rfl⟩

end Podmin.Agent.Telemetry
