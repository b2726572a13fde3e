import Podmin.Agent.StaticPod.Filesystem
import Podmin.Agent.Workload.Material
import Podmin.Foundation.CasRegister
import Podmin.Foundation.Transition

/-!
# Reconciling static Pods

`Reconcile` of `internal/agent/staticpod`. One call reads the index, builds every selected
deployment, stages the changed ones, checks that nothing moved meanwhile, publishes, cleans up, and
only then remembers what it published. Everything the call gets from outside, and how each of its
operations ends, is part of its input.
-/

namespace Podmin.Agent.StaticPod

open Foundation CasRegister Fallible
open Foundation.Transition Manifest Agent.Workload

/-! ## State and input of a call -/

/-- The index object; nothing when it is not one JSON value. -/
abbrev Body := Option Json

/-- What the reconciler remembers; an absent index has no tag. -/
structure Memory (Tag : Type) where
  indexETag : Option Tag := none
  health : Bool := false
  services : List Service := []
  identities : GoMap String Int := ∅
  identityMaterial : GoMap String Material := ∅
  deployments : GoMap String IndexDeployment := ∅
  identityRevision : Nat := 0

/-- The process, its directories, and the Services it last passed to `PublishServices`. -/
structure Process (Tag : Type) where
  memory : Memory Tag
  disk : Disk
  published : Option (List Service) := none

/-- What one call reads and how its operations end. -/
structure Call where
  authorityRevision : Nat
  index : Except String (Option Body)
  checkedRevision : Nat
  checkedAt : String → Int
  objects : String → Except String (List UInt8)
  secrets : Provider → String → Except String (List UInt8)
  now : String → Int
  issue : String → String → String → Int → Except String Material
  confirmed : Except String (Option Body)
  confirmedRevision : Nat
  iteration : Iteration
  faults : Faults

/-! ## Candidates -/

/-- The index a call works on; an absent object is the empty index. -/
def readIndex : Except String (Option Body) → Except String Index
  | .error message => .error ("read index: " ++ message)
  | .ok none => .ok ∅
  | .ok (some body) =>
    match parseIndex body with
    | .error message => .error ("read index: " ++ message)
    | .ok index => .ok index

/-- The name of an entry of the NodeGroup. -/
def selectedName (nodeGroup key : String) : Option String :=
  match deploymentIdentity key with
  | some (group, name) => if group = nodeGroup then some name else none
  | none => none

/-- The entries of this NodeGroup, in the order the index is ranged over. -/
def selected (config : Config) (iteration : Iteration) (index : Index) :
    List (String × IndexDeployment) :=
  (iteration.range "index" index).filterMap fun entry ↦
    (selectedName config.nodeGroup entry.1).map fun name ↦ (name, entry.2)

structure Candidate where
  name : String
  service : String
  manifest : List UInt8
  secrets : GoMap String (GoMap String (List UInt8))
  identity : Material
  identityGeneration : String
  deployment : IndexDeployment
  publish : Bool

/-- What the candidate loop has collected. -/
structure Progress where
  candidates : List Candidate := []
  services : List Service := []
  names : List String := []
  serviceNames : List String := []

section Memory

variable {Tag : Type}

/-- Whether a deployment and its CA are those last published. -/
def Memory.unchanged (memory : Memory Tag) (authorityRevision : Nat) (name : String)
    (deployment : IndexDeployment) : Bool :=
  (memory.deployments.lookup name).getD ⟨"", ""⟩ = deployment ∧
    memory.identityRevision = authorityRevision

/-- Whether the files of a deployment are taken to be in place. -/
def Memory.skips (memory : Memory Tag) (authorityRevision : Nat) (now : Int) (name : String)
    (deployment : IndexDeployment) : Bool :=
  memory.unchanged authorityRevision name deployment &&
    (memory.identityMaterial.lookup name).isSome &&
    !needsRenewal ((memory.identities.lookup name).getD 0) now

/-- The identity of a candidate: the remembered one, or a new one. -/
def Memory.identity (memory : Memory Tag) (call : Call) (built : Built)
    (deployment : IndexDeployment) : Except String Material :=
  if memory.skips call.authorityRevision (call.now built.name) built.name deployment then
    match memory.identityMaterial.lookup built.name with
    | some material => .ok material
    | none => .error "missing identity"
  else
    match call.issue built.ns built.name built.service (call.now built.name) with
    | .error message => .error ("issue identity for Pod \"" ++ built.name ++ "\": " ++ message)
    | .ok material => .ok material

end Memory

/-- Read and verify a payload. -/
def loadPayload (call : Call) (path : String) : Except String (List UInt8) :=
  match call.objects path with
  | .error message => .error ("get " ++ path ++ ": " ++ message)
  | .ok input =>
    if !verify path input then .error ("verify " ++ path ++ ": digest mismatch") else .ok input

/-- Read, verify and build the Pod of an entry. -/
def loadPod (config : Config) (formats : Formats) (call : Call) (name : String)
    (deployment : IndexDeployment) : Except String Built := do
  let input ← loadPayload call deployment.pod
  match build config formats call.secrets input (deploymentRevision deployment) with
  | .error message => .error ("build " ++ deployment.pod ++ ": " ++ message)
  | .ok built =>
    if built.name ≠ name then
      .error ("indexed deployment \"" ++ name ++ "\" contains Pod \"" ++ built.name ++ "\"")
    else .ok built

/-- Read, verify and check the Service of an entry. -/
def loadService (formats : Formats) (call : Call) (built : Built) (path : String) :
    Except String Service := do
  let input ← loadPayload call path
  match parseServiceInput formats.services input with
  | .error message => .error ("validate " ++ path ++ ": " ++ message)
  | .ok service =>
    if built.service ≠ service.name ∨ built.ns ≠ service.ns then
      .error ("referenced Service \"" ++ service.name ++ "\" does not exactly match Pod \"" ++
        built.name ++ "\" annotation and namespace")
    else if serviceIdentity path ≠ some (service.ns, service.name) then
      .error ("referenced Service payload \"" ++ service.ns ++ "\"/\"" ++ service.name ++
        "\" does not match object key identity")
    else .ok service

/-- One round of the candidate loop. -/
def addCandidate {Tag : Type} (config : Config) (formats : Formats) (memory : Memory Tag)
    (call : Call) (progress : Progress) (item : String × IndexDeployment) :
    Except String Progress := do
  let (name, deployment) := item
  let built ← loadPod config formats call name deployment
  if built.name ∈ progress.names then .error ("duplicate Pod name \"" ++ built.name ++ "\"")
  else
    let material ← memory.identity call built deployment
    match identityRevision formats built.manifest material.certificate with
    | .error message =>
      .error ("annotate identity for Pod \"" ++ built.name ++ "\": " ++ message)
    | .ok (manifest, generation) =>
      let candidate : Candidate :=
        { name := built.name, service := built.service, manifest, secrets := built.secrets
          identity := material, identityGeneration := generation, deployment
          publish :=
            !memory.skips call.authorityRevision (call.now built.name) built.name deployment }
      let progress := { progress with
        candidates := progress.candidates ++ [candidate], names := built.name :: progress.names }
      if deployment.service = "" then
        if built.service ≠ "" then
          .error ("pod \"" ++ built.name ++ "\" annotates unreferenced Service \"" ++ built.service ++
            "\"")
        else .ok progress
      else
        let service ← loadService formats call built deployment.service
        let identity := service.ns ++ "/" ++ service.name
        if identity ∈ progress.serviceNames then .error ("duplicate Service \"" ++ identity ++ "\"")
        else .ok { progress with
          services := progress.services ++ [service]
          serviceNames := identity :: progress.serviceNames }

/-! ## Publishing -/

/-- The changes that publish a candidate. -/
def Candidate.changes (candidate : Candidate) (iteration : Iteration) : List Change :=
  if !candidate.publish then []
  else
    let identity := GoMap.ofPairs [(certificateFilename, candidate.identity.certificate),
      (privateKeyFilename, candidate.identity.privateKey),
      (caBundleFilename, candidate.identity.caBundle)]
    (iteration.range ("identity/" ++ candidate.name) identity).map (fun entry ↦
      .identityFile candidate.name candidate.identityGeneration entry.1 entry.2) ++
    [.identityLink candidate.name candidate.identityGeneration] ++
    (iteration.range ("providers/" ++ candidate.name) candidate.secrets).flatMap (fun provider ↦
      (iteration.range ("secrets/" ++ candidate.name ++ "/" ++ provider.1) provider.2).map
        fun entry ↦ .secretFile candidate.name provider.1 entry.1 entry.2) ++
    [.podFile candidate.name candidate.manifest]

/-- The changes that publish what was collected. -/
abbrev Progress.changes (progress : Progress) (call : Call) : List Change :=
  progress.candidates.flatMap (·.changes call.iteration)

def desiredOf (candidates : List Candidate) : Desired where
  keep := candidates.map Candidate.name
  secrets pod provider :=
    ((candidates.find? (·.name = pod)).bind (·.secrets.lookup provider)).elim []
      (·.pairs.map Prod.fst)

/-- The changes staged before staging stopped. -/
def stagedChanges (faults : Faults) (changes : List Change) : List Change :=
  changes.takeWhile fun change ↦
    match faults.stage change with
    | .staged => true
    | .failed _ => false

/-- The changes not renamed when publication stopped. -/
def unpublished (faults : Faults) : List Change → List Change
  | [] => []
  | change :: changes =>
    match faults.commit change with
    | .committed => unpublished faults changes
    | .notRenamed => change :: changes
    | .notSynced => changes

/-- Check that neither the index nor the CA moved since they were read. -/
def confirm {Tag : Type} [DecidableEq Tag] (tagging : Tagging Body Tag) (call : Call) (etag : Option Tag) :
    Except String Unit :=
  match call.confirmed with
  | .error message => .error ("confirm index: " ++ message)
  | .ok none =>
    if etag.isSome then .error "confirm index: not found"
    else if call.confirmedRevision ≠ call.authorityRevision then
      .error "workload CA: desired state changed while reconciling"
    else .ok ()
  | .ok (some body) =>
    if some (tagging.tag body) ≠ etag then
      .error "deployment index: desired state changed while reconciling"
    else if call.confirmedRevision ≠ call.authorityRevision then
      .error "workload CA: desired state changed while reconciling"
    else .ok ()

/-- Publish the staged changes and remove what is stale. -/
def publishChanges (call : Call) (candidates : List Candidate) (changes : List Change)
    (disk : Disk) : Disk × Option String :=
  let generations := GoMap.ofPairs (candidates.map fun candidate ↦
    (candidate.name, candidate.identityGeneration))
  andThen (runAll (commit call.faults) changes disk) fun disk ↦
    andThen (cleanup call.faults (desiredOf candidates) disk) fun disk ↦
      runAll (cleanupGenerations call.faults) (call.iteration.range "identities" generations) disk

section Reconcile

variable {Tag : Type} [DecidableEq Tag]

/-- A failed call marks the process unhealthy. -/
def Process.fail (process : Process Tag) (disk : Disk) (message : String) :
    Process Tag × Option String :=
  ({ process with memory := { process.memory with health := false }, disk }, some message)

/-- Remember what was published. -/
def Progress.remember (progress : Progress) (call : Call) (etag : Option Tag) (disk : Disk) :
    Process Tag where
  memory :=
    { indexETag := etag
      health := true
      services := progress.services
      identities := GoMap.ofPairs (progress.candidates.map fun candidate ↦
        (candidate.name, candidate.identity.notAfter))
      identityMaterial := GoMap.ofPairs (progress.candidates.map fun candidate ↦
        (candidate.name, candidate.identity))
      deployments := GoMap.ofPairs (progress.candidates.map fun candidate ↦
        (candidate.name, candidate.deployment))
      identityRevision := call.authorityRevision }
  disk
  published := some progress.services

/-- Whether nothing changed since the last call and no identity is due. -/
def Memory.upToDate (memory : Memory Tag) (call : Call) (etag : Option Tag) : Bool :=
  etag = memory.indexETag && memory.health &&
    decide (call.checkedRevision = memory.identityRevision) &&
    !memory.identities.pairs.any fun entry ↦ needsRenewal entry.2 (call.checkedAt entry.1)

/-- Stage, confirm and publish the candidates of a call. -/
def Process.publish (process : Process Tag) (tagging : Tagging Body Tag) (call : Call)
    (etag : Option Tag) (progress : Progress) : Process Tag × Option String :=
  let changes := progress.candidates.flatMap (·.changes call.iteration)
  match runAll (stage call.faults) changes process.disk with
  | (disk, some message) =>
    process.fail (discardAll call.faults (stagedChanges call.faults changes) disk) message
  | (disk, none) =>
    match confirm tagging call etag with
    | .error message => process.fail (discardAll call.faults changes disk) message
    | .ok () =>
      match publishChanges call progress.candidates changes disk with
      | (disk, some message) =>
        process.fail (discardAll call.faults (unpublished call.faults changes) disk) message
      | (disk, none) => (progress.remember call etag disk, none)

/-- The tag of what a call read as the index. -/
def Call.etag (call : Call) (tagging : Tagging Body Tag) : Option Tag :=
  match call.index with
  | .ok body => body.map tagging.tag
  | .error _ => none

/-- One reconciliation; no message is a nil return. -/
def reconcile (config : Config) (formats : Formats) (tagging : Tagging Body Tag) (call : Call)
    (process : Process Tag) : Process Tag × Option String :=
  match readIndex call.index with
  | .error message => process.fail process.disk message
  | .ok index =>
    if process.memory.upToDate call (call.etag tagging) then (process, none)
    else
      match (selected config call.iteration index).foldlM
          (addCandidate config formats process.memory call) {} with
      | .error message => process.fail process.disk message
      | .ok progress => process.publish tagging call (call.etag tagging) progress

end Reconcile

end Podmin.Agent.StaticPod
