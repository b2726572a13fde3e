import Podmin.Foundation.CasRegister
import Podmin.Foundation.Transition
import Podmin.Manifest.Index
import Podmin.Manifest.Service

/-!
# Committing deployments

The model of `internal/cli/deploy`: `Apply` uploads content-addressed payloads and then commits one
index entry, `Delete` removes one, and both commit by rereading the index and writing it
conditionally until no other client came in between.

Any number of clients run calls against one store. A step is one storage operation of one client, and
steps interleave freely. A write whose outcome the caller does not learn is a request that may take
effect at any later time.
-/

namespace Podmin.Cli.Deploy

open Foundation CasRegister Transition Manifest

/-! ## One call -/

inductive Call where
  | apply (nodeGroup name : String) (deployment : Deployment)
  | delete (nodeGroup name : String)

def podKey (nodeGroup : String) (pod : List UInt8) : String :=
  "nodegroups/" ++ nodeGroup ++ "/pods/sha512/" ++ digest pod ++ ".yaml"

def serviceKey (service : Service) (yaml : List UInt8) : String :=
  "services/" ++ service.ns ++ "/" ++ service.name ++ "/sha512/" ++ digest yaml ++ ".yaml"

/-- The key of a content-addressed object; both keys have this form. -/
def objectKey (first second third : String) (body : List UInt8) : String :=
  first ++ "/" ++ second ++ "/" ++ third ++ "/sha512" ++ "/" ++ (digest body ++ ".yaml")

theorem podKey_eq (nodeGroup : String) (pod : List UInt8) :
    podKey nodeGroup pod = objectKey "nodegroups" nodeGroup "pods" pod := by
  apply String.toList_injective
  simp [podKey, objectKey]

theorem serviceKey_eq (service : Service) (yaml : List UInt8) :
    serviceKey service yaml = objectKey "services" service.ns service.name yaml := by
  apply String.toList_injective
  simp [serviceKey, objectKey]

theorem verify_podKey (nodeGroup : String) (pod : List UInt8) : verify (podKey nodeGroup pod) pod = true := by
  rw [podKey_eq]
  exact verify_path _ pod

theorem verify_serviceKey (service : Service) (yaml : List UInt8) :
    verify (serviceKey service yaml) yaml = true := by
  rw [serviceKey_eq]
  exact verify_path _ yaml

theorem isSome_objectDigest {path : String} {body : List UInt8} (hverify : verify path body = true) :
    (objectDigest path).isSome = true := by
  rw [verify] at hverify
  cases hsome : objectDigest path with
  | none => simp [hsome] at hverify
  | some value => rfl

theorem slash_not_mem_file (body : List UInt8) : '/' ∉ (digest body ++ ".yaml").toList := by
  simp only [String.toList_append, List.mem_append, not_or]
  exact ⟨fun hmem ↦ (isHexDigit_of_isLowerHex (digest_chars body _ hmem)).2.2 rfl, by decide⟩

theorem split_objectKey {first second third : String} (hfirst : '/' ∉ first.toList)
    (hsecond : '/' ∉ second.toList) (hthird : '/' ∉ third.toList) (body : List UInt8) :
    Text.split '/' (objectKey first second third body) =
      [first, second, third, "sha512", digest body ++ ".yaml"] := by
  have hkey : objectKey first second third body =
      Text.join '/' [first, second, third, "sha512", digest body ++ ".yaml"] := by
    apply String.toList_injective
    simp [objectKey, Text.join, List.intercalate]
  rw [hkey]
  refine Text.split_join (by simp) ?_
  simp only [List.mem_cons, List.not_mem_nil, or_false, forall_eq_or_imp, forall_eq]
  exact ⟨hfirst, hsecond, hthird, by decide, slash_not_mem_file body⟩

theorem podObject_podKey {nodeGroup : String} (hnodeGroup : validID nodeGroup = true)
    (pod : List UInt8) : podObject (podKey nodeGroup pod) nodeGroup = true := by
  have hdigest := isSome_objectDigest (verify_podKey nodeGroup pod)
  rw [podKey_eq] at hdigest ⊢
  have hsplit := @split_objectKey "nodegroups" nodeGroup "pods" (by decide)
    (slash_not_mem (validID_chars hnodeGroup))
    (by decide) pod
  simp [podObject, hsplit, hdigest]

theorem serviceKey_ne_empty (service : Service) (yaml : List UInt8) : serviceKey service yaml ≠ "" := by
  intro hempty
  have hchars : (serviceKey service yaml).toList = [] := by rw [hempty]; rfl
  simp [serviceKey] at hchars

theorem podKey_ne_serviceKey (nodeGroup : String) (pod : List UInt8) (service : Service) (yaml : List UInt8) :
    podKey nodeGroup pod ≠ serviceKey service yaml := by
  intro hsame
  have hfirst := congrArg (fun key ↦ key.toList.head?) hsame
  simp [podKey, serviceKey] at hfirst

theorem serviceIdentity_serviceKey {service : Service} (hns : validNamespace service.ns = true)
    (hname : validID service.name = true) (yaml : List UInt8) :
    serviceIdentity (serviceKey service yaml) = some (service.ns, service.name) := by
  have hdigest := isSome_objectDigest (verify_serviceKey service yaml)
  rw [serviceKey_eq] at hdigest ⊢
  have hsplit := @split_objectKey "services" _ _ (by decide) (slash_not_mem (validNamespace_chars hns))
    (slash_not_mem (validID_chars hname)) yaml
  simp [serviceIdentity, hsplit, hdigest, hns, hname]

/-- The change of the index a call makes. -/
inductive Mutation where
  | set (key : String) (deployment : IndexDeployment)
  | remove (key : String)
  deriving DecidableEq

/-- The key a mutation changes. -/
def Mutation.key : Mutation → String
  | .set key _ | .remove key => key

/-- The entry a mutation leaves at its key. -/
def Mutation.entry : Mutation → Option IndexDeployment
  | .set _ deployment => some deployment
  | .remove _ => none

def Mutation.apply (mutation : Mutation) (index : Index) : Index :=
  match mutation with
  | .set key deployment => index.insert key deployment
  | .remove key => index.erase key

/-- The paths `Apply` commits for a deployment. -/
def indexDeployment (nodeGroup : String) (deployment : Deployment) : IndexDeployment where
  pod := podKey nodeGroup deployment.pod
  service := match deployment.service with
    | some (service, yaml) => serviceKey service yaml
    | none => ""

def Call.mutation : Call → Mutation
  | .apply nodeGroup name deployment =>
    .set (deploymentKey nodeGroup name) (indexDeployment nodeGroup deployment)
  | .delete nodeGroup name => .remove (deploymentKey nodeGroup name)

/-- The checks both calls start with. -/
def Call.valid : Call → Bool
  | .apply nodeGroup name _ | .delete nodeGroup name => validID nodeGroup && validID name

/-- The payloads a call uploads before it commits. -/
def Call.payloads : Call → List (String × List UInt8)
  | .apply nodeGroup _ deployment =>
    (podKey nodeGroup deployment.pod, deployment.pod) ::
      match deployment.service with
      | some (service, yaml) => [(serviceKey service yaml, yaml)]
      | none => []
  | .delete _ _ => []

/-- A stored index body; nothing when it is not one JSON value. -/
abbrev Body := Option Json

/-- The index a mutation starts from; an absent object is the empty index. -/
def readIndex : Option Body → Except String Index
  | none => .ok ∅
  | some body => parseIndex body

/-- One round of `mutateIndex` up to the conditional write. -/
def mutateIndex (mutation : Mutation) (read : Option Body) : Except String Body := do
  let index ← readIndex read
  marshalIndex (mutation.apply index)

/-- How often `mutateIndex` tries. -/
def maxAttempts : Nat := 16

/-! ## Clients sharing one store -/

/-- Where a client's current call stands. -/
inductive Task (Tag : Type*) where
  | idle
  | upload (call : Call) (remaining : List (String × List UInt8))
  | getIndex (call : Call) (attempts : Nat)
  | putIndex (call : Call) (attempts : Nat) (body : Body) (version : Option Tag)

/-- A call that returned, with its number among the calls of its client. -/
structure Returned where
  serial : Nat
  call : Call
  result : Except String Unit

/-- One client: its current call, the number of calls it started, and the calls that returned. -/
structure Client (Tag : Type*) where
  task : Task Tag := .idle
  serial : Nat := 0
  returned : List Returned := []

/-- One write of the index, with the call that made it. -/
structure Commit (Id : Type*) where
  client : Id
  serial : Nat
  mutation : Mutation
  body : Body

structure State (Id Tag : Type*) where
  commits : List (Commit Id)
  objects : GoMap String (List UInt8)
  requestedCommits : List (Option Tag × Commit Id)
  requestedObjects : List (String × List UInt8)
  clients : Id → Client Tag

def Client.start {Tag : Type*} (client : Client Tag) (call : Call) : Client Tag :=
  { client with
    task := if call.valid then .upload call call.payloads else .idle
    serial := client.serial + 1
    returned := if call.valid then client.returned
      else ⟨client.serial + 1, call, .error "invalid deployment name or nodegroup ID"⟩ :: client.returned }

def Client.finish {Tag : Type*} (client : Client Tag) (call : Call) (result : Except String Unit) :
    Client Tag :=
  { client with task := .idle, returned := ⟨client.serial, call, result⟩ :: client.returned }

/-- Whether a step is taken by a client, or is a write that takes effect without being reported. -/
inductive Event where
  | reported
  | unreported
  deriving DecidableEq

section Steps

variable {Id Tag : Type*} [DecidableEq Id]

def State.setClient (state : State Id Tag) (id : Id) (client : Client Tag) : State Id Tag :=
  { state with clients := Function.update state.clients id client }

/-- Create an object unless one exists under the key. -/
def create (objects : GoMap String (List UInt8)) (key : String) (body : List UInt8) :
    GoMap String (List UInt8) :=
  match objects.lookup key with
  | some _ => objects
  | none => objects.insert key body

/-- The commit a client would write. -/
def commitOf (state : State Id Tag) (id : Id) (call : Call) (body : Body) : Commit Id :=
  ⟨id, (state.clients id).serial, call.mutation, body⟩

inductive Step (tagging : Tagging Body Tag) (state : State Id Tag) : Event → State Id Tag → Prop
  | start (id : Id) (call : Call) (htask : (state.clients id).task = .idle) :
      Step tagging state .reported (state.setClient id ((state.clients id).start call))
  /-- A payload was created, or one exists already. -/
  | uploaded (id : Id) {call : Call} {key : String} {body : List UInt8}
      {remaining : List (String × List UInt8)}
      (htask : (state.clients id).task = .upload call ((key, body) :: remaining)) :
      Step tagging state .reported
        { state.setClient id { state.clients id with task := .upload call remaining } with
          objects := create state.objects key body }
  /-- A payload write reports another error. -/
  | uploadFailed (id : Id) {call : Call} {key : String} {body : List UInt8}
      {remaining : List (String × List UInt8)}
      (htask : (state.clients id).task = .upload call ((key, body) :: remaining))
      (message : String) :
      Step tagging state .reported
        { state.setClient id ((state.clients id).finish call (.error message)) with
          requestedObjects := (key, body) :: state.requestedObjects }
  | uploadsDone (id : Id) {call : Call} (htask : (state.clients id).task = .upload call []) :
      Step tagging state .reported
        (state.setClient id { state.clients id with task := .getIndex call 0 })
  /-- The index was read and its successor computed. -/
  | read (id : Id) {call : Call} {attempts : Nat} {body : Body}
      (htask : (state.clients id).task = .getIndex call attempts)
      (hbody : mutateIndex call.mutation (state.commits.head?.map Commit.body) = .ok body) :
      Step tagging state .reported
        { state.setClient id { state.clients id with
            task := .putIndex call attempts body
              ((state.commits.head?.map Commit.body).map tagging.tag) } with
          requestedCommits := ((state.commits.head?.map Commit.body).map tagging.tag,
            commitOf state id call body) :: state.requestedCommits }
  /-- The index could not be read, parsed or marshalled. -/
  | readFailed (id : Id) {call : Call} {attempts : Nat}
      (htask : (state.clients id).task = .getIndex call attempts) (message : String) :
      Step tagging state .reported
        (state.setClient id ((state.clients id).finish call (.error message)))
  | committed (id : Id) {call : Call} {attempts : Nat} {body : Body} {version : Option Tag}
      (htask : (state.clients id).task = .putIndex call attempts body version)
      (hadmits : Admits tagging (state.commits.map Commit.body) version) :
      Step tagging state .reported
        { state.setClient id ((state.clients id).finish call (.ok ())) with
          commits := commitOf state id call body :: state.commits }
  /-- The conditional write reports a failed precondition. -/
  | conflicted (id : Id) {call : Call} {attempts : Nat} {body : Body} {version : Option Tag}
      (htask : (state.clients id).task = .putIndex call attempts body version) :
      Step tagging state .reported
        (state.setClient id
          (if attempts + 1 < maxAttempts then
            { state.clients id with task := .getIndex call (attempts + 1) }
          else (state.clients id).finish call (.error "index changed too frequently")))
  /-- The conditional write reports another error. -/
  | commitFailed (id : Id) {call : Call} {attempts : Nat} {body : Body} {version : Option Tag}
      (htask : (state.clients id).task = .putIndex call attempts body version) (message : String) :
      Step tagging state .reported
        (state.setClient id ((state.clients id).finish call (.error message)))
  /-- The client goes away in the middle of a call. -/
  | abandoned (id : Id) :
      Step tagging state .reported
        (state.setClient id { state.clients id with task := .idle })
  | landedCommit {version : Option Tag} {commit : Commit Id}
      (hrequested : (version, commit) ∈ state.requestedCommits)
      (hadmits : Admits tagging (state.commits.map Commit.body) version) :
      Step tagging state .unreported { state with commits := commit :: state.commits }
  | landedObject {key : String} {body : List UInt8}
      (hrequested : (key, body) ∈ state.requestedObjects) :
      Step tagging state .unreported { state with objects := create state.objects key body }

/-- No index, no payload and no call in progress at the start. -/
def system (tagging : Tagging Body Tag) : System (State Id Tag) Event where
  init state := state = ⟨[], ∅, [], [], fun _ ↦ {}⟩
  step := Step tagging

/-- The runs in which every write reports its true outcome. -/
def truthful (_ : State Id Tag) (event : Event) : Prop :=
  event = .reported

end Steps

end Podmin.Cli.Deploy
