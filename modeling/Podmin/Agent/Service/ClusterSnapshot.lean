import Mathlib.Algebra.BigOperators.Group.List.Basic
import Podmin.Agent.Service.NodeState

/-!
# Merging registrations into a cluster snapshot

The leader merges the contracts of all registered NodeGroups and the endpoints of all registered
node states into one snapshot.
-/

namespace Podmin.Agent.Service

open Foundation Api

/-- One validated contract and its optional leased endpoint state. -/
structure Peer where
  hello : Hello
  state : Option NodeState
  deriving DecidableEq, Repr

/-- Order wire Services by their cluster-wide Kubernetes identity. -/
def serviceLess (left right : Api.Service) : Bool :=
  if left.ns ≠ right.ns then left.ns < right.ns
  else if left.name ≠ right.name then left.name < right.name
  else left.nodeGroup < right.nodeGroup

def backendLess (left right : Endpoint) : Bool :=
  if left.address ≠ right.address then left.address < right.address
  else left.podUid < right.podUid

def ownershipError (item : Api.Service) (owner nodeGroup : String) : String :=
  "service " ++ item.ns ++ "/" ++ item.name ++ " is owned by NodeGroups \"" ++ owner ++
    "\" and \"" ++ nodeGroup ++ "\""

/-- One contract per NodeGroup; a later peer replaces an earlier one. -/
def byNodeGroup (peers : List Peer) : GoMap String Hello :=
  peers.foldl (fun groups peer ↦ groups.insert peer.hello.nodeGroup peer.hello) ∅

def sortedNodeGroups (peers : List Peer) : List String :=
  sortSlice (fun left right ↦ decide (left < right)) (byNodeGroup peers).keys

/-- The endpoints one peer contributes to a Service of a NodeGroup. -/
def peerEndpoints (nodeGroup configDigest : String) (item : Api.Service) (peer : Peer) :
    List Endpoint :=
  match peer.state with
  | none => []
  | some state =>
    if peer.hello.nodeGroup ≠ nodeGroup ∨ state.configDigest ≠ configDigest then []
    else state.endpoints.filter fun endpoint ↦
      endpoint.nodeGroup == nodeGroup && endpoint.ns == item.ns && endpoint.service == item.name

def mergeItem (peers : List Peer) (nodeGroup configDigest : String) (item : Api.Service) :
    Api.Service :=
  { item with
    backends := sortSlice backendLess
      (item.backends ++ peers.flatMap (peerEndpoints nodeGroup configDigest item)) }

/-- The owners of the identities merged so far, and the merged Services. -/
abbrev Merged := GoMap String String × List Api.Service

def mergeService (peers : List Peer) (nodeGroup configDigest : String) (merged : Merged)
    (item : Api.Service) : Except String Merged :=
  let accepted : Merged := (merged.1.insert item.identity nodeGroup,
    merged.2 ++ [mergeItem peers nodeGroup configDigest item])
  match merged.1.lookup item.identity with
  | some owner =>
    if owner ≠ nodeGroup then .error (ownershipError item owner nodeGroup) else .ok accepted
  | none => .ok accepted

def mergeNodeGroup (peers : List Peer) (merged : Merged) (nodeGroup : String) :
    Except String Merged :=
  match (byNodeGroup peers).lookup nodeGroup with
  | none => .ok merged
  | some hello =>
    (sortSlice serviceLess hello.services).foldlM (mergeService peers nodeGroup hello.configDigest)
      merged

def nodeGroupDigestText (peers : List Peer) (nodeGroup : String) : String :=
  match (byNodeGroup peers).lookup nodeGroup with
  | none => ""
  | some hello => nodeGroup ++ "\x00" ++ hello.configDigest ++ "\x00"

/-- Merge NodeGroup contracts and matching leased node states. -/
def buildClusterSnapshot (generation revision : Nat) (leader : String) (peers : List Peer) :
    Except String Snapshot := do
  let nodeGroups := sortedNodeGroups peers
  let merged ← nodeGroups.foldlM (mergeNodeGroup peers) ((∅, []) : Merged)
  .ok
    { generation := generation
      revision := revision
      leaderId := leader
      configDigest := sha512Hex (String.join (nodeGroups.map (nodeGroupDigestText peers)))
      services := sortSlice serviceLess merged.2 }

/-- Reject duplicate cluster-wide Service identities. -/
def validateOwnership (identities : GoMap String String) : List Api.Service → Except String Unit
  | [] => .ok ()
  | item :: items =>
    match identities.lookup item.identity with
    | some owner => .error (ownershipError item owner item.nodeGroup)
    | none => validateOwnership (identities.insert item.identity item.nodeGroup) items

def validateSnapshotOwnership (snapshot : Snapshot) : Except String Unit :=
  validateOwnership ∅ snapshot.services

/-- A built snapshot carries the given generation, revision and leader. -/
theorem buildClusterSnapshot_header {generation revision : Nat} {leader : String}
    {peers : List Peer} {snapshot : Snapshot}
    (hbuild : buildClusterSnapshot generation revision leader peers = .ok snapshot) :
    snapshot.generation = generation ∧ snapshot.revision = revision ∧
      snapshot.leaderId = leader := by
  unfold buildClusterSnapshot at hbuild
  cases hmerged : (sortedNodeGroups peers).foldlM (mergeNodeGroup peers) ((∅, []) : Merged) with
  | error message => simp [hmerged, bind, Except.bind] at hbuild
  | ok merged =>
    simp only [hmerged, bind, Except.bind, Except.ok.injEq] at hbuild
    rw [← hbuild]
    exact ⟨rfl, rfl, rfl⟩

/-! ## Sizes -/

def servicePorts (services : List Api.Service) : Nat :=
  (services.map fun item ↦ item.ports.length).sum

/-- The pairs of a port and a backend. -/
def backendPairs (services : List Api.Service) : Nat :=
  (services.map fun item ↦ item.ports.length * item.backends.length).sum

theorem servicePorts_perm {left right : List Api.Service} (hperm : left.Perm right) :
    servicePorts left = servicePorts right :=
  (hperm.map _).sum_eq

theorem backendPairs_perm {left right : List Api.Service} (hperm : left.Perm right) :
    backendPairs left = backendPairs right :=
  (hperm.map _).sum_eq

end Podmin.Agent.Service
