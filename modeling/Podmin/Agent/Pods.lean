import Podmin.Foundation.GoMap
import Podmin.Foundation.Netip

/-!
# The Pod watcher's view

The model of `internal/agent/pods`: every Pod the kubelet reports is reduced to its selector labels,
its one global-unicast IPv6 address and whether it may receive traffic, and the watcher's snapshot
is keyed by Pod UID.
-/

namespace Podmin.Agent.Pods

open Foundation Netip

/-- The selector and readiness information owned by the watcher. -/
structure Pod where
  uid : String
  ns : String
  labels : GoMap String String
  address : Addr
  eligible : Bool

/-- A complete view keyed by Pod UID. -/
abbrev Snapshot := GoMap String Pod

structure PodCondition where
  type : String
  status : String

/-- The fields of a kubelet Pod that the projection reads. -/
structure KubeletPod where
  uid : String
  ns : String
  labels : GoMap String String
  podIPs : List String
  conditions : List PodCondition
  phase : String
  deleted : Bool

def acceptedAddress (raw : String) : Option Addr :=
  (parseAddr raw).filter fun address ↦ address.is6 && address.isGlobalUnicast

/-- Ready when the first `Ready` condition is true. -/
def podReady (conditions : List PodCondition) : Bool :=
  match conditions.find? (fun condition ↦ condition.type == "Ready") with
  | some condition => condition.status == "True"
  | none => false

/-- Reduce a Kubernetes Pod to watcher-owned state; only a single accepted address is kept. -/
def project (value : KubeletPod) : Pod :=
  let addresses := value.podIPs.filterMap acceptedAddress
  let address := match addresses with
    | [address] => address
    | _ => .invalid
  { uid := value.uid
    ns := if value.ns = "" then "default" else value.ns
    labels := value.labels
    address := address
    eligible := value.phase == "Running" && !value.deleted && podReady value.conditions &&
      address.isValid }

inductive WatchEvent where
  | initialSyncComplete
  | deleted (value : KubeletPod)
  | updated (value : KubeletPod)

/-- The watcher's staged Pods after one event. -/
def consume (state : Snapshot) : WatchEvent → Snapshot
  | .initialSyncComplete => state
  | .deleted value => state.erase value.uid
  | .updated value => state.insert value.uid (project value)

end Podmin.Agent.Pods
