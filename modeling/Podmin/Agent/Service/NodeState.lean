import Podmin.Agent.Pods
import Podmin.Agent.Service.Contract

/-!
# Node states

A node reports one endpoint for every eligible Pod a desired Service selects. The leader checks a
report against the contract of the node's `Hello`: every endpoint belongs to a Service of the
contract and has exactly its ports.
-/

namespace Podmin.Agent.Service

open Foundation Fallible Netip Api Manifest

/-- The controller's configuration and its current desired Services and Pods. -/
structure Controller where
  cluster : String
  nodeGroup : String
  nodeIPv6 : Addr
  services : List Manifest.Service
  pods : Pods.Snapshot

namespace Controller

def digest (controller : Controller) : String :=
  digestDesired controller.services

/-- The configuration digest and the Service contract, read together. -/
def contract (controller : Controller) : String × List Api.Service :=
  (digestDesired controller.services,
    desiredContract controller.cluster controller.nodeGroup controller.services)

/-- Replace the desired Services; without any, the Pod view is dropped as well. -/
def setServices (controller : Controller) (value : List Manifest.Service) : Controller :=
  { controller with
    services := value
    pods := if value.isEmpty then ∅ else controller.pods }

def setPods (controller : Controller) (value : Pods.Snapshot) : Controller :=
  { controller with pods := value }

end Controller

/-- Exact label matching; an absent label reads as the empty string. -/
def selectorMatches (labels selector : GoMap String String) : Bool :=
  selector.pairs.all fun (key, value) ↦ (labels.lookup key).getD "" == value

def selects (service : Manifest.Service) (pod : Pods.Pod) : Bool :=
  pod.eligible && pod.ns == service.ns && selectorMatches pod.labels service.selector

def endpointOf (nodeGroup : String) (service : Manifest.Service) (pod : Pods.Pod) : Endpoint where
  service := service.name
  podUid := pod.uid
  address := pod.address.string
  ports := service.ports.map wirePort
  nodeGroup := nodeGroup
  ns := service.ns

def endpointLess (left right : Endpoint) : Bool :=
  if left.ns ≠ right.ns then left.ns < right.ns
  else if left.service ≠ right.service then left.service < right.service
  else left.podUid < right.podUid

/-- The complete ready-selected local endpoint view. -/
def Controller.nodeState (controller : Controller) (session : String) (sequence : Nat) :
    NodeState where
  sessionId := session
  sequence := sequence
  configDigest := digestDesired controller.services
  endpoints := sortSlice endpointLess ((sortedDesired controller.services).flatMap fun service ↦
    ((controller.pods.pairs.map Prod.snd).filter (selects service)).map
      (endpointOf controller.nodeGroup service))

/-! ## Validating a node state -/

/-- The contract keyed by identity; a later item replaces an earlier one. -/
def contractMap (contract : List Api.Service) : GoMap String Api.Service :=
  contract.foldl (fun services item ↦ services.insert item.identity item) ∅

def portIdentity (port : TargetPort) : String :=
  port.name ++ "\x00" ++ port.protocol ++ "\x00" ++ toString port.servicePort ++ "\x00" ++
    toString port.targetPort

def endpointIdentity (endpoint : Endpoint) : String :=
  endpoint.ns ++ "\x00" ++ endpoint.service ++ "\x00" ++ endpoint.podUid ++ "\x00" ++
    endpoint.address

def globalIPv6 (text : String) : Bool :=
  match parseAddr text with
  | some address => address.is6 && address.isGlobalUnicast
  | none => false

/-- Every port must be expected, and is expected only once. -/
def validateEndpointPorts (expected : List String) : List TargetPort → Except String Unit
  | [] => .ok ()
  | port :: ports =>
    if portIdentity port ∈ expected then
      validateEndpointPorts (expected.erase (portIdentity port)) ports
    else .error "invalid service endpoint port"

def validateEndpoint (nodeGroup : String) (services : GoMap String Api.Service) (seen : List String)
    (endpoint : Endpoint) : Except String Unit :=
  match services.lookup (endpoint.ns ++ "\x00" ++ endpoint.service) with
  | none => .error "invalid service endpoint"
  | some service =>
    if endpoint.nodeGroup != nodeGroup || endpoint.podUid == "" || !globalIPv6 endpoint.address ||
        decide (endpointIdentity endpoint ∈ seen) ||
        endpoint.ports.length != service.ports.length then
      .error "invalid service endpoint"
    else validateEndpointPorts (service.ports.map portIdentity).dedup endpoint.ports

def validateEndpoints (nodeGroup : String) (services : GoMap String Api.Service)
    (seen : List String) : List Endpoint → Except String Unit
  | [] => .ok ()
  | endpoint :: endpoints => do
    validateEndpoint nodeGroup services seen endpoint
    validateEndpoints nodeGroup services (endpointIdentity endpoint :: seen) endpoints

def validateNodeState (nodeGroup : String) (contract : List Api.Service) (state : NodeState) :
    Except String Unit :=
  if state.endpoints.length > 10000 then .error "invalid endpoint count"
  else validateEndpoints nodeGroup (contractMap contract) [] state.endpoints

/-! ## What a valid node state is -/

/-- The ports of an endpoint are those of its Service. -/
def MatchedPorts (service : Api.Service) (ports : List TargetPort) : Prop :=
  ports.length = service.ports.length ∧ (ports.map portIdentity).Nodup ∧
    ∀ port ∈ ports, portIdentity port ∈ service.ports.map portIdentity

/-- One endpoint of a valid node state. -/
def ValidEndpoint (nodeGroup : String) (services : GoMap String Api.Service) (endpoint : Endpoint) :
    Prop :=
  ∃ service, services.lookup (endpoint.ns ++ "\x00" ++ endpoint.service) = some service ∧
    endpoint.nodeGroup = nodeGroup ∧ endpoint.podUid ≠ "" ∧
    globalIPv6 endpoint.address = true ∧ MatchedPorts service endpoint.ports

theorem validateEndpointPorts_eq_ok {expected : List String} (hexpected : expected.Nodup)
    {ports : List TargetPort} :
    validateEndpointPorts expected ports = .ok () ↔
      (ports.map portIdentity).Nodup ∧ ∀ port ∈ ports, portIdentity port ∈ expected := by
  induction ports generalizing expected with
  | nil => simp [validateEndpointPorts]
  | cons port ports ih =>
    rw [validateEndpointPorts]
    split
    · next hmem =>
      rw [ih (hexpected.erase _)]
      simp only [hexpected.mem_erase_iff, List.map_cons, List.nodup_cons, List.mem_map,
        List.mem_cons, forall_eq_or_imp, hmem, true_and, not_exists, not_and]
      constructor
      · rintro ⟨hnodup, hall⟩
        exact ⟨⟨fun other hother ↦ (hall other hother).1, hnodup⟩,
          fun other hother ↦ (hall other hother).2⟩
      · rintro ⟨⟨hdistinct, hnodup⟩, hall⟩
        exact ⟨hnodup, fun other hother ↦ ⟨hdistinct other hother, hall other hother⟩⟩
    · next hmissing =>
      simp [hmissing]

variable {nodeGroup : String} {services : GoMap String Api.Service}

theorem validateEndpoint_eq_ok {seen : List String} {endpoint : Endpoint} :
    validateEndpoint nodeGroup services seen endpoint = .ok () ↔
      ValidEndpoint nodeGroup services endpoint ∧ endpointIdentity endpoint ∉ seen := by
  rw [validateEndpoint, ValidEndpoint]
  cases hservice : services.lookup (endpoint.ns ++ "\x00" ++ endpoint.service) with
  | none => simp
  | some service =>
    simp only [Option.some.injEq, exists_eq_left', MatchedPorts]
    split
    · next hbad =>
      simp only [reduceCtorEq, false_iff]
      simp only [Bool.or_eq_true, bne_iff_ne, ne_eq, beq_iff_eq, Bool.not_eq_true',
        decide_eq_true_eq] at hbad
      grind
    · next hgood =>
      simp only [Bool.or_eq_true, bne_iff_ne, ne_eq, beq_iff_eq, Bool.not_eq_true',
        decide_eq_true_eq, not_or, not_not, Bool.not_eq_false] at hgood
      rw [validateEndpointPorts_eq_ok (List.nodup_dedup _)]
      simp [hgood]

theorem validateEndpoints_eq_ok {seen : List String} {endpoints : List Endpoint} :
    validateEndpoints nodeGroup services seen endpoints = .ok () ↔
      (∀ endpoint ∈ endpoints, ValidEndpoint nodeGroup services endpoint) ∧
        (endpoints.map endpointIdentity).Nodup ∧
        ∀ endpoint ∈ endpoints, endpointIdentity endpoint ∉ seen := by
  refine distinct_eq_ok (fun _ ↦ rfl) fun seen endpoint endpoints ↦ ?_
  rw [validateEndpoints, bind_eq_ok, ← validateEndpoint_eq_ok]
  exact ⟨fun ⟨_, hfirst, hrest⟩ ↦ ⟨hfirst, hrest⟩, fun ⟨hfirst, hrest⟩ ↦ ⟨(), hfirst, hrest⟩⟩

theorem validateNodeState_eq_ok {contract : List Api.Service} {state : NodeState} :
    validateNodeState nodeGroup contract state = .ok () ↔
      state.endpoints.length ≤ 10000 ∧
        (∀ endpoint ∈ state.endpoints, ValidEndpoint nodeGroup (contractMap contract) endpoint) ∧
        (state.endpoints.map endpointIdentity).Nodup := by
  rw [validateNodeState]
  split
  · next hmany =>
    simp only [reduceCtorEq, false_iff, not_and]
    intro hfew
    omega
  · next hfew =>
    rw [validateEndpoints_eq_ok]
    simp [not_lt.mp hfew]

end Podmin.Agent.Service
