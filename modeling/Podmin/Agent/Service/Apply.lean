import Podmin.Agent.Service.ClusterSnapshot

/-!
# Applying a snapshot on a node

`Apply` of the controller overlays the node's own contract on a snapshot, converts the result to a DNS zone
and a dataplane snapshot with complete validation, and hands the latter to the dataplane, whose
reconciliation may fail for reasons of its own.
-/

namespace Podmin.Agent.Service

open Foundation Netip Api Manifest

/-- The Services kept so far, and the local contract items no snapshot item has stood for. -/
abbrev Overlay := List Api.Service × GoMap String Api.Service

/-- A snapshot item of this NodeGroup is kept when it equals the local contract apart from its
backends; an item of another NodeGroup is kept when the identity is not claimed locally. -/
def overlayItem (nodeGroup : String) (overlay : Overlay) (item : Api.Service) : Overlay :=
  match overlay.2.lookup item.identity with
  | some wanted =>
    if item.nodeGroup = nodeGroup ∧ { item with backends := [] } = wanted then
      (overlay.1 ++ [item], overlay.2.erase item.identity)
    else overlay
  | none =>
    if item.nodeGroup ≠ nodeGroup then (overlay.1 ++ [item], overlay.2) else overlay

/-- The Services that are applied: kept snapshot items and the remaining local contract. -/
def Controller.effectiveServices (controller : Controller) (snapshot : Snapshot) :
    List Api.Service :=
  let overlay := snapshot.services.foldl (overlayItem controller.nodeGroup)
    ([], contractMap controller.contract.2)
  sortSlice serviceLess (overlay.1 ++ overlay.2.pairs.map Prod.snd)

/-- The targets of one backend for one port, of which there must be at least one. -/
def backendTargets (port : TargetPort) (address : Addr) (found : List Dataplane.Backend) :
    List TargetPort → Except String (List Dataplane.Backend)
  | [] => if found.isEmpty then .error "service backend is missing a target port" else .ok found
  | target :: targets =>
    if target.name == port.name && target.protocol == port.protocol &&
        target.servicePort == port.servicePort then
      if target.targetPort == 0 || decide (target.targetPort > 65535) then
        .error "invalid service backend port"
      else backendTargets port address (found ++ [⟨address, target.targetPort⟩]) targets
    else backendTargets port address found targets

def convertBackends (port : TargetPort) : List Endpoint → Except String (List Dataplane.Backend)
  | [] => .ok []
  | backend :: backends =>
    match parseAddr backend.address with
    | none => .error "invalid service backend"
    | some address =>
      if !address.is6 || !address.isGlobalUnicast || backend.podUid == "" then
        .error "invalid service backend"
      else do
        let found ← backendTargets port address [] backend.ports
        let rest ← convertBackends port backends
        .ok (found ++ rest)

def convertPorts (backends : List Endpoint) (seen : List String) :
    List TargetPort → Except String (List Dataplane.Port)
  | [] => .ok []
  | port :: ports =>
    if !validPort port then .error "invalid service port"
    else if portKey port ∈ seen then .error "duplicate service port"
    else do
      let converted ← convertBackends port backends
      let rest ← convertPorts backends (portKey port :: seen) ports
      let protocol := if port.protocol == "UDP" then Dataplane.protocolUDP else Dataplane.protocolTCP
      .ok (⟨protocol, port.servicePort, converted⟩ :: rest)

/-- The identity checks of one applied Service; the address is its virtual address. -/
def appliedVIP (cluster : String) (seen : List String) (service : Api.Service) : Option Addr :=
  (parseAddr service.vip).filter fun vip ↦
    validID service.nodeGroup && validNamespace service.ns && validID service.name &&
      !decide (service.identity ∈ seen) && service.fqdn == serviceFqdn service.ns service.name &&
      vip.is6 && vip == Dataplane.deriveVIP cluster service.ns service.name

/-- A DNS zone: the addresses of each name. -/
abbrev Zone := GoMap String (List Addr)

def convertServices (cluster : String) (seen : List String) (zone : Zone) :
    List Api.Service → Except String (List Dataplane.Service × Zone)
  | [] => .ok ([], zone)
  | service :: services =>
    match appliedVIP cluster seen service with
    | none => .error ("invalid service VIP \"" ++ service.vip ++ "\"")
    | some vip => do
      let ports ← convertPorts service.backends [] service.ports
      let (rest, zone) ← convertServices cluster (service.identity :: seen)
        (zone.insert service.fqdn [vip]) services
      .ok (⟨vip, ports⟩ :: rest, zone)

/-- The dataplane snapshot and DNS zone a snapshot stands for on this node. -/
def Controller.applyModel (controller : Controller) (snapshot : Snapshot) :
    Except String (Dataplane.Snapshot × Zone) := do
  let (services, zone) ← convertServices controller.cluster [] ∅
    (controller.effectiveServices snapshot)
  .ok (⟨controller.nodeIPv6, services⟩, zone)

/-- What `Apply` changes: the zone DNS serves and the health. The last field is history: the models the
dataplane was called with. -/
structure Serving where
  zone : Zone
  healthy : Bool
  reconciled : List Dataplane.Snapshot

/-- `Apply` with its effects, and the error it returns. -/
def Controller.applyTo (controller : Controller) (reconcile : Dataplane.Snapshot → Except String Unit)
    (serving : Serving) (snapshot : Snapshot) : Serving × Option String :=
  match controller.applyModel snapshot with
  | .error message => (serving, some message)
  | .ok (model, zone) =>
    let called := { serving with reconciled := serving.reconciled ++ [model] }
    match reconcile model with
    | .error message => ({ called with healthy := false }, some message)
    | .ok () => ({ called with zone := zone, healthy := true }, none)

theorem Controller.applyTo_of_ok {controller : Controller}
    {reconcile : Dataplane.Snapshot → Except String Unit} (serving : Serving) {snapshot : Snapshot}
    {model : Dataplane.Snapshot} {zone : Zone} (hmodel : controller.applyModel snapshot = .ok (model, zone))
    (hreconcile : reconcile model = .ok ()) :
    controller.applyTo reconcile serving snapshot =
      (⟨zone, true, serving.reconciled ++ [model]⟩, none) := by
  unfold Controller.applyTo
  rw [hmodel]
  dsimp only
  rw [hreconcile]

end Podmin.Agent.Service
