import Podmin.Agent.Coordinator.Isolation
import Podmin.Agent.Service.PortIdentity

/-!
# The size of a published snapshot

The dataplane tables hold a fixed number of service ports and of pairs of a port and a backend, over
all Services. `handle` limits the Services of a contract and the endpoints of a report instead. A
published snapshot fits exactly when the ports of the registered contracts and the ports of the
reported endpoints do.
-/

namespace Podmin.Agent.Coordination

open Foundation Transition Api Agent.Service

open scoped List

/-! ## Sizes -/

/-- A snapshot that stays within the capacity of the tables. -/
def FitsTables (snapshot : Snapshot) : Prop :=
  servicePorts snapshot.services ≤ Dataplane.maxTableEntries ∧
    backendPairs snapshot.services ≤ Dataplane.maxTableEntries

def endpointPorts (endpoints : List Endpoint) : Nat :=
  (endpoints.map fun endpoint ↦ endpoint.ports.length).sum

/-- The ports of the registered contracts, each NodeGroup counted once. -/
def registeredPorts (core : Coordinator) : Nat :=
  ((core.nodes.pairs.map fun entry ↦
    (entry.2.hello.nodeGroup, servicePorts entry.2.hello.services)).dedup.map Prod.snd).sum

/-- The ports of the reported endpoints. -/
def reportedPorts (core : Coordinator) : Nat :=
  (core.nodes.pairs.map fun entry ↦ endpointPorts entry.2.peer.endpoints).sum

section Sizes

variable {cluster : String} {peers : List Peer}

theorem sum_map_flatMap {Item Part : Type*} (count : Part → Nat) (items : List Item)
    (collect : Item → List Part) :
    ((items.flatMap collect).map count).sum = (items.map fun item ↦ ((collect item).map count).sum).sum := by
  induction items with
  | nil => rfl
  | cons item items ih =>
    rw [List.flatMap_cons, List.map_append, List.sum_append, List.map_cons, List.sum_cons, ← ih]

theorem endpointPorts_flatMap {Item : Type*} (items : List Item) (collect : Item → List Endpoint) :
    endpointPorts (items.flatMap collect) = (items.map fun item ↦ endpointPorts (collect item)).sum :=
  sum_map_flatMap _ items collect

theorem servicePorts_flatMap {Item : Type*} (items : List Item) (collect : Item → List Api.Service) :
    servicePorts (items.flatMap collect) = (items.map fun item ↦ servicePorts (collect item)).sum :=
  sum_map_flatMap _ items collect

/-- Merging keeps the ports of a contract. -/
theorem servicePorts_mergeItem (nodeGroup digest : String) (services : List Api.Service) :
    servicePorts (services.map (mergeItem peers nodeGroup digest)) = servicePorts services := by
  rw [servicePorts, List.map_map]
  rfl

/-- Each NodeGroup contributes the ports of its contract once. -/
theorem servicePorts_mergedServices (hcoherent : Coherent cluster peers) :
    servicePorts (mergedServices peers) = ((peers.map fun peer ↦
      (peer.hello.nodeGroup, servicePorts peer.hello.services)).dedup.map Prod.snd).sum := by
  have hgroups : ((sortedNodeGroups peers).map fun nodeGroup ↦
      (nodeGroup, servicePorts (groupServices peers nodeGroup))) ~
      (peers.map fun peer ↦ (peer.hello.nodeGroup, servicePorts peer.hello.services)).dedup := by
    rw [List.perm_ext_iff_of_nodup]
    · rintro ⟨nodeGroup, count⟩
      simp only [List.mem_map, List.mem_dedup, mem_sortedNodeGroups, Prod.mk.injEq]
      constructor
      · rintro ⟨_, ⟨peer, hpeer, rfl⟩, rfl, rfl⟩
        refine ⟨peer, hpeer, rfl, ?_⟩
        rw [hcoherent.groupServices_eq hpeer, servicePorts_mergeItem]
      · rintro ⟨peer, hpeer, rfl, rfl⟩
        refine ⟨_, ⟨peer, hpeer, rfl⟩, rfl, ?_⟩
        rw [hcoherent.groupServices_eq hpeer, servicePorts_mergeItem]
    · exact (nodup_sortedNodeGroups peers).map fun _ _ heq ↦ (Prod.mk.inj heq).1
    · exact List.nodup_dedup _
  rw [mergedServices, servicePorts_flatMap, ← (hgroups.map Prod.snd).sum_eq, List.map_map]
  rfl

/-- Every backend counts with the ports of its Service, which are its own. -/
theorem backendPairs_mergedServices (hcoherent : Coherent cluster peers) :
    backendPairs (mergedServices peers) = (peers.map fun peer ↦ endpointPorts peer.endpoints).sum := by
  have hitem : ∀ item ∈ mergedServices peers,
      item.ports.length * item.backends.length = endpointPorts item.backends := by
    intro item hitem
    have hports : item.backends.map (fun endpoint ↦ endpoint.ports.length) =
        item.backends.map fun _ ↦ item.ports.length :=
      List.map_congr_left fun endpoint hendpoint ↦ (hcoherent.backend_ports hitem hendpoint).1
    rw [endpointPorts, hports]
    simp [Nat.mul_comm]
  calc backendPairs (mergedServices peers)
      = ((mergedServices peers).map fun item ↦ endpointPorts item.backends).sum := by
        rw [backendPairs, List.map_congr_left hitem]
    _ = endpointPorts ((mergedServices peers).flatMap Api.Service.backends) :=
        (endpointPorts_flatMap _ _).symm
    _ = endpointPorts (peers.flatMap Peer.endpoints) :=
        (hcoherent.mergedServices_backends.map _).sum_eq
    _ = (peers.map fun peer ↦ endpointPorts peer.endpoints).sum := endpointPorts_flatMap _ _

end Sizes

/-! ## Publications -/

section Publish

variable {config : Config} {owner : String → String} {core : Coordinator} {order : List ReceivedNode}

/-- What a publication of consistent registrations measures. -/
theorem Consistent.published_size (hcore : Consistent config.cluster core)
    (horder : order ~ core.nodes.pairs.map Prod.snd) {snapshot : Snapshot}
    (hbuild : publishBuild config core order = .ok snapshot) :
    servicePorts snapshot.services = registeredPorts core ∧
      backendPairs snapshot.services = reportedPorts core := by
  have hcoherent := hcore.coherent horder
  have hservices := buildClusterSnapshot_services hbuild
  constructor
  · rw [servicePorts_perm hservices, servicePorts_mergedServices hcoherent, List.map_map, registeredPorts]
    apply List.Perm.sum_eq
    apply List.Perm.map
    apply List.Perm.dedup
    have hperm := horder.map fun node ↦ (node.hello.nodeGroup, servicePorts node.hello.services)
    rw [List.map_map] at hperm
    exact hperm
  · rw [backendPairs_perm hservices, backendPairs_mergedServices hcoherent, List.map_map, reportedPorts]
    have hperm := horder.map fun node ↦ endpointPorts node.peer.endpoints
    rw [List.map_map] at hperm
    exact hperm.sum_eq

/-- In every run a published snapshot fits the tables exactly when the registered contracts and the
reported endpoints do. -/
theorem published_fits_iff {leader next : Leader} {now : Int} {snapshot : Snapshot}
    (hreach : Reachable (leaderSystem config owner) leader)
    (hpublish : leader.Step config owner (.publish now snapshot) next) :
    FitsTables snapshot ↔ registeredPorts leader.core ≤ Dataplane.maxTableEntries ∧
      reportedPorts leader.core ≤ Dataplane.maxTableEntries := by
  cases hpublish with
  | publish now horder hbuild =>
    obtain ⟨hports, hpairs⟩ := (sound_of_reachable hreach).consistent.published_size horder hbuild
    rw [FitsTables, hports, hpairs]

end Publish

/-! ## A contract with too many ports -/

/-- Every TCP port, and two UDP ports. -/
def widePorts : List TargetPort :=
  (List.range 65535).map (fun index ↦ ⟨"", "TCP", index + 1, index + 1⟩) ++
    [⟨"", "UDP", 1, 1⟩, ⟨"", "UDP", 2, 2⟩]

theorem length_widePorts : widePorts.length = 65537 := by
  simp [widePorts]

theorem validPort_widePorts : ∀ port ∈ widePorts, validPort port = true := by
  intro port hport
  rw [validPort_iff]
  rcases List.mem_append.mp hport with htcp | hudp
  · obtain ⟨index, hindex, rfl⟩ := List.mem_map.mp htcp
    have hbound := List.mem_range.mp hindex
    refine ⟨.inl rfl, ?_, ?_, ?_, ?_⟩
    all_goals
      dsimp only
      omega
  · rcases List.mem_pair.mp hudp with rfl | rfl
    · exact ⟨.inr rfl, by decide⟩
    · exact ⟨.inr rfl, by decide⟩

theorem nodup_widePorts : (widePorts.map portKey).Nodup := by
  rw [widePorts, List.map_append, List.map_map]
  refine List.Nodup.append ?_ (by decide) ?_
  · refine List.nodup_range.map ?_
    intro left right heq
    have hnumber := (portKey_inj heq).2
    dsimp only at hnumber
    omega
  · intro key htcp hudp
    obtain ⟨index, _, rfl⟩ := List.mem_map.mp htcp
    obtain ⟨port, hport, heq⟩ := List.mem_map.mp hudp
    have hprotocol := (portKey_inj heq).1
    rcases List.mem_pair.mp hport with rfl | rfl
    · simp at hprotocol
    · simp at hprotocol

theorem registeredPorts_single {core : Coordinator} {id : String} {node : ReceivedNode}
    (hnodes : core.nodes.pairs = [(id, node)]) : registeredPorts core = servicePorts node.hello.services := by
  simp [registeredPorts, hnodes]

/-- A node with this contract joins, and its contract is published. -/
theorem wide_contract_published :
    ∃ leader next snapshot, Reachable (leaderSystem workersConfig fun _ ↦ "node-2") leader ∧
      leader.Step workersConfig (fun _ ↦ "node-2") (.publish 0 snapshot) next ∧
      servicePorts snapshot.services = 65537 ∧ ¬FitsTables snapshot := by
  have hcontract := @validContract_item "cluster" "workers" "wide" widePorts (by decide) (by decide)
    validPort_widePorts nodup_widePorts
  have hjoin := @reachable_join workersConfig (fun _ ↦ "node-2") Leader.fresh ⟨"node-2", "workers"⟩
    "session" _ 0 0 (.init rfl) rfl ⟨by decide, by decide, hcontract, rfl, rfl⟩
  have hconsistent := (sound_of_reachable hjoin).consistent
  obtain ⟨snapshot, hsnapshot⟩ := hconsistent.publishBuild_total workersConfig (List.Perm.refl _)
  have hsize := (hconsistent.published_size (List.Perm.refl _) hsnapshot).1
  have hports : servicePorts snapshot.services = 65537 := by
    rw [hsize, registeredPorts_single rfl]
    simp [plainHello, servicePorts, plainItem, length_widePorts]
  refine ⟨_, _, snapshot, hjoin, .publish 0 (List.Perm.refl _) hsnapshot, hports, ?_⟩
  intro hfits
  exact absurd hfits.1 (by rw [hports]; decide)

/-- Two nodes with a Service and an endpoint each fit. -/
theorem published_fits_iff_pair :
    ∃ leader next snapshot, Reachable (leaderSystem workersConfig sessionOwner) leader ∧
      leader.Step workersConfig sessionOwner (.publish 0 snapshot) next ∧
      registeredPorts leader.core = 2 ∧ reportedPorts leader.core = 2 ∧ FitsTables snapshot := by
  obtain ⟨leader, hreach, hnodes⟩ := reachable_pair
  obtain ⟨snapshot, hsnapshot⟩ :=
    (sound_of_reachable hreach).consistent.publishBuild_total workersConfig (List.Perm.refl _)
  have hpublish : leader.Step workersConfig sessionOwner (.publish 0 snapshot) _ :=
    .publish 0 (List.Perm.refl _) hsnapshot
  have hports : registeredPorts leader.core = 2 := by
    rw [registeredPorts, hnodes]
    rfl
  have hpairs : reportedPorts leader.core = 2 := by
    rw [reportedPorts, hnodes]
    rfl
  refine ⟨leader, _, snapshot, hreach, hpublish, hports, hpairs, (published_fits_iff hreach hpublish).mpr ?_⟩
  rw [hports, hpairs]
  decide

end Podmin.Agent.Coordination
