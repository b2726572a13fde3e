import Podmin.Agent.Coordinator.Capacity
import Podmin.Agent.Coordinator.HonestReport
import Podmin.Agent.Service.Converts

/-!
# Accepted reports are applicable

What `handle` accepts passes the later checks of `Apply` and `compile` on every node, with one
exception: the ports of an endpoint are compared with the contract as joined text, and a port whose
protocol is neither TCP nor UDP can have the text of a contract port without being it. `Apply` then
misses a target.
-/

namespace Podmin.Agent.Coordination

open Foundation Netip Transition Fallible
open Api Manifest Agent.Service

open scoped List

/-! ## Targets of matched ports -/

section Targets

variable {item : Api.Service} {ports : List TargetPort}

/-- A matched port of one of the two protocols is the contract's port. -/
theorem mem_of_matched (hvalid : ∀ port ∈ item.ports, validPort port = true)
    (hmatched : MatchedPorts item ports) {port : TargetPort} (hport : port ∈ ports)
    (htransport : TargetPort.Transport port) : port ∈ item.ports := by
  obtain ⟨claimed, hclaimed, hidentity⟩ := List.mem_map.mp (hmatched.2.2 port hport)
  have hsame := portIdentity_inj (validPort_iff.mp (hvalid claimed hclaimed)).1 htransport hidentity
  exact hsame ▸ hclaimed

/-- Ports of a contract item with one protocol and service port are the same. -/
theorem port_eq_of_targets (hnodup : (item.ports.map portKey).Nodup) {port other : TargetPort}
    (hport : port ∈ item.ports) (hother : other ∈ item.ports) (htargets : targets port other = true) :
    other = port := by
  obtain ⟨_, hprotocol, hnumber⟩ := targets_iff.mp htargets
  apply List.inj_on_of_nodup_map hnodup hother hport
  rw [portKey, portKey, hprotocol, hnumber]

section Valid

variable (hvalid : ∀ port ∈ item.ports, validPort port = true) (hnodup : (item.ports.map portKey).Nodup)
  (hmatched : MatchedPorts item ports)

include hvalid hnodup hmatched

/-- When every matched port has one of the two protocols, each contract port has exactly one
target. -/
theorem filter_targets_of_transport (htransport : ∀ port ∈ ports, TargetPort.Transport port) {port : TargetPort}
    (hport : port ∈ item.ports) : ports.filter (targets port) = [port] := by
  have hperm : ports ~ item.ports := by
    have hsubperm : ports.Subperm item.ports := (hmatched.2.1.of_map _).subperm fun other hother ↦
      mem_of_matched hvalid hmatched hother (htransport other hother)
    exact hsubperm.perm_of_length_le hmatched.1.ge
  apply List.perm_singleton.mp
  rw [List.perm_ext_iff_of_nodup ((hmatched.2.1.of_map _).filter _) (List.nodup_singleton port)]
  intro other
  rw [List.mem_filter, hperm.mem_iff, List.mem_singleton]
  constructor
  · rintro ⟨hother, htargets⟩
    exact port_eq_of_targets hnodup hport hother htargets
  · rintro rfl
    exact ⟨hport, targets_iff.mpr ⟨rfl, rfl, rfl⟩⟩

/-- When each contract port has a target, every matched port has one of the two protocols. -/
theorem transport_of_targets (htargets : ∀ port ∈ item.ports, ∃ target ∈ ports, targets port target = true) :
    ∀ port ∈ ports, TargetPort.Transport port := by
  intro port hport
  obtain ⟨claimed, hclaimed, hidentity⟩ := List.mem_map.mp (hmatched.2.2 port hport)
  have hclaimedTransport := (validPort_iff.mp (hvalid claimed hclaimed)).1
  obtain ⟨target, htarget, hfound⟩ := htargets claimed hclaimed
  have htransport : TargetPort.Transport target := by
    rw [TargetPort.Transport, (targets_iff.mp hfound).2.1]
    exact hclaimedTransport
  -- the target is the claimed port, and the text of a port occurs once
  have hsame : target = claimed := port_eq_of_targets hnodup hclaimed
    (mem_of_matched hvalid hmatched htarget htransport) hfound
  have hport' : port = target := List.inj_on_of_nodup_map hmatched.2.1 hport htarget (by
    rw [hsame, hidentity])
  exact hport' ▸ htransport

end Valid

end Targets

/-! ## A node that applies a snapshot -/

/-- A node that may receive the snapshot: its Services are parsed, its address is plain, and what it
applies fits the tables and has different virtual addresses. -/
structure Suitable (cluster : String) (controller : Controller) (snapshot : Snapshot) : Prop where
  sameCluster : controller.cluster = cluster
  nodeGroup : validID controller.nodeGroup = true
  parsed : ∀ service ∈ controller.services, ∃ document, parseService document = .ok service
  node : Dataplane.is6Only controller.nodeIPv6 = true
  vips : InjectiveVIPs cluster (controller.effectiveServices snapshot)
  ports : servicePorts (controller.effectiveServices snapshot) ≤ Dataplane.maxTableEntries
  pairs : backendPairs (controller.effectiveServices snapshot) ≤ Dataplane.maxTableEntries

/-- `Apply` reaches the dataplane, which compiles what it is given. -/
def Applies (controller : Controller) (snapshot : Snapshot) : Prop :=
  ∃ model zone, controller.applyModel snapshot = .ok (model, zone) ∧
    ∃ tables, Dataplane.compile model = .ok tables

/-- Among the registered endpoints of Services that the node keeps, every port is TCP or UDP. -/
def KeptTransport (controller : Controller) (core : Coordinator) : Prop :=
  ∀ id node state, core.nodes.lookup id = some node → node.state = some state →
    ∀ endpoint ∈ state.endpoints, ∀ item ∈ node.hello.services, item.ns = endpoint.ns →
      item.name = endpoint.service →
      keeps controller.nodeGroup (contractMap controller.contract.2) item = true →
      ∀ port ∈ endpoint.ports, TargetPort.Transport port

section Apply

variable {cluster : String} {core : Coordinator} {order : List ReceivedNode} {snapshot : Snapshot}
  {controller : Controller}

theorem validApplied_of_validItem {nodeGroup : String} (hgroup : validID nodeGroup = true)
    {item : Api.Service} (hitem : ValidItem cluster nodeGroup item) (backends : List Endpoint) :
    ValidApplied cluster { item with backends := backends } where
  nodeGroup := hitem.nodeGroup_eq ▸ hgroup
  ns := hitem.validNamespace
  name := hitem.validID
  fqdn := hitem.fqdn_eq
  vip := hitem.vip_eq

/-- A local contract item can be converted. -/
theorem Suitable.convertible_local (hsuitable : Suitable cluster controller snapshot)
    {item : Api.Service} (hitem : item ∈ controller.contract.2) : Convertible cluster item := by
  obtain ⟨service, hservice, rfl⟩ := List.mem_map.mp hitem
  obtain ⟨document, hdocument⟩ := hsuitable.parsed service (mem_sortedDesired.mp hservice)
  have hvalid := validItem_contractItem (parseService_valid hdocument) cluster controller.nodeGroup
  rw [hsuitable.sameCluster]
  refine ⟨validApplied_of_validItem hsuitable.nodeGroup hvalid [], hvalid.validPorts, hvalid.nodupPorts,
    ?_, ?_⟩
  · intro backend hbackend
    cases hbackend
  · intro port _ backend hbackend
    cases hbackend

/-- The address of a registered endpoint is a plain IPv6 address. -/
theorem Registered.plainBackend {id : String} {node : ReceivedNode} (hnode : Registered cluster id node)
    {state : NodeState} (hstate : node.state = some state) {endpoint : Endpoint}
    (hendpoint : endpoint ∈ state.endpoints) :
    ∃ address, PlainBackend endpoint address ∧ Dataplane.is6Only address = true := by
  obtain ⟨bits, hparsed, hplain⟩ := address_of_insidePrefix hnode.delegated
    (hnode.inside state hstate endpoint hendpoint)
  obtain ⟨_, _, _, huid, hglobal, _⟩ :=
    (validateNodeState_eq_ok.mp (hnode.valid state hstate)).2.1 endpoint hendpoint
  rw [globalIPv6, hparsed] at hglobal
  simp only [Addr.is6, Bool.true_and] at hglobal
  refine ⟨.v6 bits "", ⟨hparsed, rfl, hglobal, huid⟩, ?_⟩
  rw [Dataplane.is6Only, hplain]
  rfl

theorem mem_peer_endpoints {node : ReceivedNode} {endpoint : Endpoint} :
    endpoint ∈ node.peer.endpoints ↔ ∃ state, node.state = some state ∧ endpoint ∈ state.endpoints := by
  rw [Peer.endpoints, ReceivedNode.peer]
  cases node.state with
  | none => simp
  | some state => simp

/-- A kept item of the snapshot can be converted when its endpoints' ports are TCP or UDP. -/
theorem Consistent.convertible_kept (hcore : Consistent cluster core)
    (horder : order ~ core.nodes.pairs.map Prod.snd) {merged : Api.Service}
    (hmerged : merged ∈ mergedServices (order.map ReceivedNode.peer))
    (hkeeps : keeps controller.nodeGroup (contractMap controller.contract.2) merged = true)
    (htransport : KeptTransport controller core) : Convertible cluster merged := by
  have hcoherent := hcore.coherent horder
  obtain ⟨peer, hpeer, item, hitem, rfl⟩ := hcoherent.mem_mergedServices.mp hmerged
  have hcontract := hcoherent.contract peer hpeer
  have hvalid := hcontract.items item hitem
  have hbackend : ∀ backend ∈ (mergeItem (order.map ReceivedNode.peer) peer.hello.nodeGroup
      peer.hello.configDigest item).backends,
      (∃ address, PlainBackend backend address ∧ Dataplane.is6Only address = true) ∧
        ∀ port ∈ backend.ports, TargetPort.Transport port := by
    intro backend hbackend
    obtain ⟨other, hother, hgroup, hreported, hbelongs⟩ := (hcoherent.mem_backends hpeer hitem).mp hbackend
    obtain ⟨node, hnode, rfl⟩ := List.mem_map.mp hother
    obtain ⟨id, hid⟩ := (mem_order horder).mp hnode
    obtain ⟨state, hstate, hendpoint⟩ := mem_peer_endpoints.mp hreported
    have hclaimed : item ∈ node.hello.services :=
      (hcoherent.agree _ hother peer hpeer hgroup).2 ▸ hitem
    simp only [belongs, Bool.and_eq_true, beq_iff_eq] at hbelongs
    exact ⟨(hcore.registered id node hid).plainBackend hstate hendpoint,
      htransport id node state hid hstate backend hendpoint item hclaimed hbelongs.1.2.symm hbelongs.2.symm
        hkeeps⟩
  refine ⟨validApplied_of_validItem hcontract.validNodeGroup hvalid _, hvalid.validPorts, hvalid.nodupPorts,
    fun backend hmem ↦ (hbackend backend hmem).1, ?_⟩
  intro port hport backend hmem
  have hfilter := filter_targets_of_transport hvalid.validPorts hvalid.nodupPorts
    (hcoherent.backend_ports hmerged hmem) (hbackend backend hmem).2 hport
  exact ⟨port, hfilter, (validPort_iff.mp (hvalid.validPorts port hport)).2.2.2⟩

/-- On a suitable node, a snapshot of accepted registrations is applied exactly when the ports of the
endpoints it keeps are TCP or UDP. -/
theorem Consistent.applies_iff (hcore : Consistent cluster core)
    (horder : order ~ core.nodes.pairs.map Prod.snd) {generation revision : Nat} {leaderId : String}
    (hbuild : buildClusterSnapshot generation revision leaderId (order.map ReceivedNode.peer) =
      .ok snapshot)
    (hsuitable : Suitable cluster controller snapshot) :
    Applies controller snapshot ↔ KeptTransport controller core := by
  have hcoherent := hcore.coherent horder
  have hservices := buildClusterSnapshot_services hbuild
  have hnodup : (snapshot.services.map Api.Service.identity).Nodup :=
    ((hservices.map _).nodup_iff).mpr hcoherent.nodup_mergedServices
  constructor
  · rintro ⟨model, zone, happly, _⟩
    intro id node state hid hstate endpoint hendpoint item hitem hns hname hkeeps port hport
    obtain ⟨⟨converted, final⟩, hconvert, _⟩ := bind_eq_ok.mp happly
    have hpeer : node.peer ∈ order.map ReceivedNode.peer :=
      List.mem_map.mpr ⟨node, (mem_order horder).mpr ⟨id, hid⟩, rfl⟩
    have hmerged := hcoherent.mem_mergedServices.mpr ⟨node.peer, hpeer, item, hitem, rfl⟩
    have heffective := @mem_effectiveServices_of_keeps controller snapshot hnodup _
      (hservices.mem_iff.mpr hmerged) hkeeps
    have hreported := mem_peer_endpoints.mpr ⟨state, hstate, hendpoint⟩
    have hgroup := (hcoherent.endpoint_item hpeer hreported).1
    have hbackend := (hcoherent.mem_backends hpeer hitem).mpr ⟨node.peer, hpeer, rfl, hreported, by
      simp [belongs, hgroup, hns, hname]⟩
    obtain ⟨_, _, _, hports⟩ := forall₂_mem_left (convertServices_eq_ok hconvert) heffective
    have hvalid := (hcoherent.contract node.peer hpeer).items item hitem
    refine transport_of_targets hvalid.validPorts hvalid.nodupPorts
      (hcoherent.backend_ports hmerged hbackend) ?_ port hport
    intro claimed hclaimed
    obtain ⟨_, _, _, _, hbackends⟩ := forall₂_mem_left (convertPorts_eq_ok hports) hclaimed
    exact (convertBackends_eq_ok hbackends).1 endpoint hbackend
  · intro htransport
    have hconvertible : ∀ service ∈ controller.effectiveServices snapshot,
        Convertible cluster service := by
      intro service hservice
      rcases keeps_of_mem_effectiveServices hnodup hservice with ⟨hmem, hkeeps⟩ | hlocal
      · exact hcore.convertible_kept horder (hservices.mem_iff.mp hmem) hkeeps htransport
      · exact hsuitable.convertible_local hlocal
    have hdistinct := @nodup_effectiveServices controller snapshot hnodup
    obtain ⟨result, zone, hresult, hall⟩ := @convertServices_total cluster _ [] ∅ hconvertible hdistinct
      (by simp)
    refine ⟨⟨controller.nodeIPv6, result⟩, zone, ?_,
      compile_converted hall hconvertible hdistinct hsuitable.vips hsuitable.node hsuitable.ports
        hsuitable.pairs⟩
    rw [Controller.applyModel, hsuitable.sameCluster, hresult]
    rfl

end Apply

/-- Registrations that `handle` has accepted can always be merged, and the snapshot is applicable on
every suitable node exactly when the ports of the endpoints the node keeps are TCP or UDP. -/
theorem accepted_applies_iff {config : Config} {owner : String → String} {leader : Leader}
    (hreach : Reachable (leaderSystem config owner) leader) {order : List ReceivedNode}
    (horder : order ~ leader.core.nodes.pairs.map Prod.snd) (generation revision : Nat)
    (leaderId : String) :
    ∃ snapshot, buildClusterSnapshot generation revision leaderId (order.map ReceivedNode.peer) =
        .ok snapshot ∧
      ∀ controller, Suitable config.cluster controller snapshot →
        (Applies controller snapshot ↔ KeptTransport controller leader.core) := by
  have hconsistent := (sound_of_reachable hreach).consistent
  obtain ⟨snapshot, hbuild⟩ :=
    buildClusterSnapshot_total (hconsistent.disjointGroups horder) generation revision leaderId
  exact ⟨snapshot, hbuild, fun controller hsuitable ↦ hconsistent.applies_iff horder hbuild hsuitable⟩

/-! ## A port that only reads like the contract's -/

/-- A contract port whose name contains a NUL. -/
def splitPort : TargetPort := ⟨"a\x00b", "TCP", 80, 80⟩

/-- The same text with the NUL in the protocol. -/
def shiftedPort : TargetPort := ⟨"a", "b\x00TCP", 80, 80⟩

/-- A leader at which a node has registered the contract port and reported the endpoint port. -/
theorem reachable_web {port reported : TargetPort} (hport : validPort port = true)
    (hidentity : portIdentity reported = portIdentity port) :
    ∃ leader : Leader, Reachable (leaderSystem workersConfig fun _ ↦ "node-2") leader ∧
      leader.core.nodes.pairs = [("node-2", ⟨plainHello "cluster" ⟨"node-2", "workers"⟩ "session"
        [webItem "cluster" port], some ⟨"session", 1, plainDigest, [webEndpoint reported]⟩, 0,
        plainPrefix⟩)] := by
  obtain ⟨leader, hreach, hnodes, _⟩ := @reachable_report workersConfig (fun _ ↦ "node-2") Leader.fresh
    ⟨"node-2", "workers"⟩ "session" [webItem "cluster" port] 0 0
    ⟨"session", 1, plainDigest, [webEndpoint reported]⟩ (.init rfl) rfl
    ⟨by decide, by decide, validContract_web "cluster" hport, rfl, rfl⟩ rfl rfl
    (validateNodeState_plain "cluster" hidentity _ _ _) (insidePrefix_plain _ _ _)
  exact ⟨leader, hreach, by rw [hnodes]; rfl⟩

/-- A node of another NodeGroup without Services of its own. -/
def bystander : Controller where
  cluster := "cluster"
  nodeGroup := "others"
  nodeIPv6 := .v6 0x20010db8000000000000000000000001#128 ""
  services := []
  pods := ∅

/-- The bystander may receive any snapshot of the registrations above. -/
theorem suitable_bystander {leader : Leader} {port reported : TargetPort}
    (hreach : Reachable (leaderSystem workersConfig fun _ ↦ "node-2") leader)
    (hnodes : leader.core.nodes.pairs = [("node-2", ⟨plainHello "cluster" ⟨"node-2", "workers"⟩ "session"
      [webItem "cluster" port], some ⟨"session", 1, plainDigest, [webEndpoint reported]⟩, 0,
      plainPrefix⟩)])
    {snapshot : Snapshot} (hbuild : publishBuild workersConfig leader.core
      (leader.core.nodes.pairs.map Prod.snd) = .ok snapshot) :
    Suitable "cluster" bystander snapshot := by
  have hconsistent := (sound_of_reachable hreach).consistent
  have horder : leader.core.nodes.pairs.map Prod.snd ~ leader.core.nodes.pairs.map Prod.snd := .refl _
  have hcoherent := hconsistent.coherent horder
  have hservices := buildClusterSnapshot_services hbuild
  have hnodup : (snapshot.services.map Api.Service.identity).Nodup :=
    ((hservices.map _).nodup_iff).mpr hcoherent.nodup_mergedServices
  have hitems : ∀ item ∈ snapshot.services, item.nodeGroup = "workers" ∧ item.identity = "default\x00web" := by
    intro item hitem
    obtain ⟨peer, hpeer, claimed, hclaimed, rfl⟩ :=
      hcoherent.mem_mergedServices.mp (hservices.mem_iff.mp hitem)
    rw [hnodes] at hpeer
    obtain rfl := List.mem_singleton.mp hpeer
    obtain rfl := List.mem_singleton.mp hclaimed
    exact ⟨rfl, rfl⟩
  have heffective := @effectiveServices_perm bystander snapshot hnodup rfl fun item hitem ↦ by
    rw [(hitems item hitem).1]
    decide
  obtain ⟨hports, hpairs⟩ := hconsistent.published_size horder hbuild
  refine ⟨rfl, by decide, by simp [bystander], by decide, ?_, ?_, ?_⟩
  · intro left hleft right hright _
    rw [(hitems left (heffective.mem_iff.mp hleft)).2, (hitems right (heffective.mem_iff.mp hright)).2]
  · rw [servicePorts_perm heffective, hports, registeredPorts_single hnodes]
    simp [servicePorts, plainHello, plainItem, Dataplane.maxTableEntries]
  · rw [backendPairs_perm heffective, hpairs, reportedPorts, hnodes]
    simp [ReceivedNode.peer, Peer.endpoints, endpointPorts, plainEndpoint, Dataplane.maxTableEntries]

/-- `handle` accepts the shifted port, and a node of another NodeGroup cannot apply the snapshot. -/
theorem shifted_port_blocks :
    ∃ leader snapshot, Reachable (leaderSystem workersConfig fun _ ↦ "node-2") leader ∧
      publishBuild workersConfig leader.core (leader.core.nodes.pairs.map Prod.snd) = .ok snapshot ∧
      Suitable "cluster" bystander snapshot ∧ ¬Applies bystander snapshot := by
  obtain ⟨leader, hreach, hnodes⟩ := @reachable_web splitPort shiftedPort (by decide) (by decide)
  have hconsistent := (sound_of_reachable hreach).consistent
  obtain ⟨snapshot, hbuild⟩ := hconsistent.publishBuild_total workersConfig (List.Perm.refl _)
  have hsuitable := suitable_bystander hreach hnodes hbuild
  refine ⟨leader, snapshot, hreach, hbuild, hsuitable, ?_⟩
  rw [hconsistent.applies_iff (List.Perm.refl _) hbuild hsuitable]
  intro htransport
  have hnode := GoMap.mem_pairs.mp (hnodes ▸ List.mem_singleton.mpr rfl)
  have hport := htransport _ _ _ hnode rfl _ (List.mem_singleton.mpr rfl) _ (List.mem_singleton.mpr rfl)
    rfl rfl (by decide) shiftedPort (List.mem_singleton.mpr rfl)
  exact absurd hport (by unfold TargetPort.Transport; decide)

/-- The same contract and report with an ordinary port are applied. -/
theorem accepted_applies_iff_ordinary :
    ∃ leader snapshot, Reachable (leaderSystem workersConfig fun _ ↦ "node-2") leader ∧
      Suitable "cluster" bystander snapshot ∧ Applies bystander snapshot := by
  obtain ⟨leader, hreach, hnodes⟩ := @reachable_web httpPort httpPort (by decide) rfl
  obtain ⟨snapshot, hbuild, happlies⟩ := accepted_applies_iff hreach (List.Perm.refl _)
    leader.core.generation (nextRevision leader.core) workersConfig.nodeId
  have hsuitable := suitable_bystander hreach hnodes hbuild
  refine ⟨leader, snapshot, hreach, hsuitable, (happlies bystander hsuitable).mpr ?_⟩
  intro id node state hid hstate endpoint hendpoint _ _ _ _ _ port hport
  have hentry := GoMap.mem_pairs.mpr hid
  rw [hnodes, List.mem_singleton, Prod.mk.injEq] at hentry
  obtain ⟨_, rfl⟩ := hentry
  cases hstate
  obtain rfl := List.mem_singleton.mp hendpoint
  obtain rfl := List.mem_singleton.mp hport
  exact .inl rfl

end Podmin.Agent.Coordination
