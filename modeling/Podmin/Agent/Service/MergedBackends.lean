import Mathlib.Data.Prod.Lex
import Podmin.Agent.Service.ContractIdentity
import Podmin.Agent.Service.MergedSnapshot
import Podmin.Foundation.Grouping

/-!
# Where the backends of a snapshot come from

The registrations of a leader are coherent: contracts are valid, those of one NodeGroup are equal,
and every node state was checked against the contract of its node. Merging coherent registrations
puts every reported endpoint into the backends of exactly one Service, which has its ports.
-/

namespace Podmin.Agent.Service

open Foundation Grouping Api

open scoped List

variable {peer : Peer} {endpoint : Endpoint} {nodeGroup : String} {item : Api.Service}
  {cluster : String} {peers : List Peer}

/-- What the leader's checks leave of the registrations. -/
structure Coherent (cluster : String) (peers : List Peer) : Prop where
  contract : ∀ peer ∈ peers, ValidContract cluster peer.hello.nodeGroup peer.hello.configDigest
    peer.hello.services
  agree : ∀ left ∈ peers, ∀ right ∈ peers, left.hello.nodeGroup = right.hello.nodeGroup →
    left.hello.configDigest = right.hello.configDigest ∧ left.hello.services = right.hello.services
  disjoint : DisjointGroups peers
  digest : ∀ peer ∈ peers, ∀ state, peer.state = some state →
    state.configDigest = peer.hello.configDigest
  valid : ∀ peer ∈ peers, ∀ state, peer.state = some state →
    validateNodeState peer.hello.nodeGroup peer.hello.services state = .ok ()

/-- The endpoints a peer reports. -/
def Peer.endpoints (peer : Peer) : List Endpoint :=
  peer.state.elim [] NodeState.endpoints

/-- Whether an endpoint is one of a Service. -/
def belongs (nodeGroup : String) (item : Api.Service) (endpoint : Endpoint) : Bool :=
  endpoint.nodeGroup == nodeGroup && endpoint.ns == item.ns && endpoint.service == item.name

theorem peerEndpoints_of_ne {digest : String} (hgroup : nodeGroup ≠ peer.hello.nodeGroup) :
    peerEndpoints nodeGroup digest item peer = [] := by
  unfold peerEndpoints
  split
  · rfl
  · rw [if_pos (.inl (Ne.symm hgroup))]

/-- The endpoints a peer contributes to the Services of a NodeGroup. -/
def groupEndpoints (nodeGroup : String) (peer : Peer) : List Endpoint :=
  if peer.hello.nodeGroup = nodeGroup then peer.endpoints else []

/-- The endpoints for a Service in the states of the peers of its NodeGroup. -/
def serviceEndpoints (peers : List Peer) (nodeGroup : String) (item : Api.Service) : List Endpoint :=
  (peers.flatMap (groupEndpoints nodeGroup)).filter fun endpoint ↦
    endpoint.ns == item.ns && endpoint.service == item.name

theorem mem_groupEndpoints :
    endpoint ∈ groupEndpoints nodeGroup peer ↔
      peer.hello.nodeGroup = nodeGroup ∧ endpoint ∈ peer.endpoints := by
  unfold groupEndpoints
  split
  · next hgroup => simp [hgroup]
  · next hgroup => simp [hgroup]

theorem mem_serviceEndpoints :
    endpoint ∈ serviceEndpoints peers nodeGroup item ↔
      (∃ peer ∈ peers, peer.hello.nodeGroup = nodeGroup ∧ endpoint ∈ peer.endpoints) ∧
        endpoint.ns = item.ns ∧ endpoint.service = item.name := by
  simp only [serviceEndpoints, List.mem_filter, List.mem_flatMap, mem_groupEndpoints, Bool.and_eq_true,
    beq_iff_eq]

def serviceOrder (item : Api.Service) : Lex (String × Lex (String × String)) :=
  toLex (item.ns, toLex (item.name, item.nodeGroup))

theorem serviceLess_eq (left right : Api.Service) :
    serviceLess left right = decide (serviceOrder left < serviceOrder right) := by
  simp only [serviceLess, serviceOrder, Prod.Lex.toLex_lt_toLex]
  by_cases hns : left.ns = right.ns
  · by_cases hname : left.name = right.name
    · simp [hns, hname]
    · simp [hns, hname]
  · simp [hns]

theorem identity_of_serviceOrder {left right : Api.Service} (horder : serviceOrder left = serviceOrder right) :
    left.identity = right.identity := by
  have hpair := Prod.mk.inj (toLex.injective horder)
  have hname := (Prod.mk.inj (toLex.injective hpair.2)).1
  rw [Api.Service.identity, Api.Service.identity, hpair.1, hname]

namespace Coherent

variable (hcoherent : Coherent cluster peers)

include hcoherent

/-- The contract of a NodeGroup is that of each of its nodes. -/
theorem lookup_byNodeGroup (hpeer : peer ∈ peers) :
    ∃ hello, (byNodeGroup peers).lookup peer.hello.nodeGroup = some hello ∧
      hello.configDigest = peer.hello.configDigest ∧ hello.services = peer.hello.services := by
  obtain ⟨hello, hhello⟩ := exists_byNodeGroup hpeer
  obtain ⟨other, hother, rfl, hgroup⟩ := Service.lookup_byNodeGroup hhello
  exact ⟨other.hello, hhello, hcoherent.agree other hother peer hpeer hgroup⟩

theorem groupServices_eq (hpeer : peer ∈ peers) :
    groupServices peers peer.hello.nodeGroup =
      peer.hello.services.map (mergeItem peers peer.hello.nodeGroup peer.hello.configDigest) := by
  obtain ⟨hello, hhello, hdigest, hservices⟩ := hcoherent.lookup_byNodeGroup hpeer
  rw [groupServices, hhello]
  simp only [hdigest, hservices]

/-- The Service an endpoint reported by a peer belongs to. -/
theorem endpoint_item (hpeer : peer ∈ peers) (hendpoint : endpoint ∈ peer.endpoints) :
    endpoint.nodeGroup = peer.hello.nodeGroup ∧ ∃ item ∈ peer.hello.services,
      item.ns = endpoint.ns ∧ item.name = endpoint.service ∧ MatchedPorts item endpoint.ports := by
  rw [Peer.endpoints] at hendpoint
  cases hstate : peer.state with
  | none => simp [hstate] at hendpoint
  | some state =>
    rw [hstate, Option.elim_some] at hendpoint
    have hvalid := (validateNodeState_eq_ok.mp (hcoherent.valid peer hpeer state hstate)).2.1
      endpoint hendpoint
    obtain ⟨_, _, hgroup, _⟩ := id hvalid
    exact ⟨hgroup, ValidEndpoint.item (hcoherent.contract peer hpeer) hvalid⟩

theorem peerEndpoints_eq (hpeer : peer ∈ peers) (item : Api.Service) :
    peerEndpoints peer.hello.nodeGroup peer.hello.configDigest item peer =
      peer.endpoints.filter (belongs peer.hello.nodeGroup item) := by
  unfold peerEndpoints Peer.endpoints
  cases hstate : peer.state with
  | none => rfl
  | some state =>
    have hdigest := hcoherent.digest peer hpeer state hstate
    simp only [ne_eq, not_true_eq_false, hdigest, or_self, if_false, Option.elim_some]
    rfl

/-- The endpoints of a peer are distributed over the Services of its contract. -/
theorem distributed (hpeer : peer ∈ peers) :
    (peer.hello.services.flatMap fun item ↦
      peerEndpoints peer.hello.nodeGroup peer.hello.configDigest item peer) ~ peer.endpoints := by
  simp only [hcoherent.peerEndpoints_eq hpeer]
  have hcontract := hcoherent.contract peer hpeer
  apply flatMap_filter_perm (hcontract.nodup.of_map _)
  intro endpoint hendpoint
  obtain ⟨hgroup, item, hitem, hns, hname, _⟩ := hcoherent.endpoint_item hpeer hendpoint
  refine ⟨item, hitem, by simp [belongs, hgroup, hns, hname], ?_⟩
  intro other hother hbelongs
  simp only [belongs, Bool.and_eq_true, beq_iff_eq] at hbelongs
  exact hcontract.item_eq hother hitem (by rw [← hbelongs.1.2, hns]) (by rw [← hbelongs.2, hname])

/-! ## Merged Services -/

theorem mem_mergedServices {merged : Api.Service} :
    merged ∈ mergedServices peers ↔ ∃ peer ∈ peers, ∃ item ∈ peer.hello.services,
      mergeItem peers peer.hello.nodeGroup peer.hello.configDigest item = merged := by
  simp only [mergedServices, List.mem_flatMap, mem_sortedNodeGroups]
  constructor
  · rintro ⟨_, ⟨peer, hpeer, rfl⟩, hmerged⟩
    rw [hcoherent.groupServices_eq hpeer, List.mem_map] at hmerged
    exact ⟨peer, hpeer, hmerged⟩
  · rintro ⟨peer, hpeer, hmerged⟩
    refine ⟨peer.hello.nodeGroup, ⟨peer, hpeer, rfl⟩, ?_⟩
    rw [hcoherent.groupServices_eq hpeer, List.mem_map]
    exact hmerged

/-- No two merged Services have one identity. -/
theorem nodup_mergedServices :
    ((mergedServices peers).map Api.Service.identity).Nodup := by
  rw [mergedServices, List.map_flatMap, List.nodup_flatMap]
  constructor
  · intro nodeGroup hnodeGroup
    obtain ⟨peer, hpeer, rfl⟩ := mem_sortedNodeGroups.mp hnodeGroup
    rw [hcoherent.groupServices_eq hpeer, List.map_map]
    exact (hcoherent.contract peer hpeer).nodup
  · refine (nodup_sortedNodeGroups peers).imp_of_mem ?_
    intro left right hleft hright hne identity hidentity hotherIdentity
    obtain ⟨peer, hpeer, rfl⟩ := mem_sortedNodeGroups.mp hleft
    obtain ⟨other, hother, rfl⟩ := mem_sortedNodeGroups.mp hright
    dsimp only at hidentity hotherIdentity
    rw [hcoherent.groupServices_eq hpeer, List.map_map] at hidentity
    rw [hcoherent.groupServices_eq hother, List.map_map] at hotherIdentity
    obtain ⟨item, hitem, rfl⟩ := List.mem_map.mp hidentity
    obtain ⟨claimed, hclaimed, hsame⟩ := List.mem_map.mp hotherIdentity
    exact hcoherent.disjoint peer hpeer other hother hne item hitem claimed hclaimed hsame.symm

/-- The backends of a merged Service are endpoints of the nodes of its NodeGroup. -/
theorem mem_backends (hpeer : peer ∈ peers) (hitem : item ∈ peer.hello.services) :
    endpoint ∈ (mergeItem peers peer.hello.nodeGroup peer.hello.configDigest item).backends ↔
      ∃ other ∈ peers, other.hello.nodeGroup = peer.hello.nodeGroup ∧ endpoint ∈ other.endpoints ∧
        belongs peer.hello.nodeGroup item endpoint = true := by
  rw [mergeItem, mem_sortSlice, ((hcoherent.contract peer hpeer).items item hitem).backends_eq,
    List.nil_append, List.mem_flatMap]
  constructor
  · rintro ⟨other, hother, hendpoint⟩
    by_cases hgroup : peer.hello.nodeGroup = other.hello.nodeGroup
    · rw [hgroup, ← (hcoherent.agree other hother peer hpeer hgroup.symm).1,
        hcoherent.peerEndpoints_eq hother, List.mem_filter] at hendpoint
      exact ⟨other, hother, hgroup.symm, hendpoint.1, hgroup ▸ hendpoint.2⟩
    · simp [peerEndpoints_of_ne hgroup] at hendpoint
  · rintro ⟨other, hother, hgroup, hendpoint, hbelongs⟩
    refine ⟨other, hother, ?_⟩
    rw [← hgroup, ← (hcoherent.agree other hother peer hpeer hgroup).1, hcoherent.peerEndpoints_eq hother,
      List.mem_filter]
    exact ⟨hendpoint, hgroup ▸ hbelongs⟩

/-- Every backend has the ports of its Service. -/
theorem backend_ports {merged : Api.Service}
    (hmerged : merged ∈ mergedServices peers) {endpoint : Endpoint} (hendpoint : endpoint ∈ merged.backends) :
    MatchedPorts merged endpoint.ports := by
  obtain ⟨peer, hpeer, item, hitem, rfl⟩ := hcoherent.mem_mergedServices.mp hmerged
  obtain ⟨other, hother, hgroup, hreported, hbelongs⟩ := (hcoherent.mem_backends hpeer hitem).mp hendpoint
  obtain ⟨_, claimed, hclaimed, hns, hname, hports⟩ := hcoherent.endpoint_item hother hreported
  rw [(hcoherent.agree other hother peer hpeer hgroup).2] at hclaimed
  simp only [belongs, Bool.and_eq_true, beq_iff_eq] at hbelongs
  have hsame : claimed = item := (hcoherent.contract peer hpeer).item_eq hclaimed hitem
    (by rw [hns, hbelongs.1.2]) (by rw [hname, hbelongs.2])
  exact hsame ▸ hports

theorem groupServices_backends (hpeer : peer ∈ peers) :
    (groupServices peers peer.hello.nodeGroup).flatMap Api.Service.backends ~
      peers.flatMap (groupEndpoints peer.hello.nodeGroup) := by
  rw [hcoherent.groupServices_eq hpeer, List.flatMap_map]
  calc (peer.hello.services.flatMap fun item ↦
        (mergeItem peers peer.hello.nodeGroup peer.hello.configDigest item).backends)
      ~ peer.hello.services.flatMap fun item ↦
          peers.flatMap (peerEndpoints peer.hello.nodeGroup peer.hello.configDigest item) := by
        apply List.Perm.flatMap_left
        intro item hitem
        rw [mergeItem, ((hcoherent.contract peer hpeer).items item hitem).backends_eq, List.nil_append]
        exact sortSlice_perm _ _
    _ ~ peers.flatMap fun other ↦ peer.hello.services.flatMap fun item ↦
          peerEndpoints peer.hello.nodeGroup peer.hello.configDigest item other :=
        flatMap_comm_perm _ _ _
    _ ~ peers.flatMap (groupEndpoints peer.hello.nodeGroup) := by
        apply List.Perm.flatMap_left
        intro other hother
        by_cases hgroup : other.hello.nodeGroup = peer.hello.nodeGroup
        · obtain ⟨hdigest, hservices⟩ := hcoherent.agree other hother peer hpeer hgroup
          rw [groupEndpoints, if_pos hgroup, ← hgroup, ← hdigest, ← hservices]
          exact hcoherent.distributed hother
        · rw [groupEndpoints, if_neg hgroup]
          simp only [peerEndpoints_of_ne (Ne.symm hgroup), List.flatMap_eq_nil_iff.mpr fun _ _ ↦ rfl]
          exact List.Perm.refl _

/-- The backends of all Services are the endpoints of all nodes. -/
theorem mergedServices_backends :
    (mergedServices peers).flatMap Api.Service.backends ~ peers.flatMap Peer.endpoints := by
  rw [mergedServices, List.flatMap_assoc]
  calc ((sortedNodeGroups peers).flatMap fun nodeGroup ↦
        (groupServices peers nodeGroup).flatMap Api.Service.backends)
      ~ (sortedNodeGroups peers).flatMap fun nodeGroup ↦ peers.flatMap (groupEndpoints nodeGroup) := by
        apply List.Perm.flatMap_left
        intro nodeGroup hnodeGroup
        obtain ⟨peer, hpeer, rfl⟩ := mem_sortedNodeGroups.mp hnodeGroup
        exact hcoherent.groupServices_backends hpeer
    _ ~ peers.flatMap fun peer ↦ (sortedNodeGroups peers).flatMap fun nodeGroup ↦
          groupEndpoints nodeGroup peer := flatMap_comm_perm _ _ _
    _ ~ peers.flatMap Peer.endpoints := by
        apply List.Perm.flatMap_left
        intro peer hpeer
        have hmem : peer.hello.nodeGroup ∈ sortedNodeGroups peers :=
          mem_sortedNodeGroups.mpr ⟨peer, hpeer, rfl⟩
        rw [flatMap_eq_single (nodup_sortedNodeGroups peers) hmem]
        · rw [groupEndpoints, if_pos rfl]
        · intro other _ hne
          rw [groupEndpoints, if_neg (Ne.symm hne)]

/-! ## The endpoints of a Service -/

theorem perm {order : List Peer} (hperm : order.Perm peers) :
    Coherent cluster order where
  contract peer hpeer := hcoherent.contract peer (hperm.mem_iff.mp hpeer)
  agree left hleft right hright :=
    hcoherent.agree left (hperm.mem_iff.mp hleft) right (hperm.mem_iff.mp hright)
  disjoint left hleft right hright :=
    hcoherent.disjoint left (hperm.mem_iff.mp hleft) right (hperm.mem_iff.mp hright)
  digest peer hpeer := hcoherent.digest peer (hperm.mem_iff.mp hpeer)
  valid peer hpeer := hcoherent.valid peer (hperm.mem_iff.mp hpeer)

theorem nodup_endpointIdentity (hpeer : peer ∈ peers) :
    (peer.endpoints.map endpointIdentity).Nodup := by
  unfold Peer.endpoints
  cases hstate : peer.state with
  | none => exact List.nodup_nil
  | some state =>
    exact (validateNodeState_eq_ok.mp (hcoherent.valid peer hpeer state hstate)).2.2

theorem flatMap_peerEndpoints (hpeer : peer ∈ peers) (item : Api.Service) :
    peers.flatMap (peerEndpoints peer.hello.nodeGroup peer.hello.configDigest item) =
      serviceEndpoints peers peer.hello.nodeGroup item := by
  rw [serviceEndpoints, List.filter_flatMap]
  apply List.flatMap_congr
  intro other hother
  by_cases hgroup : other.hello.nodeGroup = peer.hello.nodeGroup
  · rw [groupEndpoints, if_pos hgroup, ← hgroup, ← (hcoherent.agree other hother peer hpeer hgroup).1,
      hcoherent.peerEndpoints_eq hother]
    apply List.filter_congr
    intro endpoint hendpoint
    simp [belongs, (hcoherent.endpoint_item hother hendpoint).1]
  · rw [peerEndpoints_of_ne (Ne.symm hgroup), groupEndpoints, if_neg hgroup, List.filter_nil]

/-- A merged Service is its contract with the endpoints of its NodeGroup in order. -/
theorem mergeItem_eq (hpeer : peer ∈ peers) (hitem : item ∈ peer.hello.services) :
    mergeItem peers peer.hello.nodeGroup peer.hello.configDigest item =
      { item with
        backends := sortSlice backendLess (serviceEndpoints peers peer.hello.nodeGroup item) } := by
  rw [mergeItem, ((hcoherent.contract peer hpeer).items item hitem).backends_eq, List.nil_append,
    hcoherent.flatMap_peerEndpoints hpeer]

/-! ## The order of the merged Services -/

/-- Only equal merged Services take the same place. -/
theorem eq_of_serviceOrder {left right : Api.Service}
    (hleft : left ∈ mergedServices peers) (hright : right ∈ mergedServices peers)
    (horder : serviceOrder left = serviceOrder right) : left = right :=
  List.inj_on_of_nodup_map hcoherent.nodup_mergedServices hleft hright (identity_of_serviceOrder horder)

/-- The snapshot that coherent registrations build. -/
theorem buildClusterSnapshot_eq (generation revision : Nat) (leader : String) :
    buildClusterSnapshot generation revision leader peers = .ok
      { generation := generation
        revision := revision
        leaderId := leader
        configDigest := sha512Hex (String.join ((sortedNodeGroups peers).map (nodeGroupDigestText peers)))
        services := sortSlice serviceLess (mergedServices peers) } := by
  obtain ⟨snapshot, hbuild⟩ := buildClusterSnapshot_total hcoherent.disjoint generation revision leader
  have hservices := buildClusterSnapshot_services hbuild
  rw [hbuild]
  obtain ⟨merged, _, hsnapshot⟩ := Fallible.bind_eq_ok.mp hbuild
  cases hsnapshot
  have hsorted : sortSlice serviceLess merged.2 = sortSlice serviceLess (mergedServices peers) :=
    eq_sortSlice serviceLess_eq
      (fun left hleft right hright horder ↦ hcoherent.eq_of_serviceOrder hleft hright horder) hservices
      (sortSlice_pairwise serviceLess_eq merged.2)
  rw [hsorted]

end Coherent

end Podmin.Agent.Service
