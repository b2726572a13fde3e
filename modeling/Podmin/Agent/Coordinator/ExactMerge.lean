import Podmin.Agent.Coordinator.Delegated
import Podmin.Agent.Coordinator.Isolation

/-!
# The merge does not depend on the order of the peers

The registrations a leader merges share one contract per NodeGroup, and every node reports endpoints inside
its own delegated prefix. An address then tells the node, and with the Pod the endpoint: sorting the backends
of a Service by address and Pod leaves nothing open, and neither does the choice of a representative for
each NodeGroup.
-/

namespace Podmin.Agent.Coordination

open Foundation Netip Api Agent.Service Fallible

variable {order : List Peer} {peer : Peer} {item : Api.Service} {cluster : String} {peers : List Peer}

/-! ## The rules of registration -/

/-- No address lies in the delegated prefixes of both peers. -/
def Apart (left right : Peer) : Prop :=
  ∀ leftRange rightRange, parsePrefix left.hello.ipv6Prefix = some leftRange →
    parsePrefix right.hello.ipv6Prefix = some rightRange →
    ∀ address, ¬(leftRange.contains address = true ∧ rightRange.contains address = true)

theorem Apart.symm {left right : Peer} (hapart : Apart left right) : Apart right left :=
  fun leftRange rightRange hleft hright address hboth ↦
    hapart rightRange leftRange hright hleft address hboth.symm

/-- What the leader asks of the peers it merges. -/
structure RegistrationRules (cluster : String) (peers : List Peer) : Prop where
  coherent : Coherent cluster peers
  inside : ∀ peer ∈ peers, ∃ range, parsePrefix peer.hello.ipv6Prefix = some range ∧
    ∀ endpoint ∈ peer.endpoints, insidePrefix range endpoint = true
  apart : peers.Pairwise Apart

instance symmApart : Std.Symm Apart := ⟨fun _ _ hapart ↦ hapart.symm⟩

/-! ## The merge in its own terms -/

/-- A Service of the snapshot: its contract, with the endpoints for it as backends. -/
structure MergeOf (peers : List Peer) (nodeGroup : String) (item merged : Api.Service) : Prop where
  contract : merged = { item with backends := merged.backends }
  backends : merged.backends.Perm (serviceEndpoints peers nodeGroup item)
  once : merged.backends.Nodup
  ordered : merged.backends.Pairwise fun left right ↦ backendLess right left = false
  determined : ∀ other : List Endpoint, other.Perm (serviceEndpoints peers nodeGroup item) →
    (other.Pairwise fun left right ↦ backendLess right left = false) → other = merged.backends

/-- Exactly the Services of the registered contracts, each in its place. -/
structure ExactMerge (peers : List Peer) (services : List Api.Service) : Prop where
  ascending : services.Pairwise fun left right ↦ toLex (left.ns, left.name) < toLex (right.ns, right.name)
  complete : ∀ peer ∈ peers, ∀ item ∈ peer.hello.services,
    ∃ merged ∈ services, MergeOf peers peer.hello.nodeGroup item merged
  sound : ∀ merged ∈ services, ∃ peer ∈ peers, ∃ item ∈ peer.hello.services,
    MergeOf peers peer.hello.nodeGroup item merged

def backendOrder (endpoint : Endpoint) : Lex (String × String) :=
  toLex (endpoint.address, endpoint.podUid)

theorem backendLess_eq (left right : Endpoint) :
    backendLess left right = decide (backendOrder left < backendOrder right) := by
  simp only [backendLess, backendOrder, Prod.Lex.toLex_lt_toLex]
  by_cases haddress : left.address = right.address
  · simp [haddress]
  · simp [haddress]

theorem sorted_backends (endpoints : List Endpoint) :
    (sortSlice backendLess endpoints).Pairwise fun left right ↦ backendLess right left = false := by
  apply (sortSlice_pairwise backendLess_eq endpoints).imp
  intro left right hle
  rw [backendLess_eq, decide_eq_false_iff_not]
  exact not_lt.mpr hle

theorem serviceEndpoints_perm (hperm : order.Perm peers) (nodeGroup : String) (item : Api.Service) :
    (serviceEndpoints order nodeGroup item).Perm (serviceEndpoints peers nodeGroup item) :=
  (hperm.flatMap_right _).filter _

theorem sortedNodeGroups_perm (hperm : order.Perm peers) :
    sortedNodeGroups order = sortedNodeGroups peers := by
  have hgroups : (sortedNodeGroups order).Perm (sortedNodeGroups peers) := by
    apply (List.perm_ext_iff_of_nodup (nodup_sortedNodeGroups order) (nodup_sortedNodeGroups peers)).mpr
    intro nodeGroup
    simp only [mem_sortedNodeGroups, hperm.mem_iff]
  have hordered : ∀ list : List Peer, (sortedNodeGroups list).Pairwise (· ≤ ·) :=
    fun list ↦ sortSlice_pairwise (fun _ _ ↦ rfl) _
  exact hgroups.eq_of_pairwise (fun _ _ _ _ ↦ le_antisymm) (hordered order) (hordered peers)

/-- A NodeGroup has one digest, whichever of its peers stands for it. -/
theorem Coherent.nodeGroupDigestText_eq (hcoherent : Coherent cluster peers) (hpeer : peer ∈ peers) :
    nodeGroupDigestText peers peer.hello.nodeGroup =
      peer.hello.nodeGroup ++ "\x00" ++ peer.hello.configDigest ++ "\x00" := by
  obtain ⟨hello, hhello, hdigest, _⟩ := hcoherent.lookup_byNodeGroup hpeer
  rw [nodeGroupDigestText, hhello]
  simp only [hdigest]

/-! ## What the rules give -/

namespace RegistrationRules

variable (hrules : RegistrationRules cluster peers)

include hrules

theorem contains (hpeer : peer ∈ peers) {endpoint : Endpoint} (hendpoint : endpoint ∈ peer.endpoints) :
    ∃ range address, parsePrefix peer.hello.ipv6Prefix = some range ∧
      parseAddr endpoint.address = some address ∧ range.contains address = true := by
  obtain ⟨range, hrange, hinside⟩ := hrules.inside peer hpeer
  have hcontains := hinside endpoint hendpoint
  unfold insidePrefix at hcontains
  split at hcontains
  · next address haddress => exact ⟨range, address, hrange, haddress, hcontains⟩
  · cases hcontains

/-- Endpoints of peers that are apart have different addresses. -/
theorem address_ne {left right : Peer}
    (hleft : left ∈ peers) (hright : right ∈ peers) (hapart : Apart left right) {first second : Endpoint}
    (hfirst : first ∈ left.endpoints) (hsecond : second ∈ right.endpoints) :
    first.address ≠ second.address := by
  intro hsame
  obtain ⟨leftRange, address, hleftRange, haddress, hcontains⟩ := hrules.contains hleft hfirst
  obtain ⟨rightRange, other, hrightRange, hother, hotherContains⟩ := hrules.contains hright hsecond
  have haddresses : address = other := Option.some.inj (by rw [← haddress, ← hother, hsame])
  subst haddresses
  exact hapart leftRange rightRange hleftRange hrightRange address ⟨hcontains, hotherContains⟩

/-! ## The order of backends -/

theorem nodup_serviceEndpoints (nodeGroup : String)
    (item : Api.Service) : (serviceEndpoints peers nodeGroup item).Nodup := by
  apply List.Nodup.filter
  rw [List.nodup_flatMap]
  constructor
  · intro peer hpeer
    unfold groupEndpoints
    split
    · exact (hrules.coherent.nodup_endpointIdentity hpeer).of_map _
    · exact List.nodup_nil
  · apply hrules.apart.imp_of_mem
    intro left right hleft hright hapart endpoint hendpoint hother
    exact hrules.address_ne hleft hright hapart (mem_groupEndpoints.mp hendpoint).2
      (mem_groupEndpoints.mp hother).2 rfl

/-- Address and Pod tell the endpoints of a Service apart. -/
theorem eq_of_backendOrder {nodeGroup : String}
    {first second : Endpoint} (hfirst : first ∈ serviceEndpoints peers nodeGroup item)
    (hsecond : second ∈ serviceEndpoints peers nodeGroup item)
    (horder : backendOrder first = backendOrder second) : first = second := by
  have hpair := Prod.mk.inj (toLex.injective horder)
  obtain ⟨⟨left, hleft, _, hfirst⟩, hns, hservice⟩ := mem_serviceEndpoints.mp hfirst
  obtain ⟨⟨right, hright, _, hsecond⟩, hotherNs, hotherService⟩ := mem_serviceEndpoints.mp hsecond
  have hpeer : left = right := by
    by_contra hne
    exact hrules.address_ne hleft hright (hrules.apart.forall hleft hright hne) hfirst hsecond hpair.1
  subst hpeer
  apply List.inj_on_of_nodup_map (hrules.coherent.nodup_endpointIdentity hleft) hfirst hsecond
  unfold endpointIdentity
  rw [hns, hotherNs, hservice, hotherService, hpair.1, hpair.2]

/-! ## Permuted peers -/

theorem mergeItem_perm (hperm : order.Perm peers)
    (hpeer : peer ∈ peers) (hitem : item ∈ peer.hello.services) :
    mergeItem order peer.hello.nodeGroup peer.hello.configDigest item =
      mergeItem peers peer.hello.nodeGroup peer.hello.configDigest item := by
  rw [(hrules.coherent.perm hperm).mergeItem_eq (hperm.mem_iff.mpr hpeer) hitem,
    hrules.coherent.mergeItem_eq hpeer hitem,
    sortSlice_congr backendLess_eq
      (fun first hfirst second hsecond ↦ hrules.eq_of_backendOrder hfirst hsecond)
      (serviceEndpoints_perm hperm peer.hello.nodeGroup item)]

theorem mergedServices_perm (hperm : order.Perm peers) :
    (mergedServices order).Perm (mergedServices peers) := by
  have horder := hrules.coherent.perm hperm
  apply (List.perm_ext_iff_of_nodup (horder.nodup_mergedServices.of_map _)
    (hrules.coherent.nodup_mergedServices.of_map _)).mpr
  intro merged
  rw [horder.mem_mergedServices, hrules.coherent.mem_mergedServices]
  constructor
  · rintro ⟨peer, hpeer, item, hitem, rfl⟩
    have hmem := hperm.mem_iff.mp hpeer
    exact ⟨peer, hmem, item, hitem, (hrules.mergeItem_perm hperm hmem hitem).symm⟩
  · rintro ⟨peer, hpeer, item, hitem, rfl⟩
    exact ⟨peer, hperm.mem_iff.mpr hpeer, item, hitem, hrules.mergeItem_perm hperm hpeer hitem⟩

theorem buildClusterSnapshot_perm (hperm : order.Perm peers) (generation revision : Nat) (leader : String) :
    buildClusterSnapshot generation revision leader order =
      buildClusterSnapshot generation revision leader peers := by
  have horder := hrules.coherent.perm hperm
  have hdigests : (sortedNodeGroups peers).map (nodeGroupDigestText order) =
      (sortedNodeGroups peers).map (nodeGroupDigestText peers) := by
    apply List.map_congr_left
    intro nodeGroup hnodeGroup
    obtain ⟨peer, hpeer, rfl⟩ := mem_sortedNodeGroups.mp hnodeGroup
    rw [Coherent.nodeGroupDigestText_eq horder (hperm.mem_iff.mpr hpeer),
      Coherent.nodeGroupDigestText_eq hrules.coherent hpeer]
  have hservices : sortSlice serviceLess (mergedServices order) =
      sortSlice serviceLess (mergedServices peers) :=
    sortSlice_congr serviceLess_eq
      (fun left hleft right hright ↦ hrules.coherent.eq_of_serviceOrder hleft hright)
      (hrules.mergedServices_perm hperm)
  rw [horder.buildClusterSnapshot_eq, hrules.coherent.buildClusterSnapshot_eq, sortedNodeGroups_perm hperm,
    hdigests, hservices]

/-! ## The merged Services -/

theorem mergeOf (hpeer : peer ∈ peers) (hitem : item ∈ peer.hello.services) :
    MergeOf peers peer.hello.nodeGroup item
      (mergeItem peers peer.hello.nodeGroup peer.hello.configDigest item) := by
  rw [hrules.coherent.mergeItem_eq hpeer hitem]
  constructor
  · rfl
  · exact sortSlice_perm _ _
  · exact (sortSlice_perm _ _).nodup_iff.mpr (hrules.nodup_serviceEndpoints _ _)
  · exact sorted_backends _
  · intro other hperm hordered
    apply eq_sortSlice backendLess_eq _ hperm
    · apply hordered.imp
      intro left right hless
      rwa [backendLess_eq, decide_eq_false_iff_not, not_lt] at hless
    · exact fun first hfirst second hsecond ↦ hrules.eq_of_backendOrder hfirst hsecond

theorem exactMerge :
    ExactMerge peers (sortSlice serviceLess (mergedServices peers)) where
  ascending := by
    have hdistinct : ((sortSlice serviceLess (mergedServices peers)).map Api.Service.identity).Nodup :=
      ((sortSlice_perm _ _).map _).nodup_iff.mpr hrules.coherent.nodup_mergedServices
    rw [List.nodup_iff_pairwise_ne, List.pairwise_map] at hdistinct
    apply (sortSlice_pairwise serviceLess_eq (mergedServices peers)).imp₂ _ hdistinct
    intro left right hle hne
    have hpair : toLex (left.ns, left.name) ≠ toLex (right.ns, right.name) := by
      intro heq
      have hparts := Prod.mk.inj (toLex.injective heq)
      exact hne (by rw [Api.Service.identity, Api.Service.identity, hparts.1, hparts.2])
    apply lt_of_le_of_ne _ hpair
    simp only [serviceOrder, Prod.Lex.toLex_le_toLex] at hle ⊢
    rcases hle with hns | ⟨hns, hname | ⟨hname, _⟩⟩
    · exact .inl hns
    · exact .inr ⟨hns, hname.le⟩
    · exact .inr ⟨hns, hname.le⟩
  complete peer hpeer item hitem :=
    ⟨_, mem_sortSlice.mpr (hrules.coherent.mem_mergedServices.mpr ⟨peer, hpeer, item, hitem, rfl⟩),
      hrules.mergeOf hpeer hitem⟩
  sound merged hmerged := by
    obtain ⟨peer, hpeer, item, hitem, rfl⟩ :=
      hrules.coherent.mem_mergedServices.mp (mem_sortSlice.mp hmerged)
    exact ⟨peer, hpeer, item, hitem, hrules.mergeOf hpeer hitem⟩

end RegistrationRules

/-- Peers that keep the rules are merged, into one snapshot in whatever order they come, and exactly. -/
theorem merge_exact (cluster : String) (peers : List Peer) (hrules : RegistrationRules cluster peers)
    (generation revision : Nat) (leader : String) : ∃ snapshot,
    (∀ order : List Peer, order.Perm peers →
      buildClusterSnapshot generation revision leader order = .ok snapshot) ∧
    ExactMerge peers snapshot.services := by
  have hbuild := hrules.coherent.buildClusterSnapshot_eq generation revision leader
  exact ⟨_, fun order hperm ↦ (hrules.buildClusterSnapshot_perm hperm _ _ _).trans hbuild,
    hrules.exactMerge⟩

/-- What a leader has registered keeps the rules if no two nodes were delegated overlapping prefixes. -/
theorem Consistent.registrationRules {cluster : String} {core : Coordinator}
    (hcore : Consistent cluster core) {order : List ReceivedNode}
    (horder : order.Perm (core.nodes.pairs.map Prod.snd))
    (hapart : (order.map ReceivedNode.peer).Pairwise Apart) :
    RegistrationRules cluster (order.map ReceivedNode.peer) where
  coherent := hcore.coherent horder
  inside peer hpeer := by
    obtain ⟨node, hnode, rfl⟩ := List.mem_map.mp hpeer
    obtain ⟨id, hid⟩ := (mem_order horder).mp hnode
    have hregistered := hcore.registered id node hid
    refine ⟨node.range, hregistered.parsed, ?_⟩
    intro endpoint hendpoint
    unfold Peer.endpoints at hendpoint
    cases hstate : node.state with
    | none => simp [ReceivedNode.peer, hstate] at hendpoint
    | some state =>
      have hreported : endpoint ∈ state.endpoints := by simpa [ReceivedNode.peer, hstate] using hendpoint
      exact hregistered.inside state hstate endpoint hreported
  apart := hapart

/-! ## Two nodes of one NodeGroup -/

/-- A node that reports the endpoint of its Service. -/
def reportingPeer : Peer :=
  ⟨plainHello "cluster" ⟨"node-1", "workers"⟩ "session-1" [webItem "cluster" httpPort],
    some ⟨"session-1", 1, plainDigest, [webEndpoint httpPort]⟩⟩

/-- A node that has not reported yet. -/
def silentPeer : Peer :=
  ⟨{ plainHello "cluster" ⟨"node-2", "workers"⟩ "session-2" [webItem "cluster" httpPort] with
      ipv6Prefix := "fd00:0:0:0:1::/80" }, none⟩

theorem registrationRules_pair : RegistrationRules "cluster" [silentPeer, reportingPeer] where
  coherent := by
    have hcontract := validContract_web "cluster" (by decide : validPort httpPort = true)
    constructor
    · simpa using ⟨hcontract, hcontract⟩
    · simp [silentPeer, reportingPeer, plainHello]
    · simp [DisjointGroups, silentPeer, reportingPeer, plainHello]
    · simp [silentPeer, reportingPeer, plainHello]
    · intro peer hpeer state hstate
      rcases List.mem_pair.mp hpeer with rfl | rfl
      · cases hstate
      · cases hstate
        exact validateNodeState_plain "cluster" rfl "session-1" 1 plainDigest
  inside peer hpeer := by
    rcases List.mem_pair.mp hpeer with rfl | rfl
    · exact ⟨⟨.v6 0xfd000000000000000001000000000000#128 "", 80⟩, by decide, by
        simp [silentPeer, Peer.endpoints]⟩
    · exact ⟨plainPrefix, parsePrefix_plain, insidePrefix_plain _ _ httpPort⟩
  apart := by
    rw [List.pairwise_pair]
    intro left right hleft hright address hboth
    have hsilent : parsePrefix "fd00:0:0:0:1::/80" =
        some ⟨.v6 0xfd000000000000000001000000000000#128 "", 80⟩ := by decide
    cases hleft.symm.trans hsilent
    cases hright.symm.trans parsePrefix_plain
    obtain ⟨bits, rfl, hsame⟩ := bits_of_contains hboth.1
    obtain ⟨_, hbits, hother⟩ := bits_of_contains hboth.2
    cases hbits
    exact absurd (hsame.trans hother.symm) (by decide)

/-- The two nodes are merged into one snapshot, whichever comes first. -/
theorem merge_exact_pair : ∃ snapshot,
    buildClusterSnapshot 1 1 "node-1" [silentPeer, reportingPeer] = .ok snapshot ∧
    buildClusterSnapshot 1 1 "node-1" [reportingPeer, silentPeer] = .ok snapshot ∧
    ExactMerge [silentPeer, reportingPeer] snapshot.services := by
  obtain ⟨snapshot, hbuild, hexact⟩ := merge_exact "cluster" [silentPeer, reportingPeer]
    registrationRules_pair 1 1 "node-1"
  exact ⟨snapshot, hbuild _ (.refl _), hbuild _ (.swap _ _ _), hexact⟩

end Podmin.Agent.Coordination
