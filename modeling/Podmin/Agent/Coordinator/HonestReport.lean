import Podmin.Agent.Coordinator.Delegated
import Podmin.Agent.Coordinator.Isolation
import Podmin.Agent.Service.PortIdentity

/-!
# What an honest node reports

The contract a controller builds from parsed Services passes the leader's checks. The node state it
builds passes as well, and lies inside the delegated prefix, exactly when every Pod that a Service
selects has its address there.
-/

namespace Podmin.Agent.Coordination

open Foundation Netip Api Manifest Agent.Service Pods Sha512

variable {char : Char} {service : Manifest.Service} {uid : String} {pod : Pods.Pod}

/-! ## The contract -/

/-- Services are sorted by namespace and name. -/
def desiredKey (service : Manifest.Service) : String ×ₗ String :=
  toLex (service.ns, service.name)

theorem desiredLess_eq (left right : Manifest.Service) :
    desiredLess left right = decide (desiredKey left < desiredKey right) := by
  simp only [desiredLess, desiredKey, Prod.Lex.toLex_lt_toLex]
  by_cases hns : left.ns = right.ns
  · simp [hns]
  · simp [hns]

theorem nul_lt_of_isLabelChar (hchar : isLabelChar char = true) : '\x00' < char := by
  have hne := nul_not_isLabelChar hchar
  rw [Char.lt_def, UInt32.lt_iff_toNat_lt]
  have hval : char.val.toNat ≠ 0 := by
    intro hzero
    apply hne
    apply Char.ext
    apply UInt32.toNat_inj.mp
    rw [hzero]
    rfl
  exact Nat.pos_of_ne_zero hval

/-- The joined identities ascend as namespace and name do. -/
theorem identity_lt {left right : Manifest.Service} (hright : right.Valid)
    (hlt : desiredKey left < desiredKey right) :
    left.ns ++ "\x00" ++ left.name < right.ns ++ "\x00" ++ right.name := by
  rw [String.lt_iff_toList_lt]
  simp only [String.toList_append]
  rw [show "\x00".toList = ['\x00'] from rfl, List.append_assoc, List.append_assoc,
    List.singleton_append, List.singleton_append]
  rw [desiredKey, desiredKey, Prod.Lex.toLex_lt_toLex] at hlt
  rcases hlt with hns | ⟨hns, hname⟩
  · exact Text.append_separator_lt
      (fun char hchar ↦ nul_lt_of_isLabelChar (validNamespace_chars hright.ns char hchar))
      (String.lt_iff_toList_lt.mp hns) _ _
  · dsimp only at hns hname
    rw [hns]
    apply List.append_left_lt
    exact List.cons_lt_cons_iff.mpr (.inr ⟨rfl, String.lt_iff_toList_lt.mp hname⟩)

/-- The desired Services of one node: parsed, with different identities, and not too many. -/
structure Desired (services : List Manifest.Service) : Prop where
  parsed : ∀ service ∈ services, ∃ document, parseService document = .ok service
  distinct : (services.map fun service ↦ (service.ns, service.name)).Nodup
  limit : services.length ≤ 10000

section Contract

variable {services : List Manifest.Service}

theorem Desired.valid (hdesired : Desired services) (hservice : service ∈ services) : service.Valid := by
  obtain ⟨_, hparse⟩ := hdesired.parsed service hservice
  exact parseService_valid hparse

theorem mem_sortedDesired :
    service ∈ sortedDesired services ↔ service ∈ services :=
  mem_sortSlice

theorem sortedDesired_ascending (hdistinct : (services.map fun service ↦ (service.ns, service.name)).Nodup) :
    (sortedDesired services).Pairwise fun left right ↦ desiredKey left < desiredKey right := by
  have hordered := sortSlice_pairwise desiredLess_eq services
  have hsorted : ((sortedDesired services).map fun service ↦ (service.ns, service.name)).Nodup :=
    (((sortSlice_perm desiredLess services).map _).nodup_iff).mpr hdistinct
  rw [List.nodup_iff_pairwise_ne, List.pairwise_map] at hsorted
  exact hordered.imp₂ (fun left right hle hne ↦ lt_of_le_of_ne hle fun heq ↦ hne (toLex.injective heq))
    hsorted

theorem Desired.ascending (hdesired : Desired services) :
    (sortedDesired services).Pairwise fun left right ↦ desiredKey left < desiredKey right :=
  sortedDesired_ascending hdesired.distinct

theorem validItem_contractItem (hservice : service.Valid) (cluster nodeGroup : String) :
    ValidItem cluster nodeGroup (contractItem cluster nodeGroup service) where
  nodeGroup_eq := rfl
  validNamespace := hservice.ns
  validID := hservice.name
  fqdn_eq := rfl
  vip_eq := rfl
  backends_eq := rfl
  validPorts := by
    intro port hport
    obtain ⟨desired, hdesired, rfl⟩ := List.mem_map.mp hport
    exact validPort_wirePort (hservice.ports desired hdesired)
  nodupPorts := nodup_portKey_wirePort hservice

theorem isHexDigit_of_isLowerHex (hchar : isLowerHex char = true) :
    isHexDigit char = true := by
  simp only [isLowerHex, Bool.or_eq_true, Bool.and_eq_true, decide_eq_true_eq] at hchar
  simp only [isHexDigit, Bool.or_eq_true, Bool.and_eq_true, decide_eq_true_eq]
  tauto

theorem utf8Size_of_isLowerHex (hchar : isLowerHex char = true) :
    char.utf8Size = 1 := by
  simp only [isLowerHex, Bool.or_eq_true, Bool.and_eq_true, decide_eq_true_eq, Char.le_def] at hchar
  have hsmall : char.val ≤ 0x7f := by
    rcases hchar with ⟨_, hchar⟩ | ⟨_, hchar⟩
    · exact UInt32.le_trans hchar (by decide)
    · exact UInt32.le_trans hchar (by decide)
  exact if_pos hsmall

theorem digestDesired_size (desired : List Manifest.Service) :
    (digestDesired desired).utf8ByteSize = 128 := by
  have hchars := hexEncode_isLowerHex
    (sum512 (Text.utf8Bytes (String.join ((sortedDesired desired).map digestText))))
  rw [digestDesired, sha512Hex, ← String.ofList_toList (s := hexEncode _),
    Text.utf8ByteSize_ofList, length_hexEncode, length_sum512]
  intro char hchar
  exact utf8Size_of_isLowerHex (hchars char hchar)

theorem digestDesired_hex (desired : List Manifest.Service) :
    hexDecodes (digestDesired desired) = true := by
  rw [hexDecodes, digestDesired, sha512Hex, length_hexEncode, length_sum512,
    Bool.and_eq_true, List.all_eq_true]
  exact ⟨rfl, fun char hchar ↦ isHexDigit_of_isLowerHex (hexEncode_isLowerHex _ char hchar)⟩

/-- The contract of parsed Services is valid. -/
theorem Desired.validContract (hdesired : Desired services) (cluster : String) {nodeGroup : String}
    (hgroup : validID nodeGroup = true) :
    ValidContract cluster nodeGroup (digestDesired services)
      (desiredContract cluster nodeGroup services) where
  validNodeGroup := hgroup
  digestSize := digestDesired_size services
  digestHex := digestDesired_hex services
  limit := by
    rw [desiredContract, List.length_map, sortedDesired, (sortSlice_perm _ _).length_eq]
    exact hdesired.limit
  items := by
    intro item hitem
    obtain ⟨service, hservice, rfl⟩ := List.mem_map.mp hitem
    exact validItem_contractItem (hdesired.valid (mem_sortedDesired.mp hservice)) cluster nodeGroup
  ascending := by
    rw [desiredContract, List.pairwise_map, List.pairwise_map]
    refine hdesired.ascending.imp_of_mem ?_
    intro left right _ hright hlt
    exact identity_lt (hdesired.valid (mem_sortedDesired.mp hright)) hlt

end Contract

/-! ## The Pods -/

/-- The events of a watch concern Pods with a UID. -/
def NamedEvent : WatchEvent → Prop
  | .initialSyncComplete => True
  | .deleted value => value.uid ≠ ""
  | .updated value => value.uid ≠ ""

/-- A Pod view the watcher can hold. -/
def Watched (pods : Pods.Snapshot) : Prop :=
  ∃ events : List Pods.WatchEvent, (∀ event ∈ events, NamedEvent event) ∧
    pods = events.foldl Pods.consume ∅

theorem lookup_consume {pods : Pods.Snapshot} {event : Pods.WatchEvent} (hevent : NamedEvent event)
    (hlookup : (Pods.consume pods event).lookup uid = some pod) :
    pods.lookup uid = some pod ∨ ∃ value, value.uid = uid ∧ uid ≠ "" ∧ pod = Pods.project value := by
  cases event with
  | initialSyncComplete => exact .inl hlookup
  | deleted value =>
    rw [Pods.consume, GoMap.lookup_erase_eq] at hlookup
    split at hlookup
    · cases hlookup
    · exact .inl hlookup
  | updated value =>
    rw [Pods.consume, GoMap.lookup_insert_eq] at hlookup
    split at hlookup
    · next hself =>
      cases hlookup
      exact .inr ⟨value, hself.symm, hself ▸ hevent, rfl⟩
    · exact .inl hlookup

/-- Every Pod of a view is the projection of a reported Pod, under its UID. -/
theorem Watched.project {pods : Pods.Snapshot} (hpods : Watched pods) (hlookup : pods.lookup uid = some pod) :
    ∃ value, value.uid = uid ∧ uid ≠ "" ∧ pod = Pods.project value := by
  obtain ⟨events, hevents, rfl⟩ := hpods
  suffices hgeneral : ∀ start : Pods.Snapshot,
      (events.foldl Pods.consume start).lookup uid = some pod →
      start.lookup uid = some pod ∨ ∃ value, value.uid = uid ∧ uid ≠ "" ∧ pod = Pods.project value by
    rcases hgeneral ∅ hlookup with hempty | hfound
    · simp at hempty
    · exact hfound
  clear hlookup
  induction events with
  | nil => exact fun start hstart ↦ .inl hstart
  | cons event events ih =>
    intro start hstart
    obtain ⟨hevent, hrest⟩ := List.forall_mem_cons.mp hevents
    rcases ih hrest _ hstart with hbefore | hfound
    · exact lookup_consume hevent hbefore
    · exact .inr hfound

/-- An eligible Pod has one global-unicast IPv6 address. -/
theorem project_address {value : KubeletPod} (heligible : (project value).eligible = true) :
    ∃ bits zone, (project value).address = .v6 bits zone ∧
      (Addr.v6 bits zone).isGlobalUnicast = true := by
  have hvalid : (project value).address.isValid = true := by
    simp only [project, Bool.and_eq_true] at heligible
    exact heligible.2
  have haccepted : ∀ address ∈ value.podIPs.filterMap acceptedAddress,
      address.is6 = true ∧ address.isGlobalUnicast = true := by
    intro address haddress
    obtain ⟨raw, _, hraw⟩ := List.mem_filterMap.mp haddress
    rw [acceptedAddress, Option.filter_eq_some_iff, Bool.and_eq_true] at hraw
    exact hraw.2
  simp only [project] at hvalid ⊢
  generalize value.podIPs.filterMap acceptedAddress = addresses at hvalid haccepted
  match addresses with
  | [] => cases hvalid
  | [address] =>
    obtain ⟨his6, hglobal⟩ := haccepted address List.mem_cons_self
    cases address with
    | invalid => cases his6
    | v4 bits => cases his6
    | v6 bits zone => exact ⟨bits, zone, rfl, hglobal⟩
  | _ :: _ :: _ => cases hvalid

/-! ## The node state -/

/-- Every Pod that a desired Service selects has its address in the delegated prefix. -/
def SelectedInside (controller : Controller) (range : Prefix) : Prop :=
  ∀ service ∈ controller.services, ∀ uid pod, controller.pods.lookup uid = some pod →
    selects service pod = true → range.contains pod.address = true

section Report

variable {controller : Controller} {range : Prefix} {session : String} {sequence : Nat}

theorem mem_nodeState_endpoints {endpoint : Endpoint} :
    endpoint ∈ (controller.nodeState session sequence).endpoints ↔
      ∃ service ∈ controller.services, ∃ uid pod, controller.pods.lookup uid = some pod ∧
        selects service pod = true ∧ endpoint = endpointOf controller.nodeGroup service pod := by
  simp only [Controller.nodeState, mem_sortSlice, List.mem_flatMap, mem_sortedDesired, List.mem_map,
    List.mem_filter, Prod.exists, exists_eq_right, GoMap.mem_pairs]
  constructor
  · rintro ⟨service, hservice, pod, ⟨⟨uid, hpod⟩, hselects⟩, rfl⟩
    exact ⟨service, hservice, uid, pod, hpod, hselects, rfl⟩
  · rintro ⟨service, hservice, uid, pod, hpod, hselects, rfl⟩
    exact ⟨service, hservice, pod, ⟨⟨uid, hpod⟩, hselects⟩, rfl⟩

theorem eligible_of_selects (hselects : selects service pod = true) : pod.eligible = true := by
  simp only [selects, Bool.and_eq_true] at hselects
  exact hselects.1.1

/-- The address of a selected Pod of a watched view. -/
theorem selected_address (hpods : Watched controller.pods) (hpod : controller.pods.lookup uid = some pod)
    (hselects : selects service pod = true) :
    pod.uid = uid ∧ uid ≠ "" ∧ ∃ bits zone, pod.address = .v6 bits zone ∧
      (Addr.v6 bits zone).isGlobalUnicast = true := by
  obtain ⟨value, huid, hne, rfl⟩ := hpods.project hpod
  exact ⟨huid, hne, project_address (eligible_of_selects hselects)⟩

theorem inside_iff_selectedInside (hpods : Watched controller.pods) :
    (∀ endpoint ∈ (controller.nodeState session sequence).endpoints,
      insidePrefix range endpoint = true) ↔ SelectedInside controller range := by
  constructor
  · intro hinside service hservice uid pod hpod hselects
    obtain ⟨_, _, bits, zone, haddress, _⟩ := selected_address hpods hpod hselects
    have hendpoint := hinside _ (mem_nodeState_endpoints.mpr
      ⟨service, hservice, uid, pod, hpod, hselects, rfl⟩)
    rw [insidePrefix_string (by rw [endpointOf, haddress])] at hendpoint
    rw [haddress]
    exact hendpoint
  · intro hselected endpoint hendpoint
    obtain ⟨service, hservice, uid, pod, hpod, hselects, rfl⟩ := mem_nodeState_endpoints.mp hendpoint
    obtain ⟨_, _, bits, zone, haddress, _⟩ := selected_address hpods hpod hselects
    rw [insidePrefix_string (by rw [endpointOf, haddress])]
    rw [← haddress]
    exact hselected service hservice uid pod hpod hselects

theorem matchedPorts_self (hservice : service.Valid) (cluster nodeGroup : String) :
    MatchedPorts (contractItem cluster nodeGroup service) (service.ports.map wirePort) := by
  refine ⟨rfl, ?_, fun port hport ↦ List.mem_map.mpr ⟨port, hport, rfl⟩⟩
  apply nodup_portIdentity _ (nodup_portKey_wirePort hservice)
  intro port hport
  obtain ⟨desired, hdesired, rfl⟩ := List.mem_map.mp hport
  exact validPort_wirePort (hservice.ports desired hdesired)

theorem validEndpoint_endpointOf (hdesired : Desired controller.services)
    (hgroup : validID controller.nodeGroup = true) (hpods : Watched controller.pods)
    (hservice : service ∈ controller.services) (hpod : controller.pods.lookup uid = some pod)
    (hselects : selects service pod = true) :
    ValidEndpoint controller.nodeGroup (contractMap controller.contract.2)
      (endpointOf controller.nodeGroup service pod) := by
  obtain ⟨huid, hne, bits, zone, haddress, hglobal⟩ := selected_address hpods hpod hselects
  have hitem : contractItem controller.cluster controller.nodeGroup service ∈ controller.contract.2 :=
    List.mem_map.mpr ⟨service, mem_sortedDesired.mpr hservice, rfl⟩
  have hnodup := (hdesired.validContract controller.cluster hgroup).nodup
  refine ⟨_, lookup_contractMap_self hnodup hitem, rfl, ?_, ?_, matchedPorts_self (hdesired.valid hservice) _ _⟩
  · rw [endpointOf, huid]
    exact hne
  · rw [globalIPv6, endpointOf, haddress, parseAddr_string]
    simpa [Addr.is6] using hglobal

/-- Endpoints of different Services or Pods have different identities, as long as the addresses are
plain. -/
theorem endpointIdentity_inj {other : Manifest.Service} (hservice : service.Valid) (hother : other.Valid)
    {peer : Pods.Pod} {nodeGroup : String} {bits peerBits : BitVec 128} (haddress : pod.address = .v6 bits "")
    (hplain : (Addr.v6 bits "").is4In6 = false) (hpeerAddress : peer.address = .v6 peerBits "")
    (hpeerPlain : (Addr.v6 peerBits "").is4In6 = false)
    (heq : endpointIdentity (endpointOf nodeGroup service pod) =
      endpointIdentity (endpointOf nodeGroup other peer)) :
    (service.ns, service.name) = (other.ns, other.name) ∧ pod.uid = peer.uid := by
  simp only [endpointIdentity, endpointOf, haddress, hpeerAddress, nul_eq_singleton] at heq
  obtain ⟨hleading, _⟩ := Text.separated_inj_last (nul_not_mem_string hplain)
    (nul_not_mem_string hpeerPlain) heq
  have hgrouped : service.ns ++ String.singleton '\x00' ++
      (service.name ++ String.singleton '\x00' ++ pod.uid) = other.ns ++ String.singleton '\x00' ++
      (other.name ++ String.singleton '\x00' ++ peer.uid) := by
    simpa only [String.append_assoc] using hleading
  obtain ⟨hns, hrest⟩ := Text.separated_inj_first (nul_not_mem_namespace hservice.ns)
    (nul_not_mem_namespace hother.ns) hgrouped
  obtain ⟨hname, huid⟩ := Text.separated_inj_first (nul_not_mem_id hservice.name)
    (nul_not_mem_id hother.name) hrest
  exact ⟨by rw [hns, hname], huid⟩

/-- The Pods a Service selects. -/
def selectedPods (controller : Controller) (service : Manifest.Service) : List Pods.Pod :=
  (controller.pods.pairs.map Prod.snd).filter (selects service)

theorem mem_selectedPods (hpod : pod ∈ selectedPods controller service) :
    ∃ uid, controller.pods.lookup uid = some pod ∧ selects service pod = true := by
  obtain ⟨hmem, hselects⟩ := List.mem_filter.mp hpod
  obtain ⟨⟨uid, _⟩, hentry, rfl⟩ := List.mem_map.mp hmem
  exact ⟨uid, GoMap.mem_pairs.mp hentry, hselects⟩

/-- The Pods of one Service have different UIDs. -/
theorem nodup_selectedPods (hpods : Watched controller.pods) (service : Manifest.Service) :
    (selectedPods controller service).Pairwise fun pod peer ↦ pod.uid ≠ peer.uid := by
  rw [selectedPods, List.pairwise_filter, List.pairwise_map]
  have hkeys := controller.pods.nodup_pairs_keys
  rw [List.nodup_iff_pairwise_ne, List.pairwise_map] at hkeys
  refine hkeys.imp_of_mem ?_
  intro entry other hentry hother hne hselects hotherSelects heq
  obtain ⟨huid, _⟩ := selected_address hpods (GoMap.mem_pairs.mp hentry) hselects
  obtain ⟨hotherUid, _⟩ := selected_address hpods (GoMap.mem_pairs.mp hother) hotherSelects
  exact hne (huid.symm.trans (heq.trans hotherUid))

/-- Among the endpoints of a node whose selected Pods are inside, the identity tells Service and Pod
apart. -/
theorem selected_identity_inj (hdesired : Desired controller.services)
    (hrange : validDelegatedPrefix range = true) (hinside : SelectedInside controller range)
    {other : Manifest.Service} (hservice : service ∈ controller.services) (hother : other ∈ controller.services)
    {peer : Pods.Pod} (hpod : pod ∈ selectedPods controller service)
    (hpeer : peer ∈ selectedPods controller other)
    (heq : endpointIdentity (endpointOf controller.nodeGroup service pod) =
      endpointIdentity (endpointOf controller.nodeGroup other peer)) :
    (service.ns, service.name) = (other.ns, other.name) ∧ pod.uid = peer.uid := by
  obtain ⟨uid, huid, hselects⟩ := mem_selectedPods hpod
  obtain ⟨peerUid, hpeerUid, hpeerSelects⟩ := mem_selectedPods hpeer
  obtain ⟨bits, haddress, hplain⟩ :=
    plain_of_contains hrange (hinside service hservice uid pod huid hselects)
  obtain ⟨peerBits, hpeerAddress, hpeerPlain⟩ :=
    plain_of_contains hrange (hinside other hother peerUid peer hpeerUid hpeerSelects)
  exact endpointIdentity_inj (hdesired.valid hservice) (hdesired.valid hother) haddress hplain
    hpeerAddress hpeerPlain heq

theorem nodup_endpointIdentity (hdesired : Desired controller.services)
    (hrange : validDelegatedPrefix range = true) (hpods : Watched controller.pods)
    (hinside : SelectedInside controller range) :
    ((controller.nodeState session sequence).endpoints.map endpointIdentity).Nodup := by
  have hperm : (controller.nodeState session sequence).endpoints.Perm
      ((sortedDesired controller.services).flatMap fun service ↦
        (selectedPods controller service).map (endpointOf controller.nodeGroup service)) :=
    sortSlice_perm _ _
  rw [(hperm.map endpointIdentity).nodup_iff, List.map_flatMap, List.nodup_flatMap]
  constructor
  · intro service hservice
    rw [List.map_map, List.nodup_iff_pairwise_ne, List.pairwise_map]
    refine (nodup_selectedPods hpods service).imp_of_mem ?_
    intro pod peer hpod hpeer hne heq
    have hmem := mem_sortedDesired.mp hservice
    exact hne (selected_identity_inj hdesired hrange hinside hmem hmem hpod hpeer heq).2
  · refine hdesired.ascending.imp_of_mem ?_
    intro service other hservice hother hlt identity hidentity hotherIdentity
    obtain ⟨_, hendpoint, rfl⟩ := List.mem_map.mp hidentity
    obtain ⟨_, hotherEndpoint, heq⟩ := List.mem_map.mp hotherIdentity
    obtain ⟨pod, hpod, rfl⟩ := List.mem_map.mp hendpoint
    obtain ⟨peer, hpeer, rfl⟩ := List.mem_map.mp hotherEndpoint
    have hsame := (selected_identity_inj hdesired hrange hinside (mem_sortedDesired.mp hother)
      (mem_sortedDesired.mp hservice) hpeer hpod heq).1
    exact hlt.ne (congrArg toLex hsame).symm

/-- A report is accepted on behalf of a registered node exactly when it is valid and inside. -/
theorem handleNodeState_isOk {now : Int} {state : NodeState} {core : Coordinator} {id : String}
    {node : ReceivedNode} (hsession : sessionNode core state.sessionId = some (id, node))
    (hdigest : node.hello.configDigest = state.configDigest) :
    (∃ outcome, handleNodeState now state core = .ok outcome) ↔
      validateNodeState node.hello.nodeGroup node.hello.services state = .ok () ∧
        ∀ endpoint ∈ state.endpoints, insidePrefix node.range endpoint = true := by
  constructor
  · rintro ⟨outcome, houtcome⟩
    obtain ⟨found, old, hfound, ⟨hchanged, _⟩ | ⟨_, hvalid, hinside, _⟩⟩ := handleNodeState_eq_ok houtcome
    · cases hsession.symm.trans hfound
      exact absurd hdigest hchanged
    · cases hsession.symm.trans hfound
      exact ⟨hvalid, hinside⟩
  · rintro ⟨hvalid, hinside⟩
    have hall : state.endpoints.all (insidePrefix node.range) = true := List.all_eq_true.mpr hinside
    simp only [handleNodeState, hsession, hdigest, ne_eq, not_true_eq_false, if_false, hvalid, hall, bind,
      Except.bind, Bool.not_true, Bool.false_eq_true]
    split
    · exact ⟨_, rfl⟩
    · exact ⟨_, rfl⟩

/-- The contract of an honest node is always valid, and its report is accepted exactly when every
Pod that a Service selects has its address in the delegated prefix. -/
theorem honest_report_iff (hdesired : Desired controller.services)
    (hgroup : validID controller.nodeGroup = true) (hrange : validDelegatedPrefix range = true)
    (hpods : Watched controller.pods)
    (hlimit : (controller.nodeState session sequence).endpoints.length ≤ 10000) :
    validateContract controller.cluster controller.nodeGroup controller.contract.1
        controller.contract.2 = .ok () ∧
      ((validateNodeState controller.nodeGroup controller.contract.2
          (controller.nodeState session sequence) = .ok () ∧
        ∀ endpoint ∈ (controller.nodeState session sequence).endpoints,
          insidePrefix range endpoint = true) ↔ SelectedInside controller range) ∧
      ∀ (now : Int) (core : Coordinator) (id : String) (node : ReceivedNode),
        sessionNode core session = some (id, node) → node.hello.nodeGroup = controller.nodeGroup →
        node.hello.configDigest = controller.contract.1 →
        node.hello.services = controller.contract.2 → node.range = range →
        ((∃ outcome, handleNodeState now (controller.nodeState session sequence) core = .ok outcome) ↔
          SelectedInside controller range) := by
  have hreport : (validateNodeState controller.nodeGroup controller.contract.2
        (controller.nodeState session sequence) = .ok () ∧
      ∀ endpoint ∈ (controller.nodeState session sequence).endpoints,
        insidePrefix range endpoint = true) ↔ SelectedInside controller range := by
    rw [inside_iff_selectedInside hpods, and_iff_right_iff_imp]
    intro hinside
    refine validateNodeState_eq_ok.mpr ⟨hlimit, ?_, nodup_endpointIdentity hdesired hrange hpods hinside⟩
    intro endpoint hendpoint
    obtain ⟨service, hservice, uid, pod, hpod, hselects, rfl⟩ := mem_nodeState_endpoints.mp hendpoint
    exact validEndpoint_endpointOf hdesired hgroup hpods hservice hpod hselects
  refine ⟨validateContract_eq_ok.mpr (hdesired.validContract controller.cluster hgroup), hreport, ?_⟩
  intro now core id node hsession hnodeGroup hdigest hservices hnodeRange
  have hsessionId : sessionNode core (controller.nodeState session sequence).sessionId =
      some (id, node) := hsession
  rw [handleNodeState_isOk hsessionId hdigest, hnodeGroup, hservices, hnodeRange]
  exact hreport

end Report

/-! ## A Pod on the host network -/

def appSelector : GoMap String String :=
  (∅ : GoMap String String).insert "app" "web"

def webService : Manifest.Service :=
  ⟨"web", "default", appSelector, [⟨"http", "TCP", 80, 80⟩]⟩

theorem desired_webService : Desired [webService] where
  parsed service hservice := by
    obtain rfl := List.mem_singleton.mp hservice
    exact ⟨⟨"v1", "Service", "web", "", appSelector, [⟨"http", "TCP", 80, none⟩]⟩, rfl⟩
  distinct := List.nodup_singleton _
  limit := by simp

/-- A ready Pod that the Service selects, with the given address. -/
def webPod (address : String) : KubeletPod where
  uid := "uid"
  ns := "default"
  labels := appSelector
  podIPs := [address]
  conditions := [⟨"Ready", "True"⟩]
  phase := "Running"
  deleted := false

def webController (address : String) : Controller where
  cluster := "cluster"
  nodeGroup := "workers"
  nodeIPv6 := .v6 0x20010db8000000000000000000000001#128 ""
  services := [webService]
  pods := consume ∅ (.updated (webPod address))

theorem watched_webController (address : String) : Watched (webController address).pods :=
  ⟨[.updated (webPod address)], by simp [NamedEvent, webPod], rfl⟩

/-- A Pod inside the delegated prefix is reported and accepted. -/
theorem honest_report_iff_inside :
    SelectedInside (webController "fd00::1") plainPrefix ∧
      validateNodeState "workers" (webController "fd00::1").contract.2
        ((webController "fd00::1").nodeState "session" 1) = .ok () := by
  have hreport := @honest_report_iff (webController "fd00::1") _ _ _ desired_webService
    (by decide) validDelegatedPrefix_plain (watched_webController "fd00::1")
    (by decide : ((webController "fd00::1").nodeState "session" 1).endpoints.length ≤ 10000)
  have hinside : ∀ endpoint ∈ ((webController "fd00::1").nodeState "session" 1).endpoints,
      insidePrefix plainPrefix endpoint = true := by decide
  have hselected := (inside_iff_selectedInside (watched_webController "fd00::1")).mp hinside
  exact ⟨hselected, (hreport.2.1.mpr hselected).1⟩

/-- A Pod on the host network has the node's address, which is not in the delegated prefix. Its
Service selects it, and the leader refuses the report. -/
theorem hostNetwork_refused :
    Desired (webController "2001:db8::1").services ∧
      validID (webController "2001:db8::1").nodeGroup = true ∧
      validDelegatedPrefix plainPrefix = true ∧ Watched (webController "2001:db8::1").pods ∧
      ((webController "2001:db8::1").nodeState "session" 1).endpoints.length ≤ 10000 ∧
      ¬(∀ endpoint ∈ ((webController "2001:db8::1").nodeState "session" 1).endpoints,
        insidePrefix plainPrefix endpoint = true) := by
  refine ⟨desired_webService, by decide, validDelegatedPrefix_plain, watched_webController _, ?_, ?_⟩
  · decide
  · decide

end Podmin.Agent.Coordination
