import Podmin.Agent.Coordinator.Leader
import Podmin.Agent.Coordinator.System
import Podmin.Agent.Service.MergedBackends

/-!
# The registrations of a leader

Every registration passed the checks of `handle`, any two of them agree, and sessions and nodes refer
to each other. The first two hold for every coordinator that only changes its registrations through
`handle`, expiry and `acquire`; the last one needs that no two nodes use one session.
-/

namespace Podmin.Agent.Coordination

open Foundation Netip Transition Api
open Agent.Service

variable {core next : Coordinator} {id cluster : String} {node : ReceivedNode} {order : List ReceivedNode}

/-! ## Reading the registrations -/

theorem sessionNode_eq_some {session : String} :
    sessionNode core session = some (id, node) ↔
      core.sessions.lookup session = some id ∧ id ≠ "" ∧ core.nodes.lookup id = some node ∧
        node.hello.sessionId = session := by
  unfold sessionNode
  cases hsession : core.sessions.lookup session with
  | none => simp
  | some found =>
    by_cases hempty : found = ""
    · simp only [hempty, beq_self_eq_true, if_true, reduceCtorEq, Option.some.injEq, false_iff]
      rintro ⟨rfl, hne, _⟩
      exact hne rfl
    · simp only [beq_iff_eq, hempty, if_false, Option.bind_eq_some_iff, Option.some.injEq,
        Option.ite_none_right_eq_some, Prod.mk.injEq]
      constructor
      · rintro ⟨stored, hstored, hsame, rfl, rfl⟩
        exact ⟨rfl, hempty, hstored, hsame⟩
      · rintro ⟨rfl, _, hstored, hsame⟩
        exact ⟨node, hstored, hsame, rfl, rfl⟩

theorem conflictWith_eq_none {hello : Hello} :
    conflictWith core hello = none ↔ ∀ id peer, core.nodes.lookup id = some peer →
      id ≠ hello.nodeId → conflicts peer.hello hello = none := by
  simp only [conflictWith, List.findSome?_eq_none_iff, List.mem_filter, bne_iff_ne, ne_eq, and_imp,
    Prod.forall, GoMap.mem_pairs]

theorem conflicts_eq_none {left right : Hello} :
    conflicts left right = none ↔
      (left.nodeGroup = right.nodeGroup →
        left.configDigest = right.configDigest ∧ left.services = right.services) ∧
      (left.nodeGroup ≠ right.nodeGroup →
        ∀ item ∈ left.services, ∀ other ∈ right.services, item.identity ≠ other.identity) := by
  unfold conflicts
  by_cases hgroup : left.nodeGroup = right.nodeGroup
  · by_cases hsame : left.configDigest = right.configDigest ∧ left.services = right.services
    · simp [hgroup, hsame]
    · simp only [hgroup, if_true, ne_eq, not_true_eq_false, false_implies, and_true, true_implies]
      rw [if_pos (by tauto)]
      simpa using hsame
  · simp only [hgroup, if_false, ne_eq, not_false_eq_true, false_implies, true_and, true_implies]
    simp only [contractsOverlap, List.any_eq_true, decide_eq_true_eq, List.mem_map]
    split
    · next hoverlap =>
      obtain ⟨other, hother, item, hitem, hidentity⟩ := hoverlap
      simp only [reduceCtorEq, false_iff, not_forall]
      exact ⟨item, hitem, other, hother, not_not_intro hidentity⟩
    · next hdisjoint =>
      simp only [true_iff]
      intro item hitem other hother hidentity
      exact hdisjoint ⟨other, hother, item, hitem, hidentity⟩

theorem conflicts_symm {left right : Hello} (hfree : conflicts left right = none) :
    conflicts right left = none := by
  rw [conflicts_eq_none] at hfree ⊢
  constructor
  · intro hgroup
    obtain ⟨hdigest, hservices⟩ := hfree.1 hgroup.symm
    exact ⟨hdigest.symm, hservices.symm⟩
  · intro hgroup item hitem other hother hidentity
    exact hfree.2 (Ne.symm hgroup) other hother item hitem hidentity.symm

/-! ## Checked and agreeing registrations -/

/-- What the checks of `handle` leave of one registration. -/
structure Registered (cluster id : String) (node : ReceivedNode) : Prop where
  nodeId : node.hello.nodeId = id
  nonempty : id ≠ ""
  contract : ValidContract cluster node.hello.nodeGroup node.hello.configDigest node.hello.services
  parsed : parsePrefix node.hello.ipv6Prefix = some node.range
  delegated : validDelegatedPrefix node.range = true
  digest : ∀ state, node.state = some state → state.configDigest = node.hello.configDigest
  valid : ∀ state, node.state = some state →
    validateNodeState node.hello.nodeGroup node.hello.services state = .ok ()
  inside : ∀ state, node.state = some state →
    ∀ endpoint ∈ state.endpoints, insidePrefix node.range endpoint = true

/-- Every registration is checked, and no two of different nodes conflict. -/
structure Consistent (cluster : String) (core : Coordinator) : Prop where
  registered : ∀ id node, core.nodes.lookup id = some node → Registered cluster id node
  agree : ∀ id other node peer, core.nodes.lookup id = some node →
    core.nodes.lookup other = some peer → id ≠ other → conflicts node.hello peer.hello = none

theorem Consistent.of_sublist (hcore : Consistent cluster core)
    (hnext : ∀ id node, next.nodes.lookup id = some node → core.nodes.lookup id = some node) :
    Consistent cluster next where
  registered id node hnode := hcore.registered id node (hnext id node hnode)
  agree id other node peer hnode hpeer :=
    hcore.agree id other node peer (hnext id node hnode) (hnext other peer hpeer)

theorem consistent_of_empty (hnodes : core.nodes = ∅) :
    Consistent cluster core where
  registered id node hnode := by simp [hnodes] at hnode
  agree id other node peer hnode := by simp [hnodes] at hnode

theorem lookup_unregister {session other : String}
    (hnode : (unregister session id core).nodes.lookup other = some node) :
    core.nodes.lookup other = some node := by
  rw [unregister, GoMap.lookup_erase_eq] at hnode
  split at hnode
  · cases hnode
  · exact hnode

theorem lookup_handleDrain {drain : Drain} (hnode : (handleDrain drain core).nodes.lookup id = some node) :
    core.nodes.lookup id = some node := by
  unfold handleDrain at hnode
  dsimp only at hnode
  split at hnode
  · exact lookup_unregister hnode
  · exact hnode

theorem lookup_drainLocal {config : Config} (hnode : (drainLocal config core).nodes.lookup id = some node) :
    core.nodes.lookup id = some node := by
  simp only [drainLocal] at hnode
  split at hnode
  · exact (Option.ite_none_left_eq_some.mp ((GoMap.lookup_erase_eq _ _ _).symm.trans hnode)).2
  · exact hnode

theorem lookup_expire {now : Int} :
    (expire now core).1.nodes.lookup id = some node ↔
      core.nodes.lookup id = some node ∧ expired now node = false := by
  rw [expire, GoMap.lookup_filter, Option.filter_eq_some_iff]
  simp

theorem Consistent.register {config : Config} {sender : Option Identity} {isLocal : Bool}
    {now : Int} {message : Hello} {core next : Coordinator} (hcore : Consistent config.cluster core)
    (hnext : handleHello config sender isLocal now message core = .ok next) :
    Consistent config.cluster next := by
  obtain ⟨hid, _, _, hcontract, range, hparse, hvalid, _, hfree, rfl⟩ := handleHello_eq_ok.mp hnext
  rw [conflictWith_eq_none] at hfree
  have hlookup (id : String) (node : ReceivedNode)
      (hnode : (Coordination.register { message with
        ipv6Prefix := helloPrefix config isLocal message } range now core).nodes.lookup id =
          some node) :
      (id = message.nodeId ∧ node = ⟨{ message with
        ipv6Prefix := helloPrefix config isLocal message }, none, now, range⟩) ∨
        (id ≠ message.nodeId ∧ core.nodes.lookup id = some node) := by
    rw [Coordination.register, GoMap.lookup_insert_eq] at hnode
    split at hnode
    · next hself => exact .inl ⟨hself, (Option.some.inj hnode).symm⟩
    · next hother => exact .inr ⟨hother, hnode⟩
  constructor
  · intro id node hnode
    rcases hlookup id node hnode with ⟨rfl, rfl⟩ | ⟨_, hold⟩
    · exact ⟨rfl, hid, hcontract, hparse, hvalid, by simp, by simp, by simp⟩
    · exact hcore.registered id node hold
  · intro id other node peer hnode hpeer hne
    rcases hlookup id node hnode with ⟨rfl, rfl⟩ | ⟨hid', hnode'⟩
    · rcases hlookup other peer hpeer with ⟨rfl, rfl⟩ | ⟨hother, hpeer'⟩
      · exact absurd rfl hne
      · exact conflicts_symm (hfree other peer hpeer' hother)
    · rcases hlookup other peer hpeer with ⟨rfl, rfl⟩ | ⟨_, hpeer'⟩
      · exact hfree id node hnode' hid'
      · exact hcore.agree id other node peer hnode' hpeer' hne

theorem Consistent.store {now : Int} {state : NodeState} (hcore : Consistent cluster core)
    (hnext : handleNodeState now state core = .ok (.stored next)) : Consistent cluster next := by
  obtain ⟨id, old, hsession, hdigest, hvalid, hinside, _, rfl⟩ := handleNodeState_eq_stored hnext
  obtain ⟨_, _, hold, _⟩ := sessionNode_eq_some.mp hsession
  have hlookup (key : String) (node : ReceivedNode)
      (hnode : (core.nodes.insert id { old with state := some state, received := now }).lookup key =
        some node) :
      ∃ before, core.nodes.lookup key = some before ∧ before.hello = node.hello ∧
        (before = node ∨ (key = id ∧ node = { old with state := some state, received := now })) := by
    rw [GoMap.lookup_insert_eq] at hnode
    split at hnode
    · next hself =>
      cases hnode
      exact ⟨old, hself ▸ hold, rfl, .inr ⟨hself, rfl⟩⟩
    · exact ⟨node, hnode, rfl, .inl rfl⟩
  constructor
  · intro key node hnode
    obtain ⟨before, hbefore, _, rfl | ⟨rfl, rfl⟩⟩ := hlookup key node hnode
    · exact hcore.registered key before hbefore
    · have hchecked := hcore.registered key old hold
      refine ⟨hchecked.nodeId, hchecked.nonempty, hchecked.contract, hchecked.parsed,
        hchecked.delegated, ?_, ?_, ?_⟩
      · rintro _ ⟨rfl⟩
        exact hdigest.symm
      · rintro _ ⟨rfl⟩
        exact hvalid
      · rintro _ ⟨rfl⟩
        exact hinside
  · intro key other node peer hnode hpeer hne
    obtain ⟨before, hbefore, hhello, _⟩ := hlookup key node hnode
    obtain ⟨beforePeer, hbeforePeer, hpeerHello, _⟩ := hlookup other peer hpeer
    rw [← hhello, ← hpeerHello]
    exact hcore.agree key other before beforePeer hbefore hbeforePeer hne

/-- Every registration change keeps the registrations consistent. -/
theorem Consistent.registers {config : Config} (hcore : Consistent config.cluster core)
    (hnext : Registers config core next) :
    Consistent config.cluster next := by
  cases hnext with
  | hello hnext => exact hcore.register hnext
  | retired hnext =>
    obtain ⟨_, _, _, _, rfl⟩ := handleNodeState_eq_retired hnext
    exact hcore.of_sublist fun _ _ ↦ lookup_unregister
  | stored hnext => exact hcore.store hnext
  | drained drain => exact hcore.of_sublist fun _ _ ↦ lookup_handleDrain
  | drainedLocal => exact hcore.of_sublist fun _ _ ↦ lookup_drainLocal
  | expired now => exact hcore.of_sublist fun _ _ hnode ↦ (lookup_expire.mp hnode).1

/-! ## Building a snapshot -/

theorem mem_order (horder : order.Perm (core.nodes.pairs.map Prod.snd)) :
    node ∈ order ↔ ∃ id, core.nodes.lookup id = some node := by
  rw [horder.mem_iff, List.mem_map]
  constructor
  · rintro ⟨⟨id, _⟩, hmem, rfl⟩
    exact ⟨id, GoMap.mem_pairs.mp hmem⟩
  · rintro ⟨id, hid⟩
    exact ⟨(id, node), GoMap.mem_pairs.mpr hid, rfl⟩

theorem Consistent.disjointGroups (hcore : Consistent cluster core)
    (horder : order.Perm (core.nodes.pairs.map Prod.snd)) :
    DisjointGroups (order.map ReceivedNode.peer) := by
  intro left hleft right hright hgroup
  obtain ⟨node, hnode, rfl⟩ := List.mem_map.mp hleft
  obtain ⟨peer, hpeer, rfl⟩ := List.mem_map.mp hright
  obtain ⟨id, hid⟩ := (mem_order horder).mp hnode
  obtain ⟨other, hother⟩ := (mem_order horder).mp hpeer
  have hne : id ≠ other := by
    rintro rfl
    cases hid.symm.trans hother
    exact hgroup rfl
  exact (conflicts_eq_none.mp (hcore.agree id other node peer hid hother hne)).2 hgroup

/-- A snapshot of consistent registrations can always be built. -/
theorem Consistent.publishBuild_total (hcore : Consistent cluster core) (config : Config)
    (horder : order.Perm (core.nodes.pairs.map Prod.snd)) :
    ∃ snapshot, publishBuild config core order = .ok snapshot :=
  buildClusterSnapshot_total (hcore.disjointGroups horder) _ _ _

theorem Consistent.coherent (hcore : Consistent cluster core)
    (horder : order.Perm (core.nodes.pairs.map Prod.snd)) :
    Coherent cluster (order.map ReceivedNode.peer) := by
  have hregistered : ∀ peer ∈ order.map ReceivedNode.peer, ∃ id node,
      core.nodes.lookup id = some node ∧ peer = node.peer := by
    intro peer hpeer
    obtain ⟨node, hnode, rfl⟩ := List.mem_map.mp hpeer
    obtain ⟨id, hid⟩ := (mem_order horder).mp hnode
    exact ⟨id, node, hid, rfl⟩
  refine ⟨?_, ?_, hcore.disjointGroups horder, ?_, ?_⟩
  · intro peer hpeer
    obtain ⟨id, node, hid, rfl⟩ := hregistered peer hpeer
    exact (hcore.registered id node hid).contract
  · intro left hleft right hright hgroup
    obtain ⟨id, node, hid, rfl⟩ := hregistered left hleft
    obtain ⟨other, peer, hother, rfl⟩ := hregistered right hright
    by_cases hsame : id = other
    · subst hsame
      cases hid.symm.trans hother
      exact ⟨rfl, rfl⟩
    · exact (conflicts_eq_none.mp (hcore.agree id other node peer hid hother hsame)).1 hgroup
  · intro peer hpeer state hstate
    obtain ⟨id, node, hid, rfl⟩ := hregistered peer hpeer
    exact (hcore.registered id node hid).digest state hstate
  · intro peer hpeer state hstate
    obtain ⟨id, node, hid, rfl⟩ := hregistered peer hpeer
    exact (hcore.registered id node hid).valid state hstate

/-- The backends of a published snapshot are the endpoints of the registered nodes. -/
theorem Consistent.published_backends {config : Config} (hcore : Consistent config.cluster core)
    (horder : order.Perm (core.nodes.pairs.map Prod.snd)) {snapshot : Snapshot}
    (hbuild : publishBuild config core order = .ok snapshot) :
    (snapshot.services.flatMap Api.Service.backends).Perm
      (core.nodes.pairs.flatMap fun entry ↦ entry.2.peer.endpoints) := by
  have hmerged := (hcore.coherent horder).mergedServices_backends
  rw [List.flatMap_map] at hmerged
  have hnodes := horder.flatMap_right fun node ↦ node.peer.endpoints
  rw [List.flatMap_map] at hnodes
  exact ((buildClusterSnapshot_services hbuild).flatMap_right _).trans (hmerged.trans hnodes)

end Podmin.Agent.Coordination
