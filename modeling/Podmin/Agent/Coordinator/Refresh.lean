import Podmin.Agent.Coordinator.Isolation

/-!
# Refreshing a registration

The leader refreshes its own registration through a `Hello` and a `NodeState`, and a follower that
reconnects does the same. The `Hello` replaces the registration by one without endpoints, and the
mutex is free until the `NodeState` arrives. A snapshot published in between lacks the node's
endpoints.
-/

namespace Podmin.Agent.Coordination

open Foundation Transition Api Agent.Service GoMap

open scoped List

/-! ## A node that does not change -/

/-- A node with a fixed contract and fixed endpoints. -/
structure SteadyNode where
  id : String
  nodeGroup : String
  configDigest : String
  services : List Api.Service
  endpoints : List Endpoint

/-- The node is registered with its contract, and a stored report has its endpoints. -/
def SteadyNode.Registered (steady : SteadyNode) (core : Coordinator) : Prop :=
  ∃ node, core.nodes.lookup steady.id = some node ∧ node.hello.nodeGroup = steady.nodeGroup ∧
    node.hello.configDigest = steady.configDigest ∧ node.hello.services = steady.services ∧
    ∀ state, node.state = some state → state.endpoints = steady.endpoints

/-- A report of the node is stored. -/
def SteadyNode.Reported (steady : SteadyNode) (core : Coordinator) : Prop :=
  ∃ node state, core.nodes.lookup steady.id = some node ∧ node.state = some state

/-- The messages of the node repeat its contract and its endpoints, and it does not leave. -/
def SteadyNode.Repeats (steady : SteadyNode) (owner : String → String) : ClientMessage → Prop
  | .hello hello => hello.nodeId = steady.id → hello.nodeGroup = steady.nodeGroup ∧
      hello.configDigest = steady.configDigest ∧ hello.services = steady.services
  | .nodeState state => owner state.sessionId = steady.id →
      state.configDigest = steady.configDigest ∧ state.endpoints = steady.endpoints
  | .drain drain => owner drain.sessionId ≠ steady.id
  | .empty => True

/-- What is assumed of the steps: the node repeats itself and refreshes before its lease runs out,
and the leader keeps its generation. -/
def SteadyNode.Allows (steady : SteadyNode) (owner : String → String) (leader : Leader) : Event → Prop
  | .receive _ _ message | .refresh _ message => steady.Repeats owner message
  | .drain node => node ≠ steady.id
  | .expire now => ∀ node, leader.core.nodes.lookup steady.id = some node → expired now node = false
  | .acquire _ _ => False
  | .connect _ _ | .disconnect _ | .publish _ _ => True

/-- The runs from a completed registration on. -/
def steadySystem (config : Config) (owner : String → String) (steady : SteadyNode) :
    System Leader Event where
  init leader := Reachable (leaderSystem config owner) leader ∧ steady.Registered leader.core ∧
    steady.Reported leader.core
  step leader event next := leader.Step config owner event next ∧ steady.Allows owner leader event

section Steps

variable {config : Config} {owner : String → String} {steady : SteadyNode} {leader next : Leader}

theorem SteadyNode.Registered.of_lookup {core after : Coordinator}
    (hregistered : steady.Registered core)
    (hlookup : after.nodes.lookup steady.id = core.nodes.lookup steady.id) :
    steady.Registered after := by
  obtain ⟨node, hnode, hcontract⟩ := hregistered
  exact ⟨node, hlookup.trans hnode, hcontract⟩

theorem SteadyNode.Registered.unregister {core : Coordinator} (hregistered : steady.Registered core)
    {session id : String} (hother : id ≠ steady.id) : steady.Registered (unregister session id core) := by
  apply hregistered.of_lookup
  rw [Coordination.unregister, lookup_erase_eq, if_neg (Ne.symm hother)]

/-- A handled message of a node that repeats itself, or of another node, keeps the registration. -/
theorem SteadyNode.Registered.of_handled {core : Coordinator} (hregistered : steady.Registered core)
    (hpaired : Paired core) (howned : Owned owner core) (hcore : Consistent config.cluster core)
    {sender : Option Identity} {isLocal : Bool} {now : Int} {message : ClientMessage} {handled : Handled}
    (hrepeats : steady.Repeats owner message)
    (hhandle : handle config sender isLocal now message core = .ok handled) :
    steady.Registered (handled.core core) := by
  rcases handle_cases hhandle with ⟨hello, after, rfl, rfl, hafter⟩ | ⟨state, after, rfl, rfl, hafter⟩ |
    ⟨state, rfl, rfl⟩ | ⟨state, after, rfl, rfl, hafter⟩ | ⟨drain, rfl, rfl⟩
  · obtain ⟨_, _, _, _, range, _, _, _, _, rfl⟩ := handleHello_eq_ok.mp hafter
    by_cases hself : hello.nodeId = steady.id
    · obtain ⟨hgroup, hdigest, hservices⟩ := hrepeats hself
      refine ⟨_, (lookup_insert_eq _ _ _ _).trans (if_pos hself.symm), hgroup, hdigest, hservices,
        ?_⟩
      intro state hstate
      cases hstate
    · apply hregistered.of_lookup
      exact (lookup_insert_eq _ _ _ _).trans (if_neg (Ne.symm hself))
  · obtain ⟨id, old, hsession, hchanged, rfl⟩ := handleNodeState_eq_retired hafter
    obtain ⟨hlookup, _, hold, _⟩ := sessionNode_eq_some.mp hsession
    apply hregistered.unregister
    rintro rfl
    -- the node's own report has the digest it is registered with
    obtain ⟨node, hnode, _, hdigest, _⟩ := hregistered
    cases hnode.symm.trans hold
    exact hchanged (hdigest.trans (hrepeats (howned _ _ hlookup)).1.symm)
  · exact hregistered
  · obtain ⟨id, old, hsession, _, _, _, _, rfl⟩ := handleNodeState_eq_stored hafter
    obtain ⟨hlookup, _, hold, _⟩ := sessionNode_eq_some.mp hsession
    by_cases hself : steady.id = id
    · subst hself
      obtain ⟨node, hnode, hgroup, hdigest, hservices, _⟩ := hregistered
      cases hnode.symm.trans hold
      refine ⟨_, (lookup_insert_eq _ _ _ _).trans (if_pos rfl), hgroup, hdigest, hservices, ?_⟩
      rintro _ ⟨rfl⟩
      exact (hrepeats (howned _ _ hlookup)).2
    · apply hregistered.of_lookup
      exact (lookup_insert_eq _ _ _ _).trans (if_neg hself)
  · rcases handleDrain_cases hpaired hcore.nameless drain with ⟨id, hid, heq⟩ | ⟨_, hsame⟩
    · change steady.Registered (handleDrain drain core)
      rw [heq]
      apply hregistered.unregister
      rintro rfl
      exact hrepeats (howned _ _ hid)
    · exact hregistered.of_lookup (by rw [Handled.core, hsame.1])

theorem SteadyNode.Registered.step (hsound : leader.Sound config owner)
    (hregistered : steady.Registered leader.core) {event : Event}
    (hstep : leader.Step config owner event next) (hallows : steady.Allows owner leader event) :
    steady.Registered next.core := by
  cases hstep with
  | connect => exact hregistered
  | disconnect => exact hregistered
  | refused => exact hregistered
  | rejected => exact hregistered
  | received hserving now hown hsync hhandle =>
    exact hregistered.of_handled hsound.paired hsound.owned hsound.consistent hallows hhandle
  | refresh now hlocal hhandle =>
    exact hregistered.of_handled hsound.paired hsound.owned hsound.consistent hallows hhandle
  | drain =>
    apply hregistered.of_lookup
    simp only [drainLocal]
    split
    · exact (lookup_erase_eq _ _ _).trans (if_neg (Ne.symm hallows))
    · rfl
  | expire now =>
    obtain ⟨node, hnode, hcontract⟩ := hregistered
    exact ⟨node, lookup_expire.mpr ⟨hnode, hallows node hnode⟩, hcontract⟩
  | acquire => exact hallows.elim
  | publish => exact hregistered

theorem steady_of_reachable (hreach : Reachable (steadySystem config owner steady) leader) :
    leader.Sound config owner ∧ steady.Registered leader.core := by
  refine @Reachable.invariant _ _ _ (fun state ↦ state.Sound config owner ∧ steady.Registered state.core)
    ?_ ?_ _ hreach
  · rintro start ⟨hstart, hregistered, _⟩
    exact ⟨sound_of_reachable hstart, hregistered⟩
  · rintro before event after _ ⟨hsound, hregistered⟩ ⟨hstep, hallows⟩
    exact ⟨hstep.sound hsound, hregistered.step hsound hstep hallows⟩

end Steps

/-! ## What is published -/

/-- The endpoints of the other registered nodes. -/
def otherEndpoints (id : String) (core : Coordinator) : List Endpoint :=
  (core.nodes.pairs.filter fun entry ↦ decide (entry.1 ≠ id)).flatMap fun entry ↦ entry.2.peer.endpoints

section Publish

variable {config : Config} {owner : String → String} {steady : SteadyNode} {leader next : Leader}

/-- A registered node contributes its endpoints when its report is stored, and nothing otherwise. -/
theorem SteadyNode.Registered.published (hregistered : steady.Registered leader.core)
    (hconsistent : Consistent config.cluster leader.core) {now : Int} {snapshot : Snapshot}
    (hpublish : leader.Step config owner (.publish now snapshot) next) :
    ∃ own, (snapshot.services.flatMap Api.Service.backends) ~ own ++ otherEndpoints steady.id leader.core ∧
      ((steady.Reported leader.core ∧ own = steady.endpoints) ∨
        (¬steady.Reported leader.core ∧ own = [])) := by
  obtain ⟨node, hnode, _, _, _, hendpoints⟩ := hregistered
  cases hpublish with
  | publish now horder hbuild =>
    refine ⟨node.peer.endpoints, ?_, ?_⟩
    · exact (hconsistent.published_backends horder hbuild).trans
        ((pairs_perm_cons hnode).flatMap_right fun entry ↦ entry.2.peer.endpoints)
    · cases hstate : node.state with
      | none =>
        refine .inr ⟨?_, by simp [ReceivedNode.peer, Peer.endpoints, hstate]⟩
        rintro ⟨other, state, hother, hreported⟩
        cases hnode.symm.trans hother
        cases hstate.symm.trans hreported
      | some state =>
        refine .inl ⟨⟨node, state, hnode, hstate⟩, ?_⟩
        simp [ReceivedNode.peer, Peer.endpoints, hstate, hendpoints state hstate]

/-- A snapshot published after the first completed registration has the node's endpoints exactly when
it was not built between a `Hello` and the `NodeState` of a refresh, or the node has none. -/
theorem refreshed_endpoints_iff {now : Int} {snapshot : Snapshot}
    (hreach : Reachable (steadySystem config owner steady) leader)
    (hpublish : leader.Step config owner (.publish now snapshot) next) :
    (snapshot.services.flatMap Api.Service.backends) ~
        steady.endpoints ++ otherEndpoints steady.id leader.core ↔
      steady.endpoints = [] ∨ steady.Reported leader.core := by
  obtain ⟨hsound, hregistered⟩ := steady_of_reachable hreach
  obtain ⟨own, hperm, hown⟩ := hregistered.published hsound.consistent hpublish
  rcases hown with ⟨hreported, rfl⟩ | ⟨hunreported, rfl⟩
  · exact iff_of_true hperm (.inr hreported)
  · constructor
    · intro hsame
      have hlength := (hperm.symm.trans hsame).length_eq
      rw [List.nil_append, List.length_append] at hlength
      exact .inl (List.length_eq_zero_iff.mp (by omega))
    · rintro (hempty | hreported)
      · rw [hempty]
        exact hperm
      · exact absurd hreported hunreported

end Publish

/-! ## The leader's own refresh -/

section Local

variable {config : Config} {owner : String → String} {leader : Leader} {session : String}
  {services : List Api.Service} {now : Int}

/-- The leader after its own `Hello`. -/
def Leader.registerHello (leader : Leader) (config : Config) (session : String)
    (services : List Api.Service) (now : Int) : Leader :=
  leader.after (.hello (plainHello config.cluster ⟨config.nodeId, config.nodeGroup⟩ session services))
    (.registered (register (plainHello config.cluster ⟨config.nodeId, config.nodeGroup⟩ session services)
      plainPrefix now leader.core))

theorem Leader.Step.registerHello (hid : config.nodeId ≠ "") (hrange : config.ipv6Prefix = plainPrefix)
    (hsession : session ≠ "")
    (hcontract : ValidContract config.cluster config.nodeGroup plainDigest services)
    (hown : owner session = config.nodeId)
    (hfree : conflictWith leader.core
      (plainHello config.cluster ⟨config.nodeId, config.nodeGroup⟩ session services) = none) :
    leader.Step config owner
      (.refresh now (.hello (plainHello config.cluster ⟨config.nodeId, config.nodeGroup⟩ session services)))
      (leader.registerHello config session services now) := by
  refine .refresh now ⟨rfl, rfl, hown⟩ ?_
  have hhello : handleHello config none true now
      (plainHello config.cluster ⟨config.nodeId, config.nodeGroup⟩ session services) leader.core =
        .ok (register (plainHello config.cluster ⟨config.nodeId, config.nodeGroup⟩ session services)
          plainPrefix now leader.core) := by
    apply handleHello_eq_ok.mpr
    refine ⟨hid, rfl, hsession, hcontract, plainPrefix, parsePrefix_plain, validDelegatedPrefix_plain, ?_,
      hfree, rfl⟩
    simp [helloSender, hrange]
  rw [handle, hhello]
  rfl

theorem Leader.Step.registerState {state : NodeState} {core : Coordinator}
    (hown : owner state.sessionId = config.nodeId)
    (hstored : handleNodeState now state leader.core = .ok (.stored core)) :
    leader.Step config owner (.refresh now (.nodeState state))
      (leader.after (.nodeState state) (.reported (.stored core))) := by
  refine .refresh now hown ?_
  rw [handle, hstored]
  rfl

end Local

/-- The leader with the Service `web` and one endpoint of it. -/
def webNode : SteadyNode :=
  ⟨"node-1", "workers", plainDigest, [webItem "cluster" httpPort], [webEndpoint httpPort]⟩

def webHello : Hello :=
  plainHello "cluster" ⟨"node-1", "workers"⟩ "session" [webItem "cluster" httpPort]

def webState : NodeState :=
  ⟨"session", 1, plainDigest, [webEndpoint httpPort]⟩

/-- A completed `registerLocal`. -/
theorem steady_web :
    ∃ leader, Reachable (steadySystem workersConfig (fun _ ↦ "node-1") webNode) leader ∧
      leader.core.nodes.pairs = [("node-1", ⟨webHello, some webState, 0, plainPrefix⟩)] := by
  have hcontract := @validContract_web "cluster" httpPort (by decide)
  have hstart : Reachable (leaderSystem workersConfig fun _ ↦ "node-1") Leader.fresh := .init rfl
  have hhello := hstart.step (@Leader.Step.registerHello workersConfig (fun _ ↦ "node-1") _ "session" _ 0
    (by decide) rfl (by decide) hcontract rfl rfl)
  have hnode : sessionNode (Leader.fresh.registerHello workersConfig "session"
      [webItem "cluster" httpPort] 0).core webState.sessionId =
        some ("node-1", ⟨webHello, none, 0, plainPrefix⟩) := by
    rw [sessionNode_eq_some]
    exact ⟨rfl, by decide, rfl, rfl⟩
  have hstored := @handleNodeState_first 0 _ webState _ _ hnode rfl rfl
    (validateNodeState_plain "cluster" rfl _ _ _) (insidePrefix_plain _ _ httpPort)
  have hreport := @Leader.Step.registerState workersConfig (fun _ ↦ "node-1") _ 0 webState _ rfl hstored
  refine ⟨_, .init ⟨hhello.step hreport, ?_, ?_⟩, ?_⟩
  · refine ⟨⟨webHello, some webState, 0, plainPrefix⟩, ?_, rfl, rfl, rfl, ?_⟩
    · exact (lookup_insert_eq _ _ _ _).trans (if_pos rfl)
    · rintro _ ⟨rfl⟩
      rfl
  · refine ⟨⟨webHello, some webState, 0, plainPrefix⟩, webState, ?_, rfl⟩
    exact (lookup_insert_eq _ _ _ _).trans (if_pos rfl)
  · exact congrArg pairs (@AList.insert_insert _ (fun _ ↦ ReceivedNode) _ "node-1"
      ⟨webHello, none, 0, plainPrefix⟩ ⟨webHello, some webState, 0, plainPrefix⟩ ∅)

/-- Another node's report makes the leader publish between its own `Hello` and `NodeState`. -/
theorem refresh_withdraws_endpoints :
    ∃ leader snapshot, Reachable (steadySystem workersConfig (fun _ ↦ "node-1") webNode) leader ∧
      leader.Step workersConfig (fun _ ↦ "node-1") (.publish 1 snapshot) leader ∧
      webNode.endpoints ≠ [] ∧ snapshot.services.flatMap Api.Service.backends = [] := by
  obtain ⟨leader, hreach, hnodes⟩ := steady_web
  have honly : ∀ id peer, leader.core.nodes.lookup id = some peer → id = "node-1" := by
    intro id peer hid
    have hentry := mem_pairs.mpr hid
    rw [hnodes, List.mem_singleton, Prod.mk.injEq] at hentry
    exact hentry.1
  have hfree : conflictWith leader.core webHello = none :=
    conflictWith_eq_none.mpr fun id peer hid hother ↦ absurd (honly id peer hid) hother
  have hstep := @Leader.Step.registerHello workersConfig (fun _ ↦ "node-1") leader "session" _ 1
    (by decide) rfl (by decide) (@validContract_web "cluster" httpPort (by decide)) rfl hfree
  have hagain := @Reachable.step _ _ (steadySystem workersConfig (fun _ ↦ "node-1") webNode) leader _ _
    hreach ⟨hstep, fun _ ↦ ⟨rfl, rfl, rfl⟩⟩
  obtain ⟨hsound, hregistered⟩ := steady_of_reachable hagain
  obtain ⟨snapshot, hbuild⟩ := hsound.consistent.publishBuild_total workersConfig (List.Perm.refl _)
  have hpublish := @Leader.Step.publish workersConfig (fun _ ↦ "node-1") _ 1 _ _ (List.Perm.refl _) hbuild
  obtain ⟨own, hperm, hown⟩ := hregistered.published hsound.consistent hpublish
  refine ⟨_, snapshot, hagain, hpublish, by simp [webNode], ?_⟩
  have hinsert : ∀ id, (leader.registerHello workersConfig "session" [webItem "cluster" httpPort]
      1).core.nodes.lookup id = if id = "node-1" then some ⟨webHello, none, 1, plainPrefix⟩
        else leader.core.nodes.lookup id := fun id ↦ lookup_insert_eq _ _ _ _
  rcases hown with ⟨⟨node, state, hnode, hstate⟩, _⟩ | ⟨_, rfl⟩
  · -- the new registration has no state
    cases ((hinsert "node-1").trans (if_pos rfl)).symm.trans hnode
    cases hstate
  · have hothers : otherEndpoints webNode.id (leader.registerHello workersConfig "session"
        [webItem "cluster" httpPort] 1).core = [] := by
      apply List.flatMap_eq_nil_iff.mpr
      intro entry hentry
      obtain ⟨hmem, hother⟩ := List.mem_filter.mp hentry
      have hne : entry.1 ≠ "node-1" := of_decide_eq_true hother
      have hlookup := mem_pairs.mp hmem
      rw [hinsert, if_neg hne] at hlookup
      exact absurd (honly _ _ hlookup) hne
    rw [hothers] at hperm
    exact hperm.eq_nil

/-- A snapshot built right after a completed `registerLocal` has the endpoint. -/
theorem refreshed_endpoints_iff_completed :
    ∃ (leader : Leader) (snapshot : Snapshot),
      leader.Step workersConfig (fun _ ↦ "node-1") (.publish 0 snapshot) leader ∧
      (snapshot.services.flatMap Api.Service.backends) ~
        [webEndpoint httpPort] ++ otherEndpoints "node-1" leader.core := by
  obtain ⟨leader, hreach, hnodes⟩ := steady_web
  obtain ⟨snapshot, hbuild⟩ :=
    (steady_of_reachable hreach).1.consistent.publishBuild_total workersConfig (List.Perm.refl _)
  have hpublish : leader.Step workersConfig (fun _ ↦ "node-1") (.publish 0 snapshot) leader :=
    .publish 0 (List.Perm.refl _) hbuild
  have hnode := mem_pairs.mp (hnodes ▸ List.mem_singleton.mpr rfl)
  exact ⟨leader, snapshot, hpublish,
    (refreshed_endpoints_iff hreach hpublish).mpr (.inr ⟨_, webState, hnode, rfl⟩)⟩


end Podmin.Agent.Coordination
