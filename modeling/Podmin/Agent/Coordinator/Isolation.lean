import Podmin.Agent.Coordinator.Sessions

/-!
# Isolation

In every run of a leader the registrations are checked, agree with each other and with the session
table, and what arrives on a stream only concerns the node the stream is authenticated as. The last
part needs the binding of a stream to its session in `Sync` together with the binding of a session
to its node in `handle`.
-/

namespace Podmin.Agent.Coordination

open Foundation Transition Api Agent.Service

variable {core : Coordinator} {stream : Nat} {event : Event}

/-! ## Every run of a leader -/

/-- What holds of a leader at every moment. -/
structure Leader.Sound (config : Config) (owner : String → String) (leader : Leader) : Prop where
  consistent : Consistent config.cluster leader.core
  paired : Paired leader.core
  owned : Owned owner leader.core
  sequenced : Sequenced leader.core leader.sequences
  bound : ∀ stream serving, leader.serving stream = some serving → serving.session ≠ "" →
    ∃ identity, serving.identity = some identity ∧ owner serving.session = identity.nodeId

section Runs

variable {config : Config} {owner : String → String} {leader next : Leader}

/-- A message passes `Sync` as the first `Hello` of its stream or as a report of its session. -/
theorem syncSession_eq_ok {session result : String} {message : ClientMessage}
    (hsync : syncSession session message = .ok result) :
    (∃ hello, message = .hello hello ∧ result = hello.sessionId) ∨
      (reportSession message = some session ∧ session ≠ "" ∧ result = session) := by
  cases message with
  | hello hello =>
    rw [syncSession] at hsync
    split at hsync
    · cases hsync
    · cases hsync
      exact .inl ⟨hello, rfl, rfl⟩
  | nodeState state =>
    rw [syncSession] at hsync
    split at hsync
    · cases hsync
    · next hsame =>
      cases hsync
      rw [not_or, not_not] at hsame
      exact .inr ⟨by rw [reportSession, hsame.2], hsame.1, rfl⟩
  | drain drain =>
    rw [syncSession] at hsync
    split at hsync
    · cases hsync
    · next hsame =>
      cases hsync
      rw [not_or, not_not] at hsame
      exact .inr ⟨by rw [reportSession, hsame.2], hsame.1, rfl⟩
  | empty => cases hsync

variable {now : Int} {sender : Option Identity}

/-- A `Hello` is only accepted from the node it names. -/
theorem handleHello_sender {hello : Hello} {after : Coordinator}
    (hhello : handleHello config sender false now hello core = .ok after) :
    sender = some ⟨hello.nodeId, hello.nodeGroup⟩ := by
  obtain ⟨_, _, _, _, range, _, _, hsender, _⟩ := handleHello_eq_ok.mp hhello
  simp only [helloSender, Bool.false_eq_true, if_false] at hsender
  split at hsender
  · assumption
  · cases hsender

/-- The session of a `Hello` accepted on a stream belongs to the node it names. -/
theorem received_hello {identity : Option Identity} {message : ClientMessage} {handled : Handled}
    (hown : OwnSession owner identity message)
    (hhandle : handle config identity false now message core = .ok handled) {hello : Hello}
    (hmessage : message = .hello hello) :
    identity = some ⟨hello.nodeId, hello.nodeGroup⟩ ∧ owner hello.sessionId = hello.nodeId := by
  subst hmessage
  obtain ⟨after, hafter, _⟩ := handle_hello hhandle
  have hsender := handleHello_sender hafter
  exact ⟨hsender, hown _ hsender⟩

/-- A handled message keeps what holds of the two tables and of the sequence numbers. -/
theorem Leader.Sound.after (hsound : leader.Sound config owner) {isLocal : Bool} {message : ClientMessage}
    {handled : Handled} (hown : ∀ hello, message = .hello hello → owner hello.sessionId = hello.nodeId)
    (hhandle : handle config sender isLocal now message leader.core = .ok handled) :
    (leader.after message handled).Sound config owner := by
  obtain ⟨hpaired, howned⟩ :=
    hsound.paired.of_handled hsound.owned hsound.consistent hown hhandle
  exact ⟨hsound.consistent.of_handled hhandle, hpaired, howned, hsound.sequenced.of_handled hhandle,
    hsound.bound⟩

theorem Leader.Sound.setServing (hsound : leader.Sound config owner) {serving : Option Serving}
    (hbound : ∀ value, serving = some value → value.session ≠ "" →
      ∃ identity, value.identity = some identity ∧ owner value.session = identity.nodeId) :
    (leader.setServing stream serving).Sound config owner := by
  refine ⟨hsound.consistent, hsound.paired, hsound.owned, hsound.sequenced, ?_⟩
  intro other value hvalue
  simp only [Leader.setServing, Function.update_apply] at hvalue
  split at hvalue
  · exact hbound value hvalue
  · exact hsound.bound other value hvalue

theorem Leader.Step.sound (hstep : leader.Step config owner event next) (hsound : leader.Sound config owner) :
    next.Sound config owner := by
  cases hstep with
  | connect stream identity hfree =>
    apply hsound.setServing
    rintro _ ⟨rfl⟩ hsession
    exact absurd rfl hsession
  | disconnect stream => exact hsound.setServing (by simp)
  | refused => exact hsound.setServing (by simp)
  | rejected => exact hsound.setServing (by simp)
  | @received stream serving hserving now message session handled hown hsync hhandle =>
    have hafter := hsound.after (fun hello hmessage ↦ (received_hello hown hhandle hmessage).2) hhandle
    apply hafter.setServing
    intro value hvalue hsession
    split at hvalue
    · cases hvalue
    cases hvalue
    rcases syncSession_eq_ok hsync with ⟨hello, hmessage, rfl⟩ | ⟨_, hbefore, rfl⟩
    · obtain ⟨hidentity, howner⟩ := received_hello hown hhandle hmessage
      exact ⟨_, hidentity, howner⟩
    · exact hsound.bound stream serving hserving hbefore
  | refresh now hlocal hhandle =>
    apply hsound.after _ hhandle
    rintro hello rfl
    exact hlocal.2.2.trans hlocal.1.symm
  | drain =>
    exact ⟨hsound.consistent.registers .drainedLocal, hsound.paired.drainLocal config,
      hsound.owned.drainLocal config, hsound.sequenced.of_sublist fun _ _ ↦ lookup_drainLocal, hsound.bound⟩
  | expire now =>
    exact ⟨hsound.consistent.registers (.expired now), hsound.paired.expire now,
      hsound.owned.expire now,
      hsound.sequenced.of_sublist fun _ _ hnode ↦ (lookup_expire.mp hnode).1, hsound.bound⟩
  | acquire now durable localContract =>
    refine ⟨consistent_of_empty rfl, ?_, ?_, ?_, hsound.bound⟩
    · intro session id
      simp [acquired]
    · intro session id hsession
      simp [acquired] at hsession
    · exact hsound.sequenced.of_sublist fun id node hnode ↦ by simp [acquired] at hnode
  | publish => exact hsound

theorem sound_of_reachable (hreach : Reachable (leaderSystem config owner) leader) :
    leader.Sound config owner := by
  refine Reachable.invariant ?_ ?_ hreach
  · rintro _ rfl
    refine ⟨consistent_of_empty rfl, ?_, ?_, ⟨by simp [Leader.fresh], ?_⟩, by simp [Leader.fresh]⟩
    · intro session id
      simp [Leader.fresh]
    · intro session id hsession
      simp [Leader.fresh] at hsession
    · intro id node hnode
      simp [Leader.fresh] at hnode
  · intro before event after _ hsound hstep
    exact hstep.sound hsound

/-! ## Isolation -/

/-- The message a step handles. -/
def Event.message : Event → Option ClientMessage
  | .receive _ _ message => some message
  | .refresh _ message => some message
  | _ => none

/-- A step that handles a message leaves the registrations alone, or is a successful `handle`. -/
theorem Leader.Step.message_cases {message : ClientMessage} (hstep : leader.Step config owner event next)
    (hmessage : event.message = some message) :
    next.core = leader.core ∨ ∃ sender isLocal now handled,
      handle config sender isLocal now message leader.core = .ok handled ∧
        next.core = handled.core leader.core := by
  cases hstep with
  | received hserving now hown hsync hhandle =>
    cases hmessage
    exact .inr ⟨_, _, now, _, hhandle, rfl⟩
  | refresh now hlocal hhandle =>
    cases hmessage
    exact .inr ⟨_, _, now, _, hhandle, rfl⟩
  | refused => exact .inl rfl
  | rejected => exact .inl rfl
  | connect => cases hmessage
  | disconnect => cases hmessage
  | drain => cases hmessage
  | expire => cases hmessage
  | acquire => cases hmessage
  | publish => cases hmessage

/-- What arrives on a stream only concerns the node the stream is authenticated as. -/
theorem Leader.Step.onlyChanges (hsound : leader.Sound config owner) {serving : Serving} {identity : Identity}
    (hserving : leader.serving stream = some serving) (hidentity : serving.identity = some identity)
    {message : ClientMessage} (hstep : leader.Step config owner (.receive stream now message) next) :
    OnlyChanges owner identity.nodeId leader.core next.core := by
  cases hstep with
  | refused => exact ⟨fun _ _ ↦ rfl, fun _ _ ↦ rfl⟩
  | rejected => exact ⟨fun _ _ ↦ rfl, fun _ _ ↦ rfl⟩
  | received hfound now hown hsync hhandle =>
    cases hserving.symm.trans hfound
    apply handled_onlyChanges hsound.paired hsound.owned hsound.consistent _ _ hhandle
    · intro hello hmessage
      obtain ⟨hsender, howner⟩ := received_hello hown hhandle hmessage
      rw [hidentity, Option.some.injEq] at hsender
      exact ⟨howner, by rw [hsender]⟩
    · intro session hreport
      rcases syncSession_eq_ok hsync with ⟨hello, rfl, _⟩ | ⟨hsession, hbefore, _⟩
      · cases hreport
      · cases hreport.symm.trans hsession
        obtain ⟨bound, hbound, howner⟩ := hsound.bound stream serving hserving hbefore
        rw [hidentity, Option.some.injEq] at hbound
        rw [howner, hbound]

/-- A node state or drain of a session that its node is not registered with changes nothing. -/
theorem Leader.Step.of_replaced (hsound : leader.Sound config owner) {message : ClientMessage}
    (hmessage : event.message = some message) {session : String}
    (hreport : reportSession message = some session)
    (hreplaced : ∀ node, leader.core.nodes.lookup (owner session) = some node → node.hello.sessionId ≠ session)
    (hstep : leader.Step config owner event next) :
    SameRegistrations leader.core next.core := by
  have hunknown : leader.core.sessions.lookup session = none := by
    apply hsound.paired.lookup_eq_none
    intro id node hnode hsession
    have hid := hsound.owned session id ((hsound.paired session id).mpr ⟨node, hnode, hsession⟩)
    exact hreplaced node (hid ▸ hnode) hsession
  rcases hstep.message_cases hmessage with heq | ⟨_, _, _, handled, hhandle, heq⟩
  · rw [heq]
    exact ⟨rfl, fun _ ↦ rfl⟩
  · rw [heq]
    exact handled_of_unknown hsound.paired hsound.consistent hreport hunknown hhandle

/-- A node state of the registered contract that is not newer than the stored one changes nothing. -/
theorem Leader.Step.of_repeated (hsound : leader.Sound config owner) {state stored : NodeState} {id : String}
    {node : ReceivedNode} (hmessage : event.message = some (.nodeState state))
    (hnode : leader.core.nodes.lookup id = some node) (hsession : node.hello.sessionId = state.sessionId)
    (hdigest : node.hello.configDigest = state.configDigest) (hstored : node.state = some stored)
    (hsequence : state.sequence ≤ stored.sequence) (hstep : leader.Step config owner event next) :
    next.core = leader.core := by
  rcases hstep.message_cases hmessage with heq | ⟨_, _, _, handled, hhandle, heq⟩
  · exact heq
  · have hfound := hsound.paired.sessionNode hnode hsession
      (hsound.consistent.registered id node hnode).nonempty
    rw [heq]
    exact handled_of_repeated hfound hdigest hstored hsequence hhandle

/-- The registrations of a leader, and the isolation of its sessions. -/
structure Isolated (config : Config) (owner : String → String) (leader : Leader) : Prop where
  /-- A session is mapped to a node exactly when that node is registered under it. -/
  sessions : ∀ session id, leader.core.sessions.lookup session = some id ↔
    ∃ node, leader.core.nodes.lookup id = some node ∧ node.hello.sessionId = session
  /-- Nodes of one NodeGroup have one contract, and others claim no Service in common. -/
  contracts : ∀ id other node peer, leader.core.nodes.lookup id = some node →
    leader.core.nodes.lookup other = some peer → id ≠ other →
    (node.hello.nodeGroup = peer.hello.nodeGroup →
      node.hello.configDigest = peer.hello.configDigest ∧ node.hello.services = peer.hello.services) ∧
    (node.hello.nodeGroup ≠ peer.hello.nodeGroup → ∀ item ∈ node.hello.services,
      ∀ claimed ∈ peer.hello.services, item.identity ≠ claimed.identity)
  builds : ∀ order : List ReceivedNode, order.Perm (leader.core.nodes.pairs.map Prod.snd) →
    ∀ generation revision leaderId, ∃ snapshot,
      buildClusterSnapshot generation revision leaderId (order.map ReceivedNode.peer) = .ok snapshot
  /-- What a node reports belongs to its contract and its prefix. -/
  reports : ∀ id node state, leader.core.nodes.lookup id = some node → node.state = some state →
    state.configDigest = node.hello.configDigest ∧
    Netip.parsePrefix node.hello.ipv6Prefix = some node.range ∧
    ∀ endpoint ∈ state.endpoints, endpoint.nodeGroup = node.hello.nodeGroup ∧
      (∃ item ∈ node.hello.services, item.ns = endpoint.ns ∧ item.name = endpoint.service) ∧
      insidePrefix node.range endpoint = true
  increasing : ∀ id, (leader.sequences id).Pairwise (· > ·)
  newest : ∀ id node, leader.core.nodes.lookup id = some node →
    (leader.sequences id).head? = node.state.map NodeState.sequence
  /-- A stream only changes the registration of the node it is authenticated as. -/
  authenticated : ∀ stream serving identity now message next, leader.serving stream = some serving →
    serving.identity = some identity →
    leader.Step config owner (.receive stream now message) next →
    OnlyChanges owner identity.nodeId leader.core next.core
  /-- A report of a replaced session changes no registration, -/
  replaced : ∀ event message session next, event.message = some message →
    reportSession message = some session →
    (∀ node, leader.core.nodes.lookup (owner session) = some node → node.hello.sessionId ≠ session) →
    leader.Step config owner event next → SameRegistrations leader.core next.core
  /-- and one that is not newer than the stored state changes nothing. -/
  repeated : ∀ event state stored id node next, event.message = some (.nodeState state) →
    leader.core.nodes.lookup id = some node → node.hello.sessionId = state.sessionId →
    node.hello.configDigest = state.configDigest → node.state = some stored →
    state.sequence ≤ stored.sequence →
    leader.Step config owner event next → next.core = leader.core

/-- The registration invariant of a leader and the isolation of its sessions, in every run. -/
theorem leader_registrations (hreach : Reachable (leaderSystem config owner) leader) :
    Isolated config owner leader := by
  have hsound := sound_of_reachable hreach
  refine ⟨hsound.paired, ?_, ?_, ?_, hsound.sequenced.increasing, hsound.sequenced.newest, ?_, ?_, ?_⟩
  · intro id other node peer hnode hpeer hne
    exact conflicts_eq_none.mp (hsound.consistent.agree id other node peer hnode hpeer hne)
  · intro order horder generation revision leaderId
    exact buildClusterSnapshot_total (hsound.consistent.disjointGroups horder) _ _ _
  · intro id node state hnode hstate
    have hregistered := hsound.consistent.registered id node hnode
    refine ⟨hregistered.digest state hstate, hregistered.parsed, ?_⟩
    intro endpoint hendpoint
    have hvalid := (validateNodeState_eq_ok.mp (hregistered.valid state hstate)).2.1 endpoint hendpoint
    obtain ⟨item, hitem, hns, hname, _⟩ := ValidEndpoint.item hregistered.contract hvalid
    obtain ⟨_, _, hgroup, _⟩ := hvalid
    exact ⟨hgroup, ⟨item, hitem, hns, hname⟩, hregistered.inside state hstate endpoint hendpoint⟩
  · intro stream serving identity now message next hserving hidentity hstep
    exact hstep.onlyChanges hsound hserving hidentity
  · intro event message session next hmessage hreport hreplaced hstep
    exact hstep.of_replaced hsound hmessage hreport hreplaced
  · intro event state stored id node next hmessage hnode hsession hdigest hstored hsequence hstep
    exact hstep.of_repeated hsound hmessage hnode hsession hdigest hstored hsequence

end Runs

/-! ## A node that joins -/

def plainPrefix : Netip.Prefix :=
  ⟨.v6 0xfd000000000000000000000000000000#128 "", 80⟩

def plainDigest : String :=
  String.ofList (List.replicate 128 '0')

/-- A `Hello` with the given contract and a fixed digest and prefix. -/
def plainHello (cluster : String) (identity : Identity) (session : String)
    (services : List Api.Service) : Hello :=
  ⟨identity.nodeId, cluster, identity.nodeGroup, session, plainDigest, services, "fd00::/80"⟩

theorem parsePrefix_plain : Netip.parsePrefix "fd00::/80" = some plainPrefix := by
  decide

theorem validDelegatedPrefix_plain : validDelegatedPrefix plainPrefix = true := by
  decide

/-- A contract with the fixed digest. -/
theorem validContract_plain {cluster nodeGroup : String} {services : List Api.Service}
    (hgroup : Manifest.validID nodeGroup = true) (hlimit : services.length ≤ 10000)
    (hitems : ∀ item ∈ services, ValidItem cluster nodeGroup item)
    (hascending : (services.map Api.Service.identity).Pairwise (· < ·)) :
    ValidContract cluster nodeGroup plainDigest services where
  validNodeGroup := hgroup
  digestSize := by decide +kernel
  digestHex := by decide +kernel
  limit := hlimit
  items := hitems
  ascending := hascending

section Join

variable {config : Config} {owner : String → String} {leader : Leader} {identity : Identity}
  {session : String} {services : List Api.Service} {now : Int} {stream : Nat}

/-- What a node needs to register: a name, a session of its own, a contract, and no registration that
conflicts with it. -/
structure Joins (config : Config) (owner : String → String) (core : Coordinator) (identity : Identity)
    (session : String) (services : List Api.Service) : Prop where
  named : identity.nodeId ≠ ""
  opened : session ≠ ""
  contract : ValidContract config.cluster identity.nodeGroup plainDigest services
  own : owner session = identity.nodeId
  free : conflictWith core (plainHello config.cluster identity session services) = none

theorem handleHello_plain (hjoins : Joins config owner core identity session services) :
    handleHello config (some identity) false now (plainHello config.cluster identity session services)
      core = .ok (register (plainHello config.cluster identity session services) plainPrefix now core) := by
  apply handleHello_eq_ok.mpr
  refine ⟨hjoins.named, rfl, hjoins.opened, hjoins.contract, plainPrefix, parsePrefix_plain,
    validDelegatedPrefix_plain, ?_, hjoins.free, rfl⟩
  simp [helloSender, plainHello]

/-- The leader after a node has registered on a stream. -/
def Leader.join (leader : Leader) (cluster : String) (stream : Nat) (identity : Identity)
    (session : String) (services : List Api.Service) (now : Int) : Leader :=
  (leader.after (.hello (plainHello cluster identity session services))
    (.registered (register (plainHello cluster identity session services) plainPrefix now
      leader.core))).setServing stream (some ⟨some identity, session⟩)

theorem Leader.Step.join (hserving : leader.serving stream = some ⟨some identity, ""⟩)
    (hjoins : Joins config owner leader.core identity session services) :
    leader.Step config owner
      (.receive stream now (.hello (plainHello config.cluster identity session services)))
      (leader.join config.cluster stream identity session services now) := by
  refine .received hserving now ?_ ?_ ?_
  · rintro _ ⟨rfl⟩
    exact hjoins.own
  · exact if_neg (by simpa [plainHello] using hjoins.opened)
  · rw [handle, handleHello_plain hjoins]
    rfl

/-- A node connects to a leader and registers. -/
theorem reachable_join (hreach : Reachable (leaderSystem config owner) leader)
    (hstream : leader.serving stream = none)
    (hjoins : Joins config owner leader.core identity session services) :
    Reachable (leaderSystem config owner)
      ((leader.setServing stream (some ⟨some identity, ""⟩)).join config.cluster stream identity session
        services now) := by
  have hserving : (leader.setServing stream (some ⟨some identity, ""⟩)).serving stream =
      some ⟨some identity, ""⟩ := Function.update_self ..
  have hconnect := hreach.step (Leader.Step.connect stream (some identity) hstream)
  exact hconnect.step (Leader.Step.join hserving hjoins)

/-- A valid report of a node that has not reported yet is stored. -/
theorem handleNodeState_first {core : Coordinator} {state : NodeState} {id : String} {node : ReceivedNode}
    (hsession : sessionNode core state.sessionId = some (id, node)) (hunset : node.state = none)
    (hdigest : node.hello.configDigest = state.configDigest)
    (hvalid : validateNodeState node.hello.nodeGroup node.hello.services state = .ok ())
    (hinside : ∀ endpoint ∈ state.endpoints, insidePrefix node.range endpoint = true) :
    handleNodeState now state core = .ok (.stored { core with
      nodes := core.nodes.insert id { node with state := some state, received := now } }) := by
  have hall : state.endpoints.all (insidePrefix node.range) = true := List.all_eq_true.mpr hinside
  simp only [handleNodeState, hsession, hdigest, ne_eq, not_true_eq_false, if_false, hvalid, hall, bind,
    Except.bind, Bool.not_true, Bool.false_eq_true, hunset, Option.any_none]

theorem Leader.Step.report {state : NodeState}
    (hserving : leader.serving stream = some ⟨some identity, session⟩) (hsession : session ≠ "")
    (hstate : state.sessionId = session)
    (hstored : handleNodeState now state leader.core = .ok (.stored core)) :
    leader.Step config owner (.receive stream now (.nodeState state))
      ((leader.after (.nodeState state) (.reported (.stored core))).setServing stream
        (some ⟨some identity, session⟩)) := by
  refine .received hserving now trivial ?_ ?_
  · exact if_neg (by simp [hsession, hstate])
  · rw [handle, hstored]
    rfl

/-- A node connects to a leader, registers and reports. -/
theorem reachable_report {state : NodeState} (hreach : Reachable (leaderSystem config owner) leader)
    (hstream : leader.serving stream = none)
    (hjoins : Joins config owner leader.core identity session services)
    (hstate : state.sessionId = session) (hdigest : state.configDigest = plainDigest)
    (hvalid : validateNodeState identity.nodeGroup services state = .ok ())
    (hinside : ∀ endpoint ∈ state.endpoints, insidePrefix plainPrefix endpoint = true) :
    ∃ next : Leader, Reachable (leaderSystem config owner) next ∧
      next.core.nodes = leader.core.nodes.insert identity.nodeId
        ⟨plainHello config.cluster identity session services, some state, now, plainPrefix⟩ ∧
      next.serving = Function.update leader.serving stream (some ⟨some identity, session⟩) := by
  have hjoin := @reachable_join config owner leader identity session services now stream hreach hstream
    hjoins
  have hnode : sessionNode ((leader.setServing stream (some ⟨some identity, ""⟩)).join config.cluster stream
      identity session services now).core state.sessionId = some (identity.nodeId,
        ⟨plainHello config.cluster identity session services, none, now, plainPrefix⟩) := by
    rw [hstate, sessionNode_eq_some]
    refine ⟨?_, hjoins.named, ?_, rfl⟩
    · exact (GoMap.lookup_insert_eq _ _ _ _).trans (if_pos rfl)
    · exact (GoMap.lookup_insert_eq _ _ _ _).trans (if_pos rfl)
  have hstored := @handleNodeState_first now _ state _ _ hnode rfl hdigest.symm hvalid hinside
  have hserving : ((leader.setServing stream (some ⟨some identity, ""⟩)).join config.cluster stream
      identity session services now).serving stream = some ⟨some identity, session⟩ :=
    Function.update_self ..
  refine ⟨_, hjoin.step (Leader.Step.report hserving hjoins.opened hstate hstored), ?_, ?_⟩
  · exact @AList.insert_insert _ (fun _ ↦ ReceivedNode) _ identity.nodeId _ _ leader.core.nodes
  · simp [Leader.setServing, Leader.after, Leader.join]

end Join

/-! ## Services with one endpoint -/

def httpPort : TargetPort := ⟨"http", "TCP", 80, 80⟩

/-- A Service of a contract, in the namespace `default`. -/
def plainItem (cluster nodeGroup name : String) (ports : List TargetPort) : Api.Service where
  name
  fqdn := serviceFqdn "default" name
  vip := (Dataplane.deriveVIP cluster "default" name).string
  ports
  backends := []
  nodeGroup
  ns := "default"

def plainEndpoint (nodeGroup name : String) (port : TargetPort) : Endpoint :=
  ⟨name, "uid", "fd00::1", [port], nodeGroup, "default"⟩

abbrev webItem (cluster : String) (port : TargetPort) : Api.Service :=
  plainItem cluster "workers" "web" [port]

abbrev webEndpoint : TargetPort → Endpoint :=
  plainEndpoint "workers" "web"

theorem validContract_item (cluster : String) {nodeGroup name : String} {ports : List TargetPort}
    (hgroup : Manifest.validID nodeGroup = true) (hname : Manifest.validID name = true)
    (hports : ∀ port ∈ ports, validPort port = true) (hnodup : (ports.map portKey).Nodup) :
    ValidContract cluster nodeGroup plainDigest [plainItem cluster nodeGroup name ports] := by
  have hns : Manifest.validNamespace "default" = true := by decide
  exact validContract_plain hgroup (by simp)
    (List.forall_mem_singleton.mpr ⟨rfl, hns, hname, rfl, rfl, rfl, hports, hnodup⟩) (by simp)

theorem validContract_web (cluster : String) {port : TargetPort} (hport : validPort port = true) :
    ValidContract cluster "workers" plainDigest [webItem cluster port] :=
  validContract_item cluster (by decide) (by decide) (List.forall_mem_singleton.mpr hport) (by simp)

theorem validateNodeState_plain (cluster : String) {nodeGroup name : String} {port reported : TargetPort}
    (hidentity : portIdentity reported = portIdentity port) (session : String) (sequence : Nat)
    (digest : String) :
    validateNodeState nodeGroup [plainItem cluster nodeGroup name [port]]
      ⟨session, sequence, digest, [plainEndpoint nodeGroup name reported]⟩ = .ok () := by
  have haddress : globalIPv6 "fd00::1" = true := by decide
  refine validateNodeState_eq_ok.mpr ⟨by simp, List.forall_mem_singleton.mpr ?_, by simp⟩
  exact ⟨plainItem cluster nodeGroup name [port], (GoMap.lookup_insert_eq _ _ _ _).trans (if_pos rfl), rfl,
    by simp [plainEndpoint], haddress, rfl,
    by simp [plainEndpoint], List.forall_mem_singleton.mpr (List.mem_singleton.mpr hidentity)⟩

theorem insidePrefix_plain (nodeGroup name : String) (port : TargetPort) :
    ∀ endpoint ∈ [plainEndpoint nodeGroup name port], insidePrefix plainPrefix endpoint = true := by
  have hparsed : Netip.parseAddr "fd00::1" = some (.v6 0xfd000000000000000000000000000001#128 "") := by
    decide
  refine List.forall_mem_singleton.mpr ?_
  rw [insidePrefix, plainEndpoint, hparsed]
  decide

def workersConfig : Config :=
  ⟨"node-1", "cluster", "workers", plainPrefix⟩

/-- A node with a Service of the name of its NodeGroup, and one endpoint of it. -/
def groupNode (identity : Identity) (session : String) : ReceivedNode where
  hello := plainHello "cluster" identity session
    [plainItem "cluster" identity.nodeGroup identity.nodeGroup [httpPort]]
  state := some ⟨session, 1, plainDigest, [plainEndpoint identity.nodeGroup identity.nodeGroup httpPort]⟩
  received := 0
  range := plainPrefix

/-- Every session is named after its node. -/
def sessionOwner (session : String) : String :=
  if session = "session-2" then "node-2" else "node-3"

theorem reachable_group {leader : Leader} {stream : Nat} {identity : Identity} {session : String}
    (hreach : Reachable (leaderSystem workersConfig sessionOwner) leader)
    (hstream : leader.serving stream = none) (hid : identity.nodeId ≠ "") (hsession : session ≠ "")
    (hgroup : Manifest.validID identity.nodeGroup = true) (hown : sessionOwner session = identity.nodeId)
    (hfree : conflictWith leader.core (groupNode identity session).hello = none) :
    ∃ next : Leader, Reachable (leaderSystem workersConfig sessionOwner) next ∧
      next.core.nodes = leader.core.nodes.insert identity.nodeId (groupNode identity session) ∧
      next.serving = Function.update leader.serving stream (some ⟨some identity, session⟩) :=
  reachable_report hreach hstream
    ⟨hid, hsession, validContract_item "cluster" hgroup hgroup (by decide) (by simp), hown, hfree⟩ rfl rfl
    (validateNodeState_plain "cluster" rfl session 1 plainDigest) (insidePrefix_plain _ _ _)

/-- Two nodes of different NodeGroups register and report. -/
theorem reachable_pair : ∃ leader : Leader, Reachable (leaderSystem workersConfig sessionOwner) leader ∧
    leader.core.nodes.pairs = [("node-3", groupNode ⟨"node-3", "edge"⟩ "session-3"),
      ("node-2", groupNode ⟨"node-2", "workers"⟩ "session-2")] := by
  obtain ⟨first, hfirst, hnodes, hserving⟩ := @reachable_group Leader.fresh 0 ⟨"node-2", "workers"⟩ "session-2"
    (.init rfl) rfl (by decide) (by decide) (by decide) rfl rfl
  obtain ⟨second, hsecond, hboth, _⟩ := @reachable_group first 1 ⟨"node-3", "edge"⟩ "session-3" hfirst
    (by rw [hserving]; rfl) (by decide) (by decide) (by decide) rfl (by rw [conflictWith, hnodes]; rfl)
  exact ⟨second, hsecond, by rw [hboth, hnodes]; rfl⟩

/-- Two nodes with Services that have reported. -/
theorem leader_registrations_pair :
    ∃ leader, Reachable (leaderSystem workersConfig sessionOwner) leader ∧
      leader.core.nodes.lookup "node-2" = some (groupNode ⟨"node-2", "workers"⟩ "session-2") ∧
      leader.core.nodes.lookup "node-3" = some (groupNode ⟨"node-3", "edge"⟩ "session-3") ∧
      Isolated workersConfig sessionOwner leader := by
  obtain ⟨leader, hreach, hnodes⟩ := reachable_pair
  exact ⟨leader, hreach, GoMap.mem_pairs.mp (by simp [hnodes]), GoMap.mem_pairs.mp (by simp [hnodes]),
    leader_registrations hreach⟩

end Podmin.Agent.Coordination
