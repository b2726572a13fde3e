import Podmin.Agent.Service.Apply

/-!
# The service coordinator

The model of `internal/agent/coordinator`, cut at the points where a call leaves the process: storage
reads and conditional writes, the controller's `Apply`, and the streams. Each piece between two such
points runs under the coordinator's mutexes and is one function here; the concurrent system and the
sequential calls are put together from these pieces.
-/

namespace Podmin.Agent.Coordination

open Foundation Netip Api Agent.Service

variable {now : Int} {coordinator next : Coordinator} {state : NodeState}

structure Config where
  nodeId : String
  cluster : String
  nodeGroup : String
  ipv6Prefix : Prefix
  deriving DecidableEq, Repr

/-- A canonical global-unicast IPv6 /80. -/
def validDelegatedPrefix (range : Prefix) : Bool :=
  range.isValid && range.addr.is6 && !range.addr.is4In6 && range.addr.isGlobalUnicast &&
    range.bits == 80 && range == range.masked

/-- A complete node view and the leader's time of receipt. -/
structure ReceivedNode where
  hello : Hello
  state : Option NodeState
  received : Int
  range : Prefix
  deriving DecidableEq, Repr

def ReceivedNode.peer (node : ReceivedNode) : Peer :=
  ⟨node.hello, node.state⟩

/-- The mutable state of one coordinator process; times are nanoseconds. -/
structure Coordinator where
  nodes : GoMap String ReceivedNode := ∅
  sessions : GoMap String String := ∅
  snapshot : Option Snapshot := none
  generation : Nat := 0
  leaderReady : Bool := false
  lastSnapshot : Option Int := none
  staleCleared : Bool := false
  fatal : Option String := none
  localSession : String := ""
  localSequence : Nat := 0

/-! ## Snapshots and contracts -/

def serviceIdentityLess (left right : Api.Service) : Bool :=
  serviceLess left right

def clearBackends (snapshot : Snapshot) : Snapshot :=
  { snapshot with services := snapshot.services.map fun item ↦ { item with backends := [] } }

/-- Whether two contracts claim the same global Service identity. -/
def contractsOverlap (left right : List Api.Service) : Bool :=
  right.any fun item ↦ decide (item.identity ∈ left.map Api.Service.identity)

/-- Keep remote NodeGroups and replace the local contract, without backends. -/
def overlayLocalContract (nodeGroup : String) (localContract : List Api.Service)
    (snapshot : Snapshot) : Snapshot :=
  let identities := localContract.map Api.Service.identity
  { snapshot with
    services := sortSlice serviceIdentityLess
      (snapshot.services.filter (fun item ↦
        item.nodeGroup != nodeGroup && !decide (item.identity ∈ identities)) ++ localContract) }

/-- What `LoadSnapshot` applies for a durable snapshot: no endpoint leases, and the local contract in
place of whatever the object held for this NodeGroup. -/
def loadSnapshot (nodeGroup : String) (localContract : List Api.Service) (durable : Snapshot) :
    Snapshot :=
  { durable with
    services := sortSlice serviceIdentityLess
      ((clearBackends durable).services.filter (fun item ↦ item.nodeGroup != nodeGroup) ++
        localContract) }

/-- The empty message `acquire` starts from when there is no durable object. -/
def emptySnapshot : Snapshot := ⟨0, 0, "", "", []⟩

/-- The snapshot `acquire` proposes for the object it read. -/
def acquireCandidate (config : Config) (localContract : List Api.Service)
    (current : Option Snapshot) : Snapshot :=
  let read := current.getD emptySnapshot
  { overlayLocalContract config.nodeGroup localContract (clearBackends read) with
    generation := read.generation + 1
    revision := 0
    leaderId := config.nodeId }

/-! ## Applying -/

/-- Whether `current` is at least as recent as `snapshot`. -/
def upToDate (current : Option Snapshot) (snapshot : Snapshot) : Bool :=
  match current with
  | none => false
  | some held =>
    decide (snapshot.generation < held.generation) ||
      (snapshot.generation == held.generation && decide (snapshot.revision ≤ held.revision))

/-- Apply a snapshot unless it is not newer; `outcome` is the result of the controller's `Apply`. An
error is fatal unless the snapshot has no Services, and the channel keeps the first fatal error. -/
def apply (outcome : Except String Unit) (now : Int) (snapshot : Snapshot)
    (coordinator : Coordinator) : Coordinator × Except String Unit :=
  if upToDate coordinator.snapshot snapshot then (coordinator, .ok ())
  else
    match outcome with
    | .error message =>
      let fatal := if snapshot.services.isEmpty then coordinator.fatal
        else coordinator.fatal.or (some ("apply service dataplane: " ++ message))
      ({ coordinator with fatal := fatal }, .error message)
    | .ok () =>
      ({ coordinator with
          snapshot := some snapshot
          lastSnapshot := some now
          staleCleared := false }, .ok ())

/-! ## Publishing -/

/-- The revision the next publication proposes. -/
def nextRevision (coordinator : Coordinator) : Nat :=
  match coordinator.snapshot with
  | some held => if held.generation = coordinator.generation then held.revision + 1 else 1
  | none => 1

/-- Build a snapshot of the registrations, visited in some order. -/
def publishBuild (config : Config) (coordinator : Coordinator) (order : List ReceivedNode) :
    Except String Snapshot :=
  buildClusterSnapshot coordinator.generation (nextRevision coordinator) config.nodeId
    (order.map ReceivedNode.peer)

/-- Compare a built snapshot with the durable object it is to replace. -/
def publishFence (config : Config) (snapshot durable : Snapshot) : Except String Unit :=
  if durable.generation ≠ snapshot.generation ∨ durable.leaderId ≠ config.nodeId then
    .error "durable service leader superseded this process"
  else if durable.revision + 1 ≠ snapshot.revision then
    .error "durable service revision changed during publication"
  else .ok ()

/-- What `acquire` records once its write succeeded. -/
def acquired (candidate : Snapshot) (coordinator : Coordinator) : Coordinator :=
  { coordinator with generation := candidate.generation, nodes := ∅, sessions := ∅ }

/-! ## Handling messages -/

/-- The node and NodeGroup of an authenticated stream. -/
structure Identity where
  nodeId : String
  nodeGroup : String
  deriving DecidableEq, Repr

/-- A registration of another node that excludes a `Hello`. -/
def conflicts (peer hello : Hello) : Option String :=
  if peer.nodeGroup = hello.nodeGroup then
    if peer.configDigest ≠ hello.configDigest ∨ peer.services ≠ hello.services then
      some "conflicting service contract within NodeGroup"
    else none
  else if contractsOverlap peer.services hello.services then
    some "conflicting Service ownership across NodeGroups"
  else none

def conflictWith (coordinator : Coordinator) (hello : Hello) : Option String :=
  (coordinator.nodes.pairs.filter fun (id, _) ↦ id != hello.nodeId).findSome? fun (_, peer) ↦
    conflicts peer.hello hello

/-- The delegated prefix of a `Hello`; a local one may leave it out. -/
def helloPrefix (config : Config) (isLocal : Bool) (hello : Hello) : String :=
  if isLocal && hello.ipv6Prefix == "" then config.ipv6Prefix.string else hello.ipv6Prefix

/-- Who may send a `Hello`: the authenticated node, or the leader itself with its own prefix. -/
def helloSender (config : Config) (sender : Option Identity) (isLocal : Bool) (hello : Hello)
    (range : Prefix) : Except String Unit :=
  if isLocal then
    if range ≠ config.ipv6Prefix then .error "invalid local hello prefix" else .ok ()
  else if sender = some ⟨hello.nodeId, hello.nodeGroup⟩ then .ok ()
  else .error "hello does not match authenticated node identity"

/-- Replace the session and registration of a node. -/
def register (hello : Hello) (range : Prefix) (now : Int) (coordinator : Coordinator) :
    Coordinator :=
  let sessions := match coordinator.nodes.lookup hello.nodeId with
    | some previous => coordinator.sessions.erase previous.hello.sessionId
    | none => coordinator.sessions
  { coordinator with
    sessions := sessions.insert hello.sessionId hello.nodeId
    nodes := coordinator.nodes.insert hello.nodeId ⟨hello, none, now, range⟩ }

/-- The `Hello` branch of `handle` on a ready leader. -/
def handleHello (config : Config) (sender : Option Identity) (isLocal : Bool) (now : Int)
    (message : Hello) (coordinator : Coordinator) : Except String Coordinator := do
  if message.nodeId == "" || message.cluster != config.cluster || message.sessionId == "" then
    .error "invalid hello"
  if let .error _ := validateContract config.cluster message.nodeGroup message.configDigest
      message.services then
    .error "invalid hello"
  let hello := { message with ipv6Prefix := helloPrefix config isLocal message }
  match parsePrefix hello.ipv6Prefix with
  | none => .error "invalid delegated IPv6 prefix"
  | some range =>
    if !validDelegatedPrefix range then .error "invalid delegated IPv6 prefix"
    helloSender config sender isLocal hello range
    match conflictWith coordinator hello with
    | some conflict => .error conflict
    | none => .ok (register hello range now coordinator)

/-- The registration a session stands for. -/
def sessionNode (coordinator : Coordinator) (session : String) : Option (String × ReceivedNode) :=
  match coordinator.sessions.lookup session with
  | none => none
  | some id =>
    if id == "" then none
    else (coordinator.nodes.lookup id).bind fun node ↦
      if node.hello.sessionId == session then some (id, node) else none

/-- Withdraw a session and its node. -/
def unregister (session id : String) (coordinator : Coordinator) : Coordinator :=
  { coordinator with
    sessions := coordinator.sessions.erase session
    nodes := coordinator.nodes.erase id }

def insidePrefix (range : Prefix) (endpoint : Endpoint) : Bool :=
  match parseAddr endpoint.address with
  | some address => range.contains address
  | none => false

/-- What a node state leads to: the node is retired and must reconnect, the state is not newer than
the stored one, or it is stored. The first and the last are followed by a publication. -/
inductive NodeStateOutcome where
  | retired (coordinator : Coordinator)
  | repeated
  | stored (coordinator : Coordinator)

/-- The `NodeState` branch of `handle` on a ready leader, up to the publication. -/
def handleNodeState (now : Int) (state : NodeState) (coordinator : Coordinator) :
    Except String NodeStateOutcome :=
  match sessionNode coordinator state.sessionId with
  | none => .error "invalid node state session or config digest"
  | some (id, old) =>
    if old.hello.configDigest ≠ state.configDigest then
      .ok (.retired (unregister state.sessionId id coordinator))
    else do
      validateNodeState old.hello.nodeGroup old.hello.services state
      if !state.endpoints.all (insidePrefix old.range) then
        .error "endpoint is outside reported delegated prefix"
      if old.state.any fun stored ↦ decide (state.sequence ≤ stored.sequence) then
        .ok .repeated
      else
        .ok (.stored { coordinator with
          nodes := coordinator.nodes.insert id { old with state := some state, received := now } })

/-- The `Drain` branch of `handle` on a ready leader, up to the publication. -/
def handleDrain (drain : Drain) (coordinator : Coordinator) : Coordinator :=
  let id := (coordinator.sessions.lookup drain.sessionId).getD ""
  let current := coordinator.nodes.lookup id
  if current.any fun node ↦ node.hello.sessionId == drain.sessionId then
    unregister drain.sessionId id coordinator
  else { coordinator with sessions := coordinator.sessions.erase drain.sessionId }

/-- The leader's branch of `drain`, up to the publication: the sessions of its own node go, and with the
first of them the node. -/
def drainLocal (config : Config) (coordinator : Coordinator) : Coordinator :=
  { coordinator with
    sessions := coordinator.sessions.filter fun _ id ↦ id != config.nodeId
    nodes := if coordinator.sessions.pairs.any fun (_, id) ↦ id == config.nodeId
      then coordinator.nodes.erase config.nodeId else coordinator.nodes }

/-- One lease: 35 seconds. -/
def leaseDuration : Int := 35 * 10 ^ 9

def expired (now : Int) (node : ReceivedNode) : Bool :=
  decide (leaseDuration < now - node.received)

/-- Drop the registrations whose lease has run out; true when there was one. -/
def expire (now : Int) (coordinator : Coordinator) : Coordinator × Bool :=
  let gone := coordinator.nodes.pairs.filter fun (_, node) ↦ expired now node
  ({ coordinator with
      sessions := gone.foldl (fun sessions (_, node) ↦ sessions.erase node.hello.sessionId)
        coordinator.sessions
      nodes := coordinator.nodes.filter fun _ node ↦ !expired now node }, !gone.isEmpty)

/-! ## What each message does -/

theorem handleHello_eq_ok {config : Config} {sender : Option Identity} {isLocal : Bool} {message : Hello} :
    handleHello config sender isLocal now message coordinator = .ok next ↔
      message.nodeId ≠ "" ∧ message.cluster = config.cluster ∧ message.sessionId ≠ "" ∧
      ValidContract config.cluster message.nodeGroup message.configDigest message.services ∧
      ∃ range, parsePrefix (helloPrefix config isLocal message) = some range ∧
        validDelegatedPrefix range = true ∧
        helloSender config sender isLocal
          { message with ipv6Prefix := helloPrefix config isLocal message } range = .ok () ∧
        conflictWith coordinator
          { message with ipv6Prefix := helloPrefix config isLocal message } = none ∧
        next = register { message with ipv6Prefix := helloPrefix config isLocal message } range now
          coordinator := by
  rw [← validateContract_eq_ok]
  simp only [handleHello, bind, Except.bind]
  constructor
  · intro hok
    split at hok
    · simp at hok
    next hshape =>
      simp only [Bool.or_eq_true, beq_iff_eq, bne_iff_ne, not_or, not_not] at hshape
      cases hcontract : validateContract config.cluster message.nodeGroup message.configDigest
          message.services with
      | error reason => simp [hcontract] at hok
      | ok _ =>
        cases hparse : parsePrefix (helloPrefix config isLocal message) with
        | none => simp [hcontract, hparse] at hok
        | some range =>
          simp only [hcontract, hparse] at hok
          split at hok
          · simp at hok
          next hvalid =>
            split at hok
            · simp at hok
            next hsender =>
              split at hok
              · simp at hok
              next hfree =>
                refine ⟨hshape.1.1, hshape.1.2, hshape.2, rfl, range, rfl, by simpa using hvalid,
                  hsender, hfree, ?_⟩
                exact (Except.ok.inj hok).symm
  · rintro ⟨hid, hcluster, hsession, hcontract, range, hparse, hvalid, hsender, hfree, rfl⟩
    rw [if_neg (by simp [hid, hcluster, hsession])]
    simp only [hcontract, hparse, hvalid, hsender, hfree, Bool.not_true, Bool.false_eq_true,
      if_false]

/-- A node state is only looked at on behalf of a registered session. -/
theorem handleNodeState_eq_ok {outcome : NodeStateOutcome}
    (hok : handleNodeState now state coordinator = .ok outcome) :
    ∃ id old, sessionNode coordinator state.sessionId = some (id, old) ∧
      ((old.hello.configDigest ≠ state.configDigest ∧
          outcome = .retired (unregister state.sessionId id coordinator)) ∨
        (old.hello.configDigest = state.configDigest ∧
          validateNodeState old.hello.nodeGroup old.hello.services state = .ok () ∧
          (∀ endpoint ∈ state.endpoints, insidePrefix old.range endpoint = true) ∧
          ((outcome = .repeated ∧
              ∃ stored, old.state = some stored ∧ state.sequence ≤ stored.sequence) ∨
            ((∀ stored, old.state = some stored → stored.sequence < state.sequence) ∧
              outcome = .stored { coordinator with
                nodes := coordinator.nodes.insert id
                  { old with state := some state, received := now } })))) := by
  simp only [handleNodeState, bind, Except.bind] at hok
  split at hok
  · simp at hok
  next id old hsession =>
    refine ⟨id, old, hsession, ?_⟩
    split at hok
    · next hdigest =>
      exact .inl ⟨hdigest, (Except.ok.inj hok).symm⟩
    next hdigest =>
      split at hok
      · simp at hok
      next hvalid =>
        split at hok
        · simp at hok
        next hinside =>
          refine .inr ⟨not_not.mp hdigest, hvalid, by simpa using hinside, ?_⟩
          split at hok
          · next hrepeated =>
            exact .inl ⟨(Except.ok.inj hok).symm, by simpa [Option.any_eq_true] using hrepeated⟩
          · next hfresh =>
            refine .inr ⟨?_, (Except.ok.inj hok).symm⟩
            intro stored hstored
            simpa [hstored] using hfresh

theorem handleNodeState_eq_retired (hretired : handleNodeState now state coordinator = .ok (.retired next)) :
    ∃ id old, sessionNode coordinator state.sessionId = some (id, old) ∧
      old.hello.configDigest ≠ state.configDigest ∧
      next = unregister state.sessionId id coordinator := by
  obtain ⟨id, old, hsession, ⟨hdigest, heq⟩ | ⟨_, _, _, ⟨heq, _⟩ | ⟨_, heq⟩⟩⟩ :=
    handleNodeState_eq_ok hretired
  · cases heq
    exact ⟨id, old, hsession, hdigest, rfl⟩
  · cases heq
  · cases heq

theorem handleNodeState_eq_stored (hstored : handleNodeState now state coordinator = .ok (.stored next)) :
    ∃ id old, sessionNode coordinator state.sessionId = some (id, old) ∧
      old.hello.configDigest = state.configDigest ∧
      validateNodeState old.hello.nodeGroup old.hello.services state = .ok () ∧
      (∀ endpoint ∈ state.endpoints, insidePrefix old.range endpoint = true) ∧
      (∀ stored, old.state = some stored → stored.sequence < state.sequence) ∧
      next = { coordinator with
        nodes := coordinator.nodes.insert id { old with state := some state, received := now } } := by
  obtain ⟨id, old, hsession, ⟨_, heq⟩ | ⟨hdigest, hvalid, hinside, ⟨heq, _⟩ | ⟨hfresh, heq⟩⟩⟩ :=
    handleNodeState_eq_ok hstored
  · cases heq
  · cases heq
  · cases heq
    exact ⟨id, old, hsession, hdigest, hvalid, hinside, hfresh, rfl⟩

end Podmin.Agent.Coordination
