import Podmin.Agent.Coordinator.State
import Podmin.Foundation.Transition

/-!
# A leader and its streams

The leader's side of `Sync` and `handle`: any number of authenticated streams send messages, the
leader's own node refreshes itself through `registerLocal` and leaves through `drain`, leases expire,
leadership is acquired again, and snapshots of the registrations are published. A step is one region
under the coordinator's mutex. `handle` reads the election and `leaderReady` before it takes the mutex,
so a message that has passed this gate may be handled at any later time, and no step asks for it again.
-/

namespace Podmin.Agent.Coordination

open Foundation Transition Api Agent.Service

/-! ## One message -/

/-- What `handle` makes of a message, up to the publication. -/
inductive Handled where
  | registered (next : Coordinator)
  | reported (outcome : NodeStateOutcome)
  | drained (next : Coordinator)

def handle (config : Config) (sender : Option Identity) (isLocal : Bool) (now : Int)
    (message : ClientMessage) (core : Coordinator) : Except String Handled :=
  match message with
  | .hello hello => (handleHello config sender isLocal now hello core).map .registered
  | .nodeState state => (handleNodeState now state core).map .reported
  | .drain drain => .ok (.drained (handleDrain drain core))
  | .empty => .error "empty coordination message"

def Handled.core (before : Coordinator) : Handled → Coordinator
  | .registered next => next
  | .reported (.retired next) => next
  | .reported .repeated => before
  | .reported (.stored next) => next
  | .drained next => next

/-- A retired node is told to reconnect, which is an error and ends its stream. -/
def Handled.reconnects : Handled → Bool
  | .reported (.retired _) => true
  | _ => false

/-! ## Streams -/

/-- The server side of a stream: whom mTLS authenticated, and the session of its `Hello`. -/
structure Serving where
  identity : Option Identity
  session : String
  deriving DecidableEq, Repr

/-- The checks of `Sync`: one initial `Hello`, and then only messages of its session. The result is
the session of the stream. -/
def syncSession (session : String) : ClientMessage → Except String String
  | .hello hello =>
    if session ≠ "" ∨ hello.sessionId = "" then
      .error "coordination stream must contain exactly one initial hello"
    else .ok hello.sessionId
  | .nodeState state =>
    if session = "" ∨ state.sessionId ≠ session then
      .error "node state does not belong to this coordination stream"
    else .ok session
  | .drain drain =>
    if session = "" ∨ drain.sessionId ≠ session then
      .error "drain does not belong to this coordination stream"
    else .ok session
  | .empty => .error "empty coordination stream message"

/-! ## The system -/

/-- A leader. The last four fields are history: the sequence numbers stored for a node since its last
`Hello`, newest first, and the object, the time and the NodeGroups registered since the last
acquisition. No step depends on them. -/
structure Leader where
  core : Coordinator
  serving : Nat → Option Serving
  sequences : String → List Nat
  durable : Option Snapshot
  acquiredAt : Int
  joined : List String

inductive Event where
  | connect (stream : Nat) (identity : Option Identity)
  | disconnect (stream : Nat)
  | receive (stream : Nat) (now : Int) (message : ClientMessage)
  | refresh (now : Int) (message : ClientMessage)
  | drain (node : String)
  | expire (now : Int)
  | acquire (now : Int) (durable : Option Snapshot)
  | publish (now : Int) (snapshot : Snapshot)

def recordSequences (core : Coordinator) (message : ClientMessage) (handled : Handled)
    (sequences : String → List Nat) : String → List Nat :=
  match message, handled with
  | .hello hello, .registered _ => Function.update sequences hello.nodeId []
  | .nodeState state, .reported (.stored _) =>
    match sessionNode core state.sessionId with
    | some (id, _) => Function.update sequences id (state.sequence :: sequences id)
    | none => sequences
  | _, _ => sequences

def recordJoined (message : ClientMessage) (handled : Handled) (joined : List String) :
    List String :=
  match message, handled with
  | .hello hello, .registered _ => hello.nodeGroup :: joined
  | _, _ => joined

/-- The leader after a message was handled. -/
def Leader.after (leader : Leader) (message : ClientMessage) (handled : Handled) : Leader :=
  { leader with
    core := handled.core leader.core
    sequences := recordSequences leader.core message handled leader.sequences
    joined := recordJoined message handled leader.joined }

def Leader.setServing (leader : Leader) (stream : Nat) (serving : Option Serving) : Leader :=
  { leader with serving := Function.update leader.serving stream serving }

/-- The messages of `registerLocal`: the leader's own `Hello` and node state. -/
def LocalMessage (config : Config) (owner : String → String) : ClientMessage → Prop
  | .hello hello => hello.nodeId = config.nodeId ∧ hello.nodeGroup = config.nodeGroup ∧
      owner hello.sessionId = config.nodeId
  | .nodeState state => owner state.sessionId = config.nodeId
  | .drain _ | .empty => False

/-- A session belongs to the node that made it up, which is the one the stream is authenticated
as. -/
def OwnSession (owner : String → String) (identity : Option Identity) : ClientMessage → Prop
  | .hello hello => ∀ sender, identity = some sender → owner hello.sessionId = sender.nodeId
  | _ => True

inductive Leader.Step (config : Config) (owner : String → String) (leader : Leader) :
    Event → Leader → Prop
  | connect (stream : Nat) (identity : Option Identity) (hfree : leader.serving stream = none) :
      Leader.Step config owner leader (.connect stream identity)
        (leader.setServing stream (some ⟨identity, ""⟩))
  | disconnect (stream : Nat) :
      Leader.Step config owner leader (.disconnect stream) (leader.setServing stream none)
  | refused {stream : Nat} {serving : Serving} (hserving : leader.serving stream = some serving)
      (now : Int) {message : ClientMessage} {reason : String}
      (hsync : syncSession serving.session message = .error reason) :
      Leader.Step config owner leader (.receive stream now message)
        (leader.setServing stream none)
  | rejected {stream : Nat} {serving : Serving} (hserving : leader.serving stream = some serving)
      (now : Int) {message : ClientMessage} {session reason : String}
      (hsync : syncSession serving.session message = .ok session)
      (hhandle : handle config serving.identity false now message leader.core = .error reason) :
      Leader.Step config owner leader (.receive stream now message)
        (leader.setServing stream none)
  | received {stream : Nat} {serving : Serving} (hserving : leader.serving stream = some serving)
      (now : Int) {message : ClientMessage} {session : String} {handled : Handled}
      (hown : OwnSession owner serving.identity message)
      (hsync : syncSession serving.session message = .ok session)
      (hhandle : handle config serving.identity false now message leader.core = .ok handled) :
      Leader.Step config owner leader (.receive stream now message)
        ((leader.after message handled).setServing stream
          (if handled.reconnects then none else some { serving with session := session }))
  | refresh (now : Int) {message : ClientMessage} {handled : Handled}
      (hlocal : LocalMessage config owner message)
      (hhandle : handle config none true now message leader.core = .ok handled) :
      Leader.Step config owner leader (.refresh now message) (leader.after message handled)
  | drain : Leader.Step config owner leader (.drain config.nodeId)
      { leader with core := drainLocal config leader.core }
  | expire (now : Int) :
      Leader.Step config owner leader (.expire now)
        { leader with core := (Coordination.expire now leader.core).1 }
  | acquire (now : Int) (durable : Option Snapshot) (localContract : List Api.Service) :
      Leader.Step config owner leader (.acquire now durable)
        { leader with
          core := acquired (acquireCandidate config localContract durable) leader.core
          durable := durable
          acquiredAt := now
          joined := [] }
  | publish (now : Int) {order : List ReceivedNode} {snapshot : Snapshot}
      (horder : order.Perm (leader.core.nodes.pairs.map Prod.snd))
      (hbuild : publishBuild config leader.core order = .ok snapshot) :
      Leader.Step config owner leader (.publish now snapshot) leader

/-- A process without registrations and streams. -/
def Leader.fresh : Leader :=
  ⟨{}, fun _ ↦ none, fun _ ↦ [], none, 0, []⟩

/-- The runs of one leader, when `owner` tells which node made up a session. -/
def leaderSystem (config : Config) (owner : String → String) : System Leader Event where
  init leader := leader = Leader.fresh
  step := Leader.Step config owner

/-! ## What a handled message does -/

theorem handle_hello {config : Config} {sender : Option Identity} {isLocal : Bool} {now : Int}
    {hello : Hello} {core : Coordinator} {handled : Handled}
    (hhandle : handle config sender isLocal now (.hello hello) core = .ok handled) :
    ∃ next, handleHello config sender isLocal now hello core = .ok next ∧ handled = .registered next :=
  Fallible.map_eq_ok.mp hhandle

theorem handle_nodeState {config : Config} {sender : Option Identity} {isLocal : Bool} {now : Int}
    {state : NodeState} {core : Coordinator} {handled : Handled}
    (hhandle : handle config sender isLocal now (.nodeState state) core = .ok handled) :
    ∃ outcome, handleNodeState now state core = .ok outcome ∧ handled = .reported outcome :=
  Fallible.map_eq_ok.mp hhandle

/-- What a handled message does to the registrations. -/
theorem handle_cases {config : Config} {sender : Option Identity} {isLocal : Bool} {now : Int}
    {message : ClientMessage} {core : Coordinator} {handled : Handled}
    (hhandle : handle config sender isLocal now message core = .ok handled) :
    (∃ hello next, message = .hello hello ∧ handled = .registered next ∧
        handleHello config sender isLocal now hello core = .ok next) ∨
      (∃ state next, message = .nodeState state ∧ handled = .reported (.retired next) ∧
        handleNodeState now state core = .ok (.retired next)) ∨
      (∃ state, message = .nodeState state ∧ handled = .reported .repeated) ∨
      (∃ state next, message = .nodeState state ∧ handled = .reported (.stored next) ∧
        handleNodeState now state core = .ok (.stored next)) ∨
      ∃ drain, message = .drain drain ∧ handled = .drained (handleDrain drain core) := by
  cases message with
  | hello hello =>
    obtain ⟨next, hnext, hhandled⟩ := handle_hello hhandle
    exact .inl ⟨hello, next, rfl, hhandled, hnext⟩
  | nodeState state =>
    obtain ⟨outcome, houtcome, hhandled⟩ := handle_nodeState hhandle
    cases outcome with
    | retired next => exact .inr (.inl ⟨state, next, rfl, hhandled, houtcome⟩)
    | repeated => exact .inr (.inr (.inl ⟨state, rfl, hhandled⟩))
    | stored next => exact .inr (.inr (.inr (.inl ⟨state, next, rfl, hhandled, houtcome⟩)))
  | drain drain => exact .inr (.inr (.inr (.inr ⟨drain, rfl, (Except.ok.inj hhandle).symm⟩)))
  | empty => cases hhandle

end Podmin.Agent.Coordination
