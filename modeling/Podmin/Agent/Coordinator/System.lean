import Podmin.Agent.Coordinator.State
import Podmin.Foundation.CasRegister
import Podmin.Foundation.Transition

/-!
# Coordinators sharing one durable object

Any number of coordinator processes run `acquire` and `publish` against the object
`dns/services.pb` and pass snapshots along coordination streams. A step is one storage operation,
one region under the coordinator's mutex, or one channel or stream operation, and steps of all
processes interleave freely. Election answers are arbitrary: a step that needs leadership is always
offered, and a call may give up at any point.

A conditional write takes effect when it is acknowledged (`write`), or as a request that was sent and
whose outcome the caller does not know (`land`): before or after an error was reported, and also when
the process that sent it has crashed.
-/

namespace Podmin.Agent.Coordination

open Foundation CasRegister Transition
open Api Agent.Service

/-- How a process came to hold its current snapshot. -/
inductive Origin where
  | loadSnapshot
  | acquire
  | publish
  | stream
  deriving DecidableEq, Repr

/-- Where the goroutine that holds `publishMu` stands; before `Run`, where `LoadSnapshot` stands. -/
inductive Task (Tag : Type*) where
  | starting
  | loading (value : Snapshot)
  | idle
  | publishGet (snapshot : Snapshot)
  | publishPut (snapshot : Snapshot) (version : Tag)
  | publishApply (snapshot : Snapshot)
  | publishBroadcast (snapshot : Snapshot)
  | acquireGet (attempts : Nat)
  | acquirePut (attempts : Nat) (candidate : Snapshot) (version : Option Tag)
  | acquireApply (candidate : Snapshot)

/-- One process. `origin` and `loadedGeneration` record how the current snapshot was obtained and
which generation `LoadSnapshot` applied; no step depends on them. -/
structure Process (Tag : Type*) where
  core : Coordinator
  task : Task Tag
  origin : Origin
  loadedGeneration : Nat

def Process.fresh {Tag : Type*} : Process Tag :=
  ⟨{}, .starting, .loadSnapshot, 0⟩

/-- `LoadSnapshot` has returned, so `Run` and the stream server are up. -/
def Process.started {Tag : Type*} (process : Process Tag) : Prop :=
  match process.task with
  | .starting | .loading _ => False
  | _ => True

/-- Run `apply` and record the origin when the snapshot is taken over. -/
def Process.apply {Tag : Type*} (outcome : Except String Unit) (now : Int) (origin : Origin)
    (snapshot : Snapshot) (process : Process Tag) : Process Tag × Except String Unit :=
  let result := Coordination.apply outcome now snapshot process.core
  let taken := !upToDate process.core.snapshot snapshot && outcome.isOk
  ({ process with
      core := result.1
      origin := if taken then origin else process.origin }, result.2)

/-- A snapshot on its way to a follower; `loaded` records that the sender held it from
`LoadSnapshot`. -/
structure Message where
  snapshot : Snapshot
  loaded : Bool
  deriving DecidableEq, Repr

def Process.message {Tag : Type*} (process : Process Tag) : Option Message :=
  process.core.snapshot.map fun snapshot ↦
    ⟨snapshot, decide (process.origin = .loadSnapshot)⟩

/-- The server side of a stream: no `Hello` yet, a `Hello` that passed the leader gate, a session, or
a server that is gone. -/
inductive StreamPhase where
  | waiting
  | admitted
  | serving
  | ended
  deriving DecidableEq, Repr

/-- One stream. `initial` is the snapshot `Subscribe` still has to queue, `updates` the channel of
capacity one, and `wire` what was sent and not yet received, oldest first. -/
structure Stream (Node : Type*) where
  server : Node
  client : Node
  phase : StreamPhase
  initial : Option Message
  updates : Option Message
  wire : List Message

structure State (Node Tag : Type*) where
  history : History Snapshot
  requested : List (Option Tag × Snapshot)
  processes : Node → Process Tag
  streams : Nat → Option (Stream Node)

section Steps

variable {Node Tag : Type*} [DecidableEq Node]

/-- The registration changes `handle`, `drain` and `expireAndPublish` make. -/
inductive Registers (config : Config) (core : Coordinator) : Coordinator → Prop
  | hello {sender : Option Identity} {isLocal : Bool} {now : Int} {hello : Hello}
      {next : Coordinator} (hnext : handleHello config sender isLocal now hello core = .ok next) :
      Registers config core next
  | retired {now : Int} {state : NodeState} {next : Coordinator}
      (hnext : handleNodeState now state core = .ok (.retired next)) : Registers config core next
  | stored {now : Int} {state : NodeState} {next : Coordinator}
      (hnext : handleNodeState now state core = .ok (.stored next)) : Registers config core next
  | drained (drain : Drain) : Registers config core (handleDrain drain core)
  | drainedLocal : Registers config core (drainLocal config core)
  | expired (now : Int) : Registers config core (expire now core).1

/-- Registration changes concern the two tables only. -/
theorem Registers.frame {config : Config} {core next : Coordinator} (hstep : Registers config core next) :
    next.snapshot = core.snapshot ∧ next.leaderReady = core.leaderReady ∧
      next.generation = core.generation ∧ next.fatal = core.fatal := by
  cases hstep with
  | hello hnext =>
    obtain ⟨_, _, _, _, _, _, _, _, _, rfl⟩ := handleHello_eq_ok.mp hnext
    exact ⟨rfl, rfl, rfl, rfl⟩
  | retired hnext =>
    obtain ⟨_, _, _, _, rfl⟩ := handleNodeState_eq_retired hnext
    exact ⟨rfl, rfl, rfl, rfl⟩
  | stored hnext =>
    obtain ⟨_, _, _, _, _, _, _, rfl⟩ := handleNodeState_eq_stored hnext
    exact ⟨rfl, rfl, rfl, rfl⟩
  | drained drain =>
    unfold handleDrain
    dsimp only
    split <;> exact ⟨rfl, rfl, rfl, rfl⟩
  | drainedLocal => exact ⟨rfl, rfl, rfl, rfl⟩
  | expired now => exact ⟨rfl, rfl, rfl, rfl⟩

/-- Steps of one process that touch neither the object nor a stream. -/
inductive LocalStep (config : Config) (history : History Snapshot) (process : Process Tag) :
    Process Tag → Prop
  | loadSkip (htask : process.task = .starting) :
      LocalStep config history process { process with task := .idle }
  | loadGet (htask : process.task = .starting) {durable : Snapshot}
      (hread : history.head? = some durable) (localContract : List Api.Service) :
      LocalStep config history process
        { process with task := .loading (loadSnapshot config.nodeGroup localContract durable) }
  | loadApply {value : Snapshot} (htask : process.task = .loading value)
      (outcome : Except String Unit) (now : Int) :
      LocalStep config history process
        { (process.apply outcome now .loadSnapshot value).1 with
          task := .idle
          loadedGeneration := value.generation }
  | resign : LocalStep config history process
      { process with core := { process.core with leaderReady := false } }
  | register (hstarted : process.started) {next : Coordinator}
      (hnext : Registers config process.core next) :
      LocalStep config history process { process with core := next }
  | publishStart (htask : process.task = .idle) {order : List ReceivedNode} {snapshot : Snapshot}
      (horder : order.Perm (process.core.nodes.pairs.map Prod.snd))
      (hbuild : publishBuild config process.core order = .ok snapshot) :
      LocalStep config history process { process with task := .publishGet snapshot }
  | publishApply {snapshot : Snapshot} (htask : process.task = .publishApply snapshot)
      (outcome : Except String Unit) (now : Int) :
      LocalStep config history process
        { (process.apply outcome now .publish snapshot).1 with
          task := if (process.apply outcome now .publish snapshot).2.isOk
            then .publishBroadcast snapshot else .idle }
  | acquireStart (htask : process.task = .idle) :
      LocalStep config history process { process with task := .acquireGet 0 }
  | acquireRetry {attempts : Nat} {candidate : Snapshot} {version : Option Tag}
      (htask : process.task = .acquirePut attempts candidate version) (hattempts : attempts + 1 < 5) :
      LocalStep config history process { process with task := .acquireGet (attempts + 1) }
  | acquireApply {candidate : Snapshot} (htask : process.task = .acquireApply candidate)
      (outcome : Except String Unit) (now : Int) :
      LocalStep config history process
        (let applied := process.apply outcome now .acquire candidate
        { applied.1 with
          core := { applied.1.core with
            leaderReady := applied.1.core.leaderReady || applied.2.isOk }
          task := .idle })
  | abort (hstarted : process.started) :
      LocalStep config history process { process with task := .idle }

/-- Steps that send a conditional write to the store. -/
inductive RequestStep (config : Config) (tagging : Tagging Snapshot Tag)
    (history : History Snapshot) (process : Process Tag) :
    Option Tag → Snapshot → Process Tag → Prop
  | publish {snapshot durable : Snapshot} (htask : process.task = .publishGet snapshot)
      (hread : history.head? = some durable)
      (hfence : publishFence config snapshot durable = .ok ()) :
      RequestStep config tagging history process (some (tagging.tag durable)) snapshot
        { process with task := .publishPut snapshot (tagging.tag durable) }
  | acquire {attempts : Nat} (htask : process.task = .acquireGet attempts)
      (localContract : List Api.Service)
      (howned : validateSnapshotOwnership
        (acquireCandidate config localContract history.head?) = .ok ()) :
      RequestStep config tagging history process (history.head?.map tagging.tag)
        (acquireCandidate config localContract history.head?)
        { process with
          task := .acquirePut attempts (acquireCandidate config localContract history.head?)
            (history.head?.map tagging.tag) }

/-- Steps in which a conditional write is acknowledged. -/
inductive WriteStep (process : Process Tag) : Option Tag → Snapshot → Process Tag → Prop
  | publish {snapshot : Snapshot} {version : Tag}
      (htask : process.task = .publishPut snapshot version) :
      WriteStep process (some version) snapshot { process with task := .publishApply snapshot }
  | acquire {attempts : Nat} {candidate : Snapshot} {version : Option Tag}
      (htask : process.task = .acquirePut attempts candidate version) :
      WriteStep process version candidate
        { process with
          core := acquired candidate process.core
          task := .acquireApply candidate }

/-- `broadcast` replaces what a subscriber's channel holds; when `Subscribe` is still waiting to
queue its snapshot, that one may take the place instead. -/
def Stream.broadcast (server : Node) (message : Message) (overtaken : Bool) (stream : Stream Node) :
    Stream Node :=
  if stream.server ≠ server ∨ stream.phase = .ended then stream
  else if overtaken && stream.initial.isSome then
    { stream with updates := stream.initial, initial := none }
  else { stream with updates := some message }

/-- What remains of a stream when a node crashes. -/
def Stream.crash (node : Node) (stream : Stream Node) : Option (Stream Node) :=
  if stream.client = node then none
  else if stream.server = node then
    some { stream with phase := .ended, initial := none, updates := none }
  else some stream

/-- Steps of the server side of a stream, which read the server's process. -/
inductive ServeStep (server : Process Tag) (stream : Stream Node) : Stream Node → Prop
  | enqueue {message : Message} (hinitial : stream.initial = some message)
      (hroom : stream.updates = none) :
      ServeStep server stream { stream with initial := none, updates := some message }
  | gate (hphase : stream.phase = .waiting) (hready : server.core.leaderReady = true) :
      ServeStep server stream { stream with phase := .admitted }
  | respond (hphase : stream.phase = .serving) :
      ServeStep server stream { stream with wire := stream.wire ++ server.message.toList }
  | drop (hphase : stream.phase = .waiting) :
      ServeStep server stream { stream with updates := none }
  | send {message : Message} (hphase : stream.phase = .serving)
      (hupdate : stream.updates = some message) :
      ServeStep server stream
        { stream with updates := none, wire := stream.wire ++ [message] }

def State.setProcess (state : State Node Tag) (node : Node) (process : Process Tag) :
    State Node Tag :=
  { state with processes := Function.update state.processes node process }

def State.setStream (state : State Node Tag) (id : Nat) (stream : Option (Stream Node)) :
    State Node Tag :=
  { state with streams := Function.update state.streams id stream }

/-- One step of the whole system. -/
inductive Step (config : Node → Config) (tagging : Tagging Snapshot Tag) (state : State Node Tag) :
    State Node Tag → Prop
  | process (node : Node) {next : Process Tag}
      (hstep : LocalStep (config node) state.history (state.processes node) next) :
      Step config tagging state (state.setProcess node next)
  | request (node : Node) {version : Option Tag} {body : Snapshot} {next : Process Tag}
      (hstep : RequestStep (config node) tagging state.history (state.processes node) version body
        next) :
      Step config tagging state
        { state.setProcess node next with requested := (version, body) :: state.requested }
  | write (node : Node) {version : Option Tag} {body : Snapshot} {next : Process Tag}
      (hstep : WriteStep (state.processes node) version body next)
      (hadmits : Admits tagging state.history version) :
      Step config tagging state
        { state.setProcess node next with history := body :: state.history }
  | land {version : Option Tag} {body : Snapshot} (hrequested : (version, body) ∈ state.requested)
      (hadmits : Admits tagging state.history version) :
      Step config tagging state { state with history := body :: state.history }
  | broadcast (node : Node) {snapshot : Snapshot}
      (htask : (state.processes node).task = .publishBroadcast snapshot) (overtaken : Nat → Bool) :
      Step config tagging state
        { state.setProcess node { state.processes node with task := .idle } with
          streams := fun id ↦
            (state.streams id).map (Stream.broadcast node ⟨snapshot, false⟩ (overtaken id)) }
  | subscribe (id : Nat) (server client : Node) (hfree : state.streams id = none)
      (hstarted : (state.processes server).started) :
      Step config tagging state
        (state.setStream id
          (some ⟨server, client, .waiting, (state.processes server).message, none, []⟩))
  | serve (id : Nat) {stream next : Stream Node} (hstream : state.streams id = some stream)
      (hstep : ServeStep (state.processes stream.server) stream next) :
      Step config tagging state (state.setStream id (some next))
  | hello (id : Nat) {stream : Stream Node} (hstream : state.streams id = some stream)
      (hphase : stream.phase = .admitted) {sender : Option Identity} {now : Int} {hello : Hello}
      {core : Coordinator}
      (hcore : handleHello (config stream.server) sender false now hello
        (state.processes stream.server).core = .ok core) :
      Step config tagging state
        ((state.setProcess stream.server
          { state.processes stream.server with core := core }).setStream id
          (some { stream with
            phase := .serving
            wire := stream.wire ++ (state.processes stream.server).message.toList }))
  | receive (id : Nat) {stream : Stream Node} {message : Message} {wire : List Message}
      (hstream : state.streams id = some stream) (hwire : stream.wire = message :: wire)
      (hstarted : (state.processes stream.client).started) (outcome : Except String Unit)
      (now : Int) :
      Step config tagging state
        (let applied := (state.processes stream.client).apply outcome now .stream message.snapshot
        (state.setProcess stream.client applied.1).setStream id
          (if applied.2.isOk then some { stream with wire := wire } else none))
  | close (id : Nat) : Step config tagging state (state.setStream id none)
  | crash (node : Node) :
      Step config tagging state
        { state.setProcess node Process.fresh with
          streams := fun id ↦ (state.streams id).bind (Stream.crash node) }

/-- All processes start without an object, a snapshot or a stream. -/
def system (config : Node → Config) (tagging : Tagging Snapshot Tag) :
    System (State Node Tag) Unit where
  init state := state = ⟨[], [], fun _ ↦ Process.fresh, fun _ ↦ none⟩
  step state _ next := Step config tagging state next

end Steps

end Podmin.Agent.Coordination
