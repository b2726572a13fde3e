import Podmin.Agent.Coordinator.ProcessInvariant

/-!
# The invariant of a coordination stream

Snapshots restored by `LoadSnapshot` can be queued on the stream of a process that later becomes
leader, but a leader answers the `Hello` of every stream with a written body of a later generation
first, so a follower never takes them over.
-/

namespace Podmin.Agent.Coordination

open Foundation CasRegister Api Agent.Service

variable {bound : Nat} {history : History Snapshot}

/-- The generation a follower holds at least, after it has received the wire from `bound` on. -/
def wireGeneration (bound : Nat) (wire : List Message) : Nat :=
  wire.foldl (fun bound message ↦
    if message.loaded then bound else max bound message.snapshot.generation) bound

/-- Every message on the wire is a written body, or is older than what the follower holds when it
receives it. -/
def WireInvariant (history : History Snapshot) : Nat → List Message → Prop
  | _, [] => True
  | bound, message :: wire =>
    (if message.loaded then message.snapshot.generation < bound else message.snapshot ∈ history) ∧
      WireInvariant history (wireGeneration bound [message]) wire

theorem wireGeneration_append (bound : Nat) (left right : List Message) :
    wireGeneration bound (left ++ right) = wireGeneration (wireGeneration bound left) right := by
  rw [wireGeneration, wireGeneration, wireGeneration, List.foldl_append]

theorem wireGeneration_mono {larger : Nat} (hle : bound ≤ larger) (wire : List Message) :
    wireGeneration bound wire ≤ wireGeneration larger wire := by
  induction wire generalizing bound larger with
  | nil => exact hle
  | cons message wire ih =>
    simp only [wireGeneration, List.foldl_cons]
    apply ih
    split
    · exact hle
    · exact max_le_max_right _ hle

theorem le_wireGeneration (bound : Nat) (wire : List Message) : bound ≤ wireGeneration bound wire := by
  induction wire generalizing bound with
  | nil => exact le_rfl
  | cons message wire ih =>
    simp only [wireGeneration, List.foldl_cons]
    refine le_trans ?_ (ih _)
    split
    · exact le_rfl
    · exact le_max_left _ _

theorem WireInvariant.mono {larger : Nat} (hle : bound ≤ larger) {wire : List Message}
    (hwire : WireInvariant history bound wire) :
    WireInvariant history larger wire := by
  induction wire generalizing bound larger with
  | nil => trivial
  | cons message wire ih =>
    refine ⟨?_, ih (wireGeneration_mono hle [message]) hwire.2⟩
    have hmessage := hwire.1
    split
    · next hloaded =>
      rw [if_pos hloaded] at hmessage
      exact hmessage.trans_le hle
    · next hloaded =>
      rw [if_neg hloaded] at hmessage
      exact hmessage

theorem WireInvariant.write {wire : List Message} (hwire : WireInvariant history bound wire) (body : Snapshot) :
    WireInvariant (body :: history) bound wire := by
  induction wire generalizing bound with
  | nil => trivial
  | cons message wire ih =>
    refine ⟨?_, ih hwire.2⟩
    have hmessage := hwire.1
    split
    · next hloaded =>
      rw [if_pos hloaded] at hmessage
      exact hmessage
    · next hloaded =>
      rw [if_neg hloaded] at hmessage
      exact .tail _ hmessage

theorem WireInvariant.append {left right : List Message} (hleft : WireInvariant history bound left)
    (hright : WireInvariant history (wireGeneration bound left) right) :
    WireInvariant history bound (left ++ right) := by
  induction left generalizing bound with
  | nil => exact hright
  | cons message left ih =>
    refine ⟨hleft.1, ih hleft.2 ?_⟩
    rw [← wireGeneration_append]
    exact hright

section Streams

variable {Node Tag : Type*}

/-- What holds of a stream in terms of its server's and its client's process. A snapshot from
`LoadSnapshot` may be queued, but once the stream has a session the wire is ahead of it. -/
structure StreamInvariant (history : History Snapshot) (processes : Node → Process Tag)
    (stream : Stream Node) : Prop where
  wire : WireInvariant history (processes stream.client).heldGeneration stream.wire
  written : ∀ message, stream.initial = some message ∨ stream.updates = some message →
    message.loaded = false → message.snapshot ∈ history
  loaded : ∀ message, stream.initial = some message ∨ stream.updates = some message →
    message.loaded = true →
    message.snapshot.generation ≤ (processes stream.server).loadedGeneration
  ahead : ∀ message, stream.initial = some message ∨ stream.updates = some message →
    message.loaded = true → stream.phase = .serving →
    message.snapshot.generation <
      wireGeneration (processes stream.client).heldGeneration stream.wire
  gated : stream.phase = .admitted ∨ stream.phase = .serving →
    (processes stream.server).Superseding

variable {processes : Node → Process Tag} {stream : Stream Node}

theorem StreamInvariant.extend {next : Node → Process Tag} (hstream : StreamInvariant history processes stream)
    (hclient : Extends (processes stream.client) (next stream.client))
    (hserver : Extends (processes stream.server) (next stream.server)) :
    StreamInvariant history next stream where
  wire := hstream.wire.mono hclient.held
  written := hstream.written
  loaded message hqueued hload := (hstream.loaded message hqueued hload).trans hserver.loaded
  ahead message hqueued hload hserving :=
    (hstream.ahead message hqueued hload hserving).trans_le (wireGeneration_mono hclient.held _)
  gated hphase := hserver.superseding (hstream.gated hphase)

theorem StreamInvariant.write (hstream : StreamInvariant history processes stream) (body : Snapshot) :
    StreamInvariant (body :: history) processes stream where
  wire := hstream.wire.write body
  written message hqueued hload := .tail _ (hstream.written message hqueued hload)
  loaded := hstream.loaded
  ahead := hstream.ahead
  gated := hstream.gated

/-- A process that superseded its loaded snapshot sends written bodies only. -/
theorem CoreInvariant.message_wire {process : Process Tag} (hcore : CoreInvariant history process)
    (hsuperseding : process.Superseding) (bound : Nat) :
    WireInvariant history bound process.message.toList ∧
      process.loadedGeneration < wireGeneration bound process.message.toList := by
  obtain ⟨snapshot, hheld, hdurable, hlt⟩ := hsuperseding
  have hmessage : process.message = some ⟨snapshot, false⟩ := by
    simp [Process.message, hheld, hdurable]
  rw [hmessage]
  refine ⟨⟨?_, trivial⟩, ?_⟩
  · simpa using hcore.held snapshot hheld hdurable
  · simpa [wireGeneration] using Or.inr hlt

/-- Messages may leave the queue or change their place in it. -/
theorem StreamInvariant.requeue (hstream : StreamInvariant history processes stream)
    {initial updates : Option Message}
    (hqueue : ∀ message, initial = some message ∨ updates = some message →
      stream.initial = some message ∨ stream.updates = some message) :
    StreamInvariant history processes { stream with initial := initial, updates := updates } where
  wire := hstream.wire
  written message hqueued := hstream.written message (hqueue message hqueued)
  loaded message hqueued := hstream.loaded message (hqueue message hqueued)
  ahead message hqueued := hstream.ahead message (hqueue message hqueued)
  gated := hstream.gated

/-- Messages that are written bodies, or older than the wire, may be sent. -/
theorem StreamInvariant.sent (hstream : StreamInvariant history processes stream) {messages : List Message}
    (hsent : WireInvariant history
      (wireGeneration (processes stream.client).heldGeneration stream.wire) messages) :
    StreamInvariant history processes { stream with wire := stream.wire ++ messages } where
  wire := hstream.wire.append hsent
  written := hstream.written
  loaded := hstream.loaded
  ahead message hqueued hload hserving := by
    rw [wireGeneration_append]
    exact (hstream.ahead message hqueued hload hserving).trans_le (le_wireGeneration _ _)
  gated := hstream.gated

theorem ServeStep.invariant {history : History Snapshot} {processes : Node → Process Tag}
    {stream next : Stream Node} (hcore : CoreInvariant history (processes stream.server))
    (hstream : StreamInvariant history processes stream)
    (hstep : ServeStep (processes stream.server) stream next) :
    StreamInvariant history processes next := by
  cases hstep with
  | enqueue hinitial hroom =>
    apply hstream.requeue
    rintro message (hqueued | hqueued)
    · simp at hqueued
    · exact .inl (hinitial.trans hqueued)
  | gate hphase hready =>
    refine ⟨hstream.wire, hstream.written, hstream.loaded, ?_, fun _ ↦ hcore.ready hready⟩
    simp
  | respond hphase =>
    exact hstream.sent (hcore.message_wire (hstream.gated (.inr hphase)) _).1
  | drop hphase =>
    apply hstream.requeue
    rintro message (hqueued | hqueued)
    · exact .inl hqueued
    · simp at hqueued
  | send hphase hupdate =>
    rename_i message
    have hsent : WireInvariant history
        (wireGeneration (processes stream.client).heldGeneration stream.wire) [message] := by
      refine ⟨?_, trivial⟩
      cases hload : message.loaded with
      | false => simpa using hstream.written message (.inr hupdate) hload
      | true => simpa using hstream.ahead message (.inr hupdate) hload hphase
    apply (hstream.sent hsent).requeue
    rintro other (hqueued | hqueued)
    · exact .inl hqueued
    · simp at hqueued

/-- The answer to a `Hello` puts the wire ahead of every queued snapshot of `LoadSnapshot`. -/
theorem StreamInvariant.answered (hcore : CoreInvariant history (processes stream.server))
    (hstream : StreamInvariant history processes stream) (hphase : stream.phase = .admitted) :
    StreamInvariant history processes
      { stream with
        phase := .serving
        wire := stream.wire ++ (processes stream.server).message.toList } := by
  have hsuperseding := hstream.gated (.inl hphase)
  obtain ⟨hsent, hlater⟩ := hcore.message_wire hsuperseding
    (wireGeneration (processes stream.client).heldGeneration stream.wire)
  refine ⟨hstream.wire.append hsent, hstream.written, hstream.loaded, ?_, fun _ ↦ hsuperseding⟩
  intro message hqueued hload _
  rw [wireGeneration_append]
  exact (hstream.loaded message hqueued hload).trans_lt hlater

theorem StreamInvariant.broadcast (hstream : StreamInvariant history processes stream) [DecidableEq Node]
    (server : Node) {snapshot : Snapshot} (hwritten : snapshot ∈ history) (overtaken : Bool) :
    StreamInvariant history processes (stream.broadcast server ⟨snapshot, false⟩ overtaken) := by
  unfold Stream.broadcast
  split
  · exact hstream
  · split
    · apply hstream.requeue
      rintro message (hqueued | hqueued)
      · simp at hqueued
      · exact .inl hqueued
    · refine ⟨hstream.wire, ?_, ?_, ?_, hstream.gated⟩
      · rintro message (hqueued | hqueued)
        · exact hstream.written message (.inl hqueued)
        · cases hqueued
          exact fun _ ↦ hwritten
      · rintro message (hqueued | hqueued)
        · exact hstream.loaded message (.inl hqueued)
        · cases hqueued
          simp
      · rintro message (hqueued | hqueued)
        · exact hstream.ahead message (.inl hqueued)
        · cases hqueued
          simp

theorem StreamInvariant.crash [DecidableEq Node] {next : Stream Node}
    (hstream : StreamInvariant history processes stream) {node : Node} {fresh : Process Tag}
    (hcrash : stream.crash node = some next) :
    StreamInvariant history (Function.update processes node fresh) next := by
  unfold Stream.crash at hcrash
  split at hcrash
  · simp at hcrash
  next hclient =>
    split at hcrash
    · cases hcrash
      refine ⟨?_, by simp, by simp, by simp, by simp⟩
      simpa [Function.update_of_ne hclient] using hstream.wire
    · next hserver =>
      cases hcrash
      apply hstream.extend
      · rw [Function.update_of_ne hclient]
        exact .of_eq rfl rfl rfl
      · rw [Function.update_of_ne hserver]
        exact .of_eq rfl rfl rfl

end Streams

end Podmin.Agent.Coordination
