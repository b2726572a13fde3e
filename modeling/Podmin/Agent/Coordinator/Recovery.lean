import Podmin.Agent.Coordinator.Isolation

/-!
# Recovering from a failed publication

A leader that stays elected and is not superseded publishes again and again. A call may fail when it
reads the object, when it writes it, possibly although the write took effect, and when it applies
what it wrote. The revision of the next call comes from the snapshot applied last, so the leader can
publish again exactly when the failed call has not written.
-/

namespace Podmin.Agent.Coordination

open Foundation Transition Api Agent.Service

/-! ## One call -/

/-- The leader and the durable object. -/
structure Publisher where
  core : Coordinator
  durable : Snapshot

/-- Where a call fails. -/
inductive PublishFault where
  | get (message : String)
  | put (message : String) (written : Bool)
  | apply (message : String)
  deriving DecidableEq, Repr

/-- The failed call did not change the object. -/
def PublishFault.Unwritten : PublishFault → Prop
  | .get _ => True
  | .put _ written => written = false
  | .apply _ => False

/-- Write the snapshot, apply it and return it for the broadcast. -/
def publishWritten (fault : Option PublishFault) (now : Int) (snapshot : Snapshot)
    (publisher : Publisher) : Publisher × Except String Snapshot :=
  match fault with
  | some (.put message written) =>
    ({ publisher with durable := if written then snapshot else publisher.durable }, .error message)
  | some (.apply message) =>
    let applied := apply (.error message) now snapshot publisher.core
    (⟨applied.1, snapshot⟩, applied.2.map fun _ ↦ snapshot)
  | _ =>
    let applied := apply (.ok ()) now snapshot publisher.core
    (⟨applied.1, snapshot⟩, applied.2.map fun _ ↦ snapshot)

/-- One call of `publish` by a process that is elected throughout; the registrations are visited in
some order. A snapshot is returned when it is broadcast. -/
def publish (config : Config) (order : List ReceivedNode) (fault : Option PublishFault) (now : Int)
    (publisher : Publisher) : Publisher × Except String Snapshot :=
  match publishBuild config publisher.core order with
  | .error message => (publisher, .error message)
  | .ok snapshot =>
    match fault with
    | some (.get message) => (publisher, .error message)
    | _ =>
      match publishFence config snapshot publisher.durable with
      | .error message => (publisher, .error message)
      | .ok () => publishWritten fault now snapshot publisher

/-! ## Staying in step with the object -/

/-- The object is the leader's, and the revision it holds is the one applied last. -/
structure InStep (config : Config) (publisher : Publisher) : Prop where
  generation : publisher.durable.generation = publisher.core.generation
  leaderId : publisher.durable.leaderId = config.nodeId
  held : ∃ held, publisher.core.snapshot = some held ∧
    held.generation = publisher.core.generation ∧ held.revision = publisher.durable.revision

/-- The next call without a failure writes a snapshot of the registrations and broadcasts it. -/
def Recoverable (config : Config) (publisher : Publisher) : Prop :=
  ∀ order now, order.Perm (publisher.core.nodes.pairs.map Prod.snd) →
    ∃ next snapshot, publishBuild config publisher.core order = .ok snapshot ∧
      publish config order none now publisher = (next, .ok snapshot) ∧ next.durable = snapshot

section Calls

variable {config : Config} {publisher : Publisher} {order : List ReceivedNode} {snapshot : Snapshot}

section Step

variable (hstep : InStep config publisher) (hbuild : publishBuild config publisher.core order = .ok snapshot)

include hstep hbuild

/-- What the leader builds when it is in step. -/
theorem InStep.built :
    snapshot.generation = publisher.core.generation ∧
      snapshot.revision = publisher.durable.revision + 1 ∧ snapshot.leaderId = config.nodeId := by
  obtain ⟨hgeneration, hrevision, hleader⟩ := buildClusterSnapshot_header hbuild
  obtain ⟨held, hheld, hheldGeneration, hheldRevision⟩ := hstep.held
  refine ⟨hgeneration, ?_, hleader⟩
  rw [hrevision, nextRevision, hheld]
  simp only [hheldGeneration, if_true, hheldRevision]

theorem InStep.fence :
    publishFence config snapshot publisher.durable = .ok () := by
  obtain ⟨hgeneration, hrevision, _⟩ := hstep.built hbuild
  rw [publishFence, if_neg, if_neg]
  · simp [hrevision]
  · simp [hgeneration, hstep.generation, hstep.leaderId]

theorem InStep.not_upToDate :
    upToDate publisher.core.snapshot snapshot = false := by
  obtain ⟨hgeneration, hrevision, _⟩ := hstep.built hbuild
  obtain ⟨held, hheld, hheldGeneration, hheldRevision⟩ := hstep.held
  rw [hheld]
  simp [upToDate, hgeneration, hrevision, hheldGeneration, hheldRevision]

/-- A call of a leader that is in step gets as far as its fault lets it. -/
theorem InStep.publish_eq (fault : Option PublishFault) (now : Int) :
    publish config order fault now publisher =
      match fault with
      | none => (⟨{ publisher.core with
          snapshot := some snapshot, lastSnapshot := some now, staleCleared := false }, snapshot⟩,
          .ok snapshot)
      | some (.get message) => (publisher, .error message)
      | some (.put message written) =>
        ({ publisher with durable := if written then snapshot else publisher.durable }, .error message)
      | some (.apply message) => (⟨{ publisher.core with
          fatal := if snapshot.services.isEmpty then publisher.core.fatal
            else publisher.core.fatal.or (some ("apply service dataplane: " ++ message)) },
          snapshot⟩, .error message) := by
  have hfence := hstep.fence hbuild
  have hnewer := hstep.not_upToDate hbuild
  rw [publish, hbuild]
  cases fault with
  | none =>
    simp only [hfence, publishWritten, apply, hnewer]
    rfl
  | some fault =>
    cases fault with
    | get message => rfl
    | put message written => simp only [hfence, publishWritten]
    | apply message =>
      simp only [hfence, publishWritten, apply, hnewer]
      rfl

end Step

/-- A leader that is in step can publish. -/
theorem InStep.recoverable (hstep : InStep config publisher)
    (hconsistent : Consistent config.cluster publisher.core) : Recoverable config publisher := by
  intro order now horder
  obtain ⟨snapshot, hbuild⟩ := hconsistent.publishBuild_total config horder
  refine ⟨_, snapshot, hbuild, hstep.publish_eq hbuild none now, rfl⟩

/-- A leader whose object is one revision ahead cannot. -/
theorem not_recoverable_of_ahead
    (hgeneration : publisher.durable.generation = publisher.core.generation)
    (hleader : publisher.durable.leaderId = config.nodeId)
    (hahead : nextRevision publisher.core = publisher.durable.revision) :
    ¬Recoverable config publisher := by
  intro hrecoverable
  obtain ⟨next, snapshot, hbuild, hpublish, _⟩ := hrecoverable _ 0 (List.Perm.refl _)
  obtain ⟨hbuiltGeneration, hbuiltRevision, _⟩ := buildClusterSnapshot_header hbuild
  have hfence : publishFence config snapshot publisher.durable =
      .error "durable service revision changed during publication" := by
    rw [publishFence, if_neg, if_pos]
    · rw [hbuiltRevision, hahead]
      omega
    · simp [hbuiltGeneration, hgeneration, hleader]
  rw [publish, hbuild] at hpublish
  simp only [hfence] at hpublish
  cases (Prod.mk.inj hpublish).2

end Calls

/-! ## Runs -/

inductive PublisherEvent where
  | register
  | publish (fault : Option PublishFault)

/-- Registrations change, and calls of `publish` succeed or fail. -/
inductive Publisher.Step (config : Config) (publisher : Publisher) :
    PublisherEvent → Publisher → Prop
  | register {core : Coordinator} (hcore : Registers config publisher.core core) :
      Publisher.Step config publisher .register { publisher with core := core }
  | publish (fault : Option PublishFault) (now : Int) {order : List ReceivedNode}
      (horder : order.Perm (publisher.core.nodes.pairs.map Prod.snd)) :
      Publisher.Step config publisher (.publish fault) (publish config order fault now publisher).1

/-- A leader whose `acquire` has written its candidate over an older object and applied it. -/
def Publisher.ready (config : Config) (localContract : List Api.Service) (read : Option Snapshot)
    (now : Int) (core : Coordinator) : Publisher :=
  let candidate := acquireCandidate config localContract read
  ⟨{ (apply (.ok ()) now candidate (acquired candidate core)).1 with leaderReady := true }, candidate⟩

/-- The runs of a leader from its acquisition on. What it held before was older than its candidate,
and nothing fatal has happened. -/
def publisherSystem (config : Config) : System Publisher PublisherEvent where
  init publisher := ∃ localContract read now core,
    upToDate core.snapshot (acquireCandidate config localContract read) = false ∧
      core.fatal = none ∧ publisher = Publisher.ready config localContract read now core
  step := Publisher.Step config

/-- Failed calls have not written. -/
def FailsUnwritten (_ : Publisher) : PublisherEvent → Prop
  | .publish (some fault) => fault.Unwritten
  | _ => True

/-- What holds of a leader in a run in which failed calls have not written. -/
structure Publisher.Sound (config : Config) (publisher : Publisher) : Prop where
  inStep : InStep config publisher
  consistent : Consistent config.cluster publisher.core
  fatal : publisher.core.fatal = none

section Runs

variable {config : Config} {publisher next : Publisher}

theorem Publisher.Sound.step (hsound : publisher.Sound config) {event : PublisherEvent}
    (hallowed : FailsUnwritten publisher event) (hstep : publisher.Step config event next) :
    next.Sound config := by
  cases hstep with
  | @register core hcore =>
    obtain ⟨hsnapshot, _, hgeneration, hfatal⟩ := hcore.frame
    obtain ⟨held, hheld, hheldGeneration, hheldRevision⟩ := hsound.inStep.held
    refine ⟨⟨?_, hsound.inStep.leaderId, held, ?_, ?_, hheldRevision⟩,
      hsound.consistent.registers hcore, hfatal.trans hsound.fatal⟩
    · exact hsound.inStep.generation.trans hgeneration.symm
    · exact hsnapshot.trans hheld
    · exact hheldGeneration.trans hgeneration.symm
  | @publish fault now order horder =>
    obtain ⟨snapshot, hbuild⟩ := hsound.consistent.publishBuild_total config horder
    rw [hsound.inStep.publish_eq hbuild]
    cases fault with
    | none =>
      obtain ⟨hgeneration, _, hleader⟩ := hsound.inStep.built hbuild
      exact ⟨⟨hgeneration, hleader, snapshot, rfl, hgeneration, rfl⟩,
        hsound.consistent.of_sublist fun _ _ hnode ↦ hnode, hsound.fatal⟩
    | some fault =>
      cases fault with
      | get message => exact hsound
      | put message written =>
        obtain rfl : written = false := hallowed
        exact hsound
      | apply message => exact absurd hallowed id

theorem publisher_sound_of_reachable
    (hreach : Reachable ((publisherSystem config).guarded FailsUnwritten) publisher) :
    publisher.Sound config := by
  refine Reachable.invariant ?_ ?_ hreach
  · rintro _ ⟨localContract, read, now, core, holder, hfatal, rfl⟩
    have happlied : apply (.ok ()) now (acquireCandidate config localContract read)
        (acquired (acquireCandidate config localContract read) core) =
        ({ acquired (acquireCandidate config localContract read) core with
          snapshot := some (acquireCandidate config localContract read)
          lastSnapshot := some now
          staleCleared := false }, .ok ()) := by
      unfold apply
      rw [if_neg (by simpa [acquired] using holder)]
    simp only [Publisher.ready, happlied]
    exact ⟨⟨rfl, rfl, _, rfl, rfl, rfl⟩, consistent_of_empty rfl, hfatal⟩
  · rintro before event after _ hsound ⟨hallowed, hstep⟩
    exact hsound.step hallowed hstep

/-- As long as failed calls have not written, the next call without a failure publishes; after a
failed call that signalled nothing fatal it does so exactly when that call has not written. -/
theorem recoverable_iff_unwritten
    (hreach : Reachable ((publisherSystem config).guarded FailsUnwritten) publisher) :
    Recoverable config publisher ∧
      ∀ (order : List ReceivedNode) (fault : PublishFault) (now : Int) (failed : Publisher)
        (message : String), order.Perm (publisher.core.nodes.pairs.map Prod.snd) →
        publish config order (some fault) now publisher = (failed, .error message) →
        failed.core.fatal = none → (Recoverable config failed ↔ fault.Unwritten) := by
  have hsound := publisher_sound_of_reachable hreach
  have hstep := hsound.inStep
  refine ⟨hstep.recoverable hsound.consistent, ?_⟩
  intro order fault now failed message horder hfailed hfatal
  obtain ⟨snapshot, hbuild⟩ := hsound.consistent.publishBuild_total config horder
  obtain ⟨hgeneration, hrevision, hleader⟩ := hstep.built hbuild
  obtain ⟨_, hnext, _⟩ := buildClusterSnapshot_header hbuild
  rw [hstep.publish_eq hbuild] at hfailed
  cases fault with
  | get reason =>
    obtain rfl := (Prod.mk.inj hfailed).1
    exact iff_of_true (hstep.recoverable hsound.consistent) trivial
  | put reason written =>
    obtain rfl := (Prod.mk.inj hfailed).1
    cases written with
    | false => exact iff_of_true (hstep.recoverable hsound.consistent) rfl
    | true =>
      refine iff_of_false ?_ (by simp [PublishFault.Unwritten])
      exact not_recoverable_of_ahead hgeneration hleader (hnext.symm.trans rfl)
  | apply reason =>
    obtain rfl := (Prod.mk.inj hfailed).1
    refine iff_of_false ?_ id
    exact not_recoverable_of_ahead hgeneration hleader (hnext.symm.trans rfl)

end Runs

/-! ## An acknowledgement that got lost -/

/-- The first leader of a cluster without Services. -/
def firstPublisher : Publisher :=
  Publisher.ready workersConfig [] none 0 {}

/-- The first publication is written, but its acknowledgement is lost; every later call fails. -/
theorem lost_acknowledgement_blocks :
    ∃ failed, publish workersConfig [] (some (.put "timeout" true)) 1 firstPublisher =
        (failed, .error "timeout") ∧ failed.core.fatal = none ∧
      (publish workersConfig [] none 2 failed).2 =
        .error "durable service revision changed during publication" :=
  ⟨_, rfl, rfl, rfl⟩

/-- A read that fails does no harm. -/
theorem recoverable_iff_unwritten_get :
    ∃ failed, publish workersConfig [] (some (.get "timeout")) 1 firstPublisher =
      (failed, .error "timeout") ∧ Recoverable workersConfig failed := by
  have hstart : Reachable ((publisherSystem workersConfig).guarded FailsUnwritten) firstPublisher :=
    .init ⟨[], none, 0, {}, rfl, rfl, rfl⟩
  refine ⟨_, rfl, ?_⟩
  exact ((recoverable_iff_unwritten hstart).2 [] (.get "timeout") 1 _ "timeout" .nil rfl rfl).mpr trivial

end Podmin.Agent.Coordination
