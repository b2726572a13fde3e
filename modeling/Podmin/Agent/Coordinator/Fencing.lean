import Podmin.Agent.Coordinator.StreamInvariant

/-!
# Fencing and agreement

A conditional write only replaces the very object its writer read, and what is written follows that
object; so the history of `dns/services.pb` is ordered by generation and revision however the
processes interleave, and generation and revision determine the body.
-/

namespace Podmin.Agent.Coordination

open Foundation CasRegister Transition
open Api Agent.Service

/-! ## The invariant of the system -/

section Runs

variable {Node Tag : Type*} [DecidableEq Node] {config : Node → Config}
  {tagging : Tagging Snapshot Tag}

structure Invariant (config : Node → Config) (tagging : Tagging Snapshot Tag)
    (state : State Node Tag) : Prop where
  lawful : Lawful FirstBody NextBody state.history
  requested : ∀ version body, (version, body) ∈ state.requested →
    ∃ base, version = base.map tagging.tag ∧ Follows FirstBody NextBody base body
  processes : ∀ node, ProcessInvariant (config node) tagging state.history (state.processes node)
  streams : ∀ id stream, state.streams id = some stream →
    StreamInvariant state.history state.processes stream

variable {state : State Node Tag}

omit [DecidableEq Node] in
theorem Invariant.write (hinv : Invariant config tagging state) {body : Snapshot}
    (hfollows : Follows FirstBody NextBody state.history.head? body) :
    Invariant config tagging { state with history := body :: state.history } where
  lawful := ⟨hfollows, hinv.lawful⟩
  requested := hinv.requested
  processes node := (hinv.processes node).write hfollows
  streams id stream hstream := (hinv.streams id stream hstream).write body

theorem extends_update {processes : Node → Process Tag} {node : Node} {next : Process Tag}
    (hextends : Extends (processes node) next) (other : Node) :
    Extends (processes other) (Function.update processes node next other) := by
  by_cases heq : other = node
  · subst heq
    simpa using hextends
  · simpa [heq] using Extends.of_eq rfl rfl rfl

theorem Invariant.setProcess (hinv : Invariant config tagging state) {node : Node} {next : Process Tag}
    (hnext : ProcessInvariant (config node) tagging state.history next)
    (hextends : Extends (state.processes node) next) :
    Invariant config tagging (state.setProcess node next) where
  lawful := hinv.lawful
  requested := hinv.requested
  processes other := by
    by_cases heq : other = node
    · subst heq
      simpa [State.setProcess] using hnext
    · simpa [State.setProcess, heq] using hinv.processes other
  streams id stream hstream :=
    (hinv.streams id stream hstream).extend (extends_update hextends _) (extends_update hextends _)

omit [DecidableEq Node] in
theorem Invariant.setStream (hinv : Invariant config tagging state) (id : Nat) {next : Option (Stream Node)}
    (hnext : ∀ stream, next = some stream → StreamInvariant state.history state.processes stream) :
    Invariant config tagging (state.setStream id next) where
  lawful := hinv.lawful
  requested := hinv.requested
  processes := hinv.processes
  streams other stream hstream := by
    by_cases heq : other = id
    · subst heq
      exact hnext stream (by simpa [State.setStream] using hstream)
    · exact hinv.streams other stream (by simpa [State.setStream, heq] using hstream)

/-- What a follower does with the first message of the wire: a snapshot of `LoadSnapshot` is older
than what it holds and is ignored, and a written body is applied. -/
theorem Invariant.receive {history : History Snapshot} {process : Process Tag} {message : Message}
    {wire : List Message} (hcore : CoreInvariant history process)
    (hwire : WireInvariant history process.heldGeneration (message :: wire))
    (outcome : Except String Unit) (now : Int) :
    CoreInvariant history (process.apply outcome now .stream message.snapshot).1 ∧
      Extends process (process.apply outcome now .stream message.snapshot).1 ∧
      ((process.apply outcome now .stream message.snapshot).2.isOk = true →
        wireGeneration process.heldGeneration [message] ≤
          (process.apply outcome now .stream message.snapshot).1.heldGeneration) := by
  have hmessage := hwire.1
  cases hload : message.loaded with
  | true =>
    rw [if_pos hload] at hmessage
    have hcurrent : upToDate process.core.snapshot message.snapshot = true := by
      cases hheld : process.core.snapshot with
      | none => simp [Process.heldGeneration, hheld] at hmessage
      | some held =>
        exact upToDate_of_generation_lt (by simpa [Process.heldGeneration, hheld] using hmessage)
    have heq : process.apply outcome now .stream message.snapshot = (process, .ok ()) := by
      rcases process.apply_cases outcome now .stream message.snapshot with
        ⟨_, heq⟩ | ⟨reason, fatal, heq⟩ | ⟨hnewer, _⟩
      · exact heq
      · simp [Process.apply, Coordination.apply, hcurrent] at heq
      · simp [hcurrent] at hnewer
    rw [heq]
    exact ⟨hcore, .of_eq rfl rfl rfl, fun _ ↦ by simp [wireGeneration, hload]⟩
  | false =>
    rw [if_neg (by simp [hload])] at hmessage
    have horigin : Origin.stream ≠ .loadSnapshot := by simp
    obtain ⟨happlied, hextends⟩ := hcore.apply outcome now horigin hmessage
    refine ⟨happlied, hextends, fun hok ↦ ?_⟩
    have hgeneration : message.snapshot.generation ≤
        (process.apply outcome now .stream message.snapshot).1.heldGeneration := by
      rcases process.apply_cases outcome now .stream message.snapshot with
        ⟨hcurrent, heq⟩ | ⟨reason, fatal, heq⟩ | ⟨_, heq⟩
      · rw [heq]
        obtain ⟨held, hheld, hle⟩ := generation_le_of_upToDate hcurrent
        simpa [Process.heldGeneration, hheld] using hle
      · simp [heq, Except.isOk, Except.toBool] at hok
      · rw [heq]
        simp [Process.heldGeneration]
    simpa [wireGeneration, hload] using ⟨hextends.held, hgeneration⟩

theorem Step.invariant {state next : State Node Tag} (hinv : Invariant config tagging state)
    (hstep : Step config tagging state next) : Invariant config tagging next := by
  cases hstep with
  | process node hlocal =>
    obtain ⟨hnext, hextends⟩ := hlocal.invariant (hinv.processes node)
    exact hinv.setProcess hnext hextends
  | request node hrequest =>
    obtain ⟨hbase, hnext, hextends⟩ := hrequest.invariant (hinv.processes node)
    obtain ⟨hlawful, hrequested, hprocesses, hstreams⟩ := hinv.setProcess hnext hextends
    refine ⟨hlawful, ?_, hprocesses, hstreams⟩
    intro version body hmem
    rcases List.mem_cons.mp hmem with heq | hmem
    · cases heq
      exact hbase
    · exact hrequested version body hmem
  | write node hwrite hadmits =>
    obtain ⟨hfollows, hnext, hextends⟩ := hwrite.invariant (hinv.processes node) hadmits
    exact (hinv.write hfollows).setProcess hnext hextends
  | land hrequested hadmits =>
    obtain ⟨base, rfl, hfollows⟩ := hinv.requested _ _ hrequested
    exact hinv.write (hadmits.head?_eq ▸ hfollows)
  | broadcast node htask overtaken =>
    rename_i snapshot
    have hprocess := hinv.processes node
    have hwritten : snapshot ∈ state.history := by
      simpa only [TaskInvariant, htask] using hprocess.task
    have hidle : ProcessInvariant (config node) tagging state.history
        { state.processes node with task := .idle } :=
      ⟨hprocess.core.of_eq rfl rfl rfl id, trivial⟩
    obtain ⟨hlawful, hrequested, hprocesses, hstreams⟩ :=
      hinv.setProcess hidle (.of_eq rfl rfl rfl)
    refine ⟨hlawful, hrequested, hprocesses, ?_⟩
    intro id stream hstream
    obtain ⟨before, hbefore, rfl⟩ := Option.map_eq_some_iff.mp hstream
    exact (hstreams id before hbefore).broadcast node hwritten (overtaken id)
  | subscribe id server client hfree hstarted =>
    apply hinv.setStream
    rintro stream heq
    cases heq
    have hcore := (hinv.processes server).core
    refine ⟨trivial, ?_, ?_, by simp, by simp⟩
    · rintro message (hqueued | hqueued) hload
      · obtain ⟨snapshot, hheld, rfl⟩ := Option.map_eq_some_iff.mp hqueued
        exact hcore.held snapshot hheld (by simpa using hload)
      · simp at hqueued
    · rintro message (hqueued | hqueued) hload
      · obtain ⟨snapshot, hheld, rfl⟩ := Option.map_eq_some_iff.mp hqueued
        exact hcore.loaded snapshot hheld (by simpa using hload)
      · simp at hqueued
  | serve id hstream hserve =>
    rename_i stream after
    apply hinv.setStream
    rintro stream heq
    cases heq
    exact hserve.invariant (hinv.processes _).core (hinv.streams id _ hstream)
  | hello id hstream hphase hhello =>
    rename_i stream sender now hello core
    obtain ⟨hsnapshot, hready, _⟩ := (Registers.hello hhello).frame
    have hprocess := hinv.processes stream.server
    have hsuperseding := (hinv.streams id stream hstream).gated (.inl hphase)
    have hextends : Extends (state.processes stream.server)
        { state.processes stream.server with core := core } := .of_eq hsnapshot rfl rfl
    have hserver : ProcessInvariant (config stream.server) tagging state.history
        { state.processes stream.server with core := core } := by
      refine ⟨hprocess.core.of_eq hsnapshot rfl rfl (fun hnext ↦ hready ▸ hnext), ?_⟩
      exact hprocess.task.of_core (hsuperseding.started hprocess.task) rfl rfl
    have hanswered := (hinv.streams id stream hstream).answered hprocess.core hphase
    apply (hinv.setProcess hserver hextends).setStream
    rintro after heq
    cases heq
    exact hanswered.extend (extends_update hextends _) (extends_update hextends _)
  | receive id hstream hwire hstarted outcome now =>
    rename_i stream message wire
    have hbefore := hinv.streams id stream hstream
    have hreceived := hbefore.wire
    rw [hwire] at hreceived
    have hprocess := hinv.processes stream.client
    obtain ⟨hcore, hextends, hheld⟩ := Invariant.receive hprocess.core hreceived outcome now
    have hclient := hinv.setProcess
      ⟨hcore, hprocess.task.of_core hstarted rfl rfl⟩ hextends
    apply hclient.setStream
    intro after hafter
    split at hafter
    · next hok =>
      cases hafter
      have hkept := hclient.streams id stream hstream
      have hgeneration := hheld hok
      refine ⟨?_, hkept.written, hkept.loaded, ?_, hkept.gated⟩
      · exact hreceived.2.mono (by simpa [State.setProcess] using hgeneration)
      · intro queued hqueued hload hserving
        refine (hbefore.ahead queued hqueued hload hserving).trans_le ?_
        rw [hwire, show message :: wire = [message] ++ wire from rfl, wireGeneration_append]
        exact wireGeneration_mono (by simpa [State.setProcess] using hgeneration) wire
    · simp at hafter
  | close id => exact hinv.setStream id (by simp)
  | crash node =>
    refine ⟨hinv.lawful, hinv.requested, ?_, ?_⟩
    · intro other
      by_cases heq : other = node
      · subst heq
        simpa [State.setProcess] using ProcessInvariant.fresh _ _ _
      · simpa [State.setProcess, heq] using hinv.processes other
    · intro id stream hstream
      obtain ⟨before, hbefore, hcrash⟩ := Option.bind_eq_some_iff.mp hstream
      exact (hinv.streams id before hbefore).crash hcrash

theorem reachable_step {next : State Node Tag} (hreach : Reachable (system config tagging) state)
    (hstep : Step config tagging state next) :
    Reachable (system config tagging) next :=
  @Reachable.step _ _ _ _ _ () hreach hstep

theorem invariant_of_reachable (hreach : Reachable (system config tagging) state) :
    Invariant config tagging state := by
  refine Reachable.invariant ?_ ?_ hreach
  · rintro state rfl
    exact ⟨trivial, by simp, fun node ↦ ProcessInvariant.fresh _ _ _, by simp⟩
  · intro state _ next _ hinv hstep
    exact hstep.invariant hinv

end Runs

/-! ## Fencing and agreement in every run -/

/-- The writes to the object, newest first: generation and revision strictly increase, the revision
by one within a generation; a generation has one leader; generation and revision determine the
body. -/
structure Fenced (history : History Snapshot) : Prop where
  increasing : history.Pairwise fun newer older ↦ version older < version newer
  consecutive : history.IsChain fun newer older ↦
    newer.generation = older.generation → newer.revision = older.revision + 1
  oneLeader : ∀ left ∈ history, ∀ right ∈ history,
    left.generation = right.generation → left.leaderId = right.leaderId
  determined : ∀ left ∈ history, ∀ right ∈ history, version left = version right → left = right

/-- Processes that obtained their snapshots otherwise than by `LoadSnapshot` and hold the same
generation and revision hold the same Services. -/
def Agreement {Node Tag : Type*} (processes : Node → Process Tag) : Prop :=
  ∀ first second left right,
    (processes first).core.snapshot = some left → (processes first).origin ≠ .loadSnapshot →
    (processes second).core.snapshot = some right → (processes second).origin ≠ .loadSnapshot →
    version left = version right → left.services = right.services

theorem fenced_of_lawful {history : History Snapshot}
    (hlawful : Lawful FirstBody NextBody history) : Fenced history where
  increasing := by
    have htrans : IsTrans Snapshot (fun older newer ↦ version older < version newer) :=
      ⟨fun _ _ _ hleft hright ↦ hleft.trans hright⟩
    exact hlawful.pairwise _ fun _ _ ↦ version_lt_of_nextBody
  consecutive := by
    refine hlawful.isChain.imp fun newer older hnext hgeneration ↦ ?_
    rcases hnext with ⟨hnew, _⟩ | ⟨_, hrevision, _⟩
    · omega
    · exact hrevision
  oneLeader left hleft right hright := leaderId_eq_of_lawful hlawful hleft hright
  determined left hleft right hright :=
    hlawful.eq_of_key_eq version (fun _ _ ↦ version_lt_of_nextBody) hleft hright

theorem fenced_and_agreed {Node Tag : Type*} [DecidableEq Node] (config : Node → Config)
    (tagging : Tagging Snapshot Tag) {state : State Node Tag}
    (hreach : Reachable (system config tagging) state) :
    Fenced state.history ∧ Agreement state.processes := by
  have hinv := invariant_of_reachable hreach
  have hfenced := fenced_of_lawful hinv.lawful
  refine ⟨hfenced, ?_⟩
  intro first second left right hleft hfirst hright hsecond hversion
  have hwritten := (hinv.processes first).core.held left hleft hfirst
  have hother := (hinv.processes second).core.held right hright hsecond
  rw [hfenced.determined left hwritten right hother hversion]

def soleConfig : Unit → Config :=
  fun _ ↦ ⟨"node-1", "cluster", "workers", ⟨.invalid, 0⟩⟩

def contentTagging : Tagging Snapshot Snapshot :=
  ⟨id, Function.injective_id⟩

/-- A process acquires the first generation and publishes once. -/
theorem fenced_and_agreed_acquire_publish :
    ∃ state : State Unit Snapshot, Reachable (system soleConfig contentTagging) state ∧
      state.history.map Snapshot.revision = [1, 0] ∧
      Fenced state.history ∧ Agreement state.processes := by
  have hstart : Reachable (system soleConfig contentTagging)
      ⟨[], [], fun _ ↦ Process.fresh, fun _ ↦ none⟩ := .init rfl
  have hskip := reachable_step hstart (.process () (.loadSkip rfl))
  have hacquire := reachable_step hskip (.process () (.acquireStart rfl))
  have hrequest := reachable_step hacquire (.request () (.acquire rfl [] rfl))
  have hwrite := reachable_step hrequest (.write () (.acquire rfl) rfl)
  have happly := reachable_step hwrite (.process () (.acquireApply rfl (.ok ()) 0))
  have hbuild := reachable_step happly (.process () (@LocalStep.publishStart _ _ _ _ rfl [] _ .nil rfl))
  have hpublish := reachable_step hbuild (.request () (.publish rfl rfl rfl))
  have hwritten := reachable_step hpublish (.write () (.publish rfl) rfl)
  exact ⟨_, hwritten, rfl, fenced_and_agreed _ _ hwritten⟩

end Podmin.Agent.Coordination
