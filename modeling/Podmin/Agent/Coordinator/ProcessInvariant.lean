import Podmin.Agent.Coordinator.WrittenBodies

/-!
# The invariant of one coordinator process

A snapshot that a process holds from `acquire`, `publish` or a stream is a written body; one it holds
from `LoadSnapshot` is of a generation that was current when the process started. A process that
became leader holds a written body of a later generation than that.
-/

namespace Podmin.Agent.Coordination

open Foundation CasRegister Api Agent.Service

variable {history : History Snapshot} {config : Config}

section Processes

variable {Tag : Type*}

/-- The generation a process holds; zero when it holds no snapshot. -/
def Process.heldGeneration (process : Process Tag) : Nat :=
  (process.core.snapshot.map Snapshot.generation).getD 0

/-- The process holds a written body of a later generation than `LoadSnapshot` restored. -/
def Process.Superseding (process : Process Tag) : Prop :=
  ∃ snapshot, process.core.snapshot = some snapshot ∧ process.origin ≠ .loadSnapshot ∧
    process.loadedGeneration < snapshot.generation

/-- What holds of the snapshot and the leadership of a process. -/
structure CoreInvariant (history : History Snapshot) (process : Process Tag) : Prop where
  held : ∀ snapshot, process.core.snapshot = some snapshot → process.origin ≠ .loadSnapshot →
    snapshot ∈ history
  loaded : ∀ snapshot, process.core.snapshot = some snapshot → process.origin = .loadSnapshot →
    snapshot.generation ≤ process.loadedGeneration
  bound : process.loadedGeneration ≤ headGeneration history
  ready : process.core.leaderReady = true → process.Superseding

/-- What holds of the goroutine under `publishMu`. -/
def TaskInvariant (config : Config) (tagging : Tagging Snapshot Tag) (history : History Snapshot)
    (process : Process Tag) : Prop :=
  match process.task with
  | .starting => process.core.snapshot = none ∧ process.loadedGeneration = 0
  | .loading value =>
    (process.core.snapshot = none ∧ process.loadedGeneration = 0) ∧
      value.generation ≤ headGeneration history
  | .idle | .acquireGet _ => True
  | .publishGet snapshot => snapshot.leaderId = config.nodeId
  | .publishPut snapshot version =>
    ∃ base, version = tagging.tag base ∧ NextBody base snapshot
  | .publishApply snapshot | .publishBroadcast snapshot => snapshot ∈ history
  | .acquirePut _ candidate version =>
    (∃ base, version = base.map tagging.tag ∧ Follows FirstBody NextBody base candidate) ∧
      process.loadedGeneration < candidate.generation
  | .acquireApply candidate =>
    candidate ∈ history ∧ process.loadedGeneration < candidate.generation

structure ProcessInvariant (config : Config) (tagging : Tagging Snapshot Tag)
    (history : History Snapshot) (process : Process Tag) : Prop where
  core : CoreInvariant history process
  task : TaskInvariant config tagging history process

/-- What a step of a process may not take back from the streams it serves and receives. -/
structure Extends (process next : Process Tag) : Prop where
  held : process.heldGeneration ≤ next.heldGeneration
  loaded : process.loadedGeneration ≤ next.loadedGeneration
  superseding : process.Superseding → next.Superseding

variable {process next : Process Tag}

/-- Only the snapshot, its origin and the loaded generation matter to `Extends`. -/
theorem Extends.of_eq (hsnapshot : next.core.snapshot = process.core.snapshot)
    (horigin : next.origin = process.origin) (hloaded : next.loadedGeneration = process.loadedGeneration) :
    Extends process next := by
  refine ⟨?_, hloaded.ge, ?_⟩
  · rw [Process.heldGeneration, Process.heldGeneration, hsnapshot]
  · rintro ⟨snapshot, hheld, hdurable, hlt⟩
    exact ⟨snapshot, hsnapshot.trans hheld, horigin ▸ hdurable, hloaded ▸ hlt⟩

theorem Extends.trans {first second third : Process Tag} (hfirst : Extends first second)
    (hsecond : Extends second third) : Extends first third :=
  ⟨hfirst.held.trans hsecond.held, hfirst.loaded.trans hsecond.loaded,
    hsecond.superseding ∘ hfirst.superseding⟩

theorem CoreInvariant.of_eq (hcore : CoreInvariant history process)
    (hsnapshot : next.core.snapshot = process.core.snapshot) (horigin : next.origin = process.origin)
    (hloaded : next.loadedGeneration = process.loadedGeneration)
    (hready : next.core.leaderReady = true → process.core.leaderReady = true) :
    CoreInvariant history next where
  held snapshot hheld hdurable := hcore.held snapshot (hsnapshot ▸ hheld) (horigin ▸ hdurable)
  loaded snapshot hheld hload := hloaded ▸ hcore.loaded snapshot (hsnapshot ▸ hheld) (horigin ▸ hload)
  bound := hloaded ▸ hcore.bound
  ready hnext := (Extends.of_eq hsnapshot horigin hloaded).superseding (hcore.ready (hready hnext))

theorem ProcessInvariant.fresh (config : Config) (tagging : Tagging Snapshot Tag)
    (history : History Snapshot) : ProcessInvariant config tagging history Process.fresh where
  core := ⟨by simp [Process.fresh], by simp [Process.fresh], Nat.zero_le _, by simp [Process.fresh]⟩
  task := ⟨rfl, rfl⟩

/-- The three outcomes of `apply` on a process. -/
theorem Process.apply_cases (outcome : Except String Unit) (now : Int) (origin : Origin)
    (snapshot : Snapshot) (process : Process Tag) :
    (upToDate process.core.snapshot snapshot = true ∧
      process.apply outcome now origin snapshot = (process, .ok ())) ∨
    (∃ message fatal, process.apply outcome now origin snapshot =
        ({ process with core := { process.core with fatal := fatal } }, .error message)) ∨
    (upToDate process.core.snapshot snapshot = false ∧
      process.apply outcome now origin snapshot =
        ({ process with
            core := { process.core with
              snapshot := some snapshot
              lastSnapshot := some now
              staleCleared := false }
            origin := origin }, .ok ())) := by
  rcases Coordination.apply_cases outcome now snapshot process.core with
    ⟨hcurrent, heq⟩ | ⟨hcurrent, message, fatal, rfl, heq⟩ | ⟨hcurrent, rfl, heq⟩
  · exact .inl ⟨hcurrent, by simp [Process.apply, heq, hcurrent]⟩
  · exact .inr (.inl ⟨message, fatal, by simp [Process.apply, heq, Except.isOk, Except.toBool]⟩)
  · exact .inr (.inr ⟨hcurrent, by simp [Process.apply, heq, hcurrent, Except.isOk, Except.toBool]⟩)

/-- Applying a written body keeps the invariant and extends the process. -/
theorem CoreInvariant.apply (hcore : CoreInvariant history process) (outcome : Except String Unit) (now : Int)
    {origin : Origin} (horigin : origin ≠ .loadSnapshot) {snapshot : Snapshot} (hwritten : snapshot ∈ history) :
    CoreInvariant history (process.apply outcome now origin snapshot).1 ∧
      Extends process (process.apply outcome now origin snapshot).1 := by
  rcases process.apply_cases outcome now origin snapshot with
    ⟨_, heq⟩ | ⟨message, fatal, heq⟩ | ⟨hnewer, heq⟩
  · rw [heq]
    exact ⟨hcore, .of_eq rfl rfl rfl⟩
  · rw [heq]
    exact ⟨hcore.of_eq rfl rfl rfl id, .of_eq rfl rfl rfl⟩
  · rw [heq]
    have hsuperseding : process.Superseding → Process.Superseding
        { process with
          core := { process.core with
            snapshot := some snapshot
            lastSnapshot := some now
            staleCleared := false }
          origin := origin } := by
      rintro ⟨held, hheld, _, hlt⟩
      rw [hheld] at hnewer
      exact ⟨snapshot, rfl, horigin, hlt.trans_le (generation_le_of_upToDate_eq_false hnewer)⟩
    refine ⟨⟨?_, ?_, hcore.bound, fun hready ↦ hsuperseding (hcore.ready hready)⟩,
      ⟨?_, le_rfl, hsuperseding⟩⟩
    · rintro held hheld _
      cases hheld
      exact hwritten
    · intro held _ hload
      exact absurd hload horigin
    · cases hheld : process.core.snapshot with
      | none => simp [Process.heldGeneration, hheld]
      | some held =>
        rw [hheld] at hnewer
        simpa [Process.heldGeneration, hheld] using generation_le_of_upToDate_eq_false hnewer

/-- After a later generation was applied without error, the process holds such a generation. -/
theorem CoreInvariant.superseding_apply (hcore : CoreInvariant history process) (outcome : Except String Unit)
    (now : Int) {origin : Origin} (horigin : origin ≠ .loadSnapshot) {snapshot : Snapshot}
    (hlater : process.loadedGeneration < snapshot.generation)
    (hok : (process.apply outcome now origin snapshot).2.isOk = true) :
    (process.apply outcome now origin snapshot).1.Superseding := by
  rcases process.apply_cases outcome now origin snapshot with
    ⟨hcurrent, heq⟩ | ⟨message, fatal, heq⟩ | ⟨_, heq⟩
  · rw [heq]
    obtain ⟨held, hheld, hle⟩ := generation_le_of_upToDate hcurrent
    refine ⟨held, hheld, fun hload ↦ ?_, hlater.trans_le hle⟩
    have := hcore.loaded held hheld hload
    omega
  · rw [heq] at hok
    simp [Except.isOk, Except.toBool] at hok
  · rw [heq]
    exact ⟨snapshot, rfl, horigin, hlater⟩

variable {tagging : Tagging Snapshot Tag}

/-- The task of a started process says nothing about its core. -/
theorem TaskInvariant.of_core (htask : TaskInvariant config tagging history process)
    (hstarted : process.started) (hsame : next.task = process.task)
    (hloaded : next.loadedGeneration = process.loadedGeneration) :
    TaskInvariant config tagging history next := by
  rw [TaskInvariant, hsame, hloaded]
  rw [TaskInvariant] at htask
  rw [Process.started] at hstarted
  cases hcase : process.task <;> simp_all

theorem Process.Superseding.started (hsuperseding : process.Superseding)
    (htask : TaskInvariant config tagging history process) :
    process.started := by
  obtain ⟨snapshot, hheld, _⟩ := hsuperseding
  rw [TaskInvariant] at htask
  rw [Process.started]
  cases hcase : process.task <;> simp_all

theorem LocalStep.invariant {config : Config} {tagging : Tagging Snapshot Tag}
    {history : History Snapshot} {process next : Process Tag}
    (hinv : ProcessInvariant config tagging history process)
    (hstep : LocalStep config history process next) :
    ProcessInvariant config tagging history next ∧ Extends process next := by
  obtain ⟨hcore, htask⟩ := hinv
  cases hstep with
  | loadSkip _ => exact ⟨⟨hcore.of_eq rfl rfl rfl id, trivial⟩, .of_eq rfl rfl rfl⟩
  | loadGet hstarting hread localContract =>
    rename_i durable
    simp only [TaskInvariant, hstarting] at htask
    refine ⟨⟨hcore.of_eq rfl rfl rfl id, htask, ?_⟩, .of_eq rfl rfl rfl⟩
    simp [loadSnapshot, headGeneration, hread]
  | loadApply hloading outcome now =>
    rename_i value
    simp only [TaskInvariant, hloading] at htask
    obtain ⟨⟨hnone, hzero⟩, hvalue⟩ := htask
    have hnot : ¬process.Superseding := by
      rintro ⟨held, hheld, _⟩
      simp [hnone] at hheld
    have hbound : process.loadedGeneration ≤ value.generation := hzero ▸ Nat.zero_le _
    rcases process.apply_cases outcome now .loadSnapshot value with
      ⟨hcurrent, _⟩ | ⟨message, fatal, heq⟩ | ⟨_, heq⟩
    · simp [hnone, upToDate] at hcurrent
    · rw [heq]
      refine ⟨⟨⟨?_, ?_, hvalue, fun hready ↦ absurd (hcore.ready hready) hnot⟩, trivial⟩,
        ⟨by simp [Process.heldGeneration], hbound, fun hholds ↦ absurd hholds hnot⟩⟩
      · simp [hnone]
      · simp [hnone]
    · rw [heq]
      refine ⟨⟨⟨?_, ?_, hvalue, fun hready ↦ absurd (hcore.ready hready) hnot⟩, trivial⟩,
        ⟨by simp [Process.heldGeneration, hnone], hbound, fun hholds ↦ absurd hholds hnot⟩⟩
      · simp
      · rintro held hheld _
        cases hheld
        exact le_rfl
  | resign =>
    have hready : ({ process with core := { process.core with leaderReady := false } } :
        Process Tag).core.leaderReady = true → process.core.leaderReady = true := by
      simp
    refine ⟨⟨hcore.of_eq rfl rfl rfl hready, ?_⟩, .of_eq rfl rfl rfl⟩
    exact htask
  | register hstarted hnext =>
    obtain ⟨hsnapshot, hready, _⟩ := hnext.frame
    exact ⟨⟨hcore.of_eq hsnapshot rfl rfl (hready ▸ id), htask.of_core hstarted rfl rfl⟩,
      .of_eq hsnapshot rfl rfl⟩
  | publishStart _ _ hbuild =>
    exact ⟨⟨hcore.of_eq rfl rfl rfl id, (buildClusterSnapshot_header hbuild).2.2⟩,
      .of_eq rfl rfl rfl⟩
  | publishApply happly outcome now =>
    rename_i snapshot
    simp only [TaskInvariant, happly] at htask
    have horigin : Origin.publish ≠ .loadSnapshot := by simp
    obtain ⟨happlied, hextends⟩ := hcore.apply outcome now horigin htask
    refine ⟨⟨happlied.of_eq rfl rfl rfl id, ?_⟩, hextends.trans (.of_eq rfl rfl rfl)⟩
    cases hok : (process.apply outcome now .publish snapshot).2.isOk
    · simp [TaskInvariant]
    · simpa [TaskInvariant] using htask
  | acquireStart _ => exact ⟨⟨hcore.of_eq rfl rfl rfl id, trivial⟩, .of_eq rfl rfl rfl⟩
  | acquireRetry _ _ => exact ⟨⟨hcore.of_eq rfl rfl rfl id, trivial⟩, .of_eq rfl rfl rfl⟩
  | acquireApply happly outcome now =>
    rename_i candidate
    simp only [TaskInvariant, happly] at htask
    obtain ⟨hwritten, hlater⟩ := htask
    have horigin : Origin.acquire ≠ .loadSnapshot := by simp
    obtain ⟨happlied, hextends⟩ := hcore.apply outcome now horigin hwritten
    have hsuperseding := hcore.superseding_apply outcome now horigin hlater
    refine ⟨⟨⟨happlied.held, happlied.loaded, happlied.bound, fun hready ↦ ?_⟩, trivial⟩,
      hextends.trans (.of_eq rfl rfl rfl)⟩
    simp only [Bool.or_eq_true] at hready
    rcases hready with hready | hok
    · exact happlied.ready hready
    · exact hsuperseding hok
  | abort _ => exact ⟨⟨hcore.of_eq rfl rfl rfl id, trivial⟩, .of_eq rfl rfl rfl⟩

/-- A longer history keeps what holds of a process. -/
theorem ProcessInvariant.write {body : Snapshot} (hinv : ProcessInvariant config tagging history process)
    (hfollows : Follows FirstBody NextBody history.head? body) :
    ProcessInvariant config tagging (body :: history) process := by
  obtain ⟨hcore, htask⟩ := hinv
  have hhead := headGeneration_le_cons hfollows
  refine ⟨⟨fun snapshot hheld hdurable ↦ .tail _ (hcore.held snapshot hheld hdurable), hcore.loaded,
    hcore.bound.trans hhead, hcore.ready⟩, ?_⟩
  rw [TaskInvariant] at htask ⊢
  cases hcase : process.task with
  | loading value =>
    rw [hcase] at htask
    exact ⟨htask.1, htask.2.trans hhead⟩
  | publishApply snapshot | publishBroadcast snapshot =>
    rw [hcase] at htask
    exact .tail _ htask
  | acquireApply candidate =>
    rw [hcase] at htask
    exact ⟨.tail _ htask.1, htask.2⟩
  | starting | idle | publishGet _ | publishPut _ _ | acquireGet _ | acquirePut _ _ _ =>
    rw [hcase] at htask
    exact htask

/-- A request names the object it was computed from. -/
theorem RequestStep.invariant {config : Config} {tagging : Tagging Snapshot Tag}
    {history : History Snapshot} {process next : Process Tag} {version : Option Tag}
    {body : Snapshot} (hinv : ProcessInvariant config tagging history process)
    (hstep : RequestStep config tagging history process version body next) :
    (∃ base, version = base.map tagging.tag ∧ Follows FirstBody NextBody base body) ∧
      ProcessInvariant config tagging history next ∧ Extends process next := by
  obtain ⟨hcore, htask⟩ := hinv
  cases hstep with
  | publish hget hread hfence =>
    rename_i durable
    simp only [TaskInvariant, hget] at htask
    have hnext := publishFence_next htask hfence
    exact ⟨⟨some durable, rfl, hnext⟩,
      ⟨hcore.of_eq rfl rfl rfl id, durable, rfl, hnext⟩, .of_eq rfl rfl rfl⟩
  | acquire hget localContract howned =>
    have hfollows := acquireCandidate_follows config localContract history.head?
    refine ⟨⟨history.head?, rfl, hfollows⟩,
      ⟨hcore.of_eq rfl rfl rfl id, ⟨history.head?, rfl, hfollows⟩, ?_⟩, .of_eq rfl rfl rfl⟩
    have hgeneration := acquireCandidate_generation config localContract history
    have hbound := hcore.bound
    simp only [hgeneration]
    omega

/-- An acknowledged write follows the object its version names, and is in the longer history. -/
theorem WriteStep.invariant {config : Config} {tagging : Tagging Snapshot Tag}
    {history : History Snapshot} {process next : Process Tag} {version : Option Tag}
    {body : Snapshot} (hinv : ProcessInvariant config tagging history process)
    (hstep : WriteStep process version body next) (hadmits : Admits tagging history version) :
    Follows FirstBody NextBody history.head? body ∧
      ProcessInvariant config tagging (body :: history) next ∧ Extends process next := by
  have hwritten (hfollows : Follows FirstBody NextBody history.head? body) :=
    (hinv.write hfollows).core
  obtain ⟨hcore, htask⟩ := hinv
  cases hstep with
  | publish hput =>
    simp only [TaskInvariant, hput] at htask
    obtain ⟨base, rfl, hnext⟩ := htask
    have hhead : history.head? = some base := Admits.head?_eq hadmits
    have hfollows : Follows FirstBody NextBody history.head? body := hhead ▸ hnext
    exact ⟨hfollows, ⟨(hwritten hfollows).of_eq rfl rfl rfl id, List.mem_cons_self⟩,
      .of_eq rfl rfl rfl⟩
  | acquire hput =>
    simp only [TaskInvariant, hput] at htask
    obtain ⟨⟨base, rfl, hnext⟩, hlater⟩ := htask
    have hfollows : Follows FirstBody NextBody history.head? body :=
      hadmits.head?_eq ▸ hnext
    exact ⟨hfollows, ⟨(hwritten hfollows).of_eq rfl rfl rfl id, List.mem_cons_self, hlater⟩,
      .of_eq rfl rfl rfl⟩

end Processes

end Podmin.Agent.Coordination
