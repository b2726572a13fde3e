import Mathlib.Data.Prod.Lex
import Podmin.Agent.Coordinator.System

/-!
# The bodies of the durable object

Every body written to `dns/services.pb` is either the first revision of the next generation, or the
next revision of the current generation by the same leader. That is what `acquire` and `publish`
compute from the object they read.
-/

namespace Podmin.Agent.Coordination

open Foundation CasRegister Api Agent.Service

/-! ## The order of written bodies -/

/-- The body of a first write. -/
def FirstBody (body : Snapshot) : Prop :=
  body.generation = 1 ∧ body.revision = 0

/-- A new generation, or the next revision by the same leader. -/
def NextBody (older newer : Snapshot) : Prop :=
  (newer.generation = older.generation + 1 ∧ newer.revision = 0) ∨
    (newer.generation = older.generation ∧ newer.revision = older.revision + 1 ∧
      newer.leaderId = older.leaderId)

/-- Generation and revision, ordered lexicographically. -/
def version (body : Snapshot) : ℕ ×ₗ ℕ :=
  toLex (body.generation, body.revision)

variable {held snapshot : Snapshot}

theorem upToDate_iff :
    upToDate (some held) snapshot = true ↔ version snapshot ≤ version held := by
  rw [version, version, Prod.Lex.toLex_le_toLex]
  simp [upToDate]

theorem version_lt_of_newer (hnewer : upToDate (some held) snapshot = false) :
    version held < version snapshot := by
  apply not_le.mp
  intro hle
  rw [upToDate_iff.mpr hle] at hnewer
  cases hnewer

theorem version_lt_of_nextBody {older newer : Snapshot} (hnext : NextBody older newer) :
    version older < version newer := by
  rw [version, version, Prod.Lex.toLex_lt_toLex]
  rcases hnext with ⟨hgeneration, _⟩ | ⟨hgeneration, hrevision, _⟩
  · left
    simp only
    omega
  · right
    exact ⟨hgeneration.symm, by simp only; omega⟩

theorem generation_le_of_nextBody {older newer : Snapshot} (hnext : NextBody older newer) :
    older.generation ≤ newer.generation := by
  rcases hnext with ⟨hgeneration, _⟩ | ⟨hgeneration, _⟩ <;> omega

variable {history : History Snapshot}

/-- Two bodies of one generation have one leader. -/
theorem leaderId_eq_of_lawful (hlawful : Lawful FirstBody NextBody history) {left right : Snapshot}
    (hleft : left ∈ history) (hright : right ∈ history) (hgeneration : left.generation = right.generation) :
    left.leaderId = right.leaderId := by
  let before (older newer : Snapshot) : Prop :=
    older.generation ≤ newer.generation ∧
      (older.generation = newer.generation → older.leaderId = newer.leaderId)
  have htrans : IsTrans Snapshot before := by
    refine ⟨fun first second third hfirst hsecond ↦ ⟨hfirst.1.trans hsecond.1, fun heq ↦ ?_⟩⟩
    have hmiddle : first.generation = second.generation :=
      le_antisymm hfirst.1 (heq ▸ hsecond.1)
    exact (hfirst.2 hmiddle).trans (hsecond.2 (hmiddle ▸ heq))
  have hnext : ∀ older newer, NextBody older newer → before older newer := by
    rintro older newer hstep
    refine ⟨generation_le_of_nextBody hstep, fun heq ↦ ?_⟩
    rcases hstep with ⟨hnew, _⟩ | ⟨_, _, hleader⟩
    · omega
    · exact hleader.symm
  have hpairwise := hlawful.pairwise before hnext
  have hsame : history.Pairwise fun newer older ↦
      newer.generation = older.generation → newer.leaderId = older.leaderId :=
    hpairwise.imp fun hbefore heq ↦ (hbefore.2 heq.symm).symm
  have hsymm : Std.Symm fun newer older : Snapshot ↦
      newer.generation = older.generation → newer.leaderId = older.leaderId :=
    ⟨fun _ _ himp heq ↦ (himp heq.symm).symm⟩
  by_cases heq : left = right
  · rw [heq]
  · exact hsame.forall hleft hright heq hgeneration

/-- The generation of the current object; zero when there is none. -/
def headGeneration (history : History Snapshot) : Nat :=
  (history.head?.map Snapshot.generation).getD 0

theorem headGeneration_le_cons {body : Snapshot} (hfollows : Follows FirstBody NextBody history.head? body) :
    headGeneration history ≤ headGeneration (body :: history) := by
  cases hhead : history.head? with
  | none => simp [headGeneration, hhead]
  | some previous =>
    rw [hhead] at hfollows
    simpa [headGeneration, hhead] using generation_le_of_nextBody hfollows

/-! ## What the pieces of acquire and publish write -/

theorem acquireCandidate_follows (config : Config) (localContract : List Api.Service)
    (current : Option Snapshot) :
    Follows FirstBody NextBody current (acquireCandidate config localContract current) := by
  cases current with
  | none => exact ⟨rfl, rfl⟩
  | some previous => exact .inl ⟨rfl, rfl⟩

theorem acquireCandidate_generation (config : Config) (localContract : List Api.Service)
    (history : History Snapshot) :
    (acquireCandidate config localContract history.head?).generation =
      headGeneration history + 1 := by
  cases hhead : history.head? with
  | none => simp [acquireCandidate, headGeneration, hhead, emptySnapshot]
  | some previous => simp [acquireCandidate, headGeneration, hhead]

theorem publishFence_next {config : Config} {durable : Snapshot} (hleader : snapshot.leaderId = config.nodeId)
    (hfence : publishFence config snapshot durable = .ok ()) : NextBody durable snapshot := by
  unfold publishFence at hfence
  split at hfence
  · simp at hfence
  next hsame =>
    split at hfence
    · simp at hfence
    next hrevision =>
      simp only [not_or, not_not] at hsame hrevision
      exact .inr ⟨hsame.1.symm, hrevision.symm, hleader.trans hsame.2.symm⟩

/-- The three outcomes of `apply`. -/
theorem apply_cases (outcome : Except String Unit) (now : Int) (snapshot : Snapshot)
    (coordinator : Coordinator) :
    (upToDate coordinator.snapshot snapshot = true ∧
      apply outcome now snapshot coordinator = (coordinator, .ok ())) ∨
    (upToDate coordinator.snapshot snapshot = false ∧ ∃ message fatal,
      outcome = .error message ∧ apply outcome now snapshot coordinator =
        ({ coordinator with fatal := fatal }, .error message)) ∨
    (upToDate coordinator.snapshot snapshot = false ∧ outcome = .ok () ∧
      apply outcome now snapshot coordinator =
        ({ coordinator with
            snapshot := some snapshot
            lastSnapshot := some now
            staleCleared := false }, .ok ())) := by
  unfold apply
  cases hcurrent : upToDate coordinator.snapshot snapshot with
  | true => simp
  | false =>
    cases outcome with
    | error message => simp
    | ok value => simp

theorem generation_le_of_upToDate_eq_false (hnewer : upToDate (some held) snapshot = false) :
    held.generation ≤ snapshot.generation := by
  simp only [upToDate, Bool.or_eq_false_iff, decide_eq_false_iff_not, not_lt] at hnewer
  exact hnewer.1

theorem upToDate_of_generation_lt (hlt : snapshot.generation < held.generation) :
    upToDate (some held) snapshot = true := by
  simp [upToDate, hlt]

theorem generation_le_of_upToDate {current : Option Snapshot} (hcurrent : upToDate current snapshot = true) :
    ∃ held, current = some held ∧ snapshot.generation ≤ held.generation := by
  cases current with
  | none => simp [upToDate] at hcurrent
  | some held =>
    refine ⟨held, rfl, ?_⟩
    simp only [upToDate, Bool.or_eq_true, decide_eq_true_eq, Bool.and_eq_true,
      beq_iff_eq] at hcurrent
    omega

end Podmin.Agent.Coordination
