import Mathlib.Data.Finset.Card

/-!
# Rounds of attempts that block each other

Agents wait for something, and each of them tries again and again. An attempt succeeds unless another
agent that still waits blocks it. If every group of agents has a member that no other member blocks,
each round of attempts lets one agent more succeed. A group in which everybody is blocked never moves.
-/

namespace Podmin.Foundation.Rounds

variable {Agent : Type*}

/-- Everybody in the group is blocked by somebody else in the group. -/
def Stuck (Blocks : Agent → Agent → Prop) (group : Finset Agent) : Prop :=
  ∀ agent ∈ group, ∃ other ∈ group, other ≠ agent ∧ Blocks other agent

/-- A group that is not stuck has a member nobody in it blocks. -/
theorem exists_free {Blocks : Agent → Agent → Prop} {group : Finset Agent}
    (hstuck : ¬Stuck Blocks group) :
    ∃ agent ∈ group, ∀ other ∈ group, other ≠ agent → ¬Blocks other agent := by
  unfold Stuck at hstuck
  push Not at hstuck
  exact hstuck

variable [DecidableEq Agent]

section Attempt

variable (Blocks : Agent → Agent → Prop) [DecidableRel Blocks]

/-- One attempt: the agent stops waiting unless another pending agent blocks it. -/
def attempt (pending : Finset Agent) (agent : Agent) : Finset Agent :=
  if ∃ other ∈ pending, other ≠ agent ∧ Blocks other agent then pending else pending.erase agent

/-- The attempts of a round, one after the other. -/
def attempts (pending : Finset Agent) (round : List Agent) : Finset Agent :=
  round.foldl (attempt Blocks) pending

end Attempt

variable {Blocks : Agent → Agent → Prop} [DecidableRel Blocks] {pending group : Finset Agent}

theorem attempt_subset (pending : Finset Agent) (agent : Agent) :
    attempt Blocks pending agent ⊆ pending := by
  unfold attempt
  split
  · exact Finset.Subset.refl pending
  · exact Finset.erase_subset agent pending

theorem attempts_subset (pending : Finset Agent) (round : List Agent) :
    attempts Blocks pending round ⊆ pending := by
  induction round generalizing pending with
  | nil => exact Finset.Subset.refl pending
  | cons agent rest ih => exact (ih (attempt Blocks pending agent)).trans (attempt_subset pending agent)

/-- An agent nobody blocks has succeeded after a round in which it tries. -/
theorem not_mem_attempts {agent : Agent} {round : List Agent} (hmem : agent ∈ round)
    (hfree : ∀ other ∈ pending, other ≠ agent → ¬Blocks other agent) :
    agent ∉ attempts Blocks pending round := by
  induction round generalizing pending with
  | nil => cases hmem
  | cons first rest ih =>
    rcases List.mem_cons.mp hmem with rfl | hrest
    · have hsucceeds : attempt Blocks pending agent = pending.erase agent := by
        apply if_neg
        rintro ⟨other, hother, hne, hblocks⟩
        exact hfree other hother hne hblocks
      intro hagain
      have hafter := attempts_subset _ rest hagain
      rw [hsucceeds] at hafter
      exact Finset.notMem_erase agent pending hafter
    · apply ih hrest
      intro other hother
      exact hfree other (attempt_subset pending first hother)

/-- A round in which all pending agents try leaves fewer of them. -/
theorem attempts_card_lt {round : List Agent} (hstuck : ¬Stuck Blocks pending)
    (hall : ∀ agent ∈ pending, agent ∈ round) :
    (attempts Blocks pending round).card < pending.card := by
  obtain ⟨agent, hagent, hfree⟩ := exists_free hstuck
  apply Finset.card_lt_card
  apply Finset.ssubset_iff_subset_ne.mpr
  refine ⟨attempts_subset pending round, ?_⟩
  intro hsame
  exact not_mem_attempts (hall agent hagent) hfree (hsame.ge hagent)

/-- As many rounds as there are agents are enough when no group is stuck. -/
theorem rounds_eq_empty {schedule : List (List Agent)} (hlength : pending.card ≤ schedule.length)
    (hstuck : ∀ group ⊆ pending, group.Nonempty → ¬Stuck Blocks group)
    (hall : ∀ round ∈ schedule, ∀ agent ∈ pending, agent ∈ round) :
    schedule.foldl (attempts Blocks) pending = ∅ := by
  induction schedule generalizing pending with
  | nil => exact Finset.card_eq_zero.mp (Nat.le_zero.mp hlength)
  | cons round rest ih =>
    have hsubset := @attempts_subset Agent _ Blocks _ pending round
    refine ih ?_ ?_ ?_
    · rcases pending.eq_empty_or_nonempty with rfl | hnonempty
      · exact (Finset.card_le_card hsubset).trans (Nat.zero_le _)
      · have hless := attempts_card_lt (hstuck pending (Finset.Subset.refl _) hnonempty)
          (hall round List.mem_cons_self)
        rw [List.length_cons] at hlength
        omega
    · intro group hgroup
      exact hstuck group (hgroup.trans hsubset)
    · intro later hlater agent hagent
      exact hall later (List.mem_cons_of_mem _ hlater) agent (hsubset hagent)

/-! ## Stuck groups -/

theorem Stuck.subset_attempt (hstuck : Stuck Blocks group) (hpending : group ⊆ pending) (agent : Agent) :
    group ⊆ attempt Blocks pending agent := by
  intro member hmember
  unfold attempt
  split
  · exact hpending hmember
  · next hfree =>
    apply Finset.mem_erase_of_ne_of_mem _ (hpending hmember)
    rintro rfl
    obtain ⟨other, hother, hblocks⟩ := hstuck member hmember
    exact hfree ⟨other, hpending hother, hblocks⟩

theorem Stuck.subset_attempts (hstuck : Stuck Blocks group) (hpending : group ⊆ pending)
    (round : List Agent) : group ⊆ attempts Blocks pending round := by
  induction round generalizing pending with
  | nil => exact hpending
  | cons agent rest ih => exact ih (hstuck.subset_attempt hpending agent)

/-- A stuck group waits forever. -/
theorem Stuck.subset_rounds (hstuck : Stuck Blocks group) (hpending : group ⊆ pending)
    (schedule : List (List Agent)) : group ⊆ schedule.foldl (attempts Blocks) pending := by
  induction schedule generalizing pending with
  | nil => exact hpending
  | cons round rest ih => exact ih (hstuck.subset_attempts hpending round)

end Podmin.Foundation.Rounds
