import Mathlib.Data.List.Perm.Subperm
import Podmin.Agent.Workload.Rotation

/-!
# Promotion waits for publication

With a publication configured, an attempt promotes a generation only when the published object it has
just read is the bundle of the state it promotes. Unless the current generation has expired, some
earlier attempt has found the same bundle published and recorded the time, and the promotion is at
least the activation lag later. What an attempt reads as the published object is part of its input:
other agents and any other writer may have written it.
-/

namespace Podmin.Agent.Workload

open Foundation Fallible Transition

/-! ## What a valid state says about its records -/

variable {record : Record} {time : Int}

section Validated

variable {authority : Authority} {state : CaState} {now : Int} {requireCurrentValid : Bool}

theorem validateRecords_lifecycle {current : Nat} {seen : List Nat} {records : List Record}
    (hvalid : validateRecords authority current now requireCurrentValid seen records = .ok ())
    (hmem : record ∈ records) :
    validateLifecycle current now requireCurrentValid record = .ok () := by
  induction records generalizing seen with
  | nil => exact nomatch hmem
  | cons first records ih =>
    unfold validateRecords at hvalid
    split_ifs at hvalid
    split at hvalid
    · exact nomatch hvalid
    · next hfirst =>
      rcases List.mem_cons.mp hmem with hhead | hrest
      · rw [hhead]
        exact hfirst
      · exact ih hvalid hrest

/-- A state that passes has at most two records, its current one among them. -/
theorem validateState_eq_ok (hvalid : validateState authority state now requireCurrentValid = .ok ()) :
    state.certs.length ≤ 2 ∧ (∃ record ∈ state.certs, record.generation = state.current) ∧
      ∀ record ∈ state.certs,
        validateLifecycle state.current now requireCurrentValid record = .ok () := by
  unfold validateState at hvalid
  split at hvalid
  · exact nomatch hvalid
  next hschema =>
  split at hvalid
  · exact nomatch hvalid
  next hrecords =>
  split at hvalid
  · next hcurrent =>
    refine ⟨by omega, by simpa using hcurrent, fun record hmem ↦ ?_⟩
    exact validateRecords_lifecycle hrecords hmem
  · exact nomatch hvalid

/-- A record that was found published is pending, and becomes active the activation lag later. -/
theorem validateLifecycle_published {current : Nat}
    (hvalid : validateLifecycle current now requireCurrentValid record = .ok ())
    (hpublished : record.publishedAt = some time) :
    record.generation ≠ current ∧ record.retiredAt = none ∧
      record.activateAt = some (time + activationLag) := by
  unfold validateLifecycle at hvalid
  rw [hpublished] at hvalid
  cases hactivate : record.activateAt with
  | none => simp [hactivate] at hvalid
  | some activate =>
    cases hretired : record.retiredAt with
    | some retired => simp [hactivate, hretired] at hvalid
    | none =>
      have hother : record.generation ≠ current := by
        intro hsame
        simp [hactivate, hretired, hsame] at hvalid
      have hexpected : expectedActivation record = time + activationLag := by
        rw [expectedActivation, hpublished]
      simp only [hactivate, hretired, Option.isSome_some, Option.isSome_none, Option.isNone_some,
        Bool.and_false, Bool.or_false, Bool.false_eq_true, if_false, hother, hexpected] at hvalid
      split at hvalid
      · cases hvalid
      · next hchecks =>
        simp only [not_or, not_not] at hchecks
        exact ⟨hother, rfl, congrArg some hchecks.2.1⟩

/-- Nothing is pruned next to a record that was found published. -/
theorem pruneState_of_published (hvalid : validateState authority state now requireCurrentValid = .ok ())
    (hmem : record ∈ state.certs) (hpublished : record.publishedAt = some time) (later : Int) :
    pruneState state later = state := by
  obtain ⟨hlength, ⟨current, hcurrent, hgeneration⟩, hlifecycle⟩ := validateState_eq_ok hvalid
  obtain ⟨hother, hretired, _⟩ := validateLifecycle_published (hlifecycle record hmem) hpublished
  have hkept : ∀ other ∈ state.certs, prunable state.current later other = false := by
    intro other hotherMem
    by_contra hprune
    have hprunable : prunable state.current later other = true := Bool.not_eq_false _ ▸ hprune
    have hnotCurrent : other ≠ current := by
      intro hsame
      simp [prunable, hsame, hgeneration] at hprunable
    have hnotPending : other ≠ record := by
      intro hsame
      simp [prunable, hsame, hretired] at hprunable
    have hdistinct : record ≠ current := fun hsame ↦ hother (hsame ▸ hgeneration)
    -- there would be three records
    have hnodup : [other, record, current].Nodup := by
      simp [hnotCurrent, hnotPending, hdistinct]
    have hsubset : [other, record, current] ⊆ state.certs := by
      simp [hotherMem, hmem, hcurrent]
    have hthree := (List.subperm_of_subset hnodup hsubset).length_le
    simp at hthree
    omega
  unfold pruneState
  rw [List.filter_eq_self.mpr fun other hotherMem ↦ by simp [hkept other hotherMem]]

end Validated

/-! ## One attempt -/

/-- The state whose bundle the readiness check of an attempt looks for: the pruned one, with a new
successor if the current generation has expired and the pending one cannot replace it. -/
def checkedState (authority : Authority) (attempt : Attempt) (stored : CaState) : CaState :=
  let state := pruneState stored attempt.now
  match currentRecord state with
  | none => state
  | some current =>
    if !decide (attempt.now < current.certificate.notAfter) && unusable (pendingRecord state) attempt.now then
      { state with certs := [current, nextRecord authority current attempt.now] }
    else state

variable {state : CaState}

theorem publicationReady_eq_true {attempt : Attempt} {publication : Publication}
    (hconfigured : attempt.publication = some publication)
    (hready : publicationReady attempt state = .ok true) :
    publication.read = .ok (some (bundleForState state)) := by
  unfold publicationReady at hready
  rw [hconfigured] at hready
  dsimp only at hready
  split at hready
  · exact nomatch hready
  · exact nomatch hready
  · next published hread =>
    have hsame : published = bundleForState state := by simpa using hready
    rw [hread, hsame]

theorem bundleForState_promoteState (state : CaState) (pending : Record) (now : Int) :
    bundleForState (promoteState state pending now) = bundleForState state := by
  unfold bundleForState promoteState
  rw [List.map_map]
  apply List.map_congr_left
  intro record _
  dsimp only [Function.comp_apply]
  split
  · rfl
  · split <;> rfl

theorem bundleForState_markPublished (state : CaState) (pending : Record) (now : Int) :
    bundleForState (markPublished state pending now) = bundleForState state := by
  unfold bundleForState markPublished
  rw [List.map_map]
  apply List.map_congr_left
  intro record _
  dsimp only [Function.comp_apply]
  split <;> rfl

variable {now : Int}

/-- Promoting records no publication. -/
theorem promoteState_published {pending : Record} (hmem : record ∈ (promoteState state pending now).certs)
    (hpublished : record.publishedAt = some time) :
    ∃ old ∈ state.certs, old.generation = record.generation ∧ old.publishedAt = some time := by
  obtain ⟨old, hold, rfl⟩ := List.mem_map.mp hmem
  refine ⟨old, hold, ?_⟩
  split at hpublished
  · next hcurrent =>
    rw [if_pos hcurrent]
    exact ⟨rfl, hpublished⟩
  · next hother =>
    rw [if_neg hother]
    split at hpublished
    · exact nomatch hpublished
    · next hwaiting =>
      rw [if_neg hwaiting]
      exact ⟨rfl, hpublished⟩

theorem markPublished_published {pending : Record} (hmem : record ∈ (markPublished state pending now).certs)
    (hpublished : record.publishedAt = some time) :
    time = now ∨ ∃ old ∈ state.certs, old.generation = record.generation ∧ old.publishedAt = some time := by
  obtain ⟨old, hold, rfl⟩ := List.mem_map.mp hmem
  split at hpublished
  · exact .inl (Option.some.inj hpublished).symm
  · next hother =>
    rw [if_neg hother]
    exact .inr ⟨old, hold, rfl, hpublished⟩

theorem mem_of_currentRecord {current : Record} (hcurrent : currentRecord state = some current) :
    current ∈ state.certs ∧ current.generation = state.current :=
  ⟨List.mem_of_find?_eq_some hcurrent, by simpa using List.find?_some hcurrent⟩

theorem mem_pruneState (hmem : record ∈ (pruneState state now).certs) : record ∈ state.certs :=
  List.mem_of_mem_filter hmem

theorem rotateState_valid {authority : Authority} {attempt : Attempt} {stored : CaState}
    {result : Option CaState} (hrotate : rotateState authority attempt stored = .ok result) :
    validateState authority stored attempt.now false = .ok () := by
  obtain ⟨_, hvalid, _⟩ := bind_eq_ok.mp hrotate
  exact hvalid

section Attempt

variable {authority : Authority} {attempt : Attempt} {publication : Publication} {stored next : CaState}

section Rotate

variable (hrotate : rotateState authority attempt stored = .ok (some next))
  (hconfigured : attempt.publication = some publication)

include hrotate hconfigured

/-- A record of what an attempt writes was found published before, next to the same certificates, or is
found published by it. -/
theorem rotateState_published (hmem : record ∈ next.certs) (hpublished : record.publishedAt = some time) :
    (bundleForState next = bundleForState stored ∧
      ∃ old ∈ stored.certs, old.generation = record.generation ∧ old.publishedAt = some time) ∨
    (time = attempt.now ∧ publication.read = .ok (some (bundleForState next))) := by
  have hvalid := rotateState_valid hrotate
  have hlifecycle := (validateState_eq_ok hvalid).2.2
  -- a record of the pruned state that was found published is stored, and nothing was pruned
  have hkept : ∀ old ∈ (pruneState stored attempt.now).certs, old.publishedAt = some time →
      old ∈ stored.certs ∧ pruneState stored attempt.now = stored := by
    intro old hold hfound
    exact ⟨mem_pruneState hold, pruneState_of_published hvalid (mem_pruneState hold) hfound attempt.now⟩
  have hfresh : ∀ current, currentRecord (pruneState stored attempt.now) = some current →
      ∀ old ∈ [current, nextRecord authority current attempt.now], old.publishedAt ≠ some time := by
    intro current hcurrent old hold hfound
    obtain ⟨hcurrentMem, hgeneration⟩ := mem_of_currentRecord hcurrent
    rcases List.mem_cons.mp hold with hsame | hlast
    · rw [hsame] at hfound
      have hother := (validateLifecycle_published (hlifecycle current (mem_pruneState hcurrentMem))
        hfound).1
      exact hother hgeneration
    · rw [List.mem_singleton.mp hlast] at hfound
      exact nomatch hfound
  obtain ⟨current, hcurrent, hrotated⟩ := rotateState_eq_ok hrotate
  cases hrotated with
  | kept =>
    obtain ⟨hstored, hsame⟩ := hkept record hmem hpublished
    exact .inl ⟨congrArg bundleForState hsame, record, hstored, rfl, hpublished⟩
  | replaced _ _ => exact absurd hpublished (hfresh current hcurrent record hmem)
  | recovered _ _ _ =>
    obtain ⟨old, hold, _, hfound⟩ := promoteState_published hmem hpublished
    exact absurd hfound (hfresh current hcurrent old hold)
  | appended _ hnone _ =>
    -- a successor is appended only when none is pending
    rcases List.mem_append.mp hmem with hold | hlast
    · obtain ⟨hstored, _⟩ := hkept record hold hpublished
      have hactivate := (validateLifecycle_published (hlifecycle record hstored) hpublished).2.2
      have habsent := List.find?_eq_none.mp hnone record hold
      simp [hactivate] at habsent
    · rw [List.mem_singleton.mp hlast] at hpublished
      exact nomatch hpublished
  | marked _ _ hready =>
    rw [bundleForState_markPublished]
    rcases markPublished_published hmem hpublished with hnow | ⟨old, hold, hgeneration, hfound⟩
    · exact .inr ⟨hnow, publicationReady_eq_true hconfigured hready⟩
    · obtain ⟨hstored, hsame⟩ := hkept old hold hfound
      exact .inl ⟨congrArg bundleForState hsame, old, hstored, hgeneration, hfound⟩
  | promoted _ _ _ =>
    obtain ⟨old, hold, hgeneration, hfound⟩ := promoteState_published hmem hpublished
    obtain ⟨hstored, hsame⟩ := hkept old hold hfound
    rw [bundleForState_promoteState, hsame]
    exact .inl ⟨rfl, old, hstored, hgeneration, hfound⟩

/-- An attempt that changes the current generation found the bundle of the state it promotes published;
unless the current generation has expired, that bundle was found published long enough before. -/
theorem rotateState_promotes (hchanged : next.current ≠ stored.current) :
    ∃ current ∈ (checkedState authority attempt stored).certs,
      ∃ pending ∈ (checkedState authority attempt stored).certs,
        current.generation = stored.current ∧ pending.generation = next.current ∧
        next = promoteState (checkedState authority attempt stored) pending attempt.now ∧
        publication.read = .ok (some (bundleForState (checkedState authority attempt stored))) ∧
        (current.certificate.notAfter ≤ attempt.now ∨
          checkedState authority attempt stored = stored ∧
          ∃ time, pending.publishedAt = some time ∧ time + activationLag ≤ attempt.now) := by
  have hvalid := rotateState_valid hrotate
  have hlifecycle := (validateState_eq_ok hvalid).2.2
  obtain ⟨current, hcurrent, hrotated⟩ := rotateState_eq_ok hrotate
  obtain ⟨hcurrentMem, hgeneration⟩ := mem_of_currentRecord hcurrent
  cases hrotated with
  | kept => exact absurd rfl hchanged
  | replaced _ _ => exact absurd rfl hchanged
  | appended _ _ _ => exact absurd rfl hchanged
  | marked _ _ _ => exact absurd rfl hchanged
  | recovered hexpired hunusable hready =>
    have hchecked : checkedState authority attempt stored =
        { pruneState stored attempt.now with
          certs := [current, nextRecord authority current attempt.now] } := by
      simp [checkedState, hcurrent, hexpired, hunusable]
    rw [hchecked]
    exact ⟨current, List.mem_cons_self, nextRecord authority current attempt.now,
      List.mem_cons_of_mem _ List.mem_cons_self, hgeneration, rfl, rfl,
      publicationReady_eq_true hconfigured hready, .inl hexpired⟩
  | promoted hpending hready hdue =>
    rename_i pending
    have hpendingMem := List.mem_of_find?_eq_some hpending
    have hchecked : checkedState authority attempt stored = pruneState stored attempt.now := by
      rcases hdue with ⟨_, husable⟩ | ⟨hlasting, _⟩
      · simp [checkedState, hcurrent, husable]
      · simp [checkedState, hcurrent, hlasting]
    rw [hchecked]
    refine ⟨current, hcurrentMem, pending, hpendingMem, hgeneration, rfl, rfl,
      publicationReady_eq_true hconfigured hready, hdue.imp (·.1) fun ⟨_, hactive, hfound⟩ ↦ ?_⟩
    obtain ⟨time, htime⟩ := Option.isSome_iff_exists.mp (hfound (by rw [hconfigured]; rfl))
    have hmem := mem_pruneState hpendingMem
    rw [(validateLifecycle_published (hlifecycle pending hmem) htime).2.2, Option.getD_some] at hactive
    exact ⟨pruneState_of_published hvalid hmem htime attempt.now, time, htime, hactive⟩

end Rotate

end Attempt

/-! ## Runs -/

/-- The stored state, and every attempt whose write took effect with what it wrote, the newest first. -/
structure Log where
  stored : Option CaState
  writes : List (Attempt × CaState)

def Log.attempt (log : Log) (authority : Authority) (attempt : Attempt) : Log :=
  match ensure authority attempt log.stored with
  | .ok (some state) => if attempt.written then ⟨some state, (attempt, state) :: log.writes⟩ else log
  | _ => log

/-- Attempts with a publication configured, at any times, from an absent state. -/
def publishedSystem (authority : Authority) : System Log Attempt where
  init log := log.stored = none ∧ log.writes = []
  step log attempt next := attempt.publication.isSome ∧ next = log.attempt authority attempt

/-- A write recorded, as the time of its attempt, that a generation is published, and the attempt had
found that bundle published. -/
structure Marks (write : Attempt × CaState) (generation : Nat) (time : Int) (bundle : List Certificate) :
    Prop where
  now : write.1.now = time
  observed : ∃ publication, write.1.publication = some publication ∧
    publication.read = .ok (some bundle)
  recorded : ∃ record ∈ write.2.certs, record.generation = generation ∧ record.publishedAt = some time

/-- Every recorded publication in the stored state was written by an attempt that found the bundle of
that state published. -/
def Recorded (log : Log) : Prop :=
  ∀ stored, log.stored = some stored → ∀ record ∈ stored.certs, ∀ time, record.publishedAt = some time →
    ∃ write ∈ log.writes, Marks write record.generation time (bundleForState stored)

section Run

variable {authority : Authority} {log : Log} {attempt : Attempt} {publication : Publication}

theorem Recorded.step (hrecorded : Recorded log)
    (hconfigured : attempt.publication = some publication) :
    Recorded (log.attempt authority attempt) := by
  unfold Log.attempt
  split
  · next next hensure =>
    split
    · intro stored hstored record hmem time hpublished
      cases hstored
      obtain ⟨_, _, hread⟩ := bind_eq_ok.mp hensure
      cases hbefore : log.stored with
      | none =>
        rw [hbefore] at hread
        obtain ⟨_, _, hcreated⟩ := bind_eq_ok.mp hread
        cases hcreated
        rw [List.mem_singleton.mp hmem] at hpublished
        exact nomatch hpublished
      | some before =>
        rw [hbefore] at hread
        rcases rotateState_published hread hconfigured hmem hpublished with
          ⟨hbundle, old, hold, hgeneration, hfound⟩ | ⟨hnow, hobserved⟩
        · obtain ⟨write, hwrite, hmarks⟩ := hrecorded before hbefore old hold time hfound
          rw [hbundle, ← hgeneration]
          exact ⟨write, List.mem_cons_of_mem _ hwrite, hmarks⟩
        · exact ⟨(attempt, next), List.mem_cons_self, hnow.symm, ⟨publication, hconfigured, hobserved⟩,
            record, hmem, rfl, hpublished⟩
    · exact hrecorded
  · exact hrecorded

theorem recorded_of_reachable (hreach : Reachable (publishedSystem authority) log) : Recorded log := by
  refine Reachable.invariant ?_ ?_ hreach
  · intro log hinit stored hstored
    rw [hinit.1] at hstored
    exact nomatch hstored
  · intro log attempt next _ hrecorded hstep
    obtain ⟨publication, hconfigured⟩ := Option.isSome_iff_exists.mp hstep.1
    rw [hstep.2]
    exact hrecorded.step hconfigured

/-- In every run with a publication configured, an attempt leaves the current generation alone unless it
reads the bundle of the state it checks. One that changes it promotes that state, with the new and the
retiring generation in the published bundle; unless the retiring one has expired, an earlier attempt
recorded that it had found that bundle published, at least the activation lag before. -/
theorem promotion_published (hreach : Reachable (publishedSystem authority) log)
    (hconfigured : attempt.publication = some publication) {before after : CaState}
    (hbefore : log.stored = some before) (hafter : (log.attempt authority attempt).stored = some after) :
    (publication.read ≠ .ok (some (bundleForState (checkedState authority attempt before))) →
      after.current = before.current) ∧
    (after.current ≠ before.current →
      publication.read = .ok (some (bundleForState (checkedState authority attempt before))) ∧
      ∃ current ∈ (checkedState authority attempt before).certs,
        ∃ pending ∈ (checkedState authority attempt before).certs,
          current.generation = before.current ∧ pending.generation = after.current ∧
          after = promoteState (checkedState authority attempt before) pending attempt.now ∧
          (current.certificate.notAfter ≤ attempt.now ∨
            ∃ time, ∃ write ∈ log.writes, pending.publishedAt = some time ∧
              Marks write after.current time
                (bundleForState (checkedState authority attempt before)) ∧
              time + activationLag ≤ attempt.now)) := by
  have hpromotes : after.current ≠ before.current →
      rotateState authority attempt before = .ok (some after) := by
    intro hchanged
    unfold Log.attempt at hafter
    split at hafter
    · next next hensure =>
      split at hafter
      · cases hafter
        obtain ⟨_, _, hread⟩ := bind_eq_ok.mp hensure
        rw [hbefore] at hread
        exact hread
      · exact absurd (congrArg CaState.current (Option.some.inj (hafter.symm.trans hbefore))) hchanged
    · exact absurd (congrArg CaState.current (Option.some.inj (hafter.symm.trans hbefore))) hchanged
  constructor
  · intro hunpublished
    by_contra hchanged
    obtain ⟨_, _, _, _, _, _, _, hread, _⟩ :=
      rotateState_promotes (hpromotes hchanged) hconfigured hchanged
    exact hunpublished hread
  · intro hchanged
    obtain ⟨current, hcurrent, pending, hpending, hgeneration, hnew, hstate, hread, hwaited⟩ :=
      rotateState_promotes (hpromotes hchanged) hconfigured hchanged
    refine ⟨hread, current, hcurrent, pending, hpending, hgeneration, hnew, hstate, ?_⟩
    rcases hwaited with hexpired | ⟨hsame, time, htime, hlag⟩
    · exact .inl hexpired
    · rw [hsame] at hpending ⊢
      obtain ⟨write, hwrite, hmarks⟩ := recorded_of_reachable hreach before hbefore pending hpending time
        htime
      rw [hnew] at hmarks
      exact .inr ⟨time, write, hwrite, htime, hmarks, hlag⟩

end Run

/-- An attempt that finds a bundle published. -/
def publishedAttempt (now : Int) (bundle : List Certificate) : Attempt where
  now
  read := .ok ()
  create := .ok ()
  publication := some ⟨.ok (), .ok (some bundle)⟩
  written := true

/-- Two generations, the second one made when the first is due for renewal. -/
def rolloverBundle : List Certificate :=
  [(newRecord sampleAuthority 1 0).certificate, (newRecord sampleAuthority 2 (340 * day)).certificate]

/-- A run that creates the state, then a successor, and then finds both published. -/
def rolloverLog : Log :=
  (((⟨none, []⟩ : Log).attempt sampleAuthority (publishedAttempt 0 [])).attempt sampleAuthority
    (publishedAttempt (340 * day) [])).attempt sampleAuthority
      (publishedAttempt (340 * day + minute) rolloverBundle)

/-- The successor is promoted eleven minutes later. -/
def rolloverAttempt : Attempt :=
  publishedAttempt (340 * day + 12 * minute) rolloverBundle

theorem rolloverLog_reachable : Reachable (publishedSystem sampleAuthority) rolloverLog := by
  apply Reachable.step _ (⟨rfl, rfl⟩ : (publishedSystem sampleAuthority).step _
    (publishedAttempt (340 * day + minute) rolloverBundle) rolloverLog)
  apply Reachable.step _ (⟨rfl, rfl⟩ : (publishedSystem sampleAuthority).step _
    (publishedAttempt (340 * day) []) _)
  exact Reachable.step (.init ⟨rfl, rfl⟩) (⟨rfl, rfl⟩ : (publishedSystem sampleAuthority).step _
    (publishedAttempt 0 []) _)

theorem promotion_published_rollover : ∃ before after,
    rolloverLog.stored = some before ∧
      (rolloverLog.attempt sampleAuthority rolloverAttempt).stored = some after ∧
      before.current = 1 ∧ after.current = 2 ∧
      rolloverBundle = bundleForState (checkedState sampleAuthority rolloverAttempt before) := by
  have hfirst : rolloverLog.stored.map CaState.current = some 1 := by decide
  have hsecond : (rolloverLog.attempt sampleAuthority rolloverAttempt).stored.map CaState.current =
      some 2 := by decide
  obtain ⟨before, hbefore, hone⟩ := Option.map_eq_some_iff.mp hfirst
  obtain ⟨after, hafter, htwo⟩ := Option.map_eq_some_iff.mp hsecond
  have hpromotion := (promotion_published rolloverLog_reachable rfl hbefore hafter).2
    (by rw [hone, htwo]; decide)
  exact ⟨before, after, hbefore, hafter, hone, htwo,
    Option.some.inj (Except.ok.inj hpromotion.1)⟩

end Podmin.Agent.Workload
