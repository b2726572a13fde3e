import Mathlib.Algebra.Order.Ring.Int
import Podmin.Agent.Workload.Authority
import Podmin.Foundation.Fallible
import Podmin.Foundation.Transition

/-!
# Rotation of the workload CA

A stored state is one current generation alone, with the one it replaced, or with the one that will
replace it. An attempt of `Ensure` leads from one of these shapes to another, except that it appends
a successor without asking whether a replaced generation is still retained. Runs that never do that
keep every written state valid for good; one that does leaves a state no later call accepts.
-/

namespace Podmin.Agent.Workload

open Foundation Fallible Transition

variable {record current pending : Record} {changed : Bool} {next : CaState}

/-! ## Certificates over time -/

theorem addYear_ge (now : Int) : now + 365 * day ≤ addYear now := by
  unfold addYear
  split
  · have hday : 0 ≤ day := by decide
    omega
  · exact le_refl _

theorem truncate_le (time : Int) : truncate time ≤ time := by
  unfold truncate second
  omega

theorem lt_truncate (time : Int) : time - second < truncate time := by
  unfold truncate second
  omega

/-- A record made by the authority at or before a time. -/
structure Issued (authority : Authority) (clock : Int) (record : Record) : Prop where
  generation : 0 < record.generation
  size_pos : 0 < record.certificate.size
  size_le : record.certificate.size ≤ 8192
  valid : validCertificate authority record.certificate = true
  notBefore : record.certificate.notBefore ≤ clock
  lifetime : record.certificate.notBefore + (clockSkew + activationLag) ≤ record.certificate.notAfter

theorem newRecord_issued (authority : Authority) {generation : Nat} (hgeneration : 0 < generation)
    (now : Int) : Issued authority now (newRecord authority generation now) := by
  have hyear := addYear_ge now
  have hbefore := truncate_le (now - 5 * minute)
  have hafter := lt_truncate (addYear now)
  have hminute : minute = 60 * second := rfl
  have hday : day = 86400 * second := rfl
  have hsecond : second = 1000000000 := rfl
  have hlag : clockSkew + activationLag = 900 * second := rfl
  refine ⟨hgeneration, authority.size_pos, authority.size_le, ?_, ?_, ?_⟩
  · have hlifetime : truncate (now - 5 * minute) < truncate (addYear now) := by omega
    simp [validCertificate, newRecord, hlifetime]
  · simp only [newRecord]
    omega
  · simp only [newRecord]
    omega

theorem Issued.mono {authority : Authority} {clock later : Int} (hissued : Issued authority clock record)
    (hclock : clock ≤ later) :
    Issued authority later record :=
  { hissued with notBefore := hissued.notBefore.trans hclock }

/-! ## Arrangements of a stored state -/

/-- One current generation alone, with the one it replaced, or with the one that will replace it. -/
inductive Arranged (serving : Record → Prop) (replaced waiting : Record → Record → Prop) : CaState → Prop
  | sole {current : Record} (hcurrent : serving current) :
      Arranged serving replaced waiting ⟨1, current.generation, [current]⟩
  | overlap {retired current : Record} (hcurrent : serving current) (hreplaced : replaced retired current) :
      Arranged serving replaced waiting ⟨1, current.generation, [retired, current]⟩
  | rollover {current pending : Record} (hcurrent : serving current) (hwaiting : waiting current pending) :
      Arranged serving replaced waiting ⟨1, current.generation, [current, pending]⟩

/-- What the places of an arrangement say about the times of their records. -/
structure Placed (serving : Record → Prop) (replaced waiting : Record → Record → Prop) : Prop where
  serving : ∀ current, serving current → current.activateAt = none
  replaced : ∀ retired current, replaced retired current →
    retired.generation < current.generation ∧ retired.activateAt = none
  waiting : ∀ current pending, waiting current pending →
    pending.retiredAt = none ∧ pending.activateAt.isSome = true

section Arranged

variable {serving : Record → Prop} {replaced waiting : Record → Record → Prop} {state : CaState}
  (harranged : Arranged serving replaced waiting state)

include harranged

theorem Arranged.imp {replaced' waiting' : Record → Record → Prop} {serving' : Record → Prop}
    (hserving : ∀ record, serving record → serving' record)
    (hreplaced : ∀ retired current, replaced retired current → replaced' retired current)
    (hwaiting : ∀ current pending, waiting current pending → waiting' current pending) :
    Arranged serving' replaced' waiting' state := by
  cases harranged with
  | sole hcurrent => exact .sole (hserving _ hcurrent)
  | overlap hcurrent hbefore => exact .overlap (hserving _ hcurrent) (hreplaced _ _ hbefore)
  | rollover hcurrent hafter => exact .rollover (hserving _ hcurrent) (hwaiting _ _ hafter)

variable (hplaced : Placed serving replaced waiting)

include hplaced

theorem Arranged.prune (now : Int) : Arranged serving replaced waiting (pruneState state now) := by
  unfold pruneState
  cases harranged with
  | sole hcurrent => simpa [prunable] using Arranged.sole hcurrent
  | @overlap retired current hcurrent hreplaced =>
    have hkept : prunable current.generation now current = false := by simp [prunable]
    cases hprune : prunable current.generation now retired with
    | true => simpa [hprune, hkept] using Arranged.sole hcurrent
    | false => simpa [hprune, hkept] using Arranged.overlap hcurrent hreplaced
  | rollover hcurrent hwaiting =>
    simpa [prunable, (hplaced.waiting _ _ hwaiting).1] using Arranged.rollover hcurrent hwaiting

/-- The records of an arrangement whose current one is found. -/
theorem Arranged.found (hfound : currentRecord state = some current) :
    serving current ∧ ∃ certs, state = ⟨1, current.generation, certs⟩ ∧
      ((pendingRecord state = none ∧ (certs = [current] ∨
          ∃ retired, replaced retired current ∧ certs = [retired, current])) ∨
        ∃ pending, pendingRecord state = some pending ∧ waiting current pending ∧
          certs = [current, pending]) := by
  cases harranged with
  | sole hcurrent =>
    simp only [currentRecord, List.find?_singleton, decide_true, if_true, Option.some.injEq] at hfound
    subst hfound
    exact ⟨hcurrent, _, rfl, .inl ⟨by simp [pendingRecord, hplaced.serving _ hcurrent], .inl rfl⟩⟩
  | overlap hcurrent hreplaced =>
    obtain ⟨hgeneration, hactivate⟩ := hplaced.replaced _ _ hreplaced
    simp only [currentRecord, List.find?_cons, hgeneration.ne, decide_false, decide_true,
      Option.some.injEq] at hfound
    subst hfound
    exact ⟨hcurrent, _, rfl, .inl ⟨by simp [pendingRecord, hplaced.serving _ hcurrent, hactivate],
      .inr ⟨_, hreplaced, rfl⟩⟩⟩
  | rollover hcurrent hwaiting =>
    simp only [currentRecord, List.find?_cons, decide_true, Option.some.injEq] at hfound
    subst hfound
    exact ⟨hcurrent, _, rfl, .inr ⟨_, by simp [pendingRecord, hplaced.serving _ hcurrent,
      (hplaced.waiting _ _ hwaiting).2], hwaiting, rfl⟩⟩

end Arranged

/-! ## Shapes of a stored state -/

section Shapes

variable (authority : Authority) (clock : Int)

structure IsCurrent (record : Record) : Prop where
  issued : Issued authority clock record
  publishedAt : record.publishedAt = none
  activateAt : record.activateAt = none
  retiredAt : record.retiredAt = none

structure IsRetired (record current : Record) : Prop where
  issued : Issued authority clock record
  generation : record.generation < current.generation
  publishedAt : record.publishedAt = none
  activateAt : record.activateAt = none
  retiredAt : ∃ retired ≤ clock, record.retiredAt = some retired

/-- A successor of the current generation; unless that one has expired, the successor outlives it by
the time an activation takes. -/
structure IsPending (current record : Record) : Prop where
  issued : Issued authority clock record
  retiredAt : record.retiredAt = none
  generation : current.generation < record.generation
  activateAt : record.activateAt = some (expectedActivation record)
  activation : expectedActivation record ≤ record.certificate.notAfter
  publishedAt : ∀ published, record.publishedAt = some published →
    record.certificate.notBefore ≤ published
  outlives : current.certificate.notAfter ≤ clock ∨
    current.certificate.notAfter + activationLag ≤ record.certificate.notAfter

abbrev Shape : CaState → Prop :=
  Arranged (IsCurrent authority clock) (IsRetired authority clock) (IsPending authority clock)

theorem placed_shape :
    Placed (IsCurrent authority clock) (IsRetired authority clock) (IsPending authority clock) where
  serving _ hcurrent := hcurrent.activateAt
  replaced _ _ hretired := ⟨hretired.generation, hretired.activateAt⟩
  waiting _ _ hpending := ⟨hpending.retiredAt, by rw [hpending.activateAt]; rfl⟩

end Shapes

section Lemmas

variable {authority : Authority} {clock now : Int} {state : CaState}

theorem IsCurrent.mono (hcurrent : IsCurrent authority clock record) (hclock : clock ≤ now) :
    IsCurrent authority now record :=
  { hcurrent with issued := hcurrent.issued.mono hclock }

theorem Shape.mono (hshape : Shape authority clock state) (hclock : clock ≤ now) :
    Shape authority now state := by
  refine hshape.imp (fun _ hcurrent ↦ hcurrent.mono hclock) (fun _ _ hretired ↦ ?_) fun _ _ hpending ↦ ?_
  · obtain ⟨retired, hle, hsome⟩ := hretired.retiredAt
    exact { hretired with
      issued := hretired.issued.mono hclock
      retiredAt := ⟨retired, hle.trans hclock, hsome⟩ }
  · exact { hpending with
      issued := hpending.issued.mono hclock
      outlives := hpending.outlives.imp_left fun hexpired ↦ hexpired.trans hclock }

/-! ## Shapes are valid -/

theorem validateLifecycle_current (hcurrent : IsCurrent authority clock record) (hclock : clock ≤ now) :
    validateLifecycle record.generation now false record = .ok () := by
  have hbefore : ¬now + clockSkew < record.certificate.notBefore := by
    have hnotBefore := hcurrent.issued.notBefore
    have hskew : 0 ≤ clockSkew := by decide
    omega
  simp [validateLifecycle, hcurrent.publishedAt, hcurrent.activateAt, hcurrent.retiredAt, hbefore]

theorem validateLifecycle_retired (hretired : IsRetired authority clock record current)
    (hclock : clock ≤ now) : validateLifecycle current.generation now false record = .ok () := by
  obtain ⟨retired, hle, hsome⟩ := hretired.retiredAt
  have hlater : ¬now + clockSkew < retired := by
    have hskew : 0 ≤ clockSkew := by decide
    omega
  simp [validateLifecycle, hretired.publishedAt, hretired.activateAt, hsome,
    hretired.generation.ne, hretired.generation.not_gt, hlater]

theorem validateLifecycle_pending (hpending : IsPending authority clock current record) :
    validateLifecycle current.generation now false record = .ok () := by
  have hpublished : record.publishedAt.any
      (fun published ↦ decide (published < record.certificate.notBefore)) = false := by
    cases hcase : record.publishedAt with
    | none => rfl
    | some published => simpa using hpending.publishedAt published hcase
  simp [validateLifecycle, hpending.retiredAt, hpending.activateAt, hpending.generation.ne',
    hpending.generation.not_gt, hpending.activation.not_gt, hpublished]

/-- A record made by the authority passes, once its lifecycle does, behind older generations. -/
theorem validateRecords_cons {records : List Record} {current : Nat} {seen : List Nat}
    (hissued : Issued authority clock record) (hseen : ∀ generation ∈ seen, generation < record.generation)
    (hlifecycle : validateLifecycle current now false record = .ok ()) :
    validateRecords authority current now false seen (record :: records) =
      validateRecords authority current now false (record.generation :: seen) records := by
  have hfresh : record.generation ∉ seen := fun hmem ↦ (hseen _ hmem).false
  have hhead : seen.head?.any (fun previous ↦ decide (record.generation ≤ previous)) = false := by
    cases seen with
    | nil => rfl
    | cons previous rest => simpa using hseen previous List.mem_cons_self
  have hgeneration := hissued.generation
  have hpos := hissued.size_pos
  have hle := hissued.size_le
  rw [validateRecords, if_neg, hissued.valid, hlifecycle]
  · rfl
  · rw [hhead]
    simp only [Bool.false_eq_true, hfresh, false_or]
    omega

theorem Shape.validate (hshape : Shape authority clock state) (hclock : clock ≤ now) :
    validateState authority state now false = .ok () := by
  unfold validateState
  cases hshape with
  | sole hcurrent =>
    have hgeneration := hcurrent.issued.generation
    rw [if_neg (by simp; omega)]
    dsimp only
    rw [validateRecords_cons hcurrent.issued (by simp) (validateLifecycle_current hcurrent hclock),
      validateRecords]
    simp
  | overlap hcurrent hretired =>
    have hpos := hcurrent.issued.generation
    rw [if_neg (by simp; omega)]
    dsimp only
    rw [validateRecords_cons hretired.issued (by simp) (validateLifecycle_retired hretired hclock),
      validateRecords_cons hcurrent.issued (by simpa using hretired.generation)
        (validateLifecycle_current hcurrent hclock), validateRecords]
    simp
  | rollover hcurrent hpending =>
    have hpos := hcurrent.issued.generation
    rw [if_neg (by simp; omega)]
    dsimp only
    rw [validateRecords_cons hcurrent.issued (by simp) (validateLifecycle_current hcurrent hclock),
      validateRecords_cons hpending.issued (by simpa using hpending.generation)
        (validateLifecycle_pending hpending), validateRecords]
    simp

/-! ## Rotation keeps the shapes -/

/-- A retired current generation. -/
theorem IsCurrent.retire (hcurrent : IsCurrent authority now record)
    (hgeneration : record.generation < current.generation) :
    IsRetired authority now { record with retiredAt := some now } current where
  issued := { hcurrent.issued with }
  generation := hgeneration
  publishedAt := hcurrent.publishedAt
  activateAt := hcurrent.activateAt
  retiredAt := ⟨now, le_refl now, rfl⟩

theorem promoteState_pair (hgeneration : current.generation < pending.generation) :
    promoteState ⟨1, current.generation, [current, pending]⟩ pending now =
      ⟨1, pending.generation, [{ current with retiredAt := some now },
        { pending with publishedAt := none, activateAt := none }]⟩ := by
  simp [promoteState, hgeneration.ne']

theorem markPublished_pair (hgeneration : current.generation < pending.generation) :
    markPublished ⟨1, current.generation, [current, pending]⟩ pending now =
      ⟨1, current.generation, [current,
        { pending with publishedAt := some now, activateAt := some (now + activationLag) }]⟩ := by
  simp [markPublished, hgeneration.ne]

/-- Promoting the successor leaves the replaced generation retired. -/
theorem promote_shape (hcurrent : IsCurrent authority now current) (hissued : Issued authority now pending)
    (hretired : pending.retiredAt = none) (hgeneration : current.generation < pending.generation) :
    Shape authority now (promoteState ⟨1, current.generation, [current, pending]⟩ pending now) := by
  have hpromoted : IsCurrent authority now { pending with publishedAt := none, activateAt := none } :=
    ⟨{ hissued with }, rfl, rfl, hretired⟩
  rw [promoteState_pair hgeneration]
  exact .overlap hpromoted (hcurrent.retire hgeneration)

/-- A new successor of a generation that expires soon enough. -/
theorem nextRecord_pending (hdue : renewalDue current now = true) :
    IsPending authority now current (nextRecord authority current now) := by
  have hissued := newRecord_issued authority (Nat.succ_pos current.generation) now
  have hyear := addYear_ge now
  have hafter := lt_truncate (addYear now)
  refine ⟨{ hissued with }, rfl, Nat.lt_succ_self _, rfl, hissued.lifetime, by simp [nextRecord, newRecord],
    .inr ?_⟩
  simp only [renewalDue, Bool.not_eq_true', decide_eq_false_iff_not, not_lt] at hdue
  have hretention : retention = 30 * day := rfl
  have hlag : activationLag = 600 * second := rfl
  have hday : day = 86400 * second := rfl
  have hsecond : second = 1000000000 := rfl
  simp only [nextRecord, newRecord]
  omega

theorem renewalDue_of_expired (hexpired : current.certificate.notAfter ≤ now) :
    renewalDue current now = true := by
  have hretention : 0 ≤ retention := by decide
  simp only [renewalDue, Bool.not_eq_true', decide_eq_false_iff_not, not_lt]
  omega

/-- Recovery from an expired generation that starts a new one. -/
theorem recover_fresh (hcurrent : IsCurrent authority now current)
    (hexpired : current.certificate.notAfter ≤ now) :
    Shape authority now ⟨1, current.generation, [current, nextRecord authority current now]⟩ ∧
      Shape authority now (promoteState
        ⟨1, current.generation, [current, nextRecord authority current now]⟩
        (nextRecord authority current now) now) := by
  have hpending : IsPending authority now current (nextRecord authority current now) :=
    nextRecord_pending (renewalDue_of_expired hexpired)
  exact ⟨.rollover hcurrent hpending,
    promote_shape hcurrent hpending.issued hpending.retiredAt hpending.generation⟩

variable {attempt : Attempt}

/-- What an attempt can write over the pruned state: that state, one with a successor, or the promotion of
the pending generation. An expired generation is replaced, with a new one unless the pending one is usable. -/
inductive Rotated (authority : Authority) (attempt : Attempt) (state : CaState) (current : Record) :
    CaState → Prop
  | kept : Rotated authority attempt state current state
  | replaced (hexpired : current.certificate.notAfter ≤ attempt.now)
      (hunusable : unusable (pendingRecord state) attempt.now = true) :
      Rotated authority attempt state current
        { state with certs := [current, nextRecord authority current attempt.now] }
  | recovered (hexpired : current.certificate.notAfter ≤ attempt.now)
      (hunusable : unusable (pendingRecord state) attempt.now = true)
      (hready : publicationReady attempt
        { state with certs := [current, nextRecord authority current attempt.now] } = .ok true) :
      Rotated authority attempt state current (promoteState
        { state with certs := [current, nextRecord authority current attempt.now] }
        (nextRecord authority current attempt.now) attempt.now)
  | appended (hvalid : attempt.now < current.certificate.notAfter) (hnone : pendingRecord state = none)
      (hdue : renewalDue current attempt.now = true) :
      Rotated authority attempt state current
        { state with certs := state.certs ++ [nextRecord authority current attempt.now] }
  | marked {pending : Record} (hvalid : attempt.now < current.certificate.notAfter)
      (hpending : pendingRecord state = some pending) (hready : publicationReady attempt state = .ok true) :
      Rotated authority attempt state current (markPublished state pending attempt.now)
  | promoted {pending : Record} (hpending : pendingRecord state = some pending)
      (hready : publicationReady attempt state = .ok true)
      (hdue : (current.certificate.notAfter ≤ attempt.now ∧
          unusable (pendingRecord state) attempt.now = false) ∨
        (attempt.now < current.certificate.notAfter ∧ pending.activateAt.getD 0 ≤ attempt.now ∧
          (attempt.publication.isSome → pending.publishedAt.isSome))) :
      Rotated authority attempt state current (promoteState state pending attempt.now)

/-- What recovery writes once the bundle of its state is found published, or before. -/
theorem recoverState_eq_ok (hexpired : current.certificate.notAfter ≤ attempt.now)
    (hrecover : recoverState authority attempt changed state current = .ok (some next)) :
    Rotated authority attempt state current next := by
  unfold recoverState at hrecover
  obtain ⟨_, _, hpublished⟩ := bind_eq_ok.mp hrecover
  obtain ⟨_, _, hread⟩ := bind_eq_ok.mp hpublished
  obtain ⟨ready, hcheck, hready⟩ := bind_eq_ok.mp hread
  cases hunusable : unusable (pendingRecord state) attempt.now with
  | true =>
    simp only [hunusable, if_true, Bool.or_true] at hready hcheck
    cases ready with
    | true =>
      cases hready
      exact .recovered hexpired hunusable hcheck
    | false =>
      cases hready
      exact .replaced hexpired hunusable
  | false =>
    cases hpending : pendingRecord state with
    | none => simp [hpending, unusable] at hunusable
    | some pending =>
      simp only [hpending ▸ hunusable, hpending, Bool.false_eq_true, if_false, Option.getD_some,
        Bool.or_false] at hready hcheck
      cases ready with
      | true =>
        cases hready
        exact .promoted hpending hcheck (.inl ⟨hexpired, hunusable⟩)
      | false =>
        cases changed with
        | true =>
          cases hready
          exact .kept
        | false => simp at hready

/-- A waiting generation is left unchanged, found published, or promoted. -/
theorem advanceState_eq_ok (hvalid : attempt.now < current.certificate.notAfter)
    (hpending : pendingRecord state = some pending)
    (hadvance : advanceState attempt changed state pending = .ok (some next)) :
    Rotated authority attempt state current next := by
  unfold advanceState at hadvance
  obtain ⟨ready, hcheck, hready⟩ := bind_eq_ok.mp hadvance
  cases hmarks : attempt.publication.isSome && ready && pending.publishedAt.isNone with
  | true =>
    have hlater : ¬attempt.now + activationLag ≤ attempt.now := by
      have hlag : 0 < activationLag := by decide
      omega
    have hmarked := hmarks
    simp only [Bool.and_eq_true] at hmarked
    rw [hmarked.1.2] at hcheck
    simp only [hmarks, if_true, hlater, decide_false, Bool.and_false, Bool.false_eq_true, if_false,
      Bool.or_true] at hready
    cases hready
    exact .marked hvalid hpending hcheck
  | false =>
    simp only [hmarks, Bool.false_eq_true, if_false, Bool.or_false] at hready
    split at hready
    · next hdue =>
      simp only [Bool.and_eq_true, decide_eq_true_eq] at hdue
      rw [hdue.1] at hcheck hmarks
      cases hready
      refine .promoted hpending hcheck (.inr ⟨hvalid, hdue.2, fun hsome ↦ ?_⟩)
      simpa [hsome, Option.isSome_iff_ne_none] using hmarks
    · cases changed with
      | true =>
        cases hready
        exact .kept
      | false => simp at hready

theorem markPublished_shape (hcurrent : IsCurrent authority now current)
    (hpending : IsPending authority now current pending) (hvalid : now < current.certificate.notAfter) :
    Shape authority now (markPublished ⟨1, current.generation, [current, pending]⟩ pending now) := by
  have houtlives := hpending.outlives.resolve_left hvalid.not_ge
  rw [markPublished_pair hpending.generation]
  refine .rollover hcurrent ⟨{ hpending.issued with }, hpending.retiredAt, hpending.generation, rfl, ?_,
    ?_, .inr houtlives⟩
  · simp only [expectedActivation]
    omega
  · intro published hpublished
    cases hpublished
    exact hpending.issued.notBefore

theorem rotateState_eq_ok {stored : CaState}
    (hrotate : rotateState authority attempt stored = .ok (some next)) :
    ∃ current, currentRecord (pruneState stored attempt.now) = some current ∧
      Rotated authority attempt (pruneState stored attempt.now) current next := by
  unfold rotateState at hrotate
  obtain ⟨_, _, hvalidated⟩ := bind_eq_ok.mp hrotate
  dsimp only at hvalidated
  split at hvalidated
  · simp at hvalidated
  next current hcurrent =>
  refine ⟨current, hcurrent, ?_⟩
  split at hvalidated
  · next hexpired => exact recoverState_eq_ok (by simpa using hexpired) hvalidated
  next hvalid =>
  have hvalid : attempt.now < current.certificate.notAfter := by simpa using hvalid
  split at hvalidated
  · next pending hpending => exact advanceState_eq_ok hvalid hpending hvalidated
  next hpending =>
  split at hvalidated
  · next hdue =>
    obtain ⟨_, _, hcreated⟩ := bind_eq_ok.mp hvalidated
    cases hcreated
    exact .appended hvalid hpending hdue
  · split at hvalidated
    · cases hvalidated
      exact .kept
    · simp at hvalidated

/-- The attempt does not find a retained previous generation when it is to append a successor. -/
def hasRoom (attempt : Attempt) (stored : CaState) : Prop :=
  ∀ current, currentRecord (pruneState stored attempt.now) = some current →
    pendingRecord (pruneState stored attempt.now) = none →
    attempt.now < current.certificate.notAfter → renewalDue current attempt.now = true →
      (pruneState stored attempt.now).certs.length < 2

/-- What an attempt writes over a state of one shape has a shape again, and does not go back. -/
theorem rotate_shape {stored : CaState} (hshape : Shape authority clock stored) (hclock : clock ≤ attempt.now)
    (hroom : hasRoom attempt stored) (hrotate : rotateState authority attempt stored = .ok (some next)) :
    Shape authority attempt.now next ∧ stored.current ≤ next.current := by
  have hpruned := (hshape.mono hclock).prune (placed_shape authority attempt.now) attempt.now
  obtain ⟨current, hfound, hrotated⟩ := rotateState_eq_ok hrotate
  have hroom := hroom current hfound
  change _ ∧ (pruneState stored attempt.now).current ≤ _
  generalize pruneState stored attempt.now = state at hpruned hfound hrotated hroom ⊢
  obtain ⟨hcurrent, certs, rfl, hplaces⟩ := hpruned.found (placed_shape authority attempt.now) hfound
  cases hrotated with
  | kept => exact ⟨hpruned, le_refl _⟩
  | replaced hexpired _ => exact ⟨(recover_fresh hcurrent hexpired).1, le_refl _⟩
  | recovered hexpired _ _ => exact ⟨(recover_fresh hcurrent hexpired).2, Nat.le_succ _⟩
  | appended hvalid hnone hdue =>
    rcases hplaces with ⟨_, rfl | ⟨retired, _, rfl⟩⟩ | ⟨pending, hpending, _⟩
    · exact ⟨.rollover hcurrent (nextRecord_pending hdue), le_refl _⟩
    · exact absurd (hroom hnone hvalid hdue) (by simp)
    · exact nomatch hnone.symm.trans hpending
  | marked hvalid hpending _ =>
    rcases hplaces with ⟨hnone, _⟩ | ⟨waiting, hwaiting, hplace, rfl⟩
    · exact nomatch hnone.symm.trans hpending
    · cases hwaiting.symm.trans hpending
      exact ⟨markPublished_shape hcurrent hplace hvalid, le_refl _⟩
  | promoted hpending _ _ =>
    rcases hplaces with ⟨hnone, _⟩ | ⟨waiting, hwaiting, hplace, rfl⟩
    · exact nomatch hnone.symm.trans hpending
    · cases hwaiting.symm.trans hpending
      exact ⟨promote_shape hcurrent hplace.issued hplace.retiredAt hplace.generation, hplace.generation.le⟩

end Lemmas

/-! ## Whole runs -/

/-- The stored state, the time of the last attempt, and every write with its time, the newest first. -/
structure Store where
  stored : Option CaState
  clock : Int
  writes : List (Int × CaState)

/-- One attempt on the store. -/
def Store.attempt (store : Store) (authority : Authority) (attempt : Attempt) : Store :=
  match ensure authority attempt store.stored with
  | .ok (some state) =>
    if attempt.written then ⟨some state, attempt.now, (attempt.now, state) :: store.writes⟩
    else { store with clock := attempt.now }
  | _ => { store with clock := attempt.now }

/-- Attempts at nondecreasing times, from an absent state. -/
def system (authority : Authority) : System Store Attempt where
  init store := store.stored = none ∧ store.writes = []
  step store attempt next := store.clock ≤ attempt.now ∧ next = store.attempt authority attempt

/-- An attempt that writes a state has room for the successor it appends, if it appends one. -/
def roomy (authority : Authority) (store : Store) (attempt : Attempt) : Prop :=
  attempt.written = true → ∀ stored next, store.stored = some stored →
    ensure authority attempt stored = .ok (some next) → hasRoom attempt stored

/-- Every write is valid at its time and at every later one, `Current` never decreases, and the stored
state is the newest write. -/
structure Sound (authority : Authority) (store : Store) : Prop where
  valid : ∀ write ∈ store.writes, ∀ now, write.1 ≤ now →
    validateState authority write.2 now false = .ok ()
  current : store.writes.Pairwise fun newer older ↦ older.2.current ≤ newer.2.current
  stored : store.stored = store.writes.head?.map Prod.snd

structure Invariant (authority : Authority) (store : Store) : Prop where
  shape : ∀ write ∈ store.writes, write.1 ≤ store.clock ∧ Shape authority write.1 write.2
  current : store.writes.Pairwise fun newer older ↦ older.2.current ≤ newer.2.current
  stored : store.stored = store.writes.head?.map Prod.snd

section Run

variable {authority : Authority} {store : Store} {attempt : Attempt}

/-- What an attempt writes has a shape, and is no older than what is stored. -/
theorem ensure_shape (hinv : Invariant authority store) (hclock : store.clock ≤ attempt.now)
    (hroom : roomy authority store attempt) (hwritten : attempt.written = true)
    (hensure : ensure authority attempt store.stored = .ok (some next)) :
    Shape authority attempt.now next ∧ ∀ write ∈ store.writes, write.2.current ≤ next.current := by
  obtain ⟨_, _, hread⟩ := bind_eq_ok.mp hensure
  cases hwrites : store.writes with
  | nil =>
    have hstored : store.stored = none := by rw [hinv.stored, hwrites]; rfl
    rw [hstored] at hread
    obtain ⟨_, _, hcreated⟩ := bind_eq_ok.mp hread
    cases hcreated
    exact ⟨.sole (IsCurrent.mk (newRecord_issued authority Nat.one_pos attempt.now) rfl rfl rfl), by simp⟩
  | cons write rest =>
    have hstored : store.stored = some write.2 := by rw [hinv.stored, hwrites]; rfl
    rw [hstored] at hread hensure
    obtain ⟨htime, hshape⟩ := hinv.shape write (hwrites ▸ List.mem_cons_self)
    obtain ⟨hnext, hcurrent⟩ := rotate_shape hshape (htime.trans hclock)
      (hroom hwritten _ _ hstored hensure) hread
    refine ⟨hnext, fun other hother ↦ ?_⟩
    rcases List.mem_cons.mp hother with rfl | hrest
    · exact hcurrent
    · have hordered := hinv.current
      rw [hwrites, List.pairwise_cons] at hordered
      exact (hordered.1 other hrest).trans hcurrent

theorem Invariant.step (hinv : Invariant authority store) (hclock : store.clock ≤ attempt.now)
    (hroom : roomy authority store attempt) : Invariant authority (store.attempt authority attempt) := by
  have hkept : Invariant authority { store with clock := attempt.now } :=
    ⟨fun write hwrite ↦ ⟨(hinv.shape write hwrite).1.trans hclock, (hinv.shape write hwrite).2⟩,
      hinv.current, hinv.stored⟩
  unfold Store.attempt
  split
  · next state hensure =>
    split
    · next hwritten =>
      obtain ⟨hshape, hcurrent⟩ := ensure_shape hinv hclock hroom hwritten hensure
      refine ⟨fun write hwrite ↦ ?_, List.pairwise_cons.mpr ⟨hcurrent, hinv.current⟩, rfl⟩
      rcases List.mem_cons.mp hwrite with rfl | hrest
      · exact ⟨le_refl _, hshape⟩
      · exact hkept.shape write hrest
    · exact hkept
  · exact hkept

/-- In runs whose writes have room for the successor they append, every written state stays valid. -/
theorem rotation_sound
    (hreach : Reachable ((system authority).guarded (roomy authority)) store) : Sound authority store := by
  have hinv : Invariant authority store := by
    refine Reachable.invariant ?_ ?_ hreach
    · intro store hinit
      exact ⟨by simp [hinit.2], by simp [hinit.2], by simp [hinit.1, hinit.2]⟩
    · intro store attempt next _ hinv hstep
      rw [hstep.2.2]
      exact hinv.step hstep.2.1 hstep.1
  exact ⟨fun write hwrite now hnow ↦ (hinv.shape write hwrite).2.validate hnow, hinv.current, hinv.stored⟩

end Run

/-! ## A wedged state -/

def sampleAuthority : Authority := ⟨[1], 300, by decide, by decide⟩

/-- An attempt some days after the first of January 2026 that meets no failure, without publication. -/
def plainAttempt (days : Int) : Attempt :=
  ⟨(739616 + days) * day, .ok (), .ok (), none, true⟩

/-- The attempts of a cluster that is down for most of its second year. -/
def outage : List Attempt :=
  [plainAttempt 0, plainAttempt 335, plainAttempt 690, plainAttempt 691]

def wedged : Store :=
  outage.foldl (fun store attempt ↦ store.attempt sampleAuthority attempt) ⟨none, 0, []⟩

theorem validateState_of_three {authority : Authority} {state : CaState}
    (hthree : state.certs.length = 3) (now : Int) :
    validateState authority state now false = .error "CA state schema is invalid" := by
  rw [validateState, if_pos]
  omega

theorem wedged_reachable : Reachable (system sampleAuthority) wedged := by
  have hstart : Reachable (system sampleAuthority) ⟨none, 0, []⟩ := .init ⟨rfl, rfl⟩
  have hcreated := Reachable.step hstart
    (⟨by decide, rfl⟩ : (system sampleAuthority).step _ (plainAttempt 0) _)
  have hpending := Reachable.step hcreated
    (⟨by decide, rfl⟩ : (system sampleAuthority).step _ (plainAttempt 335) _)
  have hpromoted := Reachable.step hpending
    (⟨by decide, rfl⟩ : (system sampleAuthority).step _ (plainAttempt 690) _)
  exact Reachable.step hpromoted
    (⟨by decide, rfl⟩ : (system sampleAuthority).step _ (plainAttempt 691) _)

/-- A successor is appended next to a retained generation: the stored state has three certificates and
is accepted at no time. -/
theorem outage_wedges : Reachable (system sampleAuthority) wedged ∧
    ∃ state, wedged.stored = some state ∧ state.certs.length = 3 ∧
      ∀ now, validateState sampleAuthority state now false = .error "CA state schema is invalid" := by
  have hlength : wedged.stored.map (fun state ↦ state.certs.length) = some 3 := by decide
  obtain ⟨state, hstored, hthree⟩ := Option.map_eq_some_iff.mp hlength
  exact ⟨wedged_reachable, state, hstored, hthree, validateState_of_three hthree⟩

/-- A first generation, its successor, and the promotion of the successor. -/
theorem rotation_sound_promoted : ∃ store : Store,
    Reachable ((system sampleAuthority).guarded (roomy sampleAuthority)) store ∧
      store.writes.map (fun write ↦ write.2.current) = [2, 1, 1] ∧ Sound sampleAuthority store := by
  have hstart : Reachable ((system sampleAuthority).guarded (roomy sampleAuthority)) ⟨none, 0, []⟩ :=
    .init ⟨rfl, rfl⟩
  have hcreated := hstart.guarded_step (⟨by decide, rfl⟩ : (system sampleAuthority).step _ (plainAttempt 0) _)
    fun _ stored _ hstored ↦ by simp at hstored
  have hpending := hcreated.guarded_step
    (⟨by decide, rfl⟩ : (system sampleAuthority).step _ (plainAttempt 335) _)
    fun _ stored _ hstored _ current _ _ _ _ ↦ by
      cases hstored
      decide
  have hpromoted := hpending.guarded_step
    (⟨by decide, rfl⟩ : (system sampleAuthority).step _ (plainAttempt 336) _)
    fun _ stored _ hstored _ current _ hnone _ _ ↦ by
      cases hstored
      exact absurd hnone (by decide)
  exact ⟨_, hpromoted, by decide, rotation_sound hpromoted⟩

end Podmin.Agent.Workload
