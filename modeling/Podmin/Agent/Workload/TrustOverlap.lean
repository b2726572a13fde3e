import Podmin.Agent.Workload.Rotation

/-!
# Trust across a rotation

Agents install the CA state at different times and issue from what they have installed. A new
generation waits long enough before it becomes active that every agent which has installed a state
lately knows it, and a replaced one is retained until everything issued from it has expired. This holds
as long as no generation expires before it is replaced.
-/

namespace Podmin.Agent.Workload

open Foundation Fallible Transition

variable {current pending record : Record} {before after : CaState} {next : World} {time : Int} {held : Synced}

/-- What a trust bundle has of a record. -/
def Record.identity (record : Record) : Nat × Certificate :=
  (record.generation, record.certificate)

def CaState.identities (state : CaState) : List (Nat × Certificate) :=
  state.certs.map Record.identity

/-- A leaf verifies against a bundle with its issuer while both certificates are valid. -/
structure Leaf.Verifies (leaf : Leaf) (bundle : CaState) (now : Int) : Prop where
  trusted : leaf.issuer.identity ∈ bundle.identities
  started : leaf.notBefore ≤ now
  lasting : now ≤ leaf.notAfter
  issuerStarted : leaf.issuer.certificate.notBefore ≤ now
  issuerLasting : now ≤ leaf.issuer.certificate.notAfter

/-! ## Certificates and their successors -/

/-- A certificate that lasts a year, to the second. -/
structure Yearly (certificate : Certificate) : Prop where
  lifetime : certificate.notBefore + 365 * day ≤ certificate.notAfter
  whole : truncate certificate.notAfter = certificate.notAfter

theorem truncate_truncate (time : Int) : truncate (truncate time) = truncate time := by
  unfold truncate second
  omega

theorem newRecord_yearly (authority : Authority) (generation : Nat) (now : Int) :
    Yearly (newRecord authority generation now).certificate := by
  refine ⟨?_, truncate_truncate _⟩
  have hyear := addYear_ge now
  simp only [newRecord]
  generalize addYear now = expiry at hyear
  simp only [truncate, day, hour, minute, second] at hyear ⊢
  omega

structure Serving (record : Record) : Prop where
  activateAt : record.activateAt = none
  retiredAt : record.retiredAt = none
  yearly : Yearly record.certificate

/-- A successor that was made when the current generation had at most the retention time left. -/
structure Waiting (clock : Int) (current pending : Record) : Prop where
  generation : current.generation < pending.generation
  retiredAt : pending.retiredAt = none
  yearly : Yearly pending.certificate
  started : pending.certificate.notBefore ≤ clock
  activateAt : ∃ activate, pending.activateAt = some activate ∧
    pending.certificate.notBefore + activationLag ≤ activate
  successor : current.certificate.notAfter ≤
    pending.certificate.notBefore + (clockSkew + second + retention)

/-- A replaced generation that is retained beyond its own expiry, and pruned before its successor
needs a successor. -/
structure Replaced (retired current : Record) : Prop where
  generation : retired.generation < current.generation
  activateAt : retired.activateAt = none
  retiredAt : ∃ time, retired.retiredAt = some time ∧
    retired.certificate.notAfter < time + (retention + clockSkew) ∧
    time + (retention + clockSkew) + retention ≤ current.certificate.notAfter

/-- The states of runs in which no generation expires before it is replaced. -/
abbrev Fresh (clock : Int) : CaState → Prop :=
  Arranged Serving Replaced (Waiting clock)

theorem placed_fresh (clock : Int) : Placed Serving Replaced (Waiting clock) where
  serving _ hcurrent := hcurrent.activateAt
  replaced _ _ hreplaced := ⟨hreplaced.generation, hreplaced.activateAt⟩
  waiting _ _ hwaiting := by
    obtain ⟨activate, hactivate, _⟩ := hwaiting.activateAt
    exact ⟨hwaiting.retiredAt, by rw [hactivate]; rfl⟩

/-- What an attempt does to the records: only those past their retention vanish, the current one stays
or gives way to a pending one whose time has come, and what waits waited before or waits long enough. -/
structure Moves (now : Int) (before after : CaState) : Prop where
  kept : ∀ record ∈ before.certs,
    (∃ later ∈ after.certs, later.identity = record.identity ∧
      (later.retiredAt = record.retiredAt ∨ later.retiredAt = some now)) ∨
    ∃ time, record.retiredAt = some time ∧ time + (retention + clockSkew) ≤ now
  current : ∀ record, currentRecord after = some record →
    (∃ old, currentRecord before = some old ∧ old.identity = record.identity) ∨
    ∃ pending ∈ before.certs, pending.identity = record.identity ∧
      ∃ activate, pending.activateAt = some activate ∧ activate ≤ now
  pending : ∀ record ∈ after.certs, ∀ activate, record.activateAt = some activate →
    (∃ old ∈ before.certs, old.identity = record.identity ∧ old.activateAt = some activate) ∨
    now + (activationLag - second) < activate

section Steps

variable {authority : Authority} {clock now : Int} {state : CaState}

theorem Fresh.mono (hfresh : Fresh clock state) (hclock : clock ≤ now) : Fresh now state :=
  hfresh.imp (fun _ ↦ id) (fun _ _ ↦ id)
    fun _ _ hwaiting ↦ { hwaiting with started := hwaiting.started.trans hclock }

theorem nextRecord_waiting (hdue : renewalDue current now = true) :
    Waiting now current (nextRecord authority current now) := by
  have hbefore := truncate_le (now - 5 * minute)
  have hafter := lt_truncate (now - 5 * minute)
  have hskew : clockSkew = 5 * minute := rfl
  have hminute : 0 < minute := by decide
  have hlag : 0 < activationLag := by decide
  simp only [renewalDue, Bool.not_eq_true', decide_eq_false_iff_not, not_lt] at hdue
  refine ⟨Nat.lt_succ_self _, rfl, newRecord_yearly authority (current.generation + 1) now, ?_,
    ⟨_, rfl, ?_⟩, ?_⟩
  · simp only [nextRecord, newRecord]
    omega
  · simp only [nextRecord, newRecord]
    omega
  · simp only [nextRecord, newRecord]
    omega

/-- A successor that becomes active in time replaces the current generation. -/
theorem Waiting.replaced (hcurrent : Serving current) (hwaiting : Waiting clock current pending)
    (hactive : pending.activateAt.getD 0 ≤ now) (hvalid : now < current.certificate.notAfter) :
    Replaced { current with retiredAt := some now }
      { pending with publishedAt := none, activateAt := none } := by
  obtain ⟨activate, hactivate, hlag⟩ := hwaiting.activateAt
  rw [hactivate, Option.getD_some] at hactive
  have hsuccessor := hwaiting.successor
  have hlifetime := hwaiting.yearly.lifetime
  refine ⟨hwaiting.generation, hcurrent.activateAt, now, rfl, ?_, ?_⟩
  · simp only [activationLag, clockSkew, retention, day, hour, minute, second] at *
    omega
  · simp only [activationLag, clockSkew, retention, day, hour, minute, second] at *
    omega

/-- The time has come for what a pruning drops. -/
theorem prunable_eq_true {current : Nat} (hprune : prunable current now record = true) :
    ∃ time, record.retiredAt = some time ∧ time + (retention + clockSkew) ≤ now := by
  unfold prunable at hprune
  cases hretired : record.retiredAt with
  | none => simp [hretired] at hprune
  | some time => exact ⟨time, rfl, by simpa [hretired] using (Bool.and_eq_true_iff.mp hprune).2⟩

theorem Moves.refl (now : Int) (state : CaState) : Moves now state state where
  kept record hrecord := .inl ⟨record, hrecord, rfl, .inl rfl⟩
  current record hcurrent := .inl ⟨record, hcurrent, rfl⟩
  pending record hrecord _ hactivate := .inl ⟨record, hrecord, rfl, hactivate⟩

theorem Moves.trans {between : CaState} (hfirst : Moves now before between) (hsecond : Moves now between after)
    : Moves now before after where
  kept record hrecord := by
    have hpositive : 0 < retention + clockSkew := by decide
    rcases hfirst.kept record hrecord with ⟨later, hlater, hsame, hretired⟩ | hpast
    · rcases hsecond.kept later hlater with ⟨last, hlast, hkept, hretired'⟩ | ⟨time, htime, hpast⟩
      · refine .inl ⟨last, hlast, hkept.trans hsame, ?_⟩
        rcases hretired' with heq | heq
        · rwa [heq]
        · exact .inr heq
      · rcases hretired with heq | heq
        · exact .inr ⟨time, heq.symm.trans htime, hpast⟩
        · cases heq.symm.trans htime
          omega
    · exact .inr hpast
  current record hcurrent := by
    rcases hsecond.current record hcurrent with ⟨old, hold, hsame⟩ |
      ⟨pending, hpending, hsame, activate, ha, hle⟩
    · rcases hfirst.current old hold with ⟨older, holder, hsame'⟩ | ⟨pending, hpending, hsame', hactive⟩
      · exact .inl ⟨older, holder, hsame'.trans hsame⟩
      · exact .inr ⟨pending, hpending, hsame'.trans hsame, hactive⟩
    · rcases hfirst.pending pending hpending activate ha with ⟨old, hold, hsame', ha'⟩ | hlater
      · exact .inr ⟨old, hold, hsame'.trans hsame, activate, ha', hle⟩
      · have hlag : 0 < activationLag - second := by decide
        omega
  pending record hrecord activate hactivate := by
    rcases hsecond.pending record hrecord activate hactivate with ⟨old, hold, hsame, ha⟩ | hlater
    · rcases hfirst.pending old hold activate ha with ⟨older, holder, hsame', ha'⟩ | hlater
      · exact .inl ⟨older, holder, hsame'.trans hsame, ha'⟩
      · exact .inr hlater
    · exact .inr hlater

theorem currentRecord_pruneState (state : CaState) (now : Int) :
    currentRecord (pruneState state now) = currentRecord state := by
  unfold currentRecord pruneState
  rw [List.find?_filter]
  congr 1
  funext record
  by_cases hrecord : record.generation = state.current
  · simp [hrecord, prunable]
  · simp [hrecord]

/-- Pruning only drops records past their retention. -/
theorem pruneState_moves (state : CaState) (now : Int) : Moves now state (pruneState state now) where
  kept record hrecord := by
    cases hprune : prunable state.current now record with
    | true => exact .inr (prunable_eq_true hprune)
    | false => exact .inl ⟨record, List.mem_filter.mpr ⟨hrecord, by simp [hprune]⟩, rfl, .inl rfl⟩
  current record hcurrent := .inl ⟨record, currentRecord_pruneState state now ▸ hcurrent, rfl⟩
  pending record hrecord _ hactivate := .inl ⟨record, (List.mem_filter.mp hrecord).1, rfl, hactivate⟩

theorem currentRecord_head (current : Record) (records : List Record) :
    currentRecord ⟨1, current.generation, current :: records⟩ = some current := by
  simp [currentRecord]

theorem Replaced.currentRecord {retired : Record} (hreplaced : Replaced retired current) :
    currentRecord ⟨1, current.generation, [retired, current]⟩ = some current := by
  simp [Workload.currentRecord, hreplaced.generation.ne]

theorem nextRecord_moves (hcurrent : Serving current) :
    Moves now ⟨1, current.generation, [current]⟩
      ⟨1, current.generation, [current, nextRecord authority current now]⟩ where
  kept record hrecord := by
    rw [List.mem_singleton.mp hrecord]
    exact .inl ⟨current, List.mem_cons_self, rfl, .inl rfl⟩
  current record hfound := by
    cases (currentRecord_head current _).symm.trans hfound
    exact .inl ⟨current, currentRecord_head current [], rfl⟩
  pending record hrecord activate hactivate := by
    have hafter := lt_truncate (now - 5 * minute)
    have hskew : clockSkew = 5 * minute := rfl
    rcases List.mem_pair.mp hrecord with rfl | rfl
    · simp [hcurrent.activateAt] at hactivate
    · refine .inr ?_
      cases hactivate
      simp only [newRecord]
      omega

theorem markPublished_moves (hcurrent : Serving current) (hwaiting : Waiting now current pending) :
    Fresh now (markPublished ⟨1, current.generation, [current, pending]⟩ pending now) ∧
      Moves now ⟨1, current.generation, [current, pending]⟩
        (markPublished ⟨1, current.generation, [current, pending]⟩ pending now) := by
  have hstarted := hwaiting.started
  rw [markPublished_pair hwaiting.generation]
  have hactivate : pending.certificate.notBefore + activationLag ≤ now + activationLag := by omega
  refine ⟨.rollover hcurrent { hwaiting with activateAt := ⟨_, rfl, hactivate⟩ }, ?_, ?_, ?_⟩
  · simp only [List.forall_mem_cons]
    exact ⟨.inl ⟨current, List.mem_cons_self, rfl, .inl rfl⟩,
      .inl ⟨_, List.mem_cons_of_mem _ List.mem_cons_self, rfl, .inl rfl⟩, by simp⟩
  · intro record hfound
    cases (currentRecord_head current _).symm.trans hfound
    exact .inl ⟨current, currentRecord_head current _, rfl⟩
  · intro record hrecord activate hactivate
    have hsecond : 0 < second := by decide
    rcases List.mem_pair.mp hrecord with rfl | rfl
    · simp [hcurrent.activateAt] at hactivate
    · cases hactivate
      exact .inr (by omega)

theorem promoteState_moves (hcurrent : Serving current) (hwaiting : Waiting now current pending)
    (hactive : pending.activateAt.getD 0 ≤ now) (hvalid : now < current.certificate.notAfter) :
    Fresh now (promoteState ⟨1, current.generation, [current, pending]⟩ pending now) ∧
      Moves now ⟨1, current.generation, [current, pending]⟩
        (promoteState ⟨1, current.generation, [current, pending]⟩ pending now) := by
  have hreplaced := hwaiting.replaced hcurrent hactive hvalid
  have hserving : Serving { pending with publishedAt := none, activateAt := none } :=
    ⟨rfl, hwaiting.retiredAt, hwaiting.yearly⟩
  obtain ⟨activate, hactivate, _⟩ := hwaiting.activateAt
  rw [hactivate, Option.getD_some] at hactive
  rw [promoteState_pair hwaiting.generation]
  refine ⟨.overlap hserving hreplaced, ?_, ?_, ?_⟩
  · simp only [List.forall_mem_cons]
    exact ⟨.inl ⟨_, List.mem_cons_self, rfl, .inr rfl⟩,
      .inl ⟨_, List.mem_cons_of_mem _ List.mem_cons_self, rfl, .inl rfl⟩, by simp⟩
  · intro record hfound
    cases hreplaced.currentRecord.symm.trans hfound
    exact .inr ⟨pending, List.mem_cons_of_mem _ List.mem_cons_self, rfl, activate, hactivate, hactive⟩
  · intro record hrecord later hlater
    rcases List.mem_pair.mp hrecord with rfl | rfl
    · simp [hcurrent.activateAt] at hlater
    · simp at hlater

/-- A replaced generation is pruned before its successor is due for a successor. -/
theorem Replaced.not_renewalDue {retired : Record} (hreplaced : Replaced retired current)
    (hkept : prunable current.generation now retired = false) : renewalDue current now = false := by
  obtain ⟨time, htime, _, hroom⟩ := hreplaced.retiredAt
  simp only [prunable, ne_eq, hreplaced.generation.ne, not_false_eq_true, decide_true, htime,
    Option.any_some, Bool.true_and, Bool.not_eq_false', decide_eq_true_eq] at hkept
  simp only [renewalDue, Bool.not_eq_false', decide_eq_true_eq]
  omega

/-- What an attempt writes over a fresh state whose current generation has not expired. -/
theorem Fresh.rotate {attempt : Attempt} {stored next : CaState} (hfresh : Fresh clock stored)
    (hclock : clock ≤ attempt.now)
    (hunexpired : ∀ current, currentRecord stored = some current →
      attempt.now < current.certificate.notAfter)
    (hrotate : rotateState authority attempt stored = .ok (some next)) :
    Fresh attempt.now next ∧ Moves attempt.now stored next := by
  have hpruned := (hfresh.mono hclock).prune (placed_fresh attempt.now) attempt.now
  have hmoves := pruneState_moves stored attempt.now
  have hkept : ∀ record ∈ (pruneState stored attempt.now).certs,
      prunable (pruneState stored attempt.now).current attempt.now record = false :=
    fun record hrecord ↦ Bool.not_eq_true' _ ▸ (List.mem_filter.mp hrecord).2
  obtain ⟨current, hfound, hrotated⟩ := rotateState_eq_ok hrotate
  have hvalid := hunexpired current (currentRecord_pruneState stored attempt.now ▸ hfound)
  suffices hnext : Fresh attempt.now next ∧ Moves attempt.now (pruneState stored attempt.now) next from
    ⟨hnext.1, hmoves.trans hnext.2⟩
  generalize pruneState stored attempt.now = state at hpruned hfound hrotated hkept ⊢
  obtain ⟨hcurrent, certs, rfl, hplaces⟩ := hpruned.found (placed_fresh attempt.now) hfound
  cases hrotated with
  | kept => exact ⟨hpruned, .refl _ _⟩
  | replaced hexpired _ => exact absurd hexpired hvalid.not_ge
  | recovered hexpired _ _ => exact absurd hexpired hvalid.not_ge
  | appended _ hnone hdue =>
    rcases hplaces with ⟨_, rfl | ⟨retired, hreplaced, rfl⟩⟩ | ⟨pending, hpending, _⟩
    · exact ⟨.rollover hcurrent (nextRecord_waiting hdue), nextRecord_moves hcurrent⟩
    · rw [hreplaced.not_renewalDue (hkept retired List.mem_cons_self)] at hdue
      exact absurd hdue Bool.false_ne_true
    · exact nomatch hnone.symm.trans hpending
  | marked _ hpending _ =>
    rcases hplaces with ⟨hnone, _⟩ | ⟨waiting, hwaiting, hplace, rfl⟩
    · exact nomatch hnone.symm.trans hpending
    · cases hwaiting.symm.trans hpending
      exact markPublished_moves hcurrent hplace
  | promoted hpending _ hdue =>
    rcases hplaces with ⟨hnone, _⟩ | ⟨waiting, hwaiting, hplace, rfl⟩
    · exact nomatch hnone.symm.trans hpending
    · cases hwaiting.symm.trans hpending
      obtain ⟨_, hactive, _⟩ := hdue.resolve_left fun hexpired ↦ hvalid.not_ge hexpired.1
      exact promoteState_moves hcurrent hplace hactive hvalid

end Steps

/-! ## Agents -/

/-- The store, what each agent has installed and when, and every leaf issued so far. -/
structure World extends Store where
  agents : Nat → Option (Int × Synced)
  leaves : List Leaf

inductive Call
  | ensure (attempt : Attempt)
  | sync (agent : Nat) (now : Int)
  | issue (agent : Nat) (now : Int)

def Call.now : Call → Int
  | .ensure attempt => attempt.now
  | .sync _ now => now
  | .issue _ now => now

/-- One call of an agent; a failed `Sync` or `Issue` changes nothing. -/
def World.call (world : World) (authority : Authority) : Call → World
  | .ensure attempt => { world with toStore := world.toStore.attempt authority attempt }
  | .sync agent now =>
    match sync authority world.stored ((world.agents agent).map Prod.snd) now with
    | .ok held => { world with
        clock := now
        agents := Function.update world.agents agent (some (now, held)) }
    | .error _ => { world with clock := now }
  | .issue agent now =>
    match issue ((world.agents agent).map Prod.snd) now with
    | .ok leaf => { world with clock := now, leaves := leaf :: world.leaves }
    | .error _ => { world with clock := now }

/-- Calls of any agents at nondecreasing times, from an absent state. -/
def agentSystem (authority : Authority) : System World Call where
  init world := world.stored = none ∧ (∀ agent, world.agents agent = none) ∧ world.leaves = []
  step world call next := world.clock ≤ call.now ∧ next = world.call authority call

/-- An attempt of `Ensure` does not find the current generation expired. -/
def unexpired (world : World) : Call → Prop
  | .ensure attempt => ∀ stored current, world.stored = some stored →
      currentRecord stored = some current → attempt.now < current.certificate.notAfter
  | _ => True

/-- The identities in the durable state. -/
def World.trusted (world : World) : List (Nat × Certificate) :=
  (world.stored.map CaState.identities).getD []

/-- A generation is in the durable state until it has expired. -/
def World.Retains (world : World) (record : Record) : Prop :=
  record.identity ∈ world.trusted ∨ record.certificate.notAfter < world.clock

/-- An installed state has a generation, unless that one has expired or the state is old. -/
def World.Trusts (world : World) (time : Int) (held : Synced) (record : Record) : Prop :=
  record.identity ∈ held.state.identities ∨ record.certificate.notAfter < world.clock ∨
    time + (activationLag - second) < world.clock

/-- What an installed state knows of the durable one. -/
structure Known (world : World) (time : Int) (held : Synced) : Prop where
  past : time ≤ world.clock
  yearly : Yearly held.ca.certificate
  retained : world.Retains held.ca
  current : ∀ stored record, world.stored = some stored → currentRecord stored = some record →
    world.Trusts time held record
  pending : ∀ stored, world.stored = some stored → ∀ record ∈ stored.certs, ∀ activate,
    record.activateAt = some activate →
      record.identity ∈ held.state.identities ∨ time + (activationLag - second) < activate

structure Overlapping (world : World) : Prop where
  fresh : ∀ stored, world.stored = some stored → Fresh world.clock stored
  absent : world.stored = none → ∀ agent, world.agents agent = none
  known : ∀ agent time held, world.agents agent = some (time, held) → Known world time held
  pairs : ∀ issuer issued source verifier time held, world.agents issuer = some (issued, source) →
    world.agents verifier = some (time, held) → world.Trusts time held source.ca
  leaves : ∀ leaf ∈ world.leaves, world.Retains leaf.issuer

section Runs

variable {authority : Authority} {world : World}

theorem World.Trusts.mono (htrusts : world.Trusts time held record) (hclock : world.clock ≤ next.clock) :
    next.Trusts time held record := by
  rcases htrusts with hmem | hexpired | hold
  · exact .inl hmem
  · exact .inr (.inl (hexpired.trans_le hclock))
  · exact .inr (.inr (hold.trans_le hclock))

variable {state : CaState}

theorem mem_identities {identity : Nat × Certificate} :
    identity ∈ state.identities ↔ ∃ record ∈ state.certs, record.identity = identity :=
  List.mem_map

theorem World.trusted_of_stored {stored : CaState} (hstored : world.stored = some stored) :
    world.trusted = stored.identities := by
  rw [World.trusted, hstored]
  rfl

/-- Time passes and nothing else changes in the store; what is installed and issued may be extended. -/
theorem Known.later (hknown : Known world time held) (hstored : next.stored = world.stored)
    (hclock : world.clock ≤ next.clock) :
    Known next time held where
  past := hknown.past.trans hclock
  yearly := hknown.yearly
  retained := by
    refine hknown.retained.imp ?_ fun hexpired ↦ hexpired.trans_le hclock
    rw [World.trusted, World.trusted, hstored]
    exact id
  current stored record hsome hrecord :=
    (hknown.current stored record (hstored ▸ hsome) hrecord).mono hclock
  pending stored hsome := hknown.pending stored (hstored ▸ hsome)

/-- Time passes for the store and the agents. -/
theorem Overlapping.later (hover : Overlapping world) (hstored : next.stored = world.stored)
    (hclock : world.clock ≤ next.clock) (hagents : next.agents = world.agents)
    (hleaves : ∀ leaf ∈ next.leaves, world.Retains leaf.issuer) : Overlapping next where
  fresh stored hsome := (hover.fresh stored (hstored ▸ hsome)).mono hclock
  absent hnone := hagents ▸ hover.absent (hstored ▸ hnone)
  known agent time held hheld := (hover.known agent time held (hagents ▸ hheld)).later hstored hclock
  pairs issuer issued source verifier time held hsource hheld :=
    (hover.pairs issuer issued source verifier time held (hagents ▸ hsource) (hagents ▸ hheld)).mono hclock
  leaves leaf hleaf := by
    refine (hleaves leaf hleaf).imp ?_ fun hexpired ↦ hexpired.trans_le hclock
    rw [World.trusted, World.trusted, hstored]
    exact id

theorem Fresh.retired_expires {clock : Int} (hfresh : Fresh clock state) (hrecord : record ∈ state.certs)
    (htime : record.retiredAt = some time) :
    record.certificate.notAfter < time + (retention + clockSkew) := by
  have hserving : ∀ {current}, Serving current → record = current → False := by
    rintro current hcurrent rfl
    exact nomatch hcurrent.retiredAt.symm.trans htime
  cases hfresh with
  | sole hcurrent => exact (hserving hcurrent (List.mem_singleton.mp hrecord)).elim
  | overlap hcurrent hreplaced =>
    rcases List.mem_pair.mp hrecord with rfl | hsame
    · obtain ⟨retired, hretired, hexpires, _⟩ := hreplaced.retiredAt
      cases hretired.symm.trans htime
      exact hexpires
    · exact (hserving hcurrent hsame).elim
  | rollover hcurrent hwaiting =>
    rcases List.mem_pair.mp hrecord with hsame | rfl
    · exact (hserving hcurrent hsame).elim
    · exact nomatch hwaiting.retiredAt.symm.trans htime

/-- A rewritten state still has every generation that has not expired. -/
theorem World.Retains.rotate (hretains : world.Retains record) (hbefore : world.stored = some before)
    (hafter : next.stored = some after) (hfresh : Fresh world.clock before) (hclock : world.clock ≤ next.clock)
    (hmoves : Moves next.clock before after) :
    next.Retains record := by
  rcases hretains with hmem | hexpired
  · rw [World.trusted_of_stored hbefore, mem_identities] at hmem
    obtain ⟨old, hold, hsame⟩ := hmem
    rcases hmoves.kept old hold with ⟨later, hlater, hkept, _⟩ | ⟨time, htime, hpast⟩
    · refine .inl ?_
      rw [World.trusted_of_stored hafter, mem_identities]
      exact ⟨later, hlater, hkept.trans hsame⟩
    · have hexpires := hfresh.retired_expires hold htime
      have hcertificate : old.certificate = record.certificate := (Prod.mk.inj hsame).2
      rw [hcertificate] at hexpires
      exact .inr (hexpires.trans_le hpast)
  · exact .inr (hexpired.trans_le hclock)

theorem Known.rotate (hknown : Known world time held) (hbefore : world.stored = some before)
    (hafter : next.stored = some after) (hfresh : Fresh world.clock before) (hclock : world.clock ≤ next.clock)
    (hmoves : Moves next.clock before after) :
    Known next time held where
  past := hknown.past.trans hclock
  yearly := hknown.yearly
  retained := hknown.retained.rotate hbefore hafter hfresh hclock hmoves
  current stored record hsome hrecord := by
    cases hafter.symm.trans hsome
    rcases hmoves.current record hrecord with ⟨old, hold, hsame⟩ | ⟨old, hold, hsame, activate, ha, hle⟩
    · have htrusts := (hknown.current before old hbefore hold).mono hclock
      have hcertificate : old.certificate = record.certificate := (Prod.mk.inj hsame).2
      rwa [World.Trusts, hsame, hcertificate] at htrusts
    · -- the successor waited, so a recent state has it
      rcases hknown.pending before hbefore old hold activate ha with hmem | hlong
      · exact .inl (hsame ▸ hmem)
      · exact .inr (.inr (hlong.trans_le hle))
  pending stored hsome record hrecord activate hactivate := by
    cases hafter.symm.trans hsome
    have hpast := hknown.past
    rcases hmoves.pending record hrecord activate hactivate with ⟨old, hold, hsame, ha⟩ | hlong
    · exact hsame ▸ hknown.pending before hbefore old hold activate ha
    · exact .inr (by omega)

/-- The durable state is written over what is known and retained. -/
theorem Overlapping.write (hover : Overlapping world) (hafter : next.stored = some after)
    (hclock : world.clock ≤ next.clock) (hagents : next.agents = world.agents)
    (hfresh : Fresh next.clock after)
    (hknown : ∀ agent time held, world.agents agent = some (time, held) → Known next time held)
    (hleaves : ∀ leaf ∈ next.leaves, next.Retains leaf.issuer) : Overlapping next where
  fresh stored hsome := by
    cases hafter.symm.trans hsome
    exact hfresh
  absent hnone := nomatch hafter.symm.trans hnone
  known agent time held hheld := hknown agent time held (hagents ▸ hheld)
  pairs issuer issued source verifier time held hsource hheld :=
    (hover.pairs issuer issued source verifier time held (hagents ▸ hsource) (hagents ▸ hheld)).mono hclock
  leaves := hleaves

theorem Overlapping.ensure (hover : Overlapping world) {attempt : Attempt}
    (hclock : world.clock ≤ attempt.now) (hunexpired : unexpired world (.ensure attempt)) :
    Overlapping (world.call authority (.ensure attempt)) := by
  have hpassed : Overlapping { world with clock := attempt.now } :=
    hover.later rfl hclock rfl hover.leaves
  simp only [World.call, Store.attempt]
  split
  · next after hensure =>
    split
    · unfold Workload.ensure at hensure
      obtain ⟨_, _, hread⟩ := bind_eq_ok.mp hensure
      cases hstored : world.stored with
      | none =>
        rw [hstored] at hread
        obtain ⟨_, _, hcreated⟩ := bind_eq_ok.mp hread
        cases hcreated
        -- nothing was installed or issued before
        refine hover.write rfl hclock rfl
          (.sole (Serving.mk rfl rfl (newRecord_yearly authority 1 attempt.now)))
          (fun agent time held hheld ↦ nomatch (hover.absent hstored agent).symm.trans hheld)
          fun leaf hleaf ↦ (hover.leaves leaf hleaf).imp ?_ fun hexpired ↦ hexpired.trans_le hclock
        rw [World.trusted, hstored]
        exact fun hmem ↦ nomatch hmem
      | some before =>
        rw [hstored] at hread
        have hbefore := hover.fresh before hstored
        obtain ⟨hfresh, hmoves⟩ := hbefore.rotate hclock (fun current ↦ hunexpired before current hstored) hread
        exact hover.write rfl hclock rfl hfresh
          (fun agent time held hheld ↦
            (hover.known agent time held hheld).rotate hstored rfl hbefore hclock hmoves)
          fun leaf hleaf ↦ (hover.leaves leaf hleaf).rotate hstored rfl hbefore hclock hmoves
    · exact hpassed
  · exact hpassed

variable {now : Int}

theorem sync_eq_ok {stored : Option CaState} {held : Option Synced} {synced : Synced}
    (hsync : sync authority stored held now = .ok synced) :
    stored = some synced.state ∧ currentRecord synced.state = some synced.ca := by
  cases stored with
  | none => exact nomatch hsync
  | some state =>
    obtain ⟨_, _, hvalidated⟩ := bind_eq_ok.mp hsync
    dsimp only at hvalidated
    split at hvalidated
    · exact nomatch hvalidated
    · next hcurrent =>
      cases hvalidated
      exact ⟨rfl, hcurrent⟩

theorem issue_eq_ok {held : Option Synced} {leaf : Leaf} (hissue : issue held now = .ok leaf) :
    ∃ synced, held = some synced ∧ synced.ca.certificate.notBefore ≤ now ∧
      now < synced.ca.certificate.notAfter ∧
      leaf = ⟨synced.ca, truncate (now - 5 * minute),
        truncate (min synced.ca.certificate.notAfter (now + 24 * hour))⟩ := by
  cases held with
  | none => exact nomatch hissue
  | some synced =>
    have hmin : (if synced.ca.certificate.notAfter < now + 24 * hour then synced.ca.certificate.notAfter
        else now + 24 * hour) = min synced.ca.certificate.notAfter (now + 24 * hour) := by
      split
      · omega
      · omega
    simp only [issue, hmin] at hissue
    split at hissue
    · exact nomatch hissue
    next hvalid =>
    split at hissue
    · exact nomatch hissue
    simp only [not_or, not_lt, not_le] at hvalid
    exact ⟨synced, rfl, hvalid.1, hvalid.2, (Except.ok.inj hissue).symm⟩

/-- What is installed now knows everything in the durable state. -/
theorem Known.synced (hstored : world.stored = some held.state)
    (hcurrent : currentRecord held.state = some held.ca) (hfresh : Fresh world.clock held.state)
    (htime : time = world.clock) : Known world time held where
  past := htime.le
  yearly := (hfresh.found (placed_fresh world.clock) hcurrent).1.yearly
  retained := by
    refine .inl ?_
    rw [World.trusted_of_stored hstored, mem_identities]
    exact ⟨held.ca, List.mem_of_find?_eq_some hcurrent, rfl⟩
  current stored record hsome hrecord := by
    cases hstored.symm.trans hsome
    exact .inl (mem_identities.mpr ⟨record, List.mem_of_find?_eq_some hrecord, rfl⟩)
  pending stored hsome record hrecord _ _ := by
    cases hstored.symm.trans hsome
    exact .inl (mem_identities.mpr ⟨record, hrecord, rfl⟩)

theorem installed_or_before {agent other : Nat} {installed : Int × Synced} {found : Int × Synced}
    (hfound : Function.update world.agents agent (some installed) other = some found) :
    found = installed ∨ world.agents other = some found := by
  rw [Function.update_apply] at hfound
  split at hfound
  · exact .inl (Option.some.inj hfound).symm
  · exact .inr hfound

/-- An agent installs the durable state. -/
theorem Overlapping.install (hover : Overlapping world) {agent : Nat} (hstored : world.stored = some held.state)
    (hcurrent : currentRecord held.state = some held.ca) :
    Overlapping { world with
      agents := Function.update world.agents agent (some (world.clock, held)) } where
  fresh := hover.fresh
  absent hnone := nomatch hstored.symm.trans hnone
  known other time synced hsynced := by
    rcases installed_or_before hsynced with hsame | hbefore
    · cases hsame
      exact Known.synced hstored hcurrent (hover.fresh _ hstored) rfl
    · exact (hover.known other time synced hbefore).later rfl (le_refl _)
  pairs issuer issued source verifier time synced hsource hsynced := by
    rcases installed_or_before hsource with hissuer | hissuer
    · cases hissuer
      rcases installed_or_before hsynced with hverifier | hverifier
      · cases hverifier
        exact .inl (mem_identities.mpr ⟨_, List.mem_of_find?_eq_some hcurrent, rfl⟩)
      · exact (hover.known verifier time synced hverifier).current _ _ hstored hcurrent
    · rcases installed_or_before hsynced with hverifier | hverifier
      · cases hverifier
        have hretained := (hover.known issuer issued source hissuer).retained
        rw [World.Retains, World.trusted_of_stored hstored] at hretained
        exact hretained.imp id .inl
      · exact hover.pairs issuer issued source verifier time synced hissuer hverifier
  leaves := hover.leaves

theorem Overlapping.call (hover : Overlapping world) {call : Call} (hclock : world.clock ≤ call.now)
    (hunexpired : unexpired world call) : Overlapping (world.call authority call) := by
  have hpassed : Overlapping { world with clock := call.now } := hover.later rfl hclock rfl hover.leaves
  cases call with
  | ensure attempt => exact hover.ensure hclock hunexpired
  | sync agent now =>
    simp only [World.call]
    split
    · next held hsync =>
      obtain ⟨hstored, hcurrent⟩ := sync_eq_ok hsync
      exact hpassed.install hstored hcurrent
    · exact hpassed
  | issue agent now =>
    simp only [World.call]
    split
    · next leaf hissue =>
      obtain ⟨synced, hheld, _, _, hleaf⟩ := issue_eq_ok hissue
      obtain ⟨⟨time, held⟩, hagent, hsynced⟩ := Option.map_eq_some_iff.mp hheld
      refine hover.later rfl hclock rfl fun other hother ↦ ?_
      rcases List.mem_cons.mp hother with rfl | hold
      · rw [hleaf, ← hsynced]
        exact (hover.known agent time held hagent).retained
      · exact hover.leaves other hold
    · exact hpassed

theorem overlapping_of_reachable (hreach : Reachable ((agentSystem authority).guarded unexpired) world) :
    Overlapping world := by
  refine @Reachable.invariant _ _ _ Overlapping ?_ ?_ _ hreach
  · rintro world ⟨hstored, hagents, hleaves⟩
    exact ⟨by simp [hstored], fun _ ↦ hagents, by simp [hagents], by simp [hagents], by simp [hleaves]⟩
  · rintro world call next _ hover ⟨hunexpired, hclock, rfl⟩
    exact hover.call hclock hunexpired

/-- A leaf issued from a certificate that ends with a second is valid when it is issued. -/
theorem issued_valid {ca : Certificate} (hyearly : Yearly ca) (hvalid : now < ca.notAfter) :
    truncate (now - 5 * minute) ≤ now ∧ now ≤ truncate (min ca.notAfter (now + 24 * hour)) := by
  have hwhole := hyearly.whole
  have hbefore := truncate_le (now - 5 * minute)
  have hminute : 0 < minute := by decide
  refine ⟨by omega, ?_⟩
  rcases min_choice ca.notAfter (now + 24 * hour) with hmin | hmin
  · rw [hmin, hwhole]
    exact hvalid.le
  · have hafter := lt_truncate (now + 24 * hour)
    have hhour : second ≤ 24 * hour := by decide
    rw [hmin]
    omega

/-- No leaf outlives its issuer. -/
theorem leaf_capped (hreach : Reachable (agentSystem authority) world) :
    ∀ leaf ∈ world.leaves, leaf.notAfter ≤ leaf.issuer.certificate.notAfter := by
  refine @Reachable.invariant _ _ _
    (fun world ↦ ∀ leaf ∈ world.leaves, leaf.notAfter ≤ leaf.issuer.certificate.notAfter) ?_ ?_ _ hreach
  · rintro world ⟨_, _, hleaves⟩
    simp [hleaves]
  · rintro world call next _ hcapped ⟨_, rfl⟩
    cases call with
    | ensure attempt => exact hcapped
    | sync agent now =>
      simp only [World.call]
      split
      · exact hcapped
      · exact hcapped
    | issue agent now =>
      simp only [World.call]
      split
      · next leaf hissue =>
        obtain ⟨synced, _, _, _, rfl⟩ := issue_eq_ok hissue
        refine List.forall_mem_cons.mpr ⟨?_, hcapped⟩
        exact (truncate_le _).trans (min_le_left _ _)
      · exact hcapped

/-- In every run in which no `Ensure` finds the current generation expired, what an agent issues
verifies at once on every agent that has installed a state lately, and its issuer stays in the durable
state until the leaf has expired. The issuing agent's own state may be of any age. -/
theorem rotation_overlaps (hreach : Reachable ((agentSystem authority).guarded unexpired) world) :
    (∀ (issuer verifier : Nat) (now : Int) (leaf : Leaf) (time : Int) (held : Synced),
      world.clock ≤ now → issue ((world.agents issuer).map Prod.snd) now = .ok leaf →
      world.agents verifier = some (time, held) → now - time < activationLag - second →
        leaf.Verifies held.state now) ∧
    ∀ leaf ∈ world.leaves, world.clock ≤ leaf.notAfter →
      ∃ stored, world.stored = some stored ∧ leaf.issuer.identity ∈ stored.identities := by
  have hover := overlapping_of_reachable hreach
  constructor
  · intro issuer verifier now leaf time held hclock hissue hheld hrecent
    obtain ⟨synced, hsome, hbefore, hafter, rfl⟩ := issue_eq_ok hissue
    obtain ⟨⟨issued, source⟩, hsource, rfl⟩ := Option.map_eq_some_iff.mp hsome
    obtain ⟨hstarted, hlasting⟩ := issued_valid (hover.known issuer issued source hsource).yearly hafter
    refine ⟨?_, hstarted, hlasting, hbefore, hafter.le⟩
    rcases hover.pairs issuer issued source verifier time held hsource hheld with hmem | hexpired | hold
    · exact hmem
    · exact absurd (hexpired.trans_le hclock) hafter.not_gt
    · omega
  · intro leaf hleaf hlasting
    have hcapped := leaf_capped hreach.of_guarded leaf hleaf
    rcases hover.leaves leaf hleaf with hmem | hexpired
    · cases hstored : world.stored with
      | none => simp [World.trusted, hstored] at hmem
      | some stored => exact ⟨stored, rfl, World.trusted_of_stored hstored ▸ hmem⟩
    · omega

end Runs

/-- Midnight some days after the first of January 2026. -/
def startOf (days : Int) : Int :=
  (739616 + days) * day

/-- The first agent installs the first generation, which is then replaced; the second agent installs
the state while the successor waits. -/
def rolloverCalls : List Call :=
  [.ensure (plainAttempt 0), .sync 0 (startOf 0), .ensure (plainAttempt 335),
    .sync 1 (startOf 335 + 10 * minute), .issue 0 (startOf 335 + 10 * minute),
    .ensure ⟨startOf 335 + 15 * minute, .ok (), .ok (), none, true⟩, .sync 0 (startOf 335 + 16 * minute)]

def rolloverWorld : World :=
  rolloverCalls.foldl (fun world call ↦ world.call sampleAuthority call) ⟨⟨none, 0, []⟩, fun _ ↦ none, []⟩

theorem rolloverWorld_reachable :
    Reachable ((agentSystem sampleAuthority).guarded unexpired) rolloverWorld := by
  have hcall : ∀ {world : World}, Reachable ((agentSystem sampleAuthority).guarded unexpired) world →
      ∀ call : Call, unexpired world call → world.clock ≤ call.now →
        Reachable ((agentSystem sampleAuthority).guarded unexpired) (world.call sampleAuthority call) :=
    fun hreach _ hunexpired hclock ↦ hreach.step ⟨hunexpired, hclock, rfl⟩
  have hstart : Reachable ((agentSystem sampleAuthority).guarded unexpired)
      ⟨⟨none, 0, []⟩, fun _ ↦ none, []⟩ := .init ⟨rfl, fun _ ↦ rfl, rfl⟩
  have hcreated := hcall hstart (.ensure (plainAttempt 0))
    (fun stored current hstored ↦ by simp at hstored) (by decide)
  have hfirst := hcall hcreated (.sync 0 (startOf 0)) trivial (by decide)
  have hpending := hcall hfirst (.ensure (plainAttempt 335)) (fun stored current hstored hcurrent ↦ by
    cases hstored
    cases hcurrent
    decide) (by decide)
  have hsecond := hcall hpending (.sync 1 (startOf 335 + 10 * minute)) trivial (by decide)
  have hissued := hcall hsecond (.issue 0 (startOf 335 + 10 * minute)) trivial (by decide)
  have hpromoted := hcall hissued (.ensure ⟨startOf 335 + 15 * minute, .ok (), .ok (), none, true⟩)
    (fun stored current hstored hcurrent ↦ by
      cases hstored
      cases hcurrent
      decide) (by decide)
  exact hcall hpromoted (.sync 0 (startOf 335 + 16 * minute)) trivial (by decide)

/-- The first agent issues from the successor, which the second knew while it waited; the leaf issued
before the promotion keeps its issuer. -/
theorem rotation_overlaps_promoted : ∃ leaf time held old stored,
    issue ((rolloverWorld.agents 0).map Prod.snd) (startOf 335 + 17 * minute) = .ok leaf ∧
      leaf.issuer.generation = 2 ∧ rolloverWorld.agents 1 = some (time, held) ∧ held.ca.generation = 1 ∧
      leaf.Verifies held.state (startOf 335 + 17 * minute) ∧
      old ∈ rolloverWorld.leaves ∧ old.issuer.generation = 1 ∧ rolloverWorld.stored = some stored ∧
      stored.current = 2 ∧ old.issuer.identity ∈ stored.identities := by
  obtain ⟨hissued, hleaves⟩ := rotation_overlaps rolloverWorld_reachable
  obtain ⟨stored, hstored, hmem⟩ := hleaves _ List.mem_cons_self (by decide)
  refine ⟨_, _, _, _, stored, rfl, by decide, rfl, by decide,
    hissued 0 1 (startOf 335 + 17 * minute) _ _ _ (by decide) rfl rfl (by decide),
    List.mem_cons_self, by decide, hstored, ?_, hmem⟩
  cases hstored
  decide

end Podmin.Agent.Workload
