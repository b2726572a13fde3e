import Mathlib.Logic.Relation

/-!
# Labelled transition systems

A system is a set of initial states and a step relation labelled by events. An invariant is
proved once for the initial states and once for a step; the rules of this module turn that into a
statement about every reachable state. A system may be restricted to the steps that meet a
condition on the state before the step and its event, which is how a property that needs such a
condition is stated over whole runs.
-/

namespace Podmin.Foundation.Transition

/-- Initial states and event-labelled steps. -/
structure System (State Event : Type*) where
  init : State → Prop
  step : State → Event → State → Prop

variable {State Event : Type*}

/-- The states some finite run from an initial state ends in. -/
inductive Reachable (system : System State Event) : State → Prop
  | init {state : State} (hinit : system.init state) : Reachable system state
  | step {state next : State} {event : Event} (hreach : Reachable system state)
      (hstep : system.step state event next) : Reachable system next

/-- Keep only the steps whose state and event meet `allowed`. -/
def System.guarded (system : System State Event) (allowed : State → Event → Prop) :
    System State Event where
  init := system.init
  step state event next := allowed state event ∧ system.step state event next

/-- Go on from one state, through states that meet `alive`. -/
def System.resumed (system : System State Event) (start : State) (alive : State → Prop) :
    System State Event where
  init state := state = start
  step state event next := system.step state event next ∧ alive next

/-- The invariant rule; the step obligation may use that its source is reachable. -/
theorem Reachable.invariant {system : System State Event} {Inv : State → Prop}
    (hinit : ∀ state, system.init state → Inv state)
    (hstep : ∀ state event next, Reachable system state → Inv state →
      system.step state event next → Inv next)
    {state : State} (hreach : Reachable system state) : Inv state := by
  induction hreach with
  | init hstart => exact hinit _ hstart
  | step hbefore hmove ih => exact hstep _ _ _ hbefore ih hmove

theorem Reachable.guarded_step {system : System State Event} {allowed : State → Event → Prop}
    {state next : State} {event : Event} (hreach : Reachable (system.guarded allowed) state)
    (hmove : system.step state event next) (hallowed : allowed state event) :
    Reachable (system.guarded allowed) next :=
  .step hreach ⟨hallowed, hmove⟩

theorem Reachable.of_guarded {system : System State Event} {allowed : State → Event → Prop}
    {state : State} (hreach : Reachable (system.guarded allowed) state) :
    Reachable system state := by
  induction hreach with
  | init hstart => exact .init hstart
  | step _ hmove ih => exact .step ih hmove.2

/-! ## Histories -/

/-- A state together with all states before it. -/
structure Journal (State : Type*) where
  current : State
  past : List State := []

namespace Journal

def write (journal : Journal State) (change : State → State) : Journal State :=
  ⟨change journal.current, journal.current :: journal.past⟩

/-- What has held all the time. -/
def Always (Holds : State → Prop) (journal : Journal State) : Prop :=
  ∀ state ∈ journal.current :: journal.past, Holds state

variable {Holds : State → Prop} {journal : Journal State}

theorem Always.current (halways : journal.Always Holds) : Holds journal.current :=
  halways _ List.mem_cons_self

theorem Always.write (halways : journal.Always Holds) {change : State → State}
    (hafter : Holds (change journal.current)) : (journal.write change).Always Holds := by
  intro state hstate
  rcases List.mem_cons.mp hstate with rfl | hpast
  · exact hafter
  · exact halways state hpast

theorem Always.mono {Weaker : State → Prop} (halways : journal.Always Holds)
    (hweaker : ∀ state, Holds state → Weaker state) : journal.Always Weaker :=
  fun state hstate ↦ hweaker state (halways state hstate)

end Journal

end Podmin.Foundation.Transition
