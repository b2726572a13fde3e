import Mathlib.Data.List.Forall2

/-!
# Fallible computations

Inversion of `Except` computations: a sequence succeeds exactly when each part does, and a traversal
succeeds exactly when it succeeds on every element.
-/

namespace Podmin.Foundation.Fallible

universe u v

variable {Failure : Type v} {Item Result State : Type u}

@[simp]
theorem ok_bind (item : Item) (next : Item → Except Failure Result) :
    (Except.ok item >>= next) = next item := rfl

@[simp]
theorem error_bind (failure : Failure) (next : Item → Except Failure Result) :
    (Except.error failure >>= next) = .error failure := rfl

theorem map_eq_ok {first : Except Failure Item} {next : Item → Result} {result : Result} :
    first.map next = .ok result ↔ ∃ item, first = .ok item ∧ result = next item := by
  cases first <;> simp [Except.map, eq_comm]

theorem bind_eq_ok {first : Except Failure Item} {next : Item → Except Failure Result}
    {result : Result} :
    (first >>= next) = .ok result ↔ ∃ item, first = .ok item ∧ next item = .ok result := by
  cases first with
  | error failure => simp
  | ok item => simp

variable {items : List Item} {results : List Result}

theorem mapM_eq_ok {change : Item → Except Failure Result} :
    items.mapM change = .ok results ↔
      List.Forall₂ (fun item result ↦ change item = .ok result) items results := by
  induction items generalizing results with
  | nil => cases results <;> simp [pure, Except.pure]
  | cons item items ih =>
    rw [List.mapM_cons, bind_eq_ok]
    constructor
    · intro hsome
      obtain ⟨first, hfirst, hrest⟩ := hsome
      obtain ⟨rest, htail, hresult⟩ := bind_eq_ok.mp hrest
      cases hresult
      exact .cons hfirst (ih.mp htail)
    · intro hall
      cases hall with
      | cons hfirst hrest => exact ⟨_, hfirst, bind_eq_ok.mpr ⟨_, ih.mpr hrest, rfl⟩⟩

/-- A loop that remembers the keys it has seen accepts exactly the items that pass and have new keys. -/
theorem distinct_eq_ok {Key : Type*} {key : Item → Key} {valid : Item → Prop}
    {check : List Key → List Item → Except Failure Unit} (hnil : ∀ seen, check seen [] = .ok ())
    (hcons : ∀ seen item items, check seen (item :: items) = .ok () ↔
      (valid item ∧ key item ∉ seen) ∧ check (key item :: seen) items = .ok ()) {seen : List Key} :
    check seen items = .ok () ↔
      (∀ item ∈ items, valid item) ∧ (items.map key).Nodup ∧ ∀ item ∈ items, key item ∉ seen := by
  induction items generalizing seen with
  | nil => simp [hnil]
  | cons item items ih =>
    rw [hcons, ih]
    simp only [List.map_cons, List.nodup_cons, List.mem_map, List.mem_cons, not_or]
    grind

variable {Rel : Item → Result → Prop}

theorem forall₂_mem_left (hall : List.Forall₂ Rel items results) {item : Item} (hmem : item ∈ items) :
    ∃ result ∈ results, Rel item result := by
  induction hall with
  | nil => simp at hmem
  | cons hfirst _ ih =>
    rcases List.mem_cons.mp hmem with rfl | hrest
    · exact ⟨_, List.mem_cons_self, hfirst⟩
    · obtain ⟨result, hresult, hrel⟩ := ih hrest
      exact ⟨result, List.mem_cons_of_mem _ hresult, hrel⟩

theorem forall₂_mem_right (hall : List.Forall₂ Rel items results) {result : Result} (hmem : result ∈ results) :
    ∃ item ∈ items, Rel item result :=
  forall₂_mem_left hall.flip hmem

theorem forall₂_comp {Source Middle Target : Type*} {Before : Source → Middle → Prop}
    {After : Middle → Target → Prop} {Whole : Source → Target → Prop} {first : List Source}
    {second : List Middle} {third : List Target} (hfirst : List.Forall₂ Before first second)
    (hsecond : List.Forall₂ After second third)
    (hcomp : ∀ source middle target, Before source middle → After middle target → Whole source target) :
    List.Forall₂ Whole first third := by
  induction hfirst generalizing third with
  | nil =>
    cases hsecond
    exact .nil
  | cons hhead _ ih =>
    cases hsecond with
    | cons hnext hrest => exact .cons (hcomp _ _ _ hhead hnext) (ih hrest)

/-- A traversal that leaves every element alone. -/
theorem mapM_eq_self {change : Item → Except Failure Item} (hsame : ∀ item ∈ items, change item = .ok item) :
    items.mapM change = .ok items :=
  mapM_eq_ok.mpr (List.forall₂_same.mpr hsame)

/-- A fallible loop that succeeds: what each round establishes from what the ones before it did holds
at the end. -/
theorem foldlM_success {step : State → Item → Except Failure State}
    {Done : List Item → State → Prop}
    (hstep : ∀ done item state next, Done done state → step state item = .ok next →
      Done (done ++ [item]) next)
    {items done : List Item} {state final : State} (hdone : Done done state)
    (hfold : items.foldlM step state = .ok final) : Done (done ++ items) final := by
  induction items generalizing done state with
  | nil =>
    cases hfold
    simpa using hdone
  | cons item items ih =>
    obtain ⟨next, hnext, hrest⟩ := bind_eq_ok.mp hfold
    have hfinal := ih (hstep done item state next hdone hnext) hrest
    rwa [List.append_assoc, List.singleton_append] at hfinal

/-- A fallible loop none of whose rounds fails where an invariant holds. -/
theorem foldlM_keeps {step : State → Item → Except Failure State} {Inv : State → Prop}
    {items : List Item}
    (hstep : ∀ item ∈ items, ∀ state, Inv state → ∃ next, step state item = .ok next ∧ Inv next)
    {state : State} (hstate : Inv state) : ∃ final, items.foldlM step state = .ok final ∧ Inv final := by
  induction items generalizing state with
  | nil => exact ⟨state, rfl, hstate⟩
  | cons item items ih =>
    obtain ⟨next, hnext, hkept⟩ := hstep item List.mem_cons_self state hstate
    obtain ⟨final, hfinal, hinv⟩ :=
      ih (fun other hother ↦ hstep other (List.mem_cons_of_mem item hother)) hkept
    exact ⟨final, bind_eq_ok.mpr ⟨next, hnext, hfinal⟩, hinv⟩

/-- A fallible loop none of whose rounds fails. -/
theorem foldlM_total {step : State → Item → Except Failure State} {items : List Item}
    (hstep : ∀ item ∈ items, ∀ state, ∃ next, step state item = .ok next) (state : State) :
    ∃ final, items.foldlM step state = .ok final := by
  obtain ⟨final, hfinal, _⟩ := @foldlM_keeps _ _ _ step (fun _ ↦ True) items
    (fun item hitem state _ ↦ (hstep item hitem state).imp fun _ hnext ↦ ⟨hnext, trivial⟩) state trivial
  exact ⟨final, hfinal⟩

/-! ## Loops with effects -/

/-- Run a step for every item until one fails; what was done before the failure stays. -/
def runAll (step : Item → State → State × Option Failure) : List Item → State → State × Option Failure
  | [], state => (state, none)
  | item :: items, state =>
    match step item state with
    | (next, some failure) => (next, some failure)
    | (next, none) => runAll step items next

/-- Run a second computation if the first one did not fail. -/
def andThen (first : State × Option Failure) (next : State → State × Option Failure) :
    State × Option Failure :=
  match first with
  | (state, some failure) => (state, some failure)
  | (state, none) => next state

/-- What every step keeps, failing or not, a loop keeps. -/
theorem runAll_invariant {step : Item → State → State × Option Failure} {Inv : State → Prop}
    {items : List Item} (hstep : ∀ item ∈ items, ∀ state, Inv state → Inv (step item state).1)
    {state : State} (hinv : Inv state) : Inv (runAll step items state).1 := by
  induction items generalizing state with
  | nil => exact hinv
  | cons item items ih =>
    have hfirst := hstep item List.mem_cons_self state hinv
    have hrest := fun other hother ↦ hstep other (List.mem_cons_of_mem item hother)
    unfold runAll
    cases hcase : step item state with
    | mk next failure =>
      rw [hcase] at hfirst
      cases failure with
      | some message => exact hfirst
      | none => exact ih hrest hfirst

theorem andThen_invariant {Inv : State → Prop} {first : State × Option Failure}
    {next : State → State × Option Failure} (hfirst : Inv first.1)
    (hnext : ∀ state, Inv state → Inv (next state).1) : Inv (andThen first next).1 := by
  cases first with
  | mk state failure =>
    cases failure with
    | some message => exact hfirst
    | none => exact hnext state hfirst

/-- A loop relates its ends as its steps do. -/
theorem runAll_related {step : Item → State → State × Option Failure} {Rel : State → State → Prop}
    (hrefl : ∀ state, Rel state state)
    (htrans : ∀ first second third, Rel first second → Rel second third → Rel first third)
    {items : List Item} (hstep : ∀ item ∈ items, ∀ state, Rel state (step item state).1) (state : State) :
    Rel state (runAll step items state).1 :=
  @runAll_invariant _ _ _ step (Rel state) items
    (fun item hitem between hbetween ↦ htrans _ _ _ hbetween (hstep item hitem between)) state (hrefl state)

variable {first : State × Option Failure} {next : State → State × Option Failure}

theorem andThen_related {Rel : State → State → Prop}
    (htrans : ∀ first second third, Rel first second → Rel second third → Rel first third) {state : State}
    (hfirst : Rel state first.1) (hnext : ∀ between, Rel between (next between).1) :
    Rel state (andThen first next).1 :=
  @andThen_invariant _ _ (Rel state) first next hfirst
    fun between hbetween ↦ htrans _ _ _ hbetween (hnext between)

variable {step : Item → State → State × Option Failure}

/-- What no step of a loop changes, the loop does not change. -/
theorem runAll_same {View : Type*} (view : State → View)
    (hstep : ∀ item ∈ items, ∀ state, view (step item state).1 = view state) (state : State) :
    view (runAll step items state).1 = view state :=
  @runAll_related _ _ _ step (fun before after ↦ view after = view before) (fun _ ↦ rfl)
    (fun _ _ _ hfirst hsecond ↦ hsecond.trans hfirst) items hstep state

theorem andThen_same {View : Type*} (view : State → View) (hnext : ∀ state, view (next state).1 = view state) :
    view (andThen first next).1 = view first.1 :=
  @andThen_invariant _ _ (fun after ↦ view after = view first.1) first next rfl
    fun state hstate ↦ (hnext state).trans hstate

/-- A loop whose steps act on a part of the state as those of another loop acts on it as that loop. -/
theorem runAll_map {Part : Type u} (view : State → Part) {part : Item → Part → Part × Option Failure}
    (hstep : ∀ item state, part item (view state) = (step item state).map view id) (items : List Item)
    (state : State) :
    runAll part items (view state) = (runAll step items state).map view id := by
  induction items generalizing state with
  | nil => rfl
  | cons item items ih =>
    unfold runAll
    rw [hstep]
    cases step item state with
    | mk next failure =>
      cases failure with
      | some message => rfl
      | none => exact ih next

theorem andThen_map {Part : Type u} (view : State → Part) {part : Part → Part × Option Failure}
    (hnext : ∀ state, part (view state) = (next state).map view id) :
    andThen (first.map view id) part = (andThen first next).map view id := by
  cases first with
  | mk state failure =>
    cases failure with
    | some message => rfl
    | none => exact hnext state

theorem andThen_eq_none :
    (andThen first next).2 = none ↔ first.2 = none ∧ (next first.1).2 = none := by
  cases first with
  | mk state failure => cases failure <;> simp [andThen]

theorem andThen_of_none (hfirst : first.2 = none) : andThen first next = next first.1 := by
  cases first with
  | mk state failure =>
    cases hfirst
    rfl

theorem runAll_of_none (hstep : ∀ item ∈ items, ∀ state, (step item state).2 = none) (state : State) :
    (runAll step items state).2 = none := by
  induction items generalizing state with
  | nil => rfl
  | cons item items ih =>
    have hfirst := hstep item List.mem_cons_self state
    unfold runAll
    cases hcase : step item state with
    | mk next failure =>
      rw [hcase] at hfirst
      cases hfirst
      exact ih (fun other hother ↦ hstep other (List.mem_cons_of_mem item hother)) next

/-- A loop that does not fail is a loop of steps that do not fail: what each of them establishes from
what the ones before it did holds at the end. -/
theorem runAll_success {step : Item → State → State × Option Failure}
    {Done : List Item → State → Prop}
    (hstep : ∀ done item state next, Done done state → step item state = (next, none) →
      Done (done ++ [item]) next)
    {items done : List Item} {state : State} (hdone : Done done state)
    (hnone : (runAll step items state).2 = none) :
    Done (done ++ items) (runAll step items state).1 := by
  induction items generalizing done state with
  | nil => simpa [runAll] using hdone
  | cons item items ih =>
    unfold runAll at hnone ⊢
    cases hcase : step item state with
    | mk next failure =>
      rw [hcase] at hnone
      cases failure with
      | some message => simp at hnone
      | none =>
        have hnext := hstep done item state next hdone hcase
        have hrest := ih hnext hnone
        rwa [List.append_assoc, List.singleton_append] at hrest

end Podmin.Foundation.Fallible
