import Mathlib.Data.Finset.Image
import Podmin.Agent.Dataplane
import Podmin.Foundation.Fallible
import Podmin.Foundation.Transition

/-!
# Activating tables

`Reconciler` of `dataplane.go` and `platformState` of `activation_linux.go`: tables are put into a new
collection, whose program is attached to every wanted interface before the links of the former one are
closed. A state has at most one link for an interface, so a link is given by its collection and its
interface.
-/

namespace Podmin.Agent.Dataplane

open Foundation Fallible Transition

/-! ## Links -/

/-- The links that are attached, and the number of collections loaded so far. -/
structure Host where
  links : Finset (Nat × Nat)
  programs : Nat

/-- The kernel objects of one activation, with the interfaces it has a link for. -/
structure PlatformState where
  program : Nat
  tables : Tables
  links : Finset Nat
  closed : Bool

/-- What the system answers during one call. -/
structure Answers where
  /-- `ctx.Err` at the start and once the links are attached. -/
  expired : Option String
  cancelled : Option String
  load : Option String
  publish : Option String
  attachmentIndices : Except String (List Nat)
  /-- Whether the link for an interface cannot be inspected. -/
  info : Nat → Bool
  attach : Nat → Option String
  verify : Nat → Option String
  close : Option String

abbrev Attached := PlatformState × Host

def Host.close (host : Host) (program : Nat) (indices : Finset Nat) : Host :=
  { host with links := host.links \ indices.image fun index ↦ (program, index) }

/-- Attach the program to an interface; a collection that is closed has none. -/
def attachTCX (answers : Answers) (index : Nat) (attached : Attached) : Attached × Option String :=
  let host := { attached.2 with links := insert (attached.1.program, index) attached.2.links }
  match if attached.1.closed then some "closed program" else answers.attach index, answers.verify index with
  | some message, _ => (attached, some s!"attach TCX ingress to interface {index}: {message}")
  | none, some message =>
    ((attached.1, host.close attached.1.program {index}),
      some s!"verify TCX ingress on interface {index}: {message}")
  | none, none => (({ attached.1 with links := insert index attached.1.links }, host), none)

/-- Keep the link for a wanted interface if it is still attached, and make a new one otherwise. -/
def refreshIndex (answers : Answers) (index : Nat) (attached : Attached) : Attached × Option String :=
  if index ∈ attached.1.links then
    if answers.info index = false ∧ (attached.1.program, index) ∈ attached.2.links then (attached, none)
    else
      attachTCX answers index ({ attached.1 with links := attached.1.links.erase index },
        attached.2.close attached.1.program {index})
  else attachTCX answers index attached

/-- Close the links for the interfaces that are not wanted. -/
def detach (indices : List Nat) (attached : Attached) : Attached :=
  ({ attached.1 with links := attached.1.links.filter (· ∈ indices) },
    attached.2.close attached.1.program (attached.1.links.filter (· ∉ indices)))

def refresh (answers : Answers) (attached : Attached) : Attached × Option String :=
  match answers.attachmentIndices with
  | .error message => (attached, some ("discover dataplane interfaces: " ++ message))
  | .ok indices =>
    andThen (runAll (refreshIndex answers) indices attached) fun attached ↦ (detach indices attached, none)

def PlatformState.close (state : PlatformState) (host : Host) : Attached :=
  ({ state with links := ∅, closed := true }, host.close state.program state.links)

/-- A new collection, which is given the tables before it has links. -/
def loadBpfObjects (tables : Tables) (host : Host) : Attached :=
  (⟨host.programs, tables, ∅, false⟩, { host with programs := host.programs + 1 })

/-- Fill a new collection and attach it. -/
def prepare (answers : Answers) (loaded : Attached) : Attached × Option String :=
  andThen (loaded, answers.publish) fun loaded ↦
    andThen (refresh answers loaded) fun attached ↦ (attached, answers.cancelled)

/-- No link of the new collection is left if it cannot be prepared. -/
def activate (answers : Answers) (tables : Tables) (host : Host) : Host × Except String PlatformState :=
  match answers.load, prepare answers (loadBpfObjects tables host) with
  | some message, _ => (host, .error ("load service eBPF objects: " ++ message))
  | none, (attached, some message) => ((attached.1.close attached.2).2, .error message)
  | none, (attached, none) => (attached.2, .ok attached.1)

/-! ## The reconciler -/

/-- `podPrefix` says that the Pod prefix is an exact one; the tables are absent until they are first set. -/
structure Reconciler where
  podPrefix : Bool
  tables : Option Tables
  state : Option PlatformState

/-- `reflect.DeepEqual`. -/
def Tables.deepEqual (left right : Tables) : Bool :=
  left.nodeIPv6 == right.nodeIPv6 && left.backends == right.backends &&
    (left.services.keys ++ right.services.keys).all fun key ↦
      left.services.lookup key == right.services.lookup key

/-- Close what is active, and go on without tables or with new ones. -/
def Reconciler.deactivate (answers : Answers) (reconciler : Reconciler) (tables : Option Tables) (host : Host) :
    (Reconciler × Host) × Option String :=
  match reconciler.state with
  | none => (({ reconciler with tables }, host), none)
  | some state =>
    let closed := state.close host
    match answers.close with
    | some message => (({ reconciler with state := some closed.1 }, closed.2), some message)
    | none => (({ reconciler with tables, state := none }, closed.2), none)

/-- The former state is closed once the new one is attached. -/
def Reconciler.retire (reconciler : Reconciler) (host : Host) : Host :=
  reconciler.state.elim host fun old ↦ (old.close host).2

/-- Put new tables in force before the former ones are closed. -/
def Reconciler.replace (answers : Answers) (reconciler : Reconciler) (tables : Tables) (host : Host) :
    (Reconciler × Host) × Option String :=
  if reconciler.podPrefix = false then
    ((reconciler, host), some "invalid dataplane snapshot: Pod prefix must be an exact IPv6 prefix")
  else
    match activate answers tables host with
    | (host, .error message) => ((reconciler, host), some message)
    | (host, .ok state) =>
      (({ reconciler with tables := some tables, state := some state }, reconciler.retire host), none)

/-- Take a complete snapshot. -/
def Reconciler.reconcile (answers : Answers) (snapshot : Snapshot) (reconciler : Reconciler) (host : Host) :
    (Reconciler × Host) × Option String :=
  match answers.expired, compile snapshot with
  | some message, _ => ((reconciler, host), some message)
  | none, .error message => ((reconciler, host), some message)
  | none, .ok tables =>
    match reconciler.tables.any (·.deepEqual tables), reconciler.state, snapshot.services.isEmpty with
    | true, some state, _ =>
      let refreshed := refresh answers (state, host)
      (({ reconciler with state := some refreshed.1.1 }, refreshed.1.2), refreshed.2)
    | true, none, true => ((reconciler, host), none)
    | _, _, false => reconciler.replace answers tables host
    | _, _, true => reconciler.deactivate answers (some tables) host

/-- `Close`. -/
def Reconciler.close (answers : Answers) (reconciler : Reconciler) (host : Host) :
    (Reconciler × Host) × Option String :=
  reconciler.deactivate answers none host

/-! ## One state -/

section One

variable (answers : Answers) (index : Nat) (indices : List Nat) (attached : Attached)

/-- Every link with the state's program is one it has. -/
def Attached.Recorded (attached : Attached) : Prop :=
  ∀ index, (attached.1.program, index) ∈ attached.2.links → index ∈ attached.1.links

/-- The program is attached to the interface, and the state has the link. -/
def Attached.At (attached : Attached) (index : Nat) : Prop :=
  index ∈ attached.1.links ∧ (attached.1.program, index) ∈ attached.2.links

/-- What changing the links of one state keeps. -/
structure Moves (before after : Attached) : Prop where
  collection : after.1 = { before.1 with links := after.1.links }
  programs : after.2.programs = before.2.programs
  others : ∀ link : Nat × Nat, link.1 ≠ before.1.program → (link ∈ after.2.links ↔ link ∈ before.2.links)
  recorded : before.Recorded → after.Recorded

theorem Moves.refl : Moves attached attached :=
  ⟨rfl, rfl, fun _ _ ↦ Iff.rfl, id⟩

theorem Moves.program {before after : Attached} (hmoves : Moves before after) :
    after.1.program = before.1.program := by
  rw [hmoves.collection]

theorem Moves.trans {first second third : Attached} (hbefore : Moves first second)
    (hafter : Moves second third) :
    Moves first third where
  collection := by rw [hafter.collection, hbefore.collection]
  programs := hafter.programs.trans hbefore.programs
  others link hlink :=
    (hafter.others link (hbefore.program ▸ hlink)).trans (hbefore.others link hlink)
  recorded := hafter.recorded ∘ hbefore.recorded

theorem Host.mem_close {host : Host} {program : Nat} {indices : Finset Nat} {link : Nat × Nat} :
    link ∈ (host.close program indices).links ↔ link ∈ host.links ∧
      ¬ (link.1 = program ∧ link.2 ∈ indices) := by
  simp only [Host.close, Finset.mem_sdiff, Finset.mem_image, not_exists, and_congr_right_iff]
  grind

theorem attachTCX_moves : Moves attached (attachTCX answers index attached).1 := by
  unfold attachTCX
  extract_lets host
  split
  · exact .refl attached
  · constructor <;> simp only [Attached.Recorded, Host.close] <;> grind
  · constructor <;> simp only [Attached.Recorded, Finset.mem_insert] <;> grind

theorem refreshIndex_moves : Moves attached (refreshIndex answers index attached).1 := by
  unfold refreshIndex
  split_ifs
  · exact .refl attached
  · refine Moves.trans ?_ (attachTCX_moves answers index _)
    constructor <;> simp only [Attached.Recorded, Finset.mem_erase, Host.close] <;> grind
  · exact attachTCX_moves answers index attached

theorem refreshAll_moves : Moves attached (runAll (refreshIndex answers) indices attached).1 :=
  runAll_related .refl (fun _ _ _ ↦ .trans) (fun index _ ↦ refreshIndex_moves answers index) attached

theorem detach_moves : Moves attached (detach indices attached) := by
  constructor <;> simp only [detach, Attached.Recorded, Host.close] <;> grind

theorem refresh_moves : Moves attached (refresh answers attached).1 := by
  unfold refresh
  split
  · exact .refl attached
  · next indices _ =>
    exact andThen_related (fun _ _ _ ↦ .trans) (refreshAll_moves answers indices attached)
      (detach_moves indices)

variable {answers index attached} {next : Attached}

theorem attachTCX_at (hdone : attachTCX answers index attached = (next, none)) (other : Nat)
    (hother : other = index ∨ attached.At other) : next.At other := by
  unfold attachTCX at hdone
  extract_lets host at hdone
  split at hdone
  · cases hdone
  · cases hdone
  · cases hdone
    grind [Attached.At]

theorem refreshIndex_at (hdone : refreshIndex answers index attached = (next, none)) (other : Nat)
    (hother : other = index ∨ attached.At other) : next.At other := by
  unfold refreshIndex at hdone
  split_ifs at hdone
  · cases hdone
    grind [Attached.At]
  · refine attachTCX_at hdone other ?_
    grind [Attached.At, Host.mem_close]
  · exact attachTCX_at hdone other hother

/-- A refresh that does not fail attaches the program to the discovered interfaces and to no other. -/
theorem refresh_exact (hrecorded : attached.Recorded) (hdone : (refresh answers attached).2 = none) :
    ∃ indices, answers.attachmentIndices = .ok indices ∧
      ∀ index, (attached.1.program, index) ∈ (refresh answers attached).1.2.links ↔ index ∈ indices := by
  have hmoves := refresh_moves answers attached
  have hafter := hmoves.recorded hrecorded
  rw [Attached.Recorded, hmoves.program] at hafter
  unfold refresh at hdone hafter ⊢
  cases hfound : answers.attachmentIndices with
  | error message => simp [hfound] at hdone
  | ok indices =>
    simp only [hfound] at hdone hafter ⊢
    have hnone := (andThen_eq_none.1 hdone).1
    rw [andThen_of_none hnone] at hafter ⊢
    have hall := @runAll_success _ _ _ (refreshIndex answers) (fun done state ↦ ∀ index ∈ done, state.At index)
      (fun done item state next hstate hnext index hindex ↦
        refreshIndex_at hnext index ((List.mem_append.1 hindex).elim (.inr ∘ hstate index)
          (.inl ∘ List.mem_singleton.1))) indices [] attached (by simp) hnone
    refine ⟨indices, rfl, fun index ↦ ⟨fun hlink ↦ ?_, fun hindex ↦ ?_⟩⟩
    · exact (Finset.mem_filter.1 (hafter index hlink)).2
    · refine Host.mem_close.2 ⟨?_, fun hother ↦ (Finset.mem_filter.1 hother.2).2 hindex⟩
      exact (refreshAll_moves answers indices attached).program ▸ (hall index hindex).2

end One

/-! ## A new collection -/

section Activate

variable {answers : Answers} {tables : Tables} {host after : Host}

theorem prepare_moves (answers : Answers) (loaded : Attached) : Moves loaded (prepare answers loaded).1 :=
  andThen_related (fun _ _ _ ↦ .trans) (.refl loaded) fun loaded ↦
    andThen_related (fun _ _ _ ↦ .trans) (refresh_moves answers loaded) .refl

theorem loadBpfObjects_recorded (hfresh : ∀ link ∈ host.links, link.1 < host.programs) :
    (loadBpfObjects tables host).Recorded :=
  fun _ hlink ↦ absurd (hfresh _ hlink) (lt_irrefl _)

/-- An activation that fails leaves no link behind. -/
theorem activate_error {message : String} (hfresh : ∀ link ∈ host.links, link.1 < host.programs)
    (herror : activate answers tables host = (after, .error message)) :
    after.links = host.links ∧ host.programs ≤ after.programs := by
  have hmoves := prepare_moves answers (loadBpfObjects tables host)
  have hrecorded := hmoves.recorded (loadBpfObjects_recorded hfresh)
  have hprogram : _ = host.programs := hmoves.program
  unfold activate at herror
  split at herror
  · cases herror
    exact ⟨rfl, le_rfl⟩
  · next hprepare =>
    cases herror
    rw [hprepare] at hmoves hrecorded hprogram
    refine ⟨Finset.ext fun link ↦ ?_, hmoves.programs.ge.trans' (Nat.le_succ _)⟩
    have hothers := hmoves.others link
    have hold := hfresh link
    rw [PlatformState.close, Host.mem_close, hprogram]
    grind [loadBpfObjects, Attached.Recorded]
  · cases herror

/-- One that does not adds the program's links to those there are. -/
theorem activate_ok {state : PlatformState} (hfresh : ∀ link ∈ host.links, link.1 < host.programs)
    (hok : activate answers tables host = (after, .ok state)) :
    state.program = host.programs ∧ state.tables = tables ∧ after.programs = host.programs + 1 ∧
      Attached.Recorded (state, after) ∧ ∃ indices, answers.attachmentIndices = .ok indices ∧
        ∀ link, link ∈ after.links ↔ link ∈ host.links ∨ link.1 = host.programs ∧ link.2 ∈ indices := by
  have hmoves := refresh_moves answers (loadBpfObjects tables host)
  have hloaded := @loadBpfObjects_recorded tables host hfresh
  unfold activate at hok
  split at hok
  · cases hok
  · cases hok
  · next attached _ hprepare =>
    cases hok
    have hdone := andThen_eq_none.1 (congrArg Prod.snd hprepare)
    have hrefresh := (andThen_eq_none.1 hdone.2).1
    obtain ⟨indices, hindices, hexact⟩ := refresh_exact hloaded hrefresh
    rw [prepare, andThen_of_none hdone.1, andThen_of_none hrefresh] at hprepare
    obtain rfl : _ = attached := congrArg Prod.fst hprepare
    refine ⟨hmoves.program, congrArg PlatformState.tables hmoves.collection, hmoves.programs,
      hmoves.recorded hloaded, indices, hindices, fun link ↦ ?_⟩
    have hothers := hmoves.others link
    have hold := hfresh link
    have hnew := hexact link.2
    grind [loadBpfObjects]

end Activate

/-! ## Whole runs -/

/-- A call, a tick of the watcher of the active state, or an interface that goes away. -/
inductive Activity
  | reconcile (answers : Answers) (snapshot : Snapshot)
  | close (answers : Answers)
  | watch (answers : Answers)
  | vanish (index : Nat)

def activation (podPrefix : Bool) : System (Reconciler × Host) Activity where
  init state := state = (⟨podPrefix, none, none⟩, ⟨∅, 0⟩)
  step state activity next :=
    match activity with
    | .reconcile answers snapshot => next = (state.1.reconcile answers snapshot state.2).1
    | .close answers => next = (state.1.close answers state.2).1
    | .watch answers => ∃ active, state.1.state = some active ∧
        let refreshed := (refresh answers (active, state.2)).1
        next = ({ state.1 with state := some refreshed.1 }, refreshed.2)
    | .vanish index => next = (state.1, { state.2 with links := state.2.links.filter (·.2 ≠ index) })

/-- Every link is one of the active state, whose tables are the reconciler's. -/
structure Reconciler.Governs (reconciler : Reconciler) (host : Host) : Prop where
  owned : ∀ link ∈ host.links, ∃ state, reconciler.state = some state ∧ link.1 = state.program ∧
    link.2 ∈ state.links
  below : ∀ state, reconciler.state = some state → state.program < host.programs
  tables : ∀ state, reconciler.state = some state → reconciler.tables = some state.tables

/-- What the answer to a snapshot with Services says about the links. -/
structure Reports (answers : Answers) (snapshot : Snapshot) (before : Reconciler × Host)
    (result : (Reconciler × Host) × Option String) : Prop where
  active : result.2 = none → snapshot.services ≠ [] → ∃ tables state indices,
    compile snapshot = .ok tables ∧ result.1.1.state = some state ∧ state.tables.deepEqual tables = true ∧
      answers.attachmentIndices = .ok indices ∧
      ∀ link, link ∈ result.1.2.links ↔ link.1 = state.program ∧ link.2 ∈ indices
  former : ∀ tables, compile snapshot = .ok tables → before.1.tables.any (·.deepEqual tables) = false →
    snapshot.services ≠ [] → result.2 ≠ none → result.1.1 = before.1 ∧ result.1.2.links = before.2.links

namespace Reconciler.Governs

variable {answers : Answers} {reconciler : Reconciler} {host : Host} {tables : Tables}
  (hgoverns : reconciler.Governs host)

include hgoverns

theorem fresh (link : Nat × Nat) (hlink : link ∈ host.links) :
    link.1 < host.programs := by
  obtain ⟨state, hstate, hprogram, -⟩ := hgoverns.owned link hlink
  exact hprogram ▸ hgoverns.below state hstate

theorem recorded {state : PlatformState}
    (hstate : reconciler.state = some state) : Attached.Recorded (state, host) := by
  intro index hlink
  grind [hgoverns.owned _ hlink]

/-- Changing the links of the active state keeps them its own. -/
theorem moves {state : PlatformState} {after : Attached}
    (hstate : reconciler.state = some state) (hmoves : Moves (state, host) after) :
    Governs { reconciler with state := some after.1 } after.2 where
  owned link hlink := by
    have hprogram : link.1 = after.1.program := by
      have hold := hgoverns.owned link
      grind [hmoves.others link, hmoves.program]
    exact ⟨after.1, rfl, hprogram, hmoves.recorded (hgoverns.recorded hstate) link.2 (hprogram ▸ hlink)⟩
  below := by
    rintro _ ⟨⟩
    rw [hmoves.program, hmoves.programs]
    exact hgoverns.below state hstate
  tables := by
    rintro _ ⟨⟩
    rw [hmoves.collection]
    exact hgoverns.tables state hstate

/-- Nothing is attached once the active state is closed. -/
theorem close_links {state : PlatformState}
    (hstate : reconciler.state = some state) : (state.close host).2.links = ∅ := by
  refine Finset.eq_empty_of_forall_notMem fun link hlink ↦ ?_
  obtain ⟨hmem, hother⟩ := Host.mem_close.1 hlink
  grind [hgoverns.owned link hmem]

theorem deactivate (tables : Option Tables) :
    Governs (reconciler.deactivate answers tables host).1.1
      (reconciler.deactivate answers tables host).1.2 := by
  unfold Reconciler.deactivate
  split
  · next hstate => exact ⟨fun link hlink ↦ hgoverns.owned link hlink, by simp [hstate], by simp [hstate]⟩
  · next state hstate =>
    have hlinks := hgoverns.close_links hstate
    split
    · refine ⟨by simp [hlinks], ?_, ?_⟩ <;> rintro _ ⟨⟩
      exacts [hgoverns.below state hstate, hgoverns.tables state hstate]
    · exact ⟨by simp [hlinks], by simp, by simp⟩

/-- New tables are in force with the links of the new collection only. -/
theorem replace {snapshot : Snapshot} (hcompile : compile snapshot = .ok tables) :
    let result := reconciler.replace answers tables host
    Governs result.1.1 result.1.2 ∧ Reports answers snapshot (reconciler, host) result := by
  unfold Reconciler.replace
  split_ifs
  · exact ⟨hgoverns, by simp, fun _ _ _ _ _ ↦ ⟨rfl, rfl⟩⟩
  · cases hactivate : activate answers tables host with
    | mk after outcome =>
      cases outcome with
      | error message =>
        obtain ⟨hlinks, hprograms⟩ := activate_error hgoverns.fresh hactivate
        refine ⟨⟨?_, fun state hstate ↦ (hgoverns.below state hstate).trans_le hprograms, hgoverns.tables⟩,
          by simp, fun _ _ _ _ _ ↦ ⟨rfl, hlinks⟩⟩
        simpa only [hlinks] using hgoverns.owned
      | ok state =>
        obtain ⟨hprogram, htables, hprograms, hrecorded, indices, hindices, hlinks⟩ :=
          activate_ok hgoverns.fresh hactivate
        -- the links there were are those of the former state, which is closed now
        have hexact (link : Nat × Nat) :
            link ∈ (reconciler.retire after).links ↔ link.1 = state.program ∧ link.2 ∈ indices := by
          have hold := hgoverns.owned link
          have hbelow := hgoverns.below
          unfold Reconciler.retire
          cases hstate : reconciler.state <;>
            simp only [hstate, Option.elim_none, Option.elim_some, PlatformState.close, Host.mem_close, hlinks,
              hprogram] at hold hbelow ⊢ <;> grind
        have hkept : (reconciler.retire after).programs = host.programs + 1 := by
          unfold Reconciler.retire
          cases reconciler.state <;> exact hprograms
        refine ⟨⟨fun link hlink ↦ ⟨state, rfl, ((hexact link).1 hlink).1, ?_⟩, ?_, ?_⟩,
          fun _ _ ↦ ⟨tables, state, indices, hcompile, rfl, by simp [htables, Tables.deepEqual], hindices,
            hexact⟩,
          by simp⟩
        · exact hrecorded link.2 ((hlinks _).2 (.inr ⟨hprogram, ((hexact link).1 hlink).2⟩))
        · rintro _ ⟨⟩
          rw [hkept, hprogram]
          exact Nat.lt_succ_self _
        · rintro _ ⟨⟩
          rw [htables]

/-- The same tables only have their links refreshed. -/
theorem reconcile (snapshot : Snapshot) :
    let result := reconciler.reconcile answers snapshot host
    Governs result.1.1 result.1.2 ∧ Reports answers snapshot (reconciler, host) result := by
  unfold Reconciler.reconcile
  split
  · exact ⟨hgoverns, by simp, fun _ _ _ _ _ ↦ ⟨rfl, rfl⟩⟩
  · exact ⟨hgoverns, by simp, fun _ _ _ _ _ ↦ ⟨rfl, rfl⟩⟩
  · next tables _ hcompile =>
    split
    · next state hsame hstate =>
      have hmoves := refresh_moves answers (state, host)
      refine ⟨hgoverns.moves hstate hmoves, fun hdone _ ↦ ?_, fun other hother hchanged ↦ ?_⟩
      · obtain ⟨indices, hindices, hexact⟩ := refresh_exact (hgoverns.recorded hstate) hdone
        refine ⟨tables, _, indices, hcompile, rfl, ?_, hindices, fun link ↦ ?_⟩
        · rw [hmoves.collection]
          simpa [hgoverns.tables state hstate] using hsame
        · have howned := (hgoverns.moves hstate hmoves).owned link
          grind [hexact link.2, hmoves.program]
      · cases hcompile.symm.trans hother
        exact absurd hsame (by simp [hchanged])
    · next hempty => exact ⟨hgoverns, by simp_all, by simp⟩
    · exact hgoverns.replace hcompile
    · next hempty _ _ => exact ⟨hgoverns.deactivate (some tables), by simp_all, by simp_all⟩

end Reconciler.Governs

theorem activation_governs {podPrefix : Bool} {state : Reconciler × Host}
    (hreach : Reachable (activation podPrefix) state) : state.1.Governs state.2 := by
  refine @Reachable.invariant _ _ _ (fun state ↦ state.1.Governs state.2) ?_ ?_ state hreach
  · rintro _ rfl
    constructor <;> simp
  · rintro ⟨reconciler, host⟩ activity next - hgoverns hstep
    cases activity with
    | reconcile answers snapshot => exact hstep ▸ (hgoverns.reconcile snapshot).1
    | close answers => exact hstep ▸ hgoverns.deactivate none
    | watch answers =>
      obtain ⟨active, hstate, rfl⟩ := hstep
      exact hgoverns.moves hstate (refresh_moves answers (active, host))
    | vanish index =>
      rw [show next = _ from hstep]
      exact ⟨fun link hlink ↦ hgoverns.owned link (Finset.mem_filter.1 hlink).1, hgoverns.below,
        hgoverns.tables⟩

/-- In every run the links are those of one collection, which holds the tables of the reconciler: a
successful call has the tables of its snapshot at the discovered interfaces and nothing else attached,
and one that fails to replace tables leaves the former ones in force. -/
theorem active_collection {podPrefix : Bool} {reconciler : Reconciler} {host : Host}
    (hreach : Reachable (activation podPrefix) (reconciler, host)) :
    (∀ link ∈ host.links, ∃ state, reconciler.state = some state ∧ reconciler.tables = some state.tables ∧
      link.1 = state.program ∧ link.2 ∈ state.links) ∧
    ∀ answers snapshot, Reports answers snapshot (reconciler, host)
      (reconciler.reconcile answers snapshot host) := by
  have hgoverns := activation_governs hreach
  refine ⟨fun link hlink ↦ ?_, fun answers snapshot ↦ (hgoverns.reconcile snapshot).2⟩
  obtain ⟨state, hstate, hlinked⟩ := hgoverns.owned link hlink
  exact ⟨state, hstate, hgoverns.tables state hstate, hlinked⟩

/-- Two interfaces, and no failure. -/
def sampleAnswers : Answers :=
  ⟨none, none, none, none, .ok [2, 3], fun _ ↦ false, fun _ ↦ none, fun _ ↦ none, none⟩

/-- One Service with one backend. -/
def sampleSnapshot (vip : BitVec 128) : Snapshot :=
  ⟨.v6 1 "", [⟨.v6 vip "", [⟨protocolTCP, 80, [⟨.v6 9 "", 8080⟩]⟩]⟩]⟩

def sampleActive : (Reconciler × Host) × Option String :=
  Reconciler.reconcile sampleAnswers (sampleSnapshot 2) ⟨true, none, none⟩ ⟨∅, 0⟩

/-- The tables of another snapshot replace those in force, which stay when the programs cannot be loaded. -/
theorem active_collection_replaced :
    let failing := { sampleAnswers with load := some "load" }
    let failed := sampleActive.1.1.reconcile failing (sampleSnapshot 3) sampleActive.1.2
    let replaced := sampleActive.1.1.reconcile sampleAnswers (sampleSnapshot 3) sampleActive.1.2
    sampleActive.2 = none ∧ failed.2.isSome = true ∧ failed.1.2.links = sampleActive.1.2.links ∧
      Reports failing (sampleSnapshot 3) sampleActive.1 failed ∧
      replaced.2 = none ∧ replaced.1.2.links ≠ sampleActive.1.2.links ∧
      Reports sampleAnswers (sampleSnapshot 3) sampleActive.1 replaced := by
  have hreach : Reachable (activation true) sampleActive.1 := @Reachable.step _ _ (activation true) _ _
    (.reconcile sampleAnswers (sampleSnapshot 2)) (.init rfl) rfl
  have hreports := (active_collection hreach).2
  exact ⟨by decide, by decide, by decide, hreports _ _, by decide, by decide, hreports _ _⟩

end Podmin.Agent.Dataplane
