import Podmin.Agent.Coordinator.Isolation
import Podmin.Agent.Coordinator.WrittenBodies
import Podmin.Agent.Service.AppliedModel

/-!
# Applying snapshots on one node

Four paths lead to the controller's `Apply`: a snapshot that is newer than the current one, whether
loaded, acquired, published or received; the view without backends after the lease of the current
snapshot has passed; and the current snapshot under a changed local contract. Each holds the
coordinator's `applyMu` from the point where it reads the current snapshot. The local contract is read
once for the overlay and again by `Apply`, and may change in between.
-/

namespace Podmin.Agent.Coordination

open Foundation Transition Api Agent.Service

variable {snapshot held : Snapshot} {item : Api.Service}

/-! ## The paths -/

/-- Whether `clearStale` goes on: there is a snapshot, its lease has passed, and it is not cleared. -/
def leasePassed (now : Int) (core : Coordinator) : Bool :=
  !core.staleCleared && core.snapshot.isSome &&
    core.lastSnapshot.any fun last ↦ decide (leaseDuration < now - last)

/-- The snapshot `clearStale` applies. -/
def clearStaleSnapshot (nodeGroup : String) (localContract : List Api.Service) (core : Coordinator) :
    Snapshot :=
  overlayLocalContract nodeGroup localContract (clearBackends (core.snapshot.getD emptySnapshot))

/-- The snapshot `applyLocalTransition` applies. -/
def localTransitionSnapshot (nodeGroup : String) (localContract : List Api.Service)
    (core : Coordinator) : Snapshot :=
  overlayLocalContract nodeGroup localContract
    (if core.staleCleared then clearBackends (core.snapshot.getD emptySnapshot)
      else core.snapshot.getD emptySnapshot)

inductive Purpose where
  | newSnapshot (now : Int)
  | clearStale
  | localTransition
  deriving DecidableEq, Repr

/-- A path that has read the current snapshot and not finished. The last field is history: the
identities the local contract has claimed since. -/
structure Application where
  purpose : Purpose
  snapshot : Snapshot
  claimed : List String

/-- What the coordinator records when `Apply` has succeeded. -/
def Application.commit (application : Application) (core : Coordinator) : Coordinator :=
  match application.purpose with
  | .newSnapshot now => (apply (.ok ()) now application.snapshot core).1
  | .clearStale => { core with staleCleared := true }
  | .localTransition => core

/-- What the coordinator records when `Apply` has failed. -/
def Application.abort (application : Application) (reason : String) (core : Coordinator) : Coordinator :=
  match application.purpose with
  | .newSnapshot now => (apply (.error reason) now application.snapshot core).1
  | .clearStale | .localTransition => core

/-! ## The system -/

/-- The coordinator and the controller of a node, with the model its dataplane has taken last and the
zone that goes with it. The last field is history: the version `clearStale` has last cleared. -/
structure View where
  core : Coordinator
  controller : Controller
  model : Option Dataplane.Snapshot
  zone : Zone
  applying : Option Application
  cleared : Option (ℕ ×ₗ ℕ)

inductive ViewEvent where
  | change (services : List Manifest.Service) (pods : Pods.Snapshot)
  | apply (now : Int) (snapshot : Snapshot)
  | clearStale (now : Int)
  | localTransition
  | succeed
  | fail (reason : String)

def View.contract (view : View) : List Api.Service :=
  view.controller.contract.2

def View.claims (view : View) : List String :=
  view.contract.map Api.Service.identity

def Application.claiming (identities : List String) (application : Application) : Application :=
  { application with claimed := application.claimed ++ identities }

/-- The desired Services and the Pods of the node change. -/
def View.change (view : View) (services : List Manifest.Service) (pods : Pods.Snapshot) : View :=
  let next := { view with controller := { view.controller with services := services, pods := pods } }
  { next with applying := view.applying.map (Application.claiming next.claims) }

def View.start (view : View) (purpose : Purpose) (snapshot : Snapshot) : View :=
  { view with applying := some ⟨purpose, snapshot, view.claims⟩ }

inductive View.Step (view : View) : ViewEvent → View → Prop
  | change (services : List Manifest.Service) (pods : Pods.Snapshot) :
      View.Step view (.change services pods) (view.change services pods)
  | apply (now : Int) (snapshot : Snapshot) (hfree : view.applying = none)
      (hnewer : upToDate view.core.snapshot snapshot = false) :
      View.Step view (.apply now snapshot) (view.start (.newSnapshot now) snapshot)
  | clearStale (now : Int) (hfree : view.applying = none) (hpassed : leasePassed now view.core = true) :
      View.Step view (.clearStale now) (view.start .clearStale
        (clearStaleSnapshot view.controller.nodeGroup view.contract view.core))
  | localTransition (hfree : view.applying = none) :
      View.Step view .localTransition (view.start .localTransition
        (localTransitionSnapshot view.controller.nodeGroup view.contract view.core))
  | succeed {application : Application} {model : Dataplane.Snapshot} {zone : Zone}
      (happlying : view.applying = some application)
      (hmodel : view.controller.applyModel application.snapshot = .ok (model, zone)) :
      View.Step view .succeed
        { view with
          core := application.commit view.core
          model := some model
          zone := zone
          applying := none
          cleared := if application.purpose = .clearStale then view.core.snapshot.map version
            else view.cleared }
  | fail (reason : String) {application : Application} (happlying : view.applying = some application) :
      View.Step view (.fail reason)
        { view with core := application.abort reason view.core, applying := none }

/-- A node that has just started. -/
def View.fresh (controller : Controller) : View :=
  ⟨{}, controller, none, ∅, none, none⟩

def viewSystem : System View ViewEvent where
  init view := ∃ controller, view = .fresh controller
  step := View.Step

/-- `clearStale` has applied its view of the current version, and nothing newer was applied since. -/
def View.Cleared (view : View) : Prop :=
  ∃ held, view.core.snapshot = some held ∧ view.cleared = some (version held)

/-- Every backend of the model is one of the snapshot. -/
def BackendsOf (cluster : String) (model : Dataplane.Snapshot) (snapshot : Option Snapshot) : Prop :=
  ∀ service ∈ model.services, ∀ port ∈ service.ports, ∀ backend ∈ port.backends,
    ∃ held, snapshot = some held ∧ ∃ item ∈ held.services,
      service.vip = Dataplane.deriveVIP cluster item.ns item.name ∧ Backs item port backend

def NoBackends (model : Dataplane.Snapshot) : Prop :=
  ∀ service ∈ model.services, ∀ port ∈ service.ports, port.backends = []

/-! ## What the paths apply -/

theorem mem_overlayLocalContract {nodeGroup : String} {localContract : List Api.Service} :
    item ∈ (overlayLocalContract nodeGroup localContract snapshot).services ↔
      (item ∈ snapshot.services ∧ item.nodeGroup ≠ nodeGroup ∧
        item.identity ∉ localContract.map Api.Service.identity) ∨ item ∈ localContract := by
  simp [overlayLocalContract, mem_sortSlice]

theorem mem_clearBackends :
    item ∈ (clearBackends snapshot).services ↔
      ∃ held ∈ snapshot.services, { held with backends := [] } = item := by
  simp [clearBackends]

/-- What is known of an application until it finishes: a new snapshot is newer than the current one,
and the other paths keep the foreign Services of the current one, with their backends at most when it
is not cleared. -/
structure Prepared (view : View) (application : Application) : Prop where
  claims : ∀ identity ∈ view.claims, identity ∈ application.claimed
  newer : ∀ now, application.purpose = .newSnapshot now →
    upToDate view.core.snapshot application.snapshot = false
  kept : (∀ now, application.purpose ≠ .newSnapshot now) →
    ∀ item ∈ application.snapshot.services, item.backends = [] ∨
      application.purpose ≠ .clearStale ∧ view.core.staleCleared = false ∧
        ∃ held, view.core.snapshot = some held ∧ item ∈ held.services
  foreign : (∀ now, application.purpose ≠ .newSnapshot now) →
    ∀ held, view.core.snapshot = some held → ∀ item ∈ held.services,
      item.nodeGroup ≠ view.controller.nodeGroup → item.identity ∉ application.claimed →
      ∃ backends, { item with backends := backends } ∈ application.snapshot.services

variable {application : Application}

section Prepare

variable {view : View}

theorem prepared_newSnapshot {now : Int} (hnewer : upToDate view.core.snapshot snapshot = false) :
    Prepared view ⟨.newSnapshot now, snapshot, view.claims⟩ where
  claims _ hidentity := hidentity
  newer _ _ := hnewer
  kept hother := absurd rfl (hother now)
  foreign hother := absurd rfl (hother now)

/-- An item of an overlay over the current snapshot, cleared or not. -/
theorem mem_overlay_current {cleared : Bool} {item : Api.Service}
    (hitem : item ∈ (overlayLocalContract view.controller.nodeGroup view.contract
      (if cleared then clearBackends (view.core.snapshot.getD emptySnapshot)
        else view.core.snapshot.getD emptySnapshot)).services) :
    item.backends = [] ∨ cleared = false ∧ ∃ held, view.core.snapshot = some held ∧ item ∈ held.services := by
  rcases mem_overlayLocalContract.mp hitem with ⟨hmem, _⟩ | hlocal
  · cases cleared with
    | true =>
      obtain ⟨held, _, rfl⟩ := mem_clearBackends.mp hmem
      exact .inl rfl
    | false =>
      cases hsnapshot : view.core.snapshot with
      | none =>
        rw [hsnapshot] at hmem
        cases hmem
      | some held =>
        rw [hsnapshot] at hmem
        exact .inr ⟨rfl, held, rfl, hmem⟩
  · exact .inl (contract_backends hlocal)

/-- The overlay keeps the foreign Services that are not claimed. -/
theorem overlay_current_foreign {cleared : Bool} {held : Snapshot}
    (hheld : view.core.snapshot = some held) {item : Api.Service} (hitem : item ∈ held.services)
    (hgroup : item.nodeGroup ≠ view.controller.nodeGroup) (hfree : item.identity ∉ view.claims) :
    ∃ backends, { item with backends := backends } ∈ (overlayLocalContract view.controller.nodeGroup
      view.contract (if cleared then clearBackends (view.core.snapshot.getD emptySnapshot)
        else view.core.snapshot.getD emptySnapshot)).services := by
  rw [hheld, Option.getD_some]
  cases cleared with
  | true => exact ⟨[], mem_overlayLocalContract.mpr (.inl ⟨mem_clearBackends.mpr ⟨item, hitem, rfl⟩,
      hgroup, hfree⟩)⟩
  | false => exact ⟨item.backends, mem_overlayLocalContract.mpr (.inl ⟨hitem, hgroup, hfree⟩)⟩

theorem prepared_clearStale (view : View) :
    Prepared view ⟨.clearStale, clearStaleSnapshot view.controller.nodeGroup view.contract view.core,
      view.claims⟩ where
  claims _ hidentity := hidentity
  newer _ hpurpose := nomatch hpurpose
  kept _ item hitem := by
    rcases @mem_overlay_current view true item hitem with hnone | ⟨hcleared, _⟩
    · exact .inl hnone
    · cases hcleared
  foreign _ _ hheld _ hitem hgroup hfree := @overlay_current_foreign view true _ hheld _ hitem hgroup hfree

theorem prepared_localTransition (view : View) :
    Prepared view ⟨.localTransition,
      localTransitionSnapshot view.controller.nodeGroup view.contract view.core, view.claims⟩ where
  claims _ hidentity := hidentity
  newer _ hpurpose := nomatch hpurpose
  kept _ item hitem := by
    rcases mem_overlay_current hitem with hnone | hcurrent
    · exact .inl hnone
    · exact .inr ⟨by simp, hcurrent⟩
  foreign _ _ hheld _ hitem hgroup hfree := overlay_current_foreign hheld hitem hgroup hfree

/-- A change of the local contract is recorded. -/
theorem Prepared.change (hprepared : Prepared view application) (services : List Manifest.Service)
    (pods : Pods.Snapshot) :
    Prepared (view.change services pods) (application.claiming (view.change services pods).claims) where
  claims _ hidentity := List.mem_append_right _ hidentity
  newer := hprepared.newer
  kept := hprepared.kept
  foreign hother held hheld item hitem hgroup hfree :=
    hprepared.foreign hother held hheld item hitem hgroup fun hclaimed ↦
      hfree (List.mem_append_left _ hclaimed)

end Prepare

/-! ## What an application leaves -/

section Finish

variable {view : View} {application : Application} {model : Dataplane.Snapshot} {zone : Zone}

theorem Application.commit_newSnapshot {now : Int} (hpurpose : application.purpose = .newSnapshot now)
    {core : Coordinator} (hnewer : upToDate core.snapshot application.snapshot = false) :
    application.commit core =
      { core with snapshot := some application.snapshot, lastSnapshot := some now, staleCleared := false } := by
  rw [Application.commit, hpurpose]
  simp [apply, hnewer]

theorem Application.commit_snapshot (hother : ∀ now, application.purpose ≠ .newSnapshot now)
    (core : Coordinator) : (application.commit core).snapshot = core.snapshot := by
  unfold Application.commit
  split
  · next now hpurpose => exact absurd hpurpose (hother now)
  · rfl
  · rfl

theorem Application.commit_staleCleared (hother : ∀ now, application.purpose ≠ .newSnapshot now)
    (core : Coordinator) :
    (application.commit core).staleCleared = true ↔
      application.purpose = .clearStale ∨ core.staleCleared = true := by
  unfold Application.commit
  split
  · next now hpurpose => exact absurd hpurpose (hother now)
  · next hpurpose => simp [hpurpose]
  · next hpurpose => simp [hpurpose]

/-- A failed application changes neither the snapshot nor the flag. -/
theorem Application.abort_eq (application : Application) (reason : String) (core : Coordinator) :
    (application.abort reason core).snapshot = core.snapshot ∧
      (application.abort reason core).staleCleared = core.staleCleared := by
  unfold Application.abort
  split
  · unfold apply
    split
    · exact ⟨rfl, rfl⟩
    · exact ⟨rfl, rfl⟩
  · exact ⟨rfl, rfl⟩
  · exact ⟨rfl, rfl⟩

theorem isNewSnapshot (application : Application) :
    (∃ now, application.purpose = .newSnapshot now) ∨ ∀ now, application.purpose ≠ .newSnapshot now := by
  cases hpurpose : application.purpose with
  | newSnapshot now => exact .inl ⟨now, rfl⟩
  | clearStale => exact .inr fun _ hsame ↦ nomatch hsame
  | localTransition => exact .inr fun _ hsame ↦ nomatch hsame

theorem Prepared.backendsOf (hprepared : Prepared view application)
    (hmodel : view.controller.applyModel application.snapshot = .ok (model, zone)) :
    BackendsOf view.controller.cluster model (application.commit view.core).snapshot := by
  intro service hservice port hport backend hbackend
  obtain ⟨item, hitem, hvip, hbacks⟩ := applyModel_backends hmodel service hservice port hport backend hbackend
  rcases isNewSnapshot application with ⟨now, hpurpose⟩ | hother
  · rw [Application.commit_newSnapshot hpurpose (hprepared.newer now hpurpose)]
    exact ⟨application.snapshot, rfl, item, hitem, hvip, hbacks⟩
  · rw [Application.commit_snapshot hother]
    rcases hprepared.kept hother item hitem with hnone | ⟨_, _, held, hheld, hmem⟩
    · obtain ⟨endpoint, hendpoint, _⟩ := hbacks
      rw [hnone] at hendpoint
      cases hendpoint
    · exact ⟨held, hheld, item, hmem, hvip, hbacks⟩

/-- Once the current snapshot is cleared, or to be cleared, no backend is applied. -/
theorem Prepared.noBackends (hprepared : Prepared view application)
    (hother : ∀ now, application.purpose ≠ .newSnapshot now)
    (hcleared : application.purpose = .clearStale ∨ view.core.staleCleared = true)
    (hmodel : view.controller.applyModel application.snapshot = .ok (model, zone)) :
    NoBackends model := by
  intro service hservice port hport
  rw [List.eq_nil_iff_forall_not_mem]
  intro backend hbackend
  obtain ⟨item, hitem, _, endpoint, hendpoint, _⟩ :=
    applyModel_backends hmodel service hservice port hport backend hbackend
  rcases hprepared.kept hother item hitem with hnone | ⟨hpurpose, hflag, _⟩
  · rw [hnone] at hendpoint
    cases hendpoint
  · rcases hcleared with hclear | hset
    · exact hpurpose hclear
    · cases hflag.symm.trans hset

/-- The zone has the foreign Services of the snapshot that is then current. -/
theorem Prepared.served (hprepared : Prepared view application)
    (hmodel : view.controller.applyModel application.snapshot = .ok (model, zone))
    (hheld : (application.commit view.core).snapshot = some held) (hitem : item ∈ held.services)
    (hgroup : item.nodeGroup ≠ view.controller.nodeGroup) (hfree : item.identity ∉ application.claimed) :
    zone.lookup (serviceFqdn item.ns item.name) =
      some [Dataplane.deriveVIP view.controller.cluster item.ns item.name] := by
  have hunclaimed : item.identity ∉ view.claims := fun hclaims ↦ hfree (hprepared.claims _ hclaims)
  rcases isNewSnapshot application with ⟨now, hpurpose⟩ | hother
  · rw [Application.commit_newSnapshot hpurpose (hprepared.newer now hpurpose)] at hheld
    cases hheld
    exact applyModel_zone hmodel hitem hgroup hunclaimed
  · rw [Application.commit_snapshot hother] at hheld
    obtain ⟨backends, hmem⟩ := hprepared.foreign hother held hheld item hitem hgroup hfree
    exact @applyModel_zone _ _ _ _ hmodel { item with backends := backends } hmem hgroup hunclaimed

end Finish

/-! ## Runs -/

structure View.Sound (view : View) : Prop where
  prepared : ∀ application, view.applying = some application → Prepared view application
  backends : ∀ model, view.model = some model →
    BackendsOf view.controller.cluster model view.core.snapshot
  noBackends : view.core.staleCleared = true → ∀ model, view.model = some model → NoBackends model
  flagged : view.Cleared → view.core.staleCleared = true
  bound : ∀ cleared, view.cleared = some cleared →
    ∃ held, view.core.snapshot = some held ∧ cleared ≤ version held

variable {view : View}

namespace View.Sound

variable (hsound : view.Sound)

include hsound

theorem start {purpose : Purpose}
    (hprepared : Prepared view ⟨purpose, snapshot, view.claims⟩) : (view.start purpose snapshot).Sound where
  prepared := by
    rintro _ ⟨rfl⟩
    exact ⟨hprepared.claims, hprepared.newer, hprepared.kept, hprepared.foreign⟩
  backends := hsound.backends
  noBackends := hsound.noBackends
  flagged := hsound.flagged
  bound := hsound.bound

theorem change (services : List Manifest.Service) (pods : Pods.Snapshot) :
    (view.change services pods).Sound where
  prepared := by
    intro application happlying
    obtain ⟨before, hbefore, rfl⟩ := Option.map_eq_some_iff.mp happlying
    exact (hsound.prepared before hbefore).change services pods
  backends := hsound.backends
  noBackends := hsound.noBackends
  flagged := hsound.flagged
  bound := hsound.bound

/-- The current version rises with a new snapshot and stays otherwise. -/
theorem commit_version (happlying : view.applying = some application)
    (hheld : view.core.snapshot = some held) :
    ∃ current, (application.commit view.core).snapshot = some current ∧ version held ≤ version current := by
  have hprepared := hsound.prepared application happlying
  rcases isNewSnapshot application with ⟨now, hpurpose⟩ | hother
  · have hnewer := hprepared.newer now hpurpose
    rw [Application.commit_newSnapshot hpurpose hnewer]
    rw [hheld] at hnewer
    exact ⟨application.snapshot, rfl, (version_lt_of_newer hnewer).le⟩
  · exact ⟨held, (Application.commit_snapshot hother view.core).trans hheld, le_rfl⟩

/-- A cleared version is flagged until a newer snapshot replaces it. -/
theorem commit_flagged (happlying : view.applying = some application)
    {current : Snapshot} (hcurrent : (application.commit view.core).snapshot = some current)
    (hcleared : (if application.purpose = .clearStale then view.core.snapshot.map version
      else view.cleared) = some (version current)) :
    (application.commit view.core).staleCleared = true := by
  have hprepared := hsound.prepared application happlying
  rcases isNewSnapshot application with ⟨now, hpurpose⟩ | hother
  · -- what was cleared is older than the new snapshot
    have hnewer := hprepared.newer now hpurpose
    rw [Application.commit_newSnapshot hpurpose hnewer] at hcurrent
    cases hcurrent
    rw [if_neg (by simp [hpurpose])] at hcleared
    obtain ⟨held, hheld, hle⟩ := hsound.bound _ hcleared
    rw [hheld] at hnewer
    exact absurd hle (version_lt_of_newer hnewer).not_ge
  · rw [Application.commit_staleCleared hother]
    rw [Application.commit_snapshot hother] at hcurrent
    split at hcleared
    · next hclear => exact .inl hclear
    · exact .inr (hsound.flagged ⟨current, hcurrent, hcleared⟩)

theorem succeed {next : View} (hstep : view.Step .succeed next) :
    next.Sound := by
  cases hstep with
  | @succeed application model zone happlying hmodel =>
    have hprepared := hsound.prepared application happlying
    refine ⟨(fun _ hnone ↦ nomatch hnone), ?_, ?_, ?_, ?_⟩
    · rintro _ ⟨rfl⟩
      exact hprepared.backendsOf hmodel
    · rintro hflag _ ⟨rfl⟩
      rcases isNewSnapshot application with ⟨now, hpurpose⟩ | hother
      · rw [Application.commit_newSnapshot hpurpose (hprepared.newer now hpurpose)] at hflag
        cases hflag
      · exact hprepared.noBackends hother ((Application.commit_staleCleared hother _).mp hflag) hmodel
    · rintro ⟨current, hcurrent, hcleared⟩
      exact hsound.commit_flagged happlying hcurrent hcleared
    · intro cleared hcleared
      dsimp only at hcleared
      split at hcleared
      · obtain ⟨held, hheld, rfl⟩ := Option.map_eq_some_iff.mp hcleared
        exact hsound.commit_version happlying hheld
      · obtain ⟨held, hheld, hle⟩ := hsound.bound cleared hcleared
        obtain ⟨current, hcurrent, hversion⟩ := hsound.commit_version happlying hheld
        exact ⟨current, hcurrent, hle.trans hversion⟩

theorem fail (application : Application) (reason : String) :
    View.Sound { view with core := application.abort reason view.core, applying := none } := by
  obtain ⟨hsnapshot, hflag⟩ := application.abort_eq reason view.core
  refine ⟨(fun _ hnone ↦ nomatch hnone), ?_, ?_, ?_, ?_⟩
  · dsimp only
    rw [hsnapshot]
    exact hsound.backends
  · dsimp only
    rw [hflag]
    exact hsound.noBackends
  · unfold View.Cleared
    dsimp only
    rw [hsnapshot, hflag]
    exact hsound.flagged
  · dsimp only
    rw [hsnapshot]
    exact hsound.bound

theorem step {next : View} {event : ViewEvent} (hstep : view.Step event next) : next.Sound := by
  cases hstep with
  | change services pods => exact hsound.change services pods
  | apply now snapshot hfree hnewer => exact hsound.start (prepared_newSnapshot hnewer)
  | clearStale now hfree hpassed => exact hsound.start (prepared_clearStale view)
  | localTransition hfree => exact hsound.start (prepared_localTransition view)
  | succeed happlying hmodel => exact hsound.succeed (.succeed happlying hmodel)
  | fail reason happlying => exact hsound.fail _ reason

/-- The current version does not go back in a step. -/
theorem version_mono {next : View} {event : ViewEvent}
    (hstep : view.Step event next) (hheld : view.core.snapshot = some held) :
    ∃ current, next.core.snapshot = some current ∧ version held ≤ version current := by
  cases hstep with
  | change => exact ⟨held, hheld, le_rfl⟩
  | apply => exact ⟨held, hheld, le_rfl⟩
  | clearStale => exact ⟨held, hheld, le_rfl⟩
  | localTransition => exact ⟨held, hheld, le_rfl⟩
  | succeed happlying hmodel => exact hsound.commit_version happlying hheld
  | @fail reason application happlying =>
    exact ⟨held, ((application.abort_eq reason view.core).1).trans hheld, le_rfl⟩

end View.Sound

theorem View.sound_of_reachable (hreach : Reachable viewSystem view) : view.Sound := by
  refine @Reachable.invariant _ _ _ View.Sound ?_ ?_ _ hreach
  · rintro _ ⟨controller, rfl⟩
    refine ⟨?_, ?_, ?_, ?_, ?_⟩
    · exact fun _ hnone ↦ nomatch hnone
    · exact fun _ hnone ↦ nomatch hnone
    · exact fun hflag ↦ nomatch hflag
    · rintro ⟨held, hheld, _⟩
      cases hheld
    · exact fun _ hnone ↦ nomatch hnone
  · intro state event next _ hsound hstep
    exact hsound.step hstep

/-- The runs that go on from a given state. -/
def viewSystemFrom (view : View) : System View ViewEvent where
  init state := state = view
  step := View.Step

theorem View.Sound.version_mono_run {later : View} (hsound : view.Sound)
    (hlater : Reachable (viewSystemFrom view) later) (hheld : view.core.snapshot = some held) :
    ∃ current, later.core.snapshot = some current ∧ version held ≤ version current := by
  have hboth : later.Sound ∧ ∃ current, later.core.snapshot = some current ∧
      version held ≤ version current := by
    refine @Reachable.invariant _ _ _ (fun state ↦ state.Sound ∧ ∃ current,
      state.core.snapshot = some current ∧ version held ≤ version current) ?_ ?_ _ hlater
    · rintro _ rfl
      exact ⟨hsound, held, hheld, le_rfl⟩
    · rintro state event next _ ⟨hstate, current, hcurrent, hle⟩ hstep
      obtain ⟨newest, hnewest, hversion⟩ := hstate.version_mono hstep hcurrent
      exact ⟨hstate.step hstep, newest, hnewest, hle.trans hversion⟩
  exact hboth.2

/-- In every state of every run: the current version never goes back; the backends of the model in
force are backends of the current snapshot; while the current version is cleared, the model in force
has no backends, and neither has any model given to the dataplane for something else than a newer
snapshot; and an application that succeeds serves the name of every foreign Service of the then current
snapshot that the local contract has not claimed meanwhile. -/
theorem stale_leases_stay_cleared {view : View} (hreach : Reachable viewSystem view) :
    (∀ later, Reachable (viewSystemFrom view) later → ∀ held, view.core.snapshot = some held →
      ∃ current, later.core.snapshot = some current ∧ version held ≤ version current) ∧
    (∀ model, view.model = some model →
      BackendsOf view.controller.cluster model view.core.snapshot) ∧
    (view.Cleared → (∀ model, view.model = some model → NoBackends model) ∧
      ∀ application model zone, view.applying = some application →
        view.controller.applyModel application.snapshot = .ok (model, zone) →
        NoBackends model ∨ ∃ held, view.core.snapshot = some held ∧
          version held < version application.snapshot) ∧
    (∀ application next, view.applying = some application → view.Step .succeed next →
      ∀ held, next.core.snapshot = some held → ∀ item ∈ held.services,
        item.nodeGroup ≠ view.controller.nodeGroup → item.identity ∉ application.claimed →
        next.zone.lookup (serviceFqdn item.ns item.name) =
          some [Dataplane.deriveVIP view.controller.cluster item.ns item.name]) := by
  have hsound := View.sound_of_reachable hreach
  refine ⟨?_, hsound.backends, ?_, ?_⟩
  · intro later hlater held hheld
    exact hsound.version_mono_run hlater hheld
  · intro hcleared
    have hflag := hsound.flagged hcleared
    refine ⟨hsound.noBackends hflag, ?_⟩
    intro application model zone happlying hmodel
    have hprepared := hsound.prepared application happlying
    rcases isNewSnapshot application with ⟨now, hpurpose⟩ | hother
    · right
      obtain ⟨held, hheld, _⟩ := hcleared
      have hnewer := hprepared.newer now hpurpose
      rw [hheld] at hnewer
      exact ⟨held, hheld, version_lt_of_newer hnewer⟩
    · exact .inl (hprepared.noBackends hother (.inr hflag) hmodel)
  · intro application next happlying hstep held hheld item hitem hgroup hfree
    cases hstep with
    | succeed hnow hmodel =>
      cases happlying.symm.trans hnow
      exact (hsound.prepared application happlying).served hmodel hheld hitem hgroup hfree

/-! ## A Service of another NodeGroup -/

def remoteItem (backends : List Endpoint) : Api.Service :=
  { webItem "cluster" httpPort with nodeGroup := "others", backends := backends }

/-- A node without Services. -/
def plainController : Controller where
  cluster := "cluster"
  nodeGroup := "workers"
  nodeIPv6 := .v6 0x20010db8000000000000000000000001#128 ""
  services := []
  pods := ∅

theorem convertible_remote {backends : List Endpoint}
    (hbackends : ∀ backend ∈ backends, backend = webEndpoint httpPort) :
    Convertible "cluster" (remoteItem backends) where
  applied := by
    have hgroup : Manifest.validID "others" = true := by decide
    have hns : Manifest.validNamespace "default" = true := by decide
    have hname : Manifest.validID "web" = true := by decide
    exact ⟨hgroup, hns, hname, rfl, rfl⟩
  ports := by
    intro port hport
    obtain rfl := List.mem_singleton.mp hport
    decide
  nodup := List.nodup_singleton _
  plain := by
    intro backend hbackend
    obtain rfl := hbackends backend hbackend
    exact ⟨.v6 0xfd000000000000000000000000000001#128 "", ⟨by decide, by decide, by decide,
      by simp [plainEndpoint]⟩, by decide⟩
  single := by
    intro port hport backend hbackend
    obtain rfl := List.mem_singleton.mp hport
    obtain rfl := hbackends backend hbackend
    exact ⟨httpPort, by decide, by decide, by decide⟩

/-- The node can apply a snapshot with the remote Service alone. -/
theorem applyModel_remote {snapshot : Snapshot} {backends : List Endpoint}
    (hbackends : ∀ backend ∈ backends, backend = webEndpoint httpPort)
    (hservices : snapshot.services = [remoteItem backends]) :
    ∃ model zone, plainController.applyModel snapshot = .ok (model, zone) := by
  have hperm : (plainController.effectiveServices snapshot).Perm snapshot.services := by
    refine effectiveServices_perm ?_ rfl ?_
    · simp [hservices]
    · intro item hitem
      rw [hservices] at hitem
      obtain rfl := List.mem_singleton.mp hitem
      simp [remoteItem, plainController]
  rw [hservices] at hperm
  have heffective := List.perm_singleton.mp hperm
  obtain ⟨result, zone, hconvert, _⟩ := @convertServices_total "cluster" [remoteItem backends] [] ∅
    (by simpa using convertible_remote hbackends) (by simp) (by simp)
  refine ⟨⟨plainController.nodeIPv6, result⟩, zone, ?_⟩
  rw [Controller.applyModel, heffective]
  exact congrArg (· >>= _) hconvert

def remoteSnapshot : Snapshot :=
  ⟨1, 1, "node-9", "", [remoteItem [webEndpoint httpPort]]⟩

/-- The node has applied the snapshot, and is about to clear it. -/
def clearingView (model : Dataplane.Snapshot) (zone : Zone) : View where
  core := { snapshot := some remoteSnapshot, lastSnapshot := some 0 }
  controller := plainController
  model := some model
  zone := zone
  applying := some ⟨.clearStale, clearStaleSnapshot "workers" [] { snapshot := some remoteSnapshot }, []⟩
  cleared := none

theorem reachable_clearingView : ∃ model zone, Reachable viewSystem (clearingView model zone) := by
  have hstart : Reachable viewSystem (.fresh plainController) := .init ⟨plainController, rfl⟩
  have hreceived := hstart.step (View.Step.apply 0 remoteSnapshot rfl rfl)
  obtain ⟨model, zone, hmodel⟩ := @applyModel_remote remoteSnapshot [webEndpoint httpPort] (by simp) rfl
  have happlied := hreceived.step (View.Step.succeed rfl hmodel)
  exact ⟨model, zone, happlied.step (View.Step.clearStale (36 * 10 ^ 9) rfl rfl)⟩

/-- The node applies a snapshot with a backend, loses its lease, and clears it. -/
theorem stale_leases_stay_cleared_once :
    ∃ view next : View, Reachable viewSystem view ∧ view.Step .succeed next ∧ next.Cleared ∧
      (∀ model, next.model = some model → NoBackends model) ∧
      next.zone.lookup (serviceFqdn "default" "web") =
        some [Dataplane.deriveVIP "cluster" "default" "web"] := by
  obtain ⟨model, zone, hreach⟩ := reachable_clearingView
  obtain ⟨cleared, names, hcleared⟩ := @applyModel_remote
    (clearStaleSnapshot "workers" [] { snapshot := some remoteSnapshot }) [] (by simp) (by
      simp [clearStaleSnapshot, overlayLocalContract, clearBackends, remoteSnapshot, remoteItem, sortSlice])
  have hstep := @View.Step.succeed (clearingView model zone) _ cleared names rfl hcleared
  have hafter := hreach.step hstep
  refine ⟨_, _, hreach, hstep, ⟨remoteSnapshot, rfl, rfl⟩, ?_, ?_⟩
  · exact ((stale_leases_stay_cleared hafter).2.2.1 ⟨remoteSnapshot, rfl, rfl⟩).1
  · exact (stale_leases_stay_cleared hreach).2.2.2 _ _ rfl hstep remoteSnapshot rfl
      (remoteItem [webEndpoint httpPort]) (List.mem_singleton.mpr rfl)
      (by simp [remoteItem, clearingView, plainController]) List.not_mem_nil

end Podmin.Agent.Coordination
