import Podmin.Agent.Coordinator.Refresh

/-!
# What a new leader publishes

`acquire` carries the Services of the durable object into its first snapshot, but it also forgets the
registrations, and every `publish` starts from the registrations alone. The Services of a NodeGroup
are therefore gone from the first published snapshot on, until one of its nodes has registered.
-/

namespace Podmin.Agent.Coordination

open Foundation Transition Api Agent.Service

/-- A registered contract has the identity. -/
def Claimed (core : Coordinator) (identity : String) : Prop :=
  ∃ id node, core.nodes.lookup id = some node ∧
    identity ∈ node.hello.services.map Api.Service.identity

/-- A Service of the durable object the leader acquired, whose NodeGroup still has time to register:
its lease has not passed, none of its nodes has registered since, and nobody claims the identity. -/
structure Leader.Awaits (leader : Leader) (now : Int) (item : Api.Service) : Prop where
  durable : ∃ snapshot, leader.durable = some snapshot ∧ item ∈ snapshot.services
  lease : now - leader.acquiredAt < leaseDuration
  absent : item.nodeGroup ∉ leader.joined
  unclaimed : ¬Claimed leader.core item.identity

section Published

variable {config : Config} {owner : String → String} {leader next : Leader} {now : Int}
  {snapshot : Snapshot}

theorem Consistent.published_identities {core : Coordinator} (hcore : Consistent config.cluster core)
    {order : List ReceivedNode} (horder : order.Perm (core.nodes.pairs.map Prod.snd))
    (hbuild : publishBuild config core order = .ok snapshot) (identity : String) :
    identity ∈ snapshot.services.map Api.Service.identity ↔ Claimed core identity := by
  have hcoherent := hcore.coherent horder
  rw [((buildClusterSnapshot_services hbuild).map _).mem_iff, List.mem_map]
  constructor
  · rintro ⟨merged, hmerged, rfl⟩
    obtain ⟨peer, hpeer, item, hitem, rfl⟩ := hcoherent.mem_mergedServices.mp hmerged
    obtain ⟨node, hnode, rfl⟩ := List.mem_map.mp hpeer
    obtain ⟨id, hid⟩ := (mem_order horder).mp hnode
    exact ⟨id, node, hid, List.mem_map.mpr ⟨item, hitem, rfl⟩⟩
  · rintro ⟨id, node, hid, hidentity⟩
    obtain ⟨item, hitem, rfl⟩ := List.mem_map.mp hidentity
    have hpeer : node.peer ∈ order.map ReceivedNode.peer :=
      List.mem_map.mpr ⟨node, (mem_order horder).mpr ⟨id, hid⟩, rfl⟩
    exact ⟨_, hcoherent.mem_mergedServices.mpr ⟨node.peer, hpeer, item, hitem, rfl⟩, rfl⟩

/-- A published snapshot has every awaited Service exactly when there is none. -/
theorem failover_identities_iff (hreach : Reachable (leaderSystem config owner) leader)
    (hpublish : leader.Step config owner (.publish now snapshot) next) :
    (∀ item, leader.Awaits now item → item.identity ∈ snapshot.services.map Api.Service.identity) ↔
      ∀ item, ¬leader.Awaits now item := by
  have hconsistent := (sound_of_reachable hreach).consistent
  cases hpublish with
  | publish now horder hbuild =>
    constructor
    · intro hkept item hawaits
      have hclaimed := (hconsistent.published_identities horder hbuild _).mp (hkept item hawaits)
      exact hawaits.unclaimed hclaimed
    · intro hnone item hawaits
      exact absurd hawaits (hnone item)

end Published

/-! ## A leader that registers first -/

/-- The durable object of a leader that has the Service of a node of another NodeGroup. -/
def durableOf (nodeGroup : String) : Snapshot :=
  ⟨1, 4, "node-9", "", [{ webItem "cluster" httpPort with nodeGroup := nodeGroup }]⟩

/-- The leader has acquired its generation over the object. -/
def Leader.acquiredOver (durable : Snapshot) : Leader where
  core := acquired (acquireCandidate workersConfig [] (some durable)) {}
  serving _ := none
  sequences _ := []
  durable := some durable
  acquiredAt := 0
  joined := []

theorem reachable_acquiredOver (durable : Snapshot) :
    Reachable (leaderSystem workersConfig fun _ ↦ "node-1") (.acquiredOver durable) := by
  have hstart : Reachable (leaderSystem workersConfig fun _ ↦ "node-1") Leader.fresh := .init rfl
  exact hstart.step (Leader.Step.acquire 0 (some durable) [])

/-- The acquired leader registers itself with the given contract. -/
theorem reachable_registered (durable : Snapshot) {services : List Api.Service}
    (hcontract : ValidContract "cluster" "workers" plainDigest services) :
    Reachable (leaderSystem workersConfig fun _ ↦ "node-1")
      ((Leader.acquiredOver durable).registerHello workersConfig "session" services 0) := by
  have hacquired := reachable_acquiredOver durable
  exact hacquired.step (@Leader.Step.registerHello workersConfig (fun _ ↦ "node-1") _ "session" services 0
    (by decide) rfl (by decide) hcontract rfl rfl)

/-- The snapshot after the leader's own registration has lost the Service of the other NodeGroup,
which the acquired object had and `acquire` had accepted. -/
theorem failover_drops_identity :
    ∃ (leader : Leader) (snapshot : Snapshot) (item : Api.Service),
      Reachable (leaderSystem workersConfig fun _ ↦ "node-1") leader ∧
      validateSnapshotOwnership (acquireCandidate workersConfig [] (some (durableOf "others"))) = .ok () ∧
      leader.Step workersConfig (fun _ ↦ "node-1") (.publish 0 snapshot) leader ∧
      leader.Awaits 0 item ∧ item.identity ∉ snapshot.services.map Api.Service.identity := by
  have hreach := @reachable_registered (durableOf "others") []
    (validContract_plain (by decide) (by simp) (by simp) (by simp))
  have hconsistent := (sound_of_reachable hreach).consistent
  obtain ⟨snapshot, hbuild⟩ := hconsistent.publishBuild_total workersConfig (List.Perm.refl _)
  have hunclaimed : ∀ identity, ¬Claimed ((Leader.acquiredOver (durableOf "others")).registerHello
      workersConfig "session" [] 0).core identity := by
    rintro identity ⟨id, node, hid, hidentity⟩
    have hentry := GoMap.mem_pairs.mpr hid
    obtain ⟨rfl, rfl⟩ := Prod.mk.inj (List.mem_singleton.mp hentry)
    cases hidentity
  refine ⟨_, snapshot, { webItem "cluster" httpPort with nodeGroup := "others" }, hreach, ?_,
    .publish 0 (List.Perm.refl _) hbuild, ⟨⟨durableOf "others", rfl, List.mem_singleton.mpr rfl⟩, ?_, ?_,
      hunclaimed _⟩, ?_⟩
  · rfl
  · decide
  · decide
  · rw [hconsistent.published_identities (List.Perm.refl _) hbuild]
    exact hunclaimed _

/-- The leader's own Service is published again. -/
theorem failover_identities_iff_own :
    ∃ (leader : Leader) (snapshot : Snapshot),
      leader.Step workersConfig (fun _ ↦ "node-1") (.publish 0 snapshot) leader ∧
      leader.durable = some (durableOf "workers") ∧
      ∀ item, leader.Awaits 0 item → item.identity ∈ snapshot.services.map Api.Service.identity := by
  have hreach := @reachable_registered (durableOf "workers") _
    (@validContract_web "cluster" httpPort (by decide))
  obtain ⟨snapshot, hbuild⟩ :=
    (sound_of_reachable hreach).consistent.publishBuild_total workersConfig (List.Perm.refl _)
  have hpublish := @Leader.Step.publish workersConfig (fun _ ↦ "node-1") _ 0 _ _ (List.Perm.refl _) hbuild
  refine ⟨_, snapshot, hpublish, rfl, (failover_identities_iff hreach hpublish).mpr ?_⟩
  rintro item ⟨⟨held, hheld, hitem⟩, _, habsent, _⟩
  cases hheld
  obtain rfl := List.mem_singleton.mp hitem
  exact habsent (List.mem_singleton.mpr rfl)

end Podmin.Agent.Coordination
