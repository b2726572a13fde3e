import Podmin.Agent.Coordinator.Applicable
import Podmin.Agent.Service.LocalOverride
import Podmin.Manifest.Canonical

/-!
# Restoring the durable view

A node that starts applies the durable snapshot under its own contract, without backends. `LoadSnapshot` drops
the items of its own NodeGroup only; an item of another NodeGroup that claims an identity of the local contract
is left to the loop of `Apply`. That drops it when it comes before the local item, that is when the name of its
NodeGroup is the smaller one. Otherwise the local item has already been taken, both are applied, and the
repeated identity is refused.
-/

namespace Podmin.Agent.Coordination

open Foundation Fallible Transition Api Manifest Agent.Service

variable {snapshot : Snapshot} {nodeGroup : String} {item : Api.Service}

/-! ## What the durable object holds -/

/-- A node of the cluster: its Services are parsed and have different identities. -/
structure ParsedNode (cluster : String) (controller : Controller) : Prop where
  sameCluster : controller.cluster = cluster
  parsed : ∀ service ∈ controller.services, ∃ document, parseService document = .ok service
  distinct : (controller.services.map fun service ↦ (service.ns, service.name)).Nodup

/-- The snapshots that are written to the durable object: by a node that acquires the leadership over what was
written before, and by a leader that publishes its registrations. -/
inductive Written (cluster : String) : Snapshot → Prop
  | acquire {config : Config} {controller : Controller} {current : Option Snapshot}
      (hcontroller : ParsedNode cluster controller) (hgroup : config.nodeGroup = controller.nodeGroup)
      (hcurrent : ∀ body, current = some body → Written cluster body)
      (hownership : validateSnapshotOwnership (acquireCandidate config controller.contract.2 current) =
        .ok ()) :
      Written cluster (acquireCandidate config controller.contract.2 current)
  | publish {config : Config} {core : Coordinator} {order : List ReceivedNode} {snapshot : Snapshot}
      (hcore : Consistent cluster core) (horder : order.Perm (core.nodes.pairs.map Prod.snd))
      (hbuild : publishBuild config core order = .ok snapshot) :
      Written cluster snapshot

/-- Services with different identities that are valid contracts of their NodeGroups apart from backends. -/
structure ValidBody (cluster : String) (services : List Api.Service) : Prop where
  distinct : (services.map Api.Service.identity).Nodup
  items : ∀ item ∈ services, ValidItem cluster item.nodeGroup { item with backends := [] }

variable {cluster : String}

theorem validItem_clear (hitem : ValidItem cluster nodeGroup item) :
    ValidItem cluster item.nodeGroup { item with backends := [] } :=
  { hitem with nodeGroup_eq := rfl, backends_eq := rfl }

section ValidBody

variable {cluster : String} {services : List Api.Service}

theorem ValidBody.plain (hbody : ValidBody cluster services) (hitem : item ∈ services) :
    Agent.Service.Plain item := by
  have hvalid := hbody.items item hitem
  exact ⟨nul_not_mem_namespace hvalid.validNamespace, nul_not_mem_id hvalid.validID⟩

theorem ValidBody.convertible (hbody : ValidBody cluster services) (hitem : item ∈ services)
    (hgroup : validID item.nodeGroup = true) (hbackends : item.backends = []) :
    Convertible cluster item where
  applied :=
    have hvalid := hbody.items item hitem
    ⟨hgroup, hvalid.validNamespace, hvalid.validID, hvalid.fqdn_eq, hvalid.vip_eq⟩
  ports := (hbody.items item hitem).validPorts
  nodup := (hbody.items item hitem).nodupPorts
  plain := by simp [hbackends]
  single := by simp [hbackends]

variable {other : List Api.Service}

section Body

variable (hbody : ValidBody cluster services)

include hbody

theorem ValidBody.perm (hperm : other.Perm services) :
    ValidBody cluster other where
  distinct := (hperm.map _).nodup_iff.mpr hbody.distinct
  items item hitem := hbody.items item (hperm.mem_iff.mp hitem)

theorem ValidBody.filter (keep : Api.Service → Bool) :
    ValidBody cluster (services.filter keep) where
  distinct := (List.filter_sublist.map _).nodup hbody.distinct
  items item hitem := hbody.items item (List.mem_of_mem_filter hitem)

theorem ValidBody.append (hother : ValidBody cluster other)
    (hdisjoint : ∀ item ∈ services, item.identity ∉ other.map Api.Service.identity) :
    ValidBody cluster (services ++ other) where
  distinct := by
    rw [List.map_append]
    apply hbody.distinct.append hother.distinct
    intro identity hidentity
    obtain ⟨item, hitem, rfl⟩ := List.mem_map.mp hidentity
    exact hdisjoint item hitem
  items item hitem := (List.mem_append.mp hitem).elim (hbody.items item) (hother.items item)

/-- Without their backends the items are as valid as before. -/
theorem ValidBody.clear :
    ValidBody cluster (services.map fun item ↦ { item with backends := [] }) where
  distinct := by
    rw [List.map_map]
    exact hbody.distinct
  items item hitem := by
    obtain ⟨before, hbefore, rfl⟩ := List.mem_map.mp hitem
    exact hbody.items before hbefore

/-- Replacing the local contract keeps a body valid. -/
theorem ValidBody.overlay {contract : List Api.Service} (hcontract : ValidBody cluster contract)
    (nodeGroup : String) :
    ValidBody cluster (services.filter (fun item ↦ item.nodeGroup != nodeGroup &&
      !decide (item.identity ∈ contract.map Api.Service.identity)) ++ contract) := by
  apply (hbody.filter _).append hcontract
  intro item hitem
  have hkept := (List.mem_filter.mp hitem).2
  rw [Bool.and_eq_true, Bool.not_eq_true', decide_eq_false_iff_not] at hkept
  exact hkept.2

end Body

end ValidBody

theorem ParsedNode.validBody {controller : Controller} (hcontroller : ParsedNode cluster controller) :
    ValidBody cluster controller.contract.2 := by
  have hitem : ∀ item ∈ controller.contract.2, ValidItem cluster controller.nodeGroup item := by
    intro item hitem
    obtain ⟨service, hservice, rfl⟩ := List.mem_map.mp hitem
    obtain ⟨document, hparse⟩ := hcontroller.parsed service (mem_sortedDesired.mp hservice)
    rw [← hcontroller.sameCluster]
    exact validItem_contractItem (parseService_valid hparse) controller.cluster controller.nodeGroup
  have hqualified := nodup_contract_qualified hcontroller.distinct
  constructor
  · apply (hqualified.of_map _).map_on
    intro left hleft right hright hidentity
    have hplain : Agent.Service.Plain left :=
      ⟨nul_not_mem_namespace (hitem left hleft).validNamespace, nul_not_mem_id (hitem left hleft).validID⟩
    exact List.inj_on_of_nodup_map hqualified hleft hright (hplain.qualified_eq hidentity)
  · intro item hmem
    exact validItem_clear (hitem item hmem)

/-- Every written snapshot is valid apart from its backends. -/
theorem Written.validBody (hwritten : Written cluster snapshot) :
    ValidBody cluster snapshot.services := by
  induction hwritten with
  | @acquire config controller current hcontroller _ _ _ ih =>
    have hread : ValidBody cluster (current.getD emptySnapshot).services := by
      cases current with
      | none => exact ⟨List.nodup_nil, by simp [emptySnapshot]⟩
      | some body => exact ih body rfl
    exact (hread.clear.overlay hcontroller.validBody config.nodeGroup).perm (sortSlice_perm _ _)
  | @publish config core order snapshot hcore horder hbuild =>
    have hcoherent := hcore.coherent horder
    apply ValidBody.perm _ (buildClusterSnapshot_services hbuild)
    refine ⟨hcoherent.nodup_mergedServices, ?_⟩
    intro merged hmerged
    obtain ⟨peer, hpeer, item, hitem, rfl⟩ := hcoherent.mem_mergedServices.mp hmerged
    have hvalid := validItem_clear ((hcoherent.contract peer hpeer).items item hitem)
    exact hvalid

/-! ## What is restored -/

/-- The local contract, and the Services of other NodeGroups that it does not claim, without backends. -/
def restored (controller : Controller) (durable : Snapshot) : List Api.Service :=
  controller.contract.2 ++ (clearBackends durable).services.filter fun item ↦
    item.nodeGroup != controller.nodeGroup &&
      !decide (item.identity ∈ controller.contract.2.map Api.Service.identity)

/-- The snapshot `LoadSnapshot` applies. -/
def loaded (controller : Controller) (durable : Snapshot) : Snapshot :=
  loadSnapshot controller.nodeGroup controller.contract.2 durable

/-- The overlay of the same snapshot without backends. -/
def relaid (controller : Controller) (durable : Snapshot) : Snapshot :=
  overlayLocalContract controller.nodeGroup controller.contract.2 (clearBackends durable)

/-- The coordinator's `apply` with the controller it calls. -/
def applyThrough (controller : Controller) (reconcile : Dataplane.Snapshot → Except String Unit) (now : Int)
    (snapshot : Snapshot) (core : Coordinator) (serving : Service.Serving) :
    Coordinator × Service.Serving × Except String Unit :=
  if upToDate core.snapshot snapshot then (core, serving, .ok ())
  else
    let (after, failure) := controller.applyTo reconcile serving snapshot
    let (next, result) := apply (failure.elim (.ok ()) Except.error) now snapshot core
    (next, after, result)

/-- A process that holds no snapshot yet calls the controller and returns what that returns. -/
theorem applyThrough_of_none {controller : Controller} {reconcile : Dataplane.Snapshot → Except String Unit}
    {now : Int} {core : Coordinator} {serving : Service.Serving} (hnone : core.snapshot = none) :
    (applyThrough controller reconcile now snapshot core serving).2 =
      ((controller.applyTo reconcile serving snapshot).1,
        (controller.applyTo reconcile serving snapshot).2.elim (.ok ()) .error) := by
  have hnewer : upToDate core.snapshot snapshot = false := by
    rw [hnone]
    rfl
  simp only [applyThrough, hnewer, Bool.false_eq_true, if_false]
  generalize controller.applyTo reconcile serving snapshot = applied
  obtain ⟨after, failure⟩ := applied
  cases failure with
  | none => simp [apply, hnewer]
  | some message => simp [apply, hnewer]

/-- What `LoadSnapshot` is for: the durable view is accepted, what is given to the dataplane and to DNS once the
dataplane has taken it is exactly what is to be restored, and `overlayLocalContract` would do the same. -/
structure Restores (controller : Controller) (durable : Snapshot) : Prop where
  applies : ∃ model zone, (∃ services : List Api.Service, services.Perm (restored controller durable) ∧
      Serves controller.cluster services model zone) ∧
    ∀ reconcile now core serving, core.snapshot = none → reconcile model = .ok () →
      (applyThrough controller reconcile now (loaded controller durable) core serving).2 =
        (⟨zone, true, serving.reconciled ++ [model]⟩, .ok ())
  agrees : ∀ reconcile now core serving, core.snapshot = none →
    (applyThrough controller reconcile now (loaded controller durable) core serving).2 =
      (applyThrough controller reconcile now (relaid controller durable) core serving).2

section Restore

variable {cluster : String} {controller : Controller} {durable : Snapshot}

variable {services : List Api.Service}

/-- Items that come later have the greater key. -/
theorem pairwise_serviceOrder (hdistinct : (services.map serviceOrder).Nodup) :
    (sortSlice serviceIdentityLess services).Pairwise fun left right ↦
      serviceOrder left < serviceOrder right := by
  have hordered := sortSlice_pairwise serviceLess_eq services
  have hkeys : ((sortSlice serviceIdentityLess services).map serviceOrder).Nodup :=
    ((sortSlice_perm serviceIdentityLess services).map _).nodup_iff.mpr hdistinct
  rw [List.nodup_iff_pairwise_ne, List.pairwise_map] at hkeys
  exact hordered.imp₂ (fun _ _ hle hne ↦ lt_of_le_of_ne hle hne) hkeys

theorem ValidBody.nodup_serviceOrder (hbody : ValidBody cluster services) :
    (services.map serviceOrder).Nodup := by
  apply (hbody.distinct.of_map _).map_on
  intro left hleft right hright horder
  exact List.inj_on_of_nodup_map hbody.distinct hleft hright (identity_of_serviceOrder horder)

/-- Under one identity the keys compare as the NodeGroups do. -/
theorem serviceOrder_lt_iff {left right : Api.Service} (hplain : Agent.Service.Plain left)
    (hidentity : left.identity = right.identity) :
    serviceOrder left < serviceOrder right ↔ left.nodeGroup < right.nodeGroup := by
  obtain ⟨hns, hname⟩ := identity_inj hplain.1 hplain.2 hidentity
  rw [serviceOrder, serviceOrder, hns, hname, Prod.Lex.toLex_lt_toLex, Prod.Lex.toLex_lt_toLex]
  simp

theorem contract_nodeGroup (hitem : item ∈ controller.contract.2) :
    item.nodeGroup = controller.nodeGroup := by
  obtain ⟨service, _, rfl⟩ := List.mem_map.mp hitem
  rfl

/-- The items of other NodeGroups that are loaded. -/
def foreign (controller : Controller) (durable : Snapshot) : List Api.Service :=
  (clearBackends durable).services.filter fun item ↦ item.nodeGroup != controller.nodeGroup

theorem mem_foreign : item ∈ foreign controller durable ↔
    item ∈ (clearBackends durable).services ∧ item.nodeGroup ≠ controller.nodeGroup := by
  rw [foreign, List.mem_filter, bne_iff_ne]

theorem loaded_perm : (loaded controller durable).services.Perm
    (foreign controller durable ++ controller.contract.2) :=
  sortSlice_perm _ _

/-- Where another NodeGroup still has an identity of the local contract, the name of that NodeGroup is the
smaller one. -/
def ClaimsPrecede (controller : Controller) (durable : Snapshot) : Prop :=
  ∀ item ∈ durable.services, item.nodeGroup ≠ controller.nodeGroup →
    item.identity ∈ controller.contract.2.map Api.Service.identity → item.nodeGroup < controller.nodeGroup

/-- When the durable view can be restored: NodeGroups have valid names, and claims precede. -/
structure Restorable (controller : Controller) (durable : Snapshot) : Prop where
  nodeGroups : ∀ item ∈ restored controller durable, validID item.nodeGroup = true
  precede : ClaimsPrecede controller durable

theorem ClaimsPrecede.foreign (hprecede : ClaimsPrecede controller durable)
    (hitem : item ∈ foreign controller durable)
    (hclaimed : item.identity ∈ controller.contract.2.map Api.Service.identity) :
    item.nodeGroup < controller.nodeGroup := by
  obtain ⟨hcleared, hgroup⟩ := mem_foreign.mp hitem
  obtain ⟨before, hbefore, rfl⟩ := List.mem_map.mp hcleared
  exact hprecede before hbefore hgroup hclaimed

section Loop

variable (hcontroller : ParsedNode cluster controller) (hdurable : ValidBody cluster durable.services)

include hcontroller hdurable

theorem pairwise_loaded : (loaded controller durable).services.Pairwise fun left right ↦
    serviceOrder left < serviceOrder right := by
  apply pairwise_serviceOrder
  rw [List.map_append]
  apply (hdurable.clear.filter _).nodup_serviceOrder.append hcontroller.validBody.nodup_serviceOrder
  intro key hforeign hlocal
  obtain ⟨item, hitem, rfl⟩ := List.mem_map.mp hforeign
  obtain ⟨claimed, hclaimed, horder⟩ := List.mem_map.mp hlocal
  have hgroup : claimed.nodeGroup = item.nodeGroup :=
    (Prod.mk.inj (toLex.injective (Prod.mk.inj (toLex.injective horder)).2)).2
  exact (mem_foreign.mp hitem).2 (hgroup.symm.trans (contract_nodeGroup hclaimed))

theorem plain_loaded (hitem : item ∈ (loaded controller durable).services) :
    Agent.Service.Plain item := by
  rcases List.mem_append.mp (loaded_perm.mem_iff.mp hitem) with hforeign | hlocal
  · exact (hdurable.clear.filter _).plain hforeign
  · exact hcontroller.validBody.plain hlocal

/-- Only items of greater NodeGroups follow a local item under its identity. -/
theorem keptLast_loaded (hprecede : ClaimsPrecede controller durable) :
    KeptLast controller.nodeGroup (loaded controller durable).services
      (contractMap controller.contract.2) := by
  apply (pairwise_loaded hcontroller hdurable).imp_of_mem
  intro left right hleft hright hless hidentity hkeeps
  cases hlookup : (contractMap controller.contract.2).lookup left.identity with
  | none => rfl
  | some claimed =>
    have hgroup := ((keeps_claimed_iff hlookup).mp hkeeps).1
    have hgreater := (serviceOrder_lt_iff (plain_loaded hcontroller hdurable hleft) hidentity).mp hless
    rw [hgroup] at hgreater
    obtain ⟨hclaimed, hsame⟩ := lookup_contractMap hlookup
    rcases List.mem_append.mp (loaded_perm.mem_iff.mp hright) with hforeign | hlocal
    · have hsmaller := hprecede.foreign hforeign
        (List.mem_map.mpr ⟨claimed, hclaimed, hsame.trans hidentity⟩)
      exact absurd hsmaller hgreater.asymm
    · rw [contract_nodeGroup hlocal] at hgreater
      exact absurd hgreater (lt_irrefl _)

end Loop

/-- A snapshot that lists the local contract, and nothing after it under its identities, is filtered. -/
theorem effectiveServices_eq_filter (hdistinct : (controller.contract.2.map Api.Service.identity).Nodup)
    (hlast : KeptLast controller.nodeGroup snapshot.services (contractMap controller.contract.2))
    (hlocal : ∀ item ∈ controller.contract.2, item ∈ snapshot.services) :
    controller.effectiveServices snapshot = sortSlice serviceLess
      (snapshot.services.filter (keeps controller.nodeGroup (contractMap controller.contract.2))) := by
  obtain ⟨hkept, hwanted⟩ := @foldl_overlayItem_filter controller.nodeGroup snapshot.services
    ([], contractMap controller.contract.2) hlast
  rw [Controller.effectiveServices, hkept, List.nil_append]
  generalize (snapshot.services.foldl (overlayItem controller.nodeGroup)
    ([], contractMap controller.contract.2)).2 = remaining at hwanted
  have hnone : remaining.pairs = [] := by
    rw [List.eq_nil_iff_forall_not_mem]
    rintro ⟨identity, claimed⟩ hentry
    have hlookup := GoMap.mem_pairs.mp hentry
    rw [hwanted] at hlookup
    split at hlookup
    · cases hlookup
    · next hmissing =>
      -- the claimed item is listed, so it was kept
      obtain ⟨hclaimed, hidentity⟩ := lookup_contractMap hlookup
      apply hmissing
      have hkeeps := keeps_of_stands hdistinct hclaimed (contract_nodeGroup hclaimed)
        (by rw [← contract_backends hclaimed])
      exact List.mem_map.mpr ⟨claimed, List.mem_filter.mpr ⟨hlocal claimed hclaimed, hkeeps⟩, hidentity⟩
  rw [hnone, List.map_nil, List.append_nil]

theorem restored_backends (hitem : item ∈ restored controller durable) :
    item.backends = [] := by
  rcases List.mem_append.mp hitem with hlocal | hforeign
  · exact contract_backends hlocal
  · obtain ⟨before, _, rfl⟩ := List.mem_map.mp (List.mem_of_mem_filter hforeign)
    rfl

section Agreement

variable (hcontroller : ParsedNode cluster controller)

include hcontroller

/-- The local contract is kept as it is. -/
theorem filter_keeps_contract : controller.contract.2.filter
    (keeps controller.nodeGroup (contractMap controller.contract.2)) = controller.contract.2 := by
  rw [List.filter_eq_self]
  intro item hitem
  exact keeps_of_stands hcontroller.validBody.distinct hitem (contract_nodeGroup hitem)
    (by rw [← contract_backends hitem])

/-- An item of another NodeGroup is kept exactly when its identity is not claimed. -/
theorem keeps_foreign (hgroup : item.nodeGroup ≠ controller.nodeGroup) :
    keeps controller.nodeGroup (contractMap controller.contract.2) item =
      !decide (item.identity ∈ controller.contract.2.map Api.Service.identity) := by
  cases hlookup : (contractMap controller.contract.2).lookup item.identity with
  | some claimed =>
    obtain ⟨hclaimed, hidentity⟩ := lookup_contractMap hlookup
    have hmem := List.mem_map.mpr ⟨claimed, hclaimed, hidentity⟩
    rw [keeps, hlookup]
    simp [hgroup, hmem]
  | none =>
    have hfree : item.identity ∉ controller.contract.2.map Api.Service.identity := by
      intro hmem
      obtain ⟨claimed, hclaimed, hidentity⟩ := List.mem_map.mp hmem
      have hfound := lookup_contractMap_self hcontroller.validBody.distinct hclaimed
      rw [hidentity, hlookup] at hfound
      cases hfound
    rw [keeps, hlookup]
    simp [hgroup, hfree]

/-- Both overlays keep what is to be restored. -/
theorem filter_keeps_foreign (choose : Api.Service → Bool)
    (hchoose : ∀ item, item.nodeGroup ≠ controller.nodeGroup →
      item.identity ∉ controller.contract.2.map Api.Service.identity → choose item = true) :
    (((clearBackends durable).services.filter fun item ↦
        item.nodeGroup != controller.nodeGroup && choose item) ++ controller.contract.2).filter
      (keeps controller.nodeGroup (contractMap controller.contract.2)) =
    ((clearBackends durable).services.filter fun item ↦ item.nodeGroup != controller.nodeGroup &&
      !decide (item.identity ∈ controller.contract.2.map Api.Service.identity)) ++
        controller.contract.2 := by
  rw [List.filter_append, filter_keeps_contract hcontroller, List.filter_filter]
  congr 1
  apply List.filter_congr
  intro item _
  by_cases hgroup : item.nodeGroup = controller.nodeGroup
  · simp [hgroup]
  · rw [keeps_foreign hcontroller hgroup]
    by_cases hclaimed : item.identity ∈ controller.contract.2.map Api.Service.identity
    · simp [hclaimed]
    · simp [hclaimed, hchoose item hgroup hclaimed]

theorem filter_keeps_loaded : ((loaded controller durable).services.filter
    (keeps controller.nodeGroup (contractMap controller.contract.2))).Perm (restored controller durable) := by
  apply (loaded_perm.filter _).trans
  have hforeign : foreign controller durable = (clearBackends durable).services.filter fun item ↦
      item.nodeGroup != controller.nodeGroup && true := by
    simp only [foreign, Bool.and_true]
  rw [hforeign, filter_keeps_foreign hcontroller (fun _ ↦ true) (fun _ _ _ ↦ rfl)]
  exact List.perm_append_comm

theorem filter_keeps_relaid : ((relaid controller durable).services.filter
    (keeps controller.nodeGroup (contractMap controller.contract.2))).Perm (restored controller durable) := by
  apply ((sortSlice_perm _ _).filter _).trans
  rw [filter_keeps_foreign hcontroller
    (fun item ↦ !decide (item.identity ∈ controller.contract.2.map Api.Service.identity))
    (fun item _ hfree ↦ by simp [hfree])]
  exact List.perm_append_comm

variable (hdurable : ValidBody cluster durable.services)

include hdurable

theorem validBody_restored : ValidBody cluster (restored controller durable) :=
  (hdurable.clear.overlay hcontroller.validBody controller.nodeGroup).perm List.perm_append_comm

/-- A snapshot of which the loop keeps what is to be restored is applied in one way only. -/
theorem effectiveServices_restored
    (hlast : KeptLast controller.nodeGroup snapshot.services (contractMap controller.contract.2))
    (hfilter : (snapshot.services.filter
      (keeps controller.nodeGroup (contractMap controller.contract.2))).Perm (restored controller durable)) :
    controller.effectiveServices snapshot = sortSlice serviceLess (restored controller durable) := by
  have hbody := validBody_restored hcontroller hdurable
  rw [effectiveServices_eq_filter hcontroller.validBody.distinct hlast]
  · apply sortSlice_congr serviceLess_eq _ hfilter
    intro first hfirst second hsecond horder
    exact List.inj_on_of_nodup_map hbody.distinct hfirst hsecond (identity_of_serviceOrder horder)
  · intro item hitem
    exact List.mem_of_mem_filter (hfilter.mem_iff.mpr (List.mem_append_left _ hitem))

theorem effectiveServices_relaid :
    controller.effectiveServices (relaid controller durable) =
      sortSlice serviceLess (restored controller durable) := by
  apply effectiveServices_restored hcontroller hdurable _ (filter_keeps_relaid hcontroller)
  have hbody := (hdurable.clear.overlay hcontroller.validBody controller.nodeGroup).perm
    (sortSlice_perm serviceIdentityLess _)
  exact (unambiguous_of_nodup hbody.distinct _).keptLast

/-- Applied in the place of the durable view, the restored Services are accepted. -/
theorem applyModel_of_restored (hgroups : ∀ item ∈ restored controller durable, validID item.nodeGroup = true)
    (heffective : controller.effectiveServices snapshot = sortSlice serviceLess (restored controller durable)) :
    ∃ model zone, controller.applyModel snapshot = .ok (model, zone) := by
  have hperm := sortSlice_perm serviceLess (restored controller durable)
  have hbody := (validBody_restored hcontroller hdurable).perm hperm
  have hconvertible : ∀ item ∈ sortSlice serviceLess (restored controller durable),
      Convertible cluster item := by
    intro item hitem
    have hrestored := hperm.mem_iff.mp hitem
    exact hbody.convertible hitem (hgroups item hrestored) (restored_backends hrestored)
  obtain ⟨result, zone, hconvert, _⟩ := @convertServices_total cluster _ [] ∅ hconvertible hbody.distinct
    (by simp)
  refine ⟨⟨controller.nodeIPv6, result⟩, zone, ?_⟩
  rw [Controller.applyModel, heffective, hcontroller.sameCluster, hconvert]
  rfl

theorem effectiveServices_loaded (hprecede : ClaimsPrecede controller durable) :
    controller.effectiveServices (loaded controller durable) =
      sortSlice serviceLess (restored controller durable) :=
  effectiveServices_restored hcontroller hdurable (keptLast_loaded hcontroller hdurable hprecede)
    (filter_keeps_loaded hcontroller)

theorem restores_of_restorable (hrestorable : Restorable controller durable) :
    Restores controller durable := by
  have hloaded := effectiveServices_loaded hcontroller hdurable hrestorable.precede
  have hsame : controller.applyModel (loaded controller durable) =
      controller.applyModel (relaid controller durable) := by
    rw [Controller.applyModel, Controller.applyModel, hloaded, effectiveServices_relaid hcontroller hdurable]
  constructor
  · obtain ⟨model, zone, hmodel⟩ := applyModel_of_restored hcontroller hdurable hrestorable.nodeGroups
      hloaded
    refine ⟨model, zone, ⟨_, ?_, serves_effectiveServices hmodel⟩, ?_⟩
    · rw [hloaded]
      exact sortSlice_perm _ _
    · intro reconcile now core serving hnone hreconcile
      rw [applyThrough_of_none hnone, Controller.applyTo_of_ok serving hmodel hreconcile]
      rfl
  · intro reconcile now core serving hnone
    rw [applyThrough_of_none hnone, applyThrough_of_none hnone, Controller.applyTo, hsame,
      ← Controller.applyTo]

/-- An item of a greater NodeGroup under a claimed identity comes after the local one, and is kept. -/
theorem follows_loaded {claimed : Api.Service} (hitem : item ∈ foreign controller durable)
    (hclaimed : claimed ∈ controller.contract.2) (hidentity : claimed.identity = item.identity)
    (hgreater : controller.nodeGroup < item.nodeGroup) :
    item ∈ ((loaded controller durable).services.foldl (overlayItem controller.nodeGroup)
      ([], contractMap controller.contract.2)).1 := by
  have hordered := pairwise_loaded hcontroller hdurable
  have hgroup := (mem_foreign.mp hitem).2
  have hless : serviceOrder claimed < serviceOrder item := by
    rw [serviceOrder_lt_iff (hcontroller.validBody.plain hclaimed) hidentity, contract_nodeGroup hclaimed]
    exact hgreater
  have hlocal : claimed ∈ (loaded controller durable).services :=
    loaded_perm.mem_iff.mpr (List.mem_append_right _ hclaimed)
  have hforeign : item ∈ (loaded controller durable).services :=
    loaded_perm.mem_iff.mpr (List.mem_append_left _ hitem)
  obtain ⟨before, after, hsplit⟩ := List.append_of_mem hlocal
  rw [hsplit] at hordered hforeign ⊢
  have hafter : item ∈ after := by
    rcases List.mem_append.mp hforeign with hbefore | hrest
    · have hearlier := (List.pairwise_append.mp hordered).2.2 item hbefore claimed List.mem_cons_self
      exact absurd hearlier hless.asymm
    · rcases List.mem_cons.mp hrest with rfl | hafter
      · exact absurd hless (lt_irrefl _)
      · exact hafter
  rw [List.foldl_append, List.foldl_cons]
  apply foldl_overlayItem_foreign hafter hgroup
  -- whether or not the local item was still wanted, it no longer is
  generalize hoverlay : before.foldl (overlayItem controller.nodeGroup)
    ([], contractMap controller.contract.2) = overlay
  rcases @overlayItem_cases controller.nodeGroup overlay claimed with ⟨_, _, herased⟩ | ⟨hdropped, hsame⟩
  · rw [herased, if_pos hidentity.symm]
  · rw [hsame]
    cases hlookup : overlay.2.lookup item.identity with
    | none => rfl
    | some wanted =>
      rw [← hoverlay] at hlookup
      have hwanted := (lookup_contractMap (foldl_overlayItem_subset.2 _ _ hlookup))
      have hequal : wanted = claimed := List.inj_on_of_nodup_map hcontroller.validBody.distinct hwanted.1
        hclaimed (hwanted.2.trans hidentity.symm)
      rw [hoverlay, ← hidentity, hequal] at hlookup
      have hkeeps := (keeps_claimed_iff hlookup).mpr
        ⟨contract_nodeGroup hclaimed, by rw [← contract_backends hclaimed]⟩
      rw [hkeeps] at hdropped
      cases hdropped

variable {model : Dataplane.Snapshot}

/-- Both items are applied then, and the repeated identity is refused. -/
theorem claimsPrecede_of_applyModel {zone : Zone}
    (happly : controller.applyModel (loaded controller durable) = .ok (model, zone)) :
    ClaimsPrecede controller durable := by
  intro item hitem hgroup hclaims
  by_contra hnot
  have hgreater : controller.nodeGroup < item.nodeGroup := lt_of_le_of_ne (not_lt.mp hnot) hgroup.symm
  obtain ⟨claimed, hclaimed, hidentity⟩ := List.mem_map.mp hclaims
  have hforeign : { item with backends := [] } ∈ foreign controller durable :=
    mem_foreign.mpr ⟨List.mem_map.mpr ⟨item, hitem, rfl⟩, hgroup⟩
  have hkept := follows_loaded hcontroller hdurable hforeign hclaimed hidentity hgreater
  have hperm := effectiveServices_perm_loop controller (loaded controller durable)
  have hlookup := lookup_contractMap_self hcontroller.validBody.distinct hclaimed
  -- the local item is applied in one form or the other
  have hlocal : ∃ applied ∈ controller.effectiveServices (loaded controller durable),
      applied.identity = claimed.identity ∧ applied.nodeGroup = controller.nodeGroup := by
    rcases @foldl_overlayItem_stands controller.nodeGroup (loaded controller durable).services
      ([], contractMap controller.contract.2) _ _ hlookup with ⟨applied, happlied, hsame⟩ | hremains
    · refine ⟨applied, hperm.mem_iff.mpr (List.mem_append_left _ happlied), ?_, ?_⟩
      · rw [← hsame]
        rfl
      · rw [← contract_nodeGroup hclaimed, ← hsame]
    · refine ⟨claimed, hperm.mem_iff.mpr (List.mem_append_right _ ?_), rfl, contract_nodeGroup hclaimed⟩
      exact List.mem_map.mpr ⟨(claimed.identity, claimed), GoMap.mem_pairs.mpr hremains, rfl⟩
  obtain ⟨applied, happlied, hsame, hown⟩ := hlocal
  have hequal := List.inj_on_of_nodup_map (nodup_of_convertServices (applyModel_converts happly)) happlied
    (hperm.mem_iff.mpr (List.mem_append_left _ hkept)) (hsame.trans hidentity)
  rw [hequal] at hown
  exact hgroup hown

theorem restorable_of_applyModel {zone : Zone}
    (happly : controller.applyModel (loaded controller durable) = .ok (model, zone)) :
    Restorable controller durable := by
  have hprecede := claimsPrecede_of_applyModel hcontroller hdurable happly
  refine ⟨?_, hprecede⟩
  intro item hitem
  rw [← mem_sortSlice, ← effectiveServices_loaded hcontroller hdurable hprecede] at hitem
  obtain ⟨_, _, hvip, _⟩ := forall₂_mem_left (convertServices_eq_ok (applyModel_converts happly)) hitem
  exact (appliedVIP_eq_some hvip).2.2.2.2.2

end Agreement

end Restore

/-- For every written snapshot and every parsed local state, the durable view is restored exactly when no other
NodeGroup with a greater name still has an identity of the local contract, and NodeGroups have valid names. -/
theorem restores_iff (cluster : String) (controller : Controller) (durable : Snapshot)
    (hcontroller : ParsedNode cluster controller) (hdurable : Written cluster durable) :
    Restores controller durable ↔ Restorable controller durable := by
  have hbody := hdurable.validBody
  constructor
  · intro hrestores
    obtain ⟨model, zone, _, happlies⟩ := hrestores.applies
    have hsuccess := happlies (fun _ ↦ .ok ()) 0 {} ⟨∅, false, []⟩ rfl rfl
    rw [applyThrough_of_none rfl] at hsuccess
    cases hmodel : controller.applyModel (loaded controller durable) with
    | error message =>
      rw [Controller.applyTo, hmodel] at hsuccess
      simp at hsuccess
    | ok result => exact restorable_of_applyModel hcontroller hbody hmodel
  · exact restores_of_restorable hcontroller hbody

/-! ## A Service that moved between NodeGroups -/

/-- The node that had the Service before. -/
def formerController (nodeGroup : String) : Controller :=
  { movedController with nodeGroup := nodeGroup }

def formerConfig (nodeGroup : String) : Config :=
  ⟨"node-9", "cluster", nodeGroup, plainPrefix⟩

/-- What that node wrote when it became the leader. -/
def formerBody (nodeGroup : String) : Snapshot :=
  acquireCandidate (formerConfig nodeGroup) (formerController nodeGroup).contract.2 none

theorem parsedNode_former (nodeGroup : String) :
    ParsedNode "cluster" (formerController nodeGroup) where
  sameCluster := rfl
  parsed service hservice := by
    rw [List.mem_singleton.mp hservice]
    exact ⟨canonicalDocument movedService, parseService_canonicalDocument (by decide)⟩
  distinct := List.nodup_singleton _

theorem written_former (nodeGroup : String) : Written "cluster" (formerBody nodeGroup) :=
  .acquire (parsedNode_former nodeGroup) rfl (by simp) rfl

theorem mem_formerBody :
    item ∈ (formerBody nodeGroup).services ↔ item = contractItem "cluster" nodeGroup movedService :=
  List.mem_singleton

theorem restored_former (hitem : item ∈ restored movedController (formerBody nodeGroup)) :
    item = contractItem "cluster" "workers" movedService := by
  rcases List.mem_append.mp hitem with hlocal | hforeign
  · exact List.mem_singleton.mp hlocal
  · obtain ⟨hcleared, hfree⟩ := List.mem_filter.mp hforeign
    obtain ⟨before, hbefore, rfl⟩ := List.mem_map.mp hcleared
    rw [mem_formerBody.mp hbefore, Bool.and_eq_true, Bool.not_eq_true', decide_eq_false_iff_not] at hfree
    exact absurd (List.mem_singleton.mpr rfl) hfree.2

/-- The Service was at a NodeGroup with a greater name. The restored view is refused, whatever the dataplane
does; the overlay of the same snapshot is accepted. -/
theorem load_refuses_moved :
    ParsedNode "cluster" movedController ∧ Written "cluster" (formerBody "zone") ∧
      (∀ reconcile now core serving, core.snapshot = none → ∃ message,
        (applyThrough movedController reconcile now (loaded movedController (formerBody "zone")) core
          serving).2 = (serving, .error message)) ∧
      ∃ model zone, movedController.applyModel (relaid movedController (formerBody "zone")) =
        .ok (model, zone) := by
  have hcontroller : ParsedNode "cluster" movedController := parsedNode_former "workers"
  have hwritten : Written "cluster" (formerBody "zone") := written_former "zone"
  have hbody := hwritten.validBody
  refine ⟨hcontroller, hwritten, ?_, ?_⟩
  · intro reconcile now core serving hnone
    cases hmodel : movedController.applyModel (loaded movedController (formerBody "zone")) with
    | error message =>
      refine ⟨message, ?_⟩
      rw [applyThrough_of_none hnone, Controller.applyTo, hmodel]
      rfl
    | ok result =>
      have hprecede := claimsPrecede_of_applyModel hcontroller hbody hmodel
      have hsmaller := hprecede _ (mem_formerBody.mpr rfl) (by decide : "zone" ≠ "workers")
        (List.mem_singleton.mpr rfl)
      exact absurd hsmaller (by decide : ¬"zone" < "workers")
  · apply applyModel_of_restored hcontroller hbody _ (effectiveServices_relaid hcontroller hbody)
    intro item hitem
    rw [restored_former hitem]
    exact (by decide : validID "workers" = true)

/-- From a NodeGroup with a smaller name the Service is taken over. -/
theorem restores_iff_moved : Restores movedController (formerBody "edge") := by
  apply (restores_iff "cluster" movedController (formerBody "edge") (parsedNode_former "workers")
    (written_former "edge")).mpr
  constructor
  · intro item hitem
    rw [restored_former hitem]
    exact (by decide : validID "workers" = true)
  · intro item hitem _ _
    rw [mem_formerBody.mp hitem]
    exact (by decide : "edge" < "workers")

end Podmin.Agent.Coordination
