import Podmin.Agent.Service.AppliedModel
import Podmin.Agent.Service.MergedBackends

/-!
# The local contract overrides the snapshot

What a node applies, stated without the loop: its own contract, each Service with the backends of the snapshot
where that holds the same contract, and the Services of other NodeGroups that it does not claim. The names that
are compared are those of the Services, not the identities they are joined to; a snapshot in which two of these
coincide is refused.
-/

namespace Podmin.Agent.Service

open Foundation Netip Fallible Api Manifest

variable {entry item other : Api.Service}

/-- A Service by its namespace and name. -/
def qualified (item : Api.Service) : String × String := (item.ns, item.name)

local instance lawfulQualified : LawfulBEq (String × String) := inferInstance

/-! ## The overlay -/

/-- The backends the snapshot has for a local contract: those of its entry for the Service, if that entry is
of this NodeGroup and equals the contract apart from backends. -/
def snapshotBackends (nodeGroup : String) (services : List Api.Service) (item : Api.Service) : List Endpoint :=
  match services.find? fun entry ↦ decide (qualified entry = qualified item) with
  | some entry =>
    if entry.nodeGroup = nodeGroup ∧ { entry with backends := [] } = item then entry.backends else []
  | none => []

/-- Every local contract once, and the Services of other NodeGroups that are not local. -/
def overlaid (nodeGroup : String) (contract services : List Api.Service) : List Api.Service :=
  (contract.map fun item ↦ { item with backends := snapshotBackends nodeGroup services item }) ++
    services.filter fun item ↦
      decide (item.nodeGroup ≠ nodeGroup) && decide (qualified item ∉ contract.map qualified)

variable {services : List Api.Service}

theorem find?_qualified (hdistinct : (services.map qualified).Nodup) (hentry : entry ∈ services)
    {name : String × String} (hname : qualified entry = name) :
    services.find? (fun other ↦ decide (qualified other = name)) = some entry := by
  cases hfind : services.find? fun other ↦ decide (qualified other = name) with
  | none =>
    have hnone := List.find?_eq_none.mp hfind entry hentry
    simp [hname] at hnone
  | some found =>
    have hfound : qualified found = name := by simpa using List.find?_some hfind
    rw [List.inj_on_of_nodup_map hdistinct (List.mem_of_find?_eq_some hfind) hentry
      (hfound.trans hname.symm)]

section Distinct

variable {nodeGroup : String} {contract services : List Api.Service}

theorem snapshotBackends_eq (hdistinct : (services.map qualified).Nodup) (hentry : entry ∈ services)
    (hgroup : entry.nodeGroup = nodeGroup) (hitem : { entry with backends := [] } = item) :
    { item with backends := snapshotBackends nodeGroup services item } = entry := by
  have hfind := find?_qualified hdistinct hentry (by rw [← hitem]; rfl : qualified entry = qualified item)
  have hbackends : snapshotBackends nodeGroup services item = entry.backends := by
    unfold snapshotBackends
    rw [hfind]
    exact if_pos ⟨hgroup, hitem⟩
  rw [hbackends, ← hitem]

/-- Without an entry that stands for it, a contract has no backends. -/
theorem snapshotBackends_eq_nil
    (hnone : ∀ entry ∈ services, entry.nodeGroup = nodeGroup → { entry with backends := [] } ≠ item) :
    snapshotBackends nodeGroup services item = [] := by
  unfold snapshotBackends
  split
  · next entry hfind =>
    rw [if_neg]
    rintro ⟨hgroup, hsame⟩
    exact hnone entry (List.mem_of_find?_eq_some hfind) hgroup hsame
  · rfl

theorem mem_overlaid_local (hitem : item ∈ contract) :
    { item with backends := snapshotBackends nodeGroup services item } ∈
      overlaid nodeGroup contract services :=
  List.mem_append_left _ (List.mem_map.mpr ⟨item, hitem, rfl⟩)

theorem nodup_overlaid (hcontract : (contract.map qualified).Nodup)
    (hservices : (services.map qualified).Nodup) :
    ((overlaid nodeGroup contract services).map qualified).Nodup := by
  rw [overlaid, List.map_append, List.map_map]
  apply List.Nodup.append
  · exact hcontract
  · exact (List.filter_sublist.map _).nodup hservices
  · intro name hlocal hforeign
    obtain ⟨item, hitem, rfl⟩ := List.mem_map.mp hforeign
    have hfree := (List.mem_filter.mp hitem).2
    simp only [Bool.and_eq_true, decide_eq_true_eq] at hfree
    exact hfree.2 hlocal

end Distinct

/-! ## The loop -/

/-- Names without NUL. -/
def Plain (item : Api.Service) : Prop :=
  '\x00' ∉ item.ns.toList ∧ '\x00' ∉ item.name.toList

theorem Plain.qualified_eq (hplain : Plain item) (hidentity : item.identity = other.identity) :
    qualified item = qualified other := by
  obtain ⟨hns, hname⟩ := identity_inj hplain.1 hplain.2 hidentity
  rw [qualified, qualified, hns, hname]

theorem identity_of_qualified (hqualified : qualified item = qualified other) :
    item.identity = other.identity := by
  obtain ⟨hns, hname⟩ := Prod.mk.inj hqualified
  rw [Api.Service.identity, Api.Service.identity, hns, hname]

variable {nodeGroup : String}

section Applied

variable {controller : Controller} {snapshot : Snapshot} {model : Dataplane.Snapshot} {zone : Zone}

/-- What is applied and the local contract, in the terms of the loop. -/
theorem effectiveServices_perm_loop (controller : Controller) (snapshot : Snapshot) :
    (controller.effectiveServices snapshot).Perm
      ((snapshot.services.foldl (overlayItem controller.nodeGroup)
        ([], contractMap controller.contract.2)).1 ++
      (snapshot.services.foldl (overlayItem controller.nodeGroup)
        ([], contractMap controller.contract.2)).2.pairs.map Prod.snd) :=
  sortSlice_perm _ _

section Apply

variable (happly : controller.applyModel snapshot = .ok (model, zone))

include happly

theorem applyModel_converts :
    convertServices controller.cluster [] ∅ (controller.effectiveServices snapshot) =
      .ok (model.services, zone) := by
  obtain ⟨⟨converted, final⟩, hconvert, hmodel⟩ := bind_eq_ok.mp happly
  cases hmodel
  exact hconvert

theorem plain_effectiveServices (hitem : item ∈ controller.effectiveServices snapshot) : Plain item := by
  obtain ⟨hns, hname, _⟩ := valid_of_convertServices (applyModel_converts happly) item hitem
  exact ⟨nul_not_mem_namespace hns, nul_not_mem_id hname⟩

/-- A snapshot is only applied if the local contract is valid: every claimed Service is applied in one form
or the other. -/
theorem plain_claimed {identity : String} {claimed : Api.Service}
    (hclaimed : (contractMap controller.contract.2).lookup identity = some claimed) :
    Plain claimed := by
  have hstands := @foldl_overlayItem_stands controller.nodeGroup snapshot.services
    ([], contractMap controller.contract.2) identity claimed hclaimed
  have hperm := effectiveServices_perm_loop controller snapshot
  rcases hstands with ⟨item, hkept, hsame⟩ | hremains
  · have hplain := plain_effectiveServices happly (hperm.mem_iff.mpr (List.mem_append_left _ hkept))
    rw [← hsame]
    exact hplain
  · have hentry : claimed ∈ (snapshot.services.foldl (overlayItem controller.nodeGroup)
        ([], contractMap controller.contract.2)).2.pairs.map Prod.snd :=
      List.mem_map.mpr ⟨(identity, claimed), GoMap.mem_pairs.mpr hremains, rfl⟩
    exact plain_effectiveServices happly (hperm.mem_iff.mpr (List.mem_append_right _ hentry))

/-- An item with the identity of a contract has its names. -/
theorem qualified_of_claimed {local' : Api.Service} (hlocal : local' ∈ controller.contract.2)
    (hidentity : local'.identity = other.identity) : qualified local' = qualified other := by
  obtain ⟨claimed, hclaimed⟩ := exists_contractMap hlocal
  have hplain := plain_claimed happly hclaimed
  have hsame := (lookup_contractMap hclaimed).2
  rw [← hplain.qualified_eq hsame, ← hplain.qualified_eq (hsame.trans hidentity)]

theorem nodup_contract_identity (hcontract : (controller.contract.2.map qualified).Nodup) :
    (controller.contract.2.map Api.Service.identity).Nodup := by
  apply (hcontract.of_map _).map_on
  intro item hitem other hother hidentity
  exact List.inj_on_of_nodup_map hcontract hitem hother (qualified_of_claimed happly hitem hidentity)

theorem unambiguous_snapshot (hsnapshot : (snapshot.services.map qualified).Nodup) :
    Unambiguous snapshot.services (contractMap controller.contract.2) := by
  rw [List.nodup_iff_pairwise_ne, List.pairwise_map] at hsnapshot
  apply hsnapshot.imp
  intro left right hne hidentity
  cases hclaimed : (contractMap controller.contract.2).lookup left.identity with
  | none => rfl
  | some claimed =>
    have hplain := plain_claimed happly hclaimed
    have hsame := (lookup_contractMap hclaimed).2
    exact absurd ((hplain.qualified_eq hsame).symm.trans (hplain.qualified_eq (hsame.trans hidentity))) hne

end Apply

variable {wanted : GoMap String Api.Service}

/-- The entry of a snapshot that stands for a claimed Service. -/
theorem keeps_claimed_iff {claimed : Api.Service} (hclaimed : wanted.lookup item.identity = some claimed) :
    keeps nodeGroup wanted item = true ↔
      item.nodeGroup = nodeGroup ∧ { item with backends := [] } = claimed := by
  rw [keeps, hclaimed]
  exact decide_eq_true_iff

theorem keeps_free_iff (hfree : wanted.lookup item.identity = none) :
    keeps nodeGroup wanted item = true ↔ item.nodeGroup ≠ nodeGroup := by
  rw [keeps, hfree]
  exact decide_eq_true_iff

/-- An entry of this NodeGroup that equals a local contract is kept in its place. -/
theorem keeps_of_stands {contract : List Api.Service} (hdistinct : (contract.map Api.Service.identity).Nodup)
    (hitem : item ∈ contract) (hgroup : entry.nodeGroup = nodeGroup)
    (hsame : { entry with backends := [] } = item) :
    keeps nodeGroup (contractMap contract) entry = true := by
  have hidentity : entry.identity = item.identity := by
    rw [← hsame]
    rfl
  have hclaimed := lookup_contractMap_self hdistinct hitem
  rw [← hidentity] at hclaimed
  exact (keeps_claimed_iff hclaimed).mpr ⟨hgroup, hsame⟩

section Apply

variable (happly : controller.applyModel snapshot = .ok (model, zone))

include happly

theorem lookup_free_iff :
    (contractMap controller.contract.2).lookup item.identity = none ↔
      qualified item ∉ controller.contract.2.map qualified := by
  constructor
  · intro hfree hmem
    obtain ⟨claimed, hclaimed, hqualified⟩ := List.mem_map.mp hmem
    obtain ⟨found, hfound⟩ := exists_contractMap hclaimed
    rw [identity_of_qualified hqualified, hfree] at hfound
    cases hfound
  · intro hfresh
    cases hlookup : (contractMap controller.contract.2).lookup item.identity with
    | none => rfl
    | some claimed =>
      obtain ⟨hclaimed, hidentity⟩ := lookup_contractMap hlookup
      have hqualified := qualified_of_claimed happly hclaimed hidentity
      exact absurd (List.mem_map.mpr ⟨claimed, hclaimed, hqualified⟩) hfresh

theorem kept_mem_overlaid (hsnapshot : (snapshot.services.map qualified).Nodup)
    (hitem : item ∈ snapshot.services)
    (hkeeps : keeps controller.nodeGroup (contractMap controller.contract.2) item = true) :
    item ∈ overlaid controller.nodeGroup controller.contract.2 snapshot.services := by
  rw [overlaid, List.mem_append]
  cases hlookup : (contractMap controller.contract.2).lookup item.identity with
  | some claimed =>
    obtain ⟨hgroup, hsame⟩ := (keeps_claimed_iff hlookup).mp hkeeps
    have hstands := snapshotBackends_eq hsnapshot hitem hgroup hsame
    exact .inl (List.mem_map.mpr ⟨claimed, (lookup_contractMap hlookup).1, hstands⟩)
  | none =>
    have hgroup := (keeps_free_iff hlookup).mp hkeeps
    have hfree := (lookup_free_iff happly).mp hlookup
    exact .inr (List.mem_filter.mpr ⟨hitem, by simp [hgroup, hfree]⟩)

theorem remaining_mem_overlaid (hcontract : (controller.contract.2.map qualified).Nodup)
    (hitem : item ∈ controller.contract.2)
    (hremains : item.identity ∉ (snapshot.services.filter
      (keeps controller.nodeGroup (contractMap controller.contract.2))).map Api.Service.identity) :
    item ∈ overlaid controller.nodeGroup controller.contract.2 snapshot.services := by
  have hdistinct := nodup_contract_identity happly hcontract
  have hnone : snapshotBackends controller.nodeGroup snapshot.services item = [] := by
    apply snapshotBackends_eq_nil
    intro entry hentry hgroup hsame
    apply hremains
    have hidentity : entry.identity = item.identity := by
      rw [← hsame]
      rfl
    exact List.mem_map.mpr
      ⟨entry, List.mem_filter.mpr ⟨hentry, keeps_of_stands hdistinct hitem hgroup hsame⟩, hidentity⟩
  rw [overlaid, List.mem_append]
  refine .inl (List.mem_map.mpr ⟨item, hitem, ?_⟩)
  rw [hnone, ← contract_backends hitem]

end Apply

section Loop

variable (happly : controller.applyModel snapshot = .ok (model, zone))
  (hsnapshot : (snapshot.services.map qualified).Nodup)
  (hcontract : (controller.contract.2.map qualified).Nodup)

include happly hsnapshot hcontract

theorem mem_effectiveServices_iff :
    item ∈ controller.effectiveServices snapshot ↔
      item ∈ overlaid controller.nodeGroup controller.contract.2 snapshot.services := by
  have hdistinct := nodup_contract_identity happly hcontract
  obtain ⟨hkept, hwanted⟩ := @foldl_overlayItem_filter controller.nodeGroup snapshot.services
    ([], contractMap controller.contract.2) (unambiguous_snapshot happly hsnapshot).keptLast
  rw [(effectiveServices_perm_loop controller snapshot).mem_iff, List.mem_append, hkept, List.nil_append,
    List.mem_filter, List.mem_map]
  constructor
  · rintro (⟨hitem, hkeeps⟩ | ⟨⟨identity, _⟩, hentry, rfl⟩)
    · exact kept_mem_overlaid happly hsnapshot hitem hkeeps
    · have hlookup := GoMap.mem_pairs.mp hentry
      rw [hwanted] at hlookup
      split at hlookup
      · cases hlookup
      · next hremains =>
        obtain ⟨hitem, rfl⟩ := lookup_contractMap hlookup
        exact remaining_mem_overlaid happly hcontract hitem hremains
  · intro hmem
    rw [overlaid, List.mem_append] at hmem
    rcases hmem with hlocal | hforeign
    · obtain ⟨claimed, hclaimed, rfl⟩ := List.mem_map.mp hlocal
      by_cases hstands : ∃ entry ∈ snapshot.services,
          entry.nodeGroup = controller.nodeGroup ∧ { entry with backends := [] } = claimed
      · obtain ⟨entry, hentry, hgroup, hsame⟩ := hstands
        rw [snapshotBackends_eq hsnapshot hentry hgroup hsame]
        exact .inl ⟨hentry, keeps_of_stands hdistinct hclaimed hgroup hsame⟩
      · push Not at hstands
        rw [snapshotBackends_eq_nil hstands, ← contract_backends hclaimed]
        refine .inr ⟨(claimed.identity, claimed), GoMap.mem_pairs.mpr ?_, rfl⟩
        rw [hwanted, if_neg]
        · exact lookup_contractMap_self hdistinct hclaimed
        · intro hidentity
          obtain ⟨entry, hentry, hsame⟩ := List.mem_map.mp hidentity
          obtain ⟨hentry, hkeeps⟩ := List.mem_filter.mp hentry
          have hlookup := lookup_contractMap_self hdistinct hclaimed
          rw [← hsame] at hlookup
          obtain ⟨hgroup, hequal⟩ := (keeps_claimed_iff hlookup).mp hkeeps
          exact hstands entry hentry hgroup hequal
    · obtain ⟨hitem, hfree⟩ := List.mem_filter.mp hforeign
      simp only [Bool.and_eq_true, decide_eq_true_eq] at hfree
      exact .inl ⟨hitem, (keeps_free_iff ((lookup_free_iff happly).mpr hfree.2)).mpr hfree.1⟩

/-- The loop computes the overlay. -/
theorem effectiveServices_perm_overlaid :
    (controller.effectiveServices snapshot).Perm
      (overlaid controller.nodeGroup controller.contract.2 snapshot.services) := by
  apply (List.perm_ext_iff_of_nodup _ _).mpr
  · intro item
    exact mem_effectiveServices_iff happly hsnapshot hcontract
  · exact (nodup_of_convertServices (applyModel_converts happly)).of_map _
  · exact (nodup_overlaid hcontract hsnapshot).of_map _

end Loop

/-- The order of the snapshot's Services does not matter. -/
theorem effectiveServices_reordered (happly : controller.applyModel snapshot = .ok (model, zone))
    (hsnapshot : (snapshot.services.map qualified).Nodup) {order : Snapshot}
    (horder : order.services.Perm snapshot.services) :
    controller.effectiveServices order = controller.effectiveServices snapshot := by
  have hunambiguous := unambiguous_snapshot happly hsnapshot
  have hreordered : Unambiguous order.services (contractMap controller.contract.2) :=
    (horder.pairwise_iff fun {_ _} hfree hsame ↦ hsame ▸ hfree hsame.symm).mpr hunambiguous
  obtain ⟨hkept, hwanted⟩ := @foldl_overlayItem_filter controller.nodeGroup snapshot.services
    ([], contractMap controller.contract.2) hunambiguous.keptLast
  obtain ⟨hkeptOrder, hwantedOrder⟩ := @foldl_overlayItem_filter controller.nodeGroup order.services
    ([], contractMap controller.contract.2) hreordered.keptLast
  have hfilter := horder.filter (keeps controller.nodeGroup (contractMap controller.contract.2))
  have hremaining : ∀ identity, (order.services.foldl (overlayItem controller.nodeGroup)
      ([], contractMap controller.contract.2)).2.lookup identity =
        (snapshot.services.foldl (overlayItem controller.nodeGroup)
          ([], contractMap controller.contract.2)).2.lookup identity := by
    intro identity
    rw [hwanted, hwantedOrder]
    simp only [(hfilter.map Api.Service.identity).mem_iff]
  have hdistinct := nodup_of_convertServices (applyModel_converts happly)
  unfold Controller.effectiveServices at hdistinct ⊢
  apply sortSlice_congr serviceLess_eq
  · intro first hfirst second hsecond hsame
    exact List.inj_on_of_nodup_map hdistinct (mem_sortSlice.mpr hfirst) (mem_sortSlice.mpr hsecond)
      (identity_of_serviceOrder hsame)
  · rw [hkept, hkeptOrder]
    exact hfilter.append ((GoMap.pairs_perm_of_lookup hremaining).map Prod.snd)

/-! ## Names and addresses -/

/-- A Service of the dataplane stands for an applied one. -/
structure Conveys (cluster : String) (service : Api.Service) (converted : Dataplane.Service) : Prop where
  derived : converted.vip = Dataplane.deriveVIP cluster service.ns service.name
  vip : parseAddr service.vip = some converted.vip
  ports : convertPorts service.backends [] service.ports = .ok converted.ports

theorem convertServices_conveys {cluster : String} {seen : List String} {before final : Zone}
    {result : List Dataplane.Service}
    (hconvert : convertServices cluster seen before services = .ok (result, final)) :
    List.Forall₂ (Conveys cluster) services result :=
  (convertServices_eq_ok hconvert).imp fun _ _ ⟨hvip, hports⟩ ↦
    ⟨(appliedVIP_eq_some hvip).2.2.2.2.1, (Option.filter_eq_some_iff.mp hvip).1, hports⟩

/-- DNS maps exactly the names of some Services to the addresses the dataplane has for them. -/
structure Serves (cluster : String) (services : List Api.Service) (model : Dataplane.Snapshot)
    (zone : Zone) : Prop where
  conveyed : List.Forall₂ (Conveys cluster) services model.services
  names : ∀ name addresses, zone.lookup name = some addresses ↔
    ∃ service ∈ services, service.fqdn = name ∧ ∃ converted ∈ model.services,
      Conveys cluster service converted ∧ addresses = [converted.vip]

theorem serves_effectiveServices (happly : controller.applyModel snapshot = .ok (model, zone)) :
    Serves controller.cluster (controller.effectiveServices snapshot) model zone := by
  have hconvert := applyModel_converts happly
  have hconveyed := convertServices_conveys hconvert
  obtain ⟨hother, hserved⟩ := convertServices_zone hconvert
  refine ⟨hconveyed, fun name addresses ↦ ⟨fun hlookup ↦ ?_, ?_⟩⟩
  · have hname : name ∈ (controller.effectiveServices snapshot).map Api.Service.fqdn := by
      by_contra hfresh
      rw [hother name hfresh] at hlookup
      simp at hlookup
    obtain ⟨service, hservice, rfl⟩ := List.mem_map.mp hname
    obtain ⟨converted, hconverted, hconveys⟩ := forall₂_mem_left hconveyed hservice
    refine ⟨service, hservice, rfl, converted, hconverted, hconveys, ?_⟩
    rw [(valid_of_convertServices hconvert service hservice).2.2.2, hserved service hservice] at hlookup
    rw [hconveys.derived, Option.some.inj hlookup]
  · rintro ⟨service, hservice, rfl, converted, _, hconveys, rfl⟩
    rw [(valid_of_convertServices hconvert service hservice).2.2.2, hserved service hservice,
      hconveys.derived]

end Applied

theorem nodup_contract_qualified {controller : Controller}
    (hlocal : (controller.services.map fun service ↦ (service.ns, service.name)).Nodup) :
    (controller.contract.2.map qualified).Nodup := by
  have hqualified : controller.contract.2.map qualified =
      (sortedDesired controller.services).map fun service ↦ (service.ns, service.name) := by
    rw [Controller.contract, desiredContract, List.map_map]
    rfl
  rw [hqualified]
  exact ((sortSlice_perm _ _).map _).nodup_iff.mpr hlocal

/-- A snapshot that is applied is the overlay of the local contract, in whatever order it is listed, and DNS
serves what the dataplane has; one that is refused leaves DNS as it was, and the dataplane alone if it is not
valid. -/
theorem apply_overrides (controller : Controller) (reconcile : Dataplane.Snapshot → Except String Unit)
    (serving after : Serving) (failure : Option String) (snapshot : Snapshot)
    (hsnapshot : (snapshot.services.map fun item ↦ (item.ns, item.name)).Nodup)
    (hlocal : (controller.services.map fun service ↦ (service.ns, service.name)).Nodup)
    (happly : controller.applyTo reconcile serving snapshot = (after, failure)) :
    (failure = none → ∃ services model,
      services.Perm (overlaid controller.nodeGroup controller.contract.2 snapshot.services) ∧
      after.reconciled = serving.reconciled ++ [model] ∧
      Serves controller.cluster services model after.zone ∧
      ∀ order : Snapshot, order.services.Perm snapshot.services →
        controller.applyTo reconcile serving order = (after, none)) ∧
    (failure ≠ none → after.zone = serving.zone) ∧
    ∀ message, controller.applyModel snapshot = .error message →
      failure = some message ∧ after = serving := by
  have hcontract := nodup_contract_qualified hlocal
  have hcases := happly
  unfold Controller.applyTo at hcases
  cases hmodel : controller.applyModel snapshot with
  | error message =>
    rw [hmodel] at hcases
    cases hcases
    refine ⟨by simp, fun _ ↦ rfl, fun other hother ↦ ?_⟩
    cases hother
    exact ⟨rfl, rfl⟩
  | ok result =>
    obtain ⟨model, zone⟩ := result
    rw [hmodel] at hcases
    dsimp only at hcases
    cases hreconcile : reconcile model with
    | error message =>
      rw [hreconcile] at hcases
      cases hcases
      exact ⟨by simp, fun _ ↦ rfl, by simp⟩
    | ok _ =>
      rw [hreconcile] at hcases
      cases hcases
      refine ⟨fun _ ↦ ⟨controller.effectiveServices snapshot, model, ?_, rfl, ?_, ?_⟩, by simp, by simp⟩
      · exact effectiveServices_perm_overlaid hmodel hsnapshot hcontract
      · exact serves_effectiveServices hmodel
      · intro order horder
        have hsame : controller.applyModel order = controller.applyModel snapshot := by
          rw [Controller.applyModel, Controller.applyModel, effectiveServices_reordered hmodel hsnapshot horder]
        rw [Controller.applyTo, hsame, ← Controller.applyTo]
        exact happly

/-! ## A Service that moved to this NodeGroup -/

def movedService : Manifest.Service :=
  ⟨"web", "default", (∅ : GoMap String String).insert "app" "web", [⟨"http", "TCP", 80, 80⟩]⟩

def movedController : Controller :=
  ⟨"cluster", "workers", .v6 0x20010db8000000000000000000000001#128 "", [movedService], ∅⟩

/-- A snapshot that still has the Service under its former NodeGroup. -/
def formerSnapshot : Snapshot :=
  ⟨1, 1, "leader", "", [contractItem "cluster" "edge" movedService]⟩

theorem convertible_moved (hgroup : validID nodeGroup = true) :
    Convertible "cluster" (contractItem "cluster" nodeGroup movedService) where
  applied := ⟨hgroup, (by decide : validNamespace "default" = true), (by decide : validID "web" = true), rfl,
    rfl⟩
  ports := (by decide : ∀ port ∈ movedService.ports.map wirePort, validPort port = true)
  nodup := (by decide : ((movedService.ports.map wirePort).map portKey).Nodup)
  plain := by simp [contractItem]
  single := by simp [contractItem]

theorem applyModel_moved : ∃ model zone, movedController.applyModel formerSnapshot = .ok (model, zone) := by
  have hconvertible : ∀ item ∈ movedController.effectiveServices formerSnapshot,
      Convertible "cluster" item := by
    intro item hitem
    rcases mem_effectiveServices hitem with hformer | hlocal
    · rw [List.mem_singleton.mp hformer]
      exact convertible_moved (by decide)
    · rw [List.mem_singleton.mp hlocal]
      exact convertible_moved (by decide)
  obtain ⟨result, zone, hconvert, _⟩ := @convertServices_total "cluster"
    (movedController.effectiveServices formerSnapshot) [] ∅ hconvertible
    (nodup_effectiveServices (List.nodup_singleton _)) (by simp)
  exact ⟨⟨movedController.nodeIPv6, result⟩, zone, bind_eq_ok.mpr ⟨(result, zone), hconvert, rfl⟩⟩

/-- The Service is applied once, under this NodeGroup, and its name is served. -/
theorem apply_overrides_moved :
    ∃ (after : Serving) (services : List Api.Service) (model : Dataplane.Snapshot),
    movedController.applyTo (fun _ ↦ .ok ()) ⟨∅, false, []⟩ formerSnapshot = (after, none) ∧
    services.Perm (overlaid movedController.nodeGroup movedController.contract.2
      formerSnapshot.services) ∧ after.reconciled = [model] ∧
    after.zone.lookup (serviceFqdn "default" "web") =
      some [Dataplane.deriveVIP movedController.cluster "default" "web"] := by
  obtain ⟨model, zone, hmodel⟩ := applyModel_moved
  have happly : movedController.applyTo (fun _ ↦ .ok ()) ⟨∅, false, []⟩ formerSnapshot =
      (⟨zone, true, [model]⟩, none) := Controller.applyTo_of_ok ⟨∅, false, []⟩ hmodel rfl
  obtain ⟨hsuccess, _⟩ := apply_overrides movedController (fun _ ↦ .ok ()) ⟨∅, false, []⟩ _ _
    formerSnapshot (List.nodup_singleton _) (List.nodup_singleton _) happly
  obtain ⟨services, applied, hperm, hcalled, hserves, _⟩ := hsuccess rfl
  refine ⟨_, services, applied, happly, hperm, hcalled, ?_⟩
  have hmem : ∃ service ∈ services, service.fqdn = serviceFqdn "default" "web" ∧
      service.ns = "default" ∧ service.name = "web" := by
    have hlocal : contractItem "cluster" "workers" movedService ∈ movedController.contract.2 :=
      List.mem_singleton_self _
    exact ⟨_, hperm.mem_iff.mpr (mem_overlaid_local hlocal), rfl, rfl, rfl⟩
  obtain ⟨service, hservice, hfqdn, hns, hname⟩ := hmem
  obtain ⟨converted, hconverted, hconveys⟩ := forall₂_mem_left hserves.conveyed hservice
  refine (hserves.names _ _).mpr ⟨service, hservice, hfqdn, converted, hconverted, hconveys, ?_⟩
  rw [hconveys.derived, hns, hname]

end Podmin.Agent.Service
