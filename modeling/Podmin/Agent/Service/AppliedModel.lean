import Podmin.Agent.Service.Converts

/-!
# What an applied model contains

Where the backends of a dataplane model come from, and which names the zone serves that goes with it.
-/

namespace Podmin.Agent.Service

open Foundation Netip Fallible Api Manifest

/-! ## Backends -/

/-- The dataplane backend stands for an endpoint of the Service and one of its ports. -/
def Backs (item : Api.Service) (port : Dataplane.Port) (backend : Dataplane.Backend) : Prop :=
  ∃ endpoint ∈ item.backends, parseAddr endpoint.address = some backend.address ∧
    ∃ target ∈ endpoint.ports, target.servicePort = port.port ∧
      protocolNumber target.protocol = port.protocol ∧ target.targetPort = backend.port

/-! ## Services -/

section Services

variable {cluster : String} {services : List Api.Service} {seen : List String} {zone final : Zone}
  {result : List Dataplane.Service}

section Convert

variable (hconvert : convertServices cluster seen zone services = .ok (result, final))

include hconvert

theorem valid_of_convertServices :
    ∀ service ∈ services, validNamespace service.ns = true ∧ validID service.name = true ∧
      service.identity ∉ seen ∧ service.fqdn = serviceFqdn service.ns service.name := by
  intro service hservice
  obtain ⟨converted, _, hvip, _⟩ := forall₂_mem_left (convertServices_eq_ok hconvert) hservice
  obtain ⟨hns, hname, hfresh, hfqdn, _⟩ := appliedVIP_eq_some hvip
  exact ⟨hns, hname, hfresh, hfqdn⟩

/-- No identity is converted twice. -/
theorem nodup_of_convertServices :
    (services.map Api.Service.identity).Nodup := by
  induction services generalizing seen zone result with
  | nil => exact List.nodup_nil
  | cons first services ih =>
    obtain ⟨vip, ports, rest, _, _, hrest, _⟩ := convertServices_cons_eq_ok hconvert
    refine List.nodup_cons.mpr ⟨?_, ih hrest⟩
    intro hmem
    obtain ⟨service, hservice, hsame⟩ := List.mem_map.mp hmem
    apply (valid_of_convertServices hrest service hservice).2.2.1
    rw [hsame]
    exact List.mem_cons_self

end Convert

theorem dot_not_mem {value : String} (hvalue : ∀ char ∈ value.toList, isLabelChar char = true) :
    '.' ∉ value.toList := by
  intro hdot
  exact absurd (hvalue '.' hdot) (by decide)

theorem serviceFqdn_eq (ns name : String) :
    serviceFqdn ns name =
      name ++ String.singleton '.' ++ (ns ++ String.singleton '.' ++ "svc.cluster.local") := by
  have hdot : ".svc.cluster.local" = String.singleton '.' ++ "svc.cluster.local" := by decide
  rw [serviceFqdn, hdot, String.append_assoc, String.append_assoc, String.append_assoc,
    String.append_assoc]
  rfl

/-- Valid names can be read off a domain name. -/
theorem serviceFqdn_inj {ns name otherNs otherName : String} (hns : validNamespace ns = true)
    (hname : validID name = true) (hotherNs : validNamespace otherNs = true)
    (hotherName : validID otherName = true)
    (hfqdn : serviceFqdn ns name = serviceFqdn otherNs otherName) : ns = otherNs ∧ name = otherName := by
  rw [serviceFqdn_eq, serviceFqdn_eq] at hfqdn
  obtain ⟨hsameName, hrest⟩ := Text.separated_inj_first (dot_not_mem (validID_chars hname))
    (dot_not_mem (validID_chars hotherName)) hfqdn
  obtain ⟨hsameNs, _⟩ := Text.separated_inj_first (dot_not_mem (validNamespace_chars hns))
    (dot_not_mem (validNamespace_chars hotherNs)) hrest
  exact ⟨hsameNs, hsameName⟩

/-- The zone has the address of every converted Service, and otherwise what it had before. -/
theorem convertServices_zone (hconvert : convertServices cluster seen zone services = .ok (result, final)) :
    (∀ fqdn, fqdn ∉ services.map Api.Service.fqdn → final.lookup fqdn = zone.lookup fqdn) ∧
      ∀ service ∈ services, final.lookup (serviceFqdn service.ns service.name) =
        some [Dataplane.deriveVIP cluster service.ns service.name] := by
  induction services generalizing seen zone result with
  | nil =>
    cases hconvert
    simp
  | cons first services ih =>
    obtain ⟨vip, ports, rest, hvip, _, hrest, _⟩ := convertServices_cons_eq_ok hconvert
    obtain ⟨hns, hname, _, hfqdn, rfl, _⟩ := appliedVIP_eq_some hvip
    obtain ⟨hother, hserved⟩ := ih hrest
    refine ⟨?_, List.forall_mem_cons.mpr ⟨?_, hserved⟩⟩
    · intro fqdn hfresh
      rw [List.map_cons, List.mem_cons, not_or] at hfresh
      rw [hother fqdn hfresh.2, GoMap.lookup_insert_eq, if_neg hfresh.1]
    · -- a later Service of this name would have the identity of this one
      have hlater : serviceFqdn first.ns first.name ∉ services.map Api.Service.fqdn := by
        intro hmem
        obtain ⟨service, hservice, hsame⟩ := List.mem_map.mp hmem
        obtain ⟨hserviceNs, hserviceName, hunseen, hserviceFqdn⟩ := valid_of_convertServices hrest service
          hservice
        obtain ⟨hsameNs, hsameName⟩ := serviceFqdn_inj hserviceNs hserviceName hns hname
          (hserviceFqdn.symm.trans hsame)
        apply hunseen
        simp [Api.Service.identity, hsameNs, hsameName]
      rw [hother _ hlater, GoMap.lookup_insert_eq, if_pos hfqdn.symm]

end Services

/-! ## Applied snapshots -/

section Applied

variable {controller : Controller} {snapshot : Snapshot} {model : Dataplane.Snapshot} {zone : Zone}

theorem contract_backends {item : Api.Service} (hitem : item ∈ controller.contract.2) :
    item.backends = [] := by
  obtain ⟨wanted, _, rfl⟩ := List.mem_map.mp hitem
  rfl

/-- Every backend of the model is one of the snapshot. -/
theorem applyModel_backends (happly : controller.applyModel snapshot = .ok (model, zone)) :
    ∀ service ∈ model.services, ∀ port ∈ service.ports, ∀ backend ∈ port.backends,
      ∃ item ∈ snapshot.services,
        service.vip = Dataplane.deriveVIP controller.cluster item.ns item.name ∧ Backs item port backend := by
  obtain ⟨⟨converted, final⟩, hconvert, hmodel⟩ := bind_eq_ok.mp happly
  cases hmodel
  intro service hservice port hport backend hbackend
  obtain ⟨item, hitem, hvip, hports⟩ := forall₂_mem_right (convertServices_eq_ok hconvert) hservice
  have hvip := (appliedVIP_eq_some hvip).2.2.2.2.1
  obtain ⟨target, _, hnumber, hprotocol, hbackends⟩ := forall₂_mem_right (convertPorts_eq_ok hports) hport
  obtain ⟨endpoint, hendpoint, haddress, found, hfound, hmatches, hsame⟩ :=
    (convertBackends_eq_ok hbackends).2 backend hbackend
  rcases mem_effectiveServices hitem with hsnapshot | hlocal
  · obtain ⟨_, hsameProtocol, hsameNumber⟩ := targets_iff.mp hmatches
    refine ⟨item, hsnapshot, hvip, endpoint, hendpoint, haddress, found, hfound, ?_, ?_, hsame⟩
    · rw [hsameNumber, hnumber]
    · rw [hsameProtocol, hprotocol]
  · rw [contract_backends hlocal] at hendpoint
    cases hendpoint

/-- A Service of another NodeGroup whose identity is not claimed locally has its name. -/
theorem applyModel_zone (happly : controller.applyModel snapshot = .ok (model, zone))
    {item : Api.Service} (hitem : item ∈ snapshot.services) (hgroup : item.nodeGroup ≠ controller.nodeGroup)
    (hfree : item.identity ∉ controller.contract.2.map Api.Service.identity) :
    zone.lookup (serviceFqdn item.ns item.name) =
      some [Dataplane.deriveVIP controller.cluster item.ns item.name] := by
  obtain ⟨⟨converted, final⟩, hconvert, hmodel⟩ := bind_eq_ok.mp happly
  cases hmodel
  exact (convertServices_zone hconvert).2 item (mem_effectiveServices_of_foreign hitem hgroup hfree)

end Applied

end Podmin.Agent.Service
