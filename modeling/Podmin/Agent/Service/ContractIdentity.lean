import Podmin.Agent.Service.NodeState

/-!
# Identities within a contract

A contract is keyed by namespace and name, joined by a NUL byte. The names a contract admits do not
contain one, so an endpoint that finds a Service under its own namespace and Service name belongs to
that Service, whatever the endpoint's strings contain.
-/

namespace Podmin.Agent.Service

open Foundation Api Manifest

variable {contract : List Api.Service} {identity : String}

theorem nul_not_isLabelChar {char : Char} (hchar : isLabelChar char = true) : char ≠ '\x00' := by
  rintro rfl
  exact absurd hchar (by decide)

theorem nul_not_mem_namespace {ns : String} (hns : validNamespace ns = true) :
    '\x00' ∉ ns.toList :=
  fun hmem ↦ nul_not_isLabelChar (validNamespace_chars hns _ hmem) rfl

theorem nul_not_mem_id {name : String} (hname : validID name = true) : '\x00' ∉ name.toList :=
  fun hmem ↦ nul_not_isLabelChar (validID_chars hname _ hmem) rfl

theorem nul_eq_singleton : "\x00" = String.singleton '\x00' := rfl

/-- Names without NUL can be read off a joined identity, even when compared with arbitrary ones. -/
theorem identity_inj {ns name otherNs otherName : String} (hns : '\x00' ∉ ns.toList)
    (hname : '\x00' ∉ name.toList)
    (heq : ns ++ "\x00" ++ name = otherNs ++ "\x00" ++ otherName) :
    ns = otherNs ∧ name = otherName := by
  have hchars := congrArg String.toList heq
  simp only [String.toList_append] at hchars
  rw [show "\x00".toList = ['\x00'] from rfl, List.append_assoc, List.append_assoc,
    List.singleton_append, List.singleton_append] at hchars
  have hparts := (List.append_cons_inj_of_notMem hns hname).mp hchars
  exact ⟨String.toList_injective hparts.1, String.toList_injective hparts.2.2⟩

/-! ## The contract map -/

variable {services : GoMap String Api.Service}

theorem lookup_foldl_contract {item : Api.Service}
    (hlookup : (contract.foldl (fun services item ↦ services.insert item.identity item)
      services).lookup identity = some item) :
    (item ∈ contract ∧ item.identity = identity) ∨ services.lookup identity = some item := by
  induction contract generalizing services with
  | nil => exact .inr hlookup
  | cons first rest ih =>
    rcases ih hlookup with ⟨hitem, hidentity⟩ | hbefore
    · exact .inl ⟨List.mem_cons_of_mem first hitem, hidentity⟩
    · rw [GoMap.lookup_insert_eq] at hbefore
      split at hbefore
      · next hself =>
        cases hbefore
        exact .inl ⟨List.mem_cons_self, hself.symm⟩
      · exact .inr hbefore

theorem lookup_contractMap {item : Api.Service} (hlookup : (contractMap contract).lookup identity = some item) :
    item ∈ contract ∧ item.identity = identity := by
  rcases lookup_foldl_contract hlookup with hfound | hempty
  · exact hfound
  · simp at hempty

theorem mem_foldl_contract :
    identity ∈ contract.foldl (fun services item ↦ services.insert item.identity item) services ↔
      identity ∈ contract.map Api.Service.identity ∨ identity ∈ services := by
  induction contract generalizing services with
  | nil => simp
  | cons first rest ih =>
    rw [List.foldl_cons, ih, AList.mem_insert, List.map_cons, List.mem_cons]
    tauto

/-- Every identity of a contract is found. -/
theorem exists_contractMap {item : Api.Service} (hitem : item ∈ contract) :
    ∃ claimed, (contractMap contract).lookup item.identity = some claimed := by
  have hmem : item.identity ∈ contractMap contract :=
    mem_foldl_contract.mpr (.inl (List.mem_map.mpr ⟨item, hitem, rfl⟩))
  exact Option.isSome_iff_exists.mp (AList.lookup_isSome.mpr hmem)

theorem contractMap_eq_ofPairs (contract : List Api.Service) :
    contractMap contract = GoMap.ofPairs (contract.map fun item ↦ (item.identity, item)) := by
  rw [contractMap, GoMap.ofPairs, List.foldl_map]

/-- When identities differ, every item is found under its own. -/
theorem lookup_contractMap_self (hnodup : (contract.map Api.Service.identity).Nodup) {item : Api.Service}
    (hitem : item ∈ contract) :
    (contractMap contract).lookup item.identity = some item := by
  rw [contractMap_eq_ofPairs, GoMap.lookup_ofPairs]
  · exact List.mem_map.mpr ⟨item, hitem, rfl⟩
  · rw [List.map_map]
    exact hnodup

/-! ## Valid contracts -/

section Valid

variable {cluster nodeGroup digest : String} {services : List Api.Service}

theorem ValidContract.nodup (hcontract : ValidContract cluster nodeGroup digest services) :
    (services.map Api.Service.identity).Nodup :=
  hcontract.ascending.imp fun hlt ↦ hlt.ne

/-- Two items of a valid contract with one namespace and name are the same. -/
theorem ValidContract.item_eq (hcontract : ValidContract cluster nodeGroup digest services)
    {item other : Api.Service} (hitem : item ∈ services) (hother : other ∈ services)
    (hns : item.ns = other.ns) (hname : item.name = other.name) : item = other := by
  apply List.inj_on_of_nodup_map hcontract.nodup hitem hother
  rw [Api.Service.identity, Api.Service.identity, hns, hname]

/-- The Service an endpoint of a valid node state belongs to. -/
theorem ValidEndpoint.item (hcontract : ValidContract cluster nodeGroup digest services)
    {endpoint : Endpoint} (hendpoint : ValidEndpoint nodeGroup (contractMap services) endpoint) :
    ∃ item ∈ services, item.ns = endpoint.ns ∧ item.name = endpoint.service ∧
      MatchedPorts item endpoint.ports := by
  obtain ⟨item, hlookup, _, _, _, hports⟩ := hendpoint
  obtain ⟨hitem, hidentity⟩ := lookup_contractMap hlookup
  have hvalid := hcontract.items item hitem
  obtain ⟨hns, hname⟩ := identity_inj (nul_not_mem_namespace hvalid.validNamespace)
    (nul_not_mem_id hvalid.validID) hidentity
  exact ⟨item, hitem, hns, hname, hports⟩

end Valid

end Podmin.Agent.Service
