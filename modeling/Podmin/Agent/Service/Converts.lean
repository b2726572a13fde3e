import Podmin.Agent.Dataplane.Accepts
import Podmin.Agent.Service.Overlay
import Podmin.Agent.Service.PortIdentity

/-!
# Converting Services

When `Apply` accepts the Services it is to apply: every backend must have an address and, for every
port of its Service, a target of the same name, protocol and service port.
-/

namespace Podmin.Agent.Service

open Foundation Netip Fallible Api Manifest

variable {port : TargetPort} {backends : List Endpoint} {seen : List String} {service : Api.Service}

/-! ## Backends of one port -/

/-- The comparison by which `Apply` finds the target of a port. -/
def targets (port target : TargetPort) : Bool :=
  target.name == port.name && target.protocol == port.protocol && target.servicePort == port.servicePort

theorem targets_iff {target : TargetPort} :
    targets port target = true ↔ target.name = port.name ∧ target.protocol = port.protocol ∧
      target.servicePort = port.servicePort := by
  simp [targets, and_assoc]

variable {result : List Dataplane.Backend}

/-- A backend is found for every target, provided there is one and its number is valid. -/
theorem backendTargets_eq_ok {address : Addr} {found : List Dataplane.Backend} {ports : List TargetPort} :
    backendTargets port address found ports = .ok result ↔
      (∀ target ∈ ports, targets port target = true → 1 ≤ target.targetPort ∧ target.targetPort ≤ 65535) ∧
        result = found ++ (ports.filter (targets port)).map (fun target ↦ ⟨address, target.targetPort⟩) ∧
        result ≠ [] := by
  induction ports generalizing found with
  | nil =>
    rw [backendTargets]
    cases found with
    | nil => simp
    | cons first rest =>
      simp only [List.isEmpty_cons, Bool.false_eq_true, if_false, Except.ok.injEq, List.filter_nil,
        List.map_nil, List.append_nil, List.not_mem_nil, false_implies, implies_true, true_and]
      constructor
      · rintro rfl
        exact ⟨rfl, by simp⟩
      · rintro ⟨rfl, _⟩
        rfl
  | cons target ports ih =>
    rw [backendTargets, List.forall_mem_cons, List.filter_cons]
    change (if targets port target = true then _ else _) = _ ↔ _
    by_cases htarget : targets port target = true
    · rw [if_pos htarget, if_pos htarget]
      split
      · next hbad =>
        simp only [Bool.or_eq_true, beq_iff_eq, decide_eq_true_eq] at hbad
        simp only [reduceCtorEq, false_iff, not_and]
        rintro ⟨hvalid, _⟩
        have := hvalid htarget
        omega
      · next hgood =>
        simp only [Bool.or_eq_true, beq_iff_eq, decide_eq_true_eq, not_or, not_lt] at hgood
        rw [ih]
        simp only [List.map_cons, List.append_assoc, List.singleton_append]
        constructor
        · rintro ⟨hvalid, hresult, hne⟩
          exact ⟨⟨fun _ ↦ ⟨by omega, hgood.2⟩, hvalid⟩, hresult, hne⟩
        · rintro ⟨⟨_, hvalid⟩, hresult, hne⟩
          exact ⟨hvalid, hresult, hne⟩
    · rw [if_neg htarget, if_neg htarget, ih]
      simp [htarget]

/-- What `Apply` asks of a backend apart from its ports. -/
structure PlainBackend (backend : Endpoint) (address : Addr) : Prop where
  parsed : parseAddr backend.address = some address
  is6 : address.is6 = true
  global : address.isGlobalUnicast = true
  podUid : backend.podUid ≠ ""

/-- Every backend has a target of the port, and every converted one comes from a backend and a target of it. -/
theorem convertBackends_eq_ok (hconvert : convertBackends port backends = .ok result) :
    (∀ backend ∈ backends, ∃ target ∈ backend.ports, targets port target = true) ∧
      ∀ converted ∈ result, ∃ backend ∈ backends, parseAddr backend.address = some converted.address ∧
        ∃ target ∈ backend.ports, targets port target = true ∧ target.targetPort = converted.port := by
  induction backends generalizing result with
  | nil =>
    cases hconvert
    simp
  | cons backend backends ih =>
    rw [convertBackends] at hconvert
    split at hconvert
    · cases hconvert
    next address haddress =>
    split at hconvert
    · cases hconvert
    obtain ⟨found, hfound, hrest⟩ := bind_eq_ok.mp hconvert
    obtain ⟨rest, hlater, hlast⟩ := bind_eq_ok.mp hrest
    cases hlast
    obtain ⟨_, rfl, hne⟩ := backendTargets_eq_ok.mp hfound
    obtain ⟨hall, hfrom⟩ := ih hlater
    refine ⟨List.forall_mem_cons.mpr ⟨?_, hall⟩, fun converted hmem ↦ ?_⟩
    · by_contra hnone
      push Not at hnone
      exact hne (by rw [List.filter_eq_nil_iff.mpr hnone]; rfl)
    · rcases List.mem_append.mp hmem with hmem | hmem
      · obtain ⟨target, htarget, rfl⟩ := List.mem_map.mp hmem
        obtain ⟨hport, hmatches⟩ := List.mem_filter.mp htarget
        exact ⟨backend, List.mem_cons_self, haddress, target, hport, hmatches, rfl⟩
      · obtain ⟨other, hother, hstands⟩ := hfrom converted hmem
        exact ⟨other, List.mem_cons_of_mem backend hother, hstands⟩

/-- Every backend with exactly one target of the port is converted to one dataplane backend. -/
theorem convertBackends_total
    (hplain : ∀ backend ∈ backends, ∃ address, PlainBackend backend address ∧ Dataplane.is6Only address = true)
    (hsingle : ∀ backend ∈ backends, ∃ target, backend.ports.filter (targets port) = [target] ∧
      1 ≤ target.targetPort ∧ target.targetPort ≤ 65535) :
    ∃ result, convertBackends port backends = .ok result ∧ result.length = backends.length ∧
      ∀ backend ∈ result, Dataplane.is6Only backend.address = true ∧ backend.port ≠ 0 := by
  induction backends with
  | nil => exact ⟨[], rfl, rfl, by simp⟩
  | cons backend backends ih =>
    obtain ⟨⟨address, hbackend, his6⟩, hplainRest⟩ := List.forall_mem_cons.mp hplain
    obtain ⟨⟨target, htarget, hlow, hhigh⟩, hsingleRest⟩ := List.forall_mem_cons.mp hsingle
    obtain ⟨rest, hrest, hlength, hrestPlain⟩ := ih hplainRest hsingleRest
    have hfound : backendTargets port address [] backend.ports = .ok [⟨address, target.targetPort⟩] := by
      apply backendTargets_eq_ok.mpr
      refine ⟨?_, by rw [htarget]; rfl, by simp⟩
      intro other hother hmatches
      have hmem : other ∈ backend.ports.filter (targets port) := List.mem_filter.mpr ⟨hother, hmatches⟩
      rw [htarget, List.mem_singleton] at hmem
      rw [hmem]
      exact ⟨hlow, hhigh⟩
    refine ⟨⟨address, target.targetPort⟩ :: rest, ?_, by rw [List.length_cons, hlength, List.length_cons], ?_⟩
    · rw [convertBackends, hbackend.parsed]
      dsimp only
      rw [if_neg (by simp [hbackend.is6, hbackend.global, hbackend.podUid]), hfound, hrest]
      rfl
    · refine List.forall_mem_cons.mpr ⟨⟨his6, ?_⟩, hrestPlain⟩
      dsimp only
      omega

/-! ## Ports and Services -/

def protocolNumber (protocol : String) : Nat :=
  if protocol == "UDP" then Dataplane.protocolUDP else Dataplane.protocolTCP

theorem fresh_cons {Item Key : Type*} {key : Item → Key} {item : Item} {items : List Item} {seen : List Key}
    (hfresh : key item ∉ items.map key) (hseen : ∀ other ∈ items, key other ∉ seen) :
    ∀ other ∈ items, key other ∉ key item :: seen := by
  intro other hother hmem
  rcases List.mem_cons.mp hmem with hsame | hbefore
  · exact hfresh (hsame ▸ List.mem_map.mpr ⟨other, hother, rfl⟩)
  · exact hseen other hother hbefore

/-- The converted ports of a Service with the given ports and number of backends. -/
structure ConvertedPorts (ports : List TargetPort) (count : Nat) (result : List Dataplane.Port) : Prop where
  keys : result.map (fun port ↦ (port.port, port.protocol)) =
    ports.map fun port ↦ (port.servicePort, protocolNumber port.protocol)
  count : ∀ port ∈ result, port.backends.length = count
  compilable : ∀ port ∈ result, Dataplane.Compilable port

theorem convertPorts_total {backends : List Endpoint} {seen : List String} {ports : List TargetPort}
    (hvalid : ∀ port ∈ ports, validPort port = true) (hnodup : (ports.map portKey).Nodup)
    (hseen : ∀ port ∈ ports, portKey port ∉ seen)
    (hplain : ∀ backend ∈ backends, ∃ address, PlainBackend backend address ∧
      Dataplane.is6Only address = true)
    (hsingle : ∀ port ∈ ports, ∀ backend ∈ backends, ∃ target,
      backend.ports.filter (targets port) = [target] ∧ 1 ≤ target.targetPort ∧ target.targetPort ≤ 65535) :
    ∃ result, convertPorts backends seen ports = .ok result ∧
      ConvertedPorts ports backends.length result := by
  induction ports generalizing seen with
  | nil => exact ⟨[], rfl, rfl, by simp, by simp⟩
  | cons port ports ih =>
    obtain ⟨hport, hvalidRest⟩ := List.forall_mem_cons.mp hvalid
    obtain ⟨hfresh, hnodupRest⟩ := List.nodup_cons.mp hnodup
    obtain ⟨hunseen, hseenRest⟩ := List.forall_mem_cons.mp hseen
    obtain ⟨hfirst, hsingleRest⟩ := List.forall_mem_cons.mp hsingle
    obtain ⟨converted, hconverted, hlength, hbackends⟩ := convertBackends_total hplain hfirst
    have hseenNext := fresh_cons hfresh hseenRest
    obtain ⟨rest, hrest, hkeys, hcount, hcompilable⟩ := ih hvalidRest hnodupRest hseenNext hsingleRest
    refine ⟨⟨protocolNumber port.protocol, port.servicePort, converted⟩ :: rest, ?_, ?_, ?_, ?_⟩
    · rw [convertPorts, if_neg (by simp [hport]), if_neg hunseen, hconverted, hrest]
      rfl
    · rw [List.map_cons, hkeys, List.map_cons]
    · exact List.forall_mem_cons.mpr ⟨hlength, hcount⟩
    · refine List.forall_mem_cons.mpr ⟨⟨?_, ?_, hbackends⟩, hcompilable⟩
      · have hnumber := (validPort_iff.mp hport).2.1
        dsimp only
        omega
      · dsimp only [protocolNumber]
        split
        · exact .inr rfl
        · exact .inl rfl

theorem convertPorts_eq_ok {ports : List TargetPort} {result : List Dataplane.Port}
    (hconvert : convertPorts backends seen ports = .ok result) :
    List.Forall₂ (fun port converted ↦ converted.port = port.servicePort ∧
      converted.protocol = protocolNumber port.protocol ∧
      convertBackends port backends = .ok converted.backends) ports result := by
  induction ports generalizing seen result with
  | nil =>
    cases hconvert
    exact .nil
  | cons port ports ih =>
    rw [convertPorts] at hconvert
    split at hconvert
    · cases hconvert
    split at hconvert
    · cases hconvert
    obtain ⟨converted, hconverted, hlater⟩ := bind_eq_ok.mp hconvert
    obtain ⟨rest, hrest, hlast⟩ := bind_eq_ok.mp hlater
    cases hlast
    exact .cons ⟨rfl, rfl, hconverted⟩ (ih hrest)

/-- The identity checks of `Apply`, apart from those on other Services. -/
structure ValidApplied (cluster : String) (service : Api.Service) : Prop where
  nodeGroup : validID service.nodeGroup = true
  ns : validNamespace service.ns = true
  name : validID service.name = true
  fqdn : service.fqdn = serviceFqdn service.ns service.name
  vip : service.vip = (Dataplane.deriveVIP cluster service.ns service.name).string

variable {cluster : String}

theorem ValidApplied.appliedVIP (hservice : ValidApplied cluster service) (hfresh : service.identity ∉ seen) :
    appliedVIP cluster seen service = some (Dataplane.deriveVIP cluster service.ns service.name) := by
  obtain ⟨bits, hbits, _⟩ := Dataplane.deriveVIP_shape cluster service.ns service.name
  rw [Service.appliedVIP, hservice.vip, hbits, parseAddr_string]
  simp only [Option.filter_some, hservice.nodeGroup, hservice.ns, hservice.name, hfresh, hservice.fqdn,
    Addr.is6, decide_false, Bool.not_false, beq_self_eq_true, Bool.and_self, if_true]

/-- One converted Service. -/
structure Converted (cluster : String) (service : Api.Service) (result : Dataplane.Service) : Prop where
  vip : result.vip = Dataplane.deriveVIP cluster service.ns service.name
  ports : ConvertedPorts service.ports service.backends.length result.ports

/-- A Service that can be converted on its own. -/
structure Convertible (cluster : String) (service : Api.Service) : Prop where
  applied : ValidApplied cluster service
  ports : ∀ port ∈ service.ports, validPort port = true
  nodup : (service.ports.map portKey).Nodup
  plain : ∀ backend ∈ service.backends, ∃ address, PlainBackend backend address ∧
    Dataplane.is6Only address = true
  single : ∀ port ∈ service.ports, ∀ backend ∈ service.backends, ∃ target,
    backend.ports.filter (targets port) = [target] ∧ 1 ≤ target.targetPort ∧ target.targetPort ≤ 65535

theorem convertServices_total {cluster : String} {services : List Api.Service} {seen : List String}
    {zone : Zone} (hservices : ∀ service ∈ services, Convertible cluster service)
    (hnodup : (services.map Api.Service.identity).Nodup)
    (hseen : ∀ service ∈ services, service.identity ∉ seen) :
    ∃ result final, convertServices cluster seen zone services = .ok (result, final) ∧
      List.Forall₂ (Converted cluster) services result := by
  induction services generalizing seen zone with
  | nil => exact ⟨[], zone, rfl, .nil⟩
  | cons service services ih =>
    obtain ⟨hservice, hrest⟩ := List.forall_mem_cons.mp hservices
    obtain ⟨hfresh, hnodupRest⟩ := List.nodup_cons.mp hnodup
    obtain ⟨hunseen, hseenRest⟩ := List.forall_mem_cons.mp hseen
    obtain ⟨ports, hports, hconverted⟩ := @convertPorts_total service.backends [] service.ports
      hservice.ports hservice.nodup (by simp) hservice.plain hservice.single
    have hseenNext := fresh_cons hfresh hseenRest
    obtain ⟨result, final, hresult, hall⟩ := @ih (service.identity :: seen)
      (zone.insert service.fqdn [Dataplane.deriveVIP cluster service.ns service.name]) hrest hnodupRest
      hseenNext
    refine ⟨⟨Dataplane.deriveVIP cluster service.ns service.name, ports⟩ :: result, final, ?_,
      .cons ⟨rfl, hconverted⟩ hall⟩
    rw [convertServices, hservice.applied.appliedVIP hunseen]
    dsimp only
    rw [hports, ok_bind, hresult]
    rfl

variable {services : List Api.Service} {result : List Dataplane.Service}

theorem convertServices_cons_eq_ok {zone final : Zone}
    (hconvert : convertServices cluster seen zone (service :: services) = .ok (result, final)) :
    ∃ vip ports rest, appliedVIP cluster seen service = some vip ∧
      convertPorts service.backends [] service.ports = .ok ports ∧
      convertServices cluster (service.identity :: seen) (zone.insert service.fqdn [vip]) services =
        .ok (rest, final) ∧
      result = ⟨vip, ports⟩ :: rest := by
  rw [convertServices] at hconvert
  split at hconvert
  · cases hconvert
  next vip hvip =>
    obtain ⟨ports, hports, hlater⟩ := bind_eq_ok.mp hconvert
    obtain ⟨⟨rest, zone'⟩, hrest, hlast⟩ := bind_eq_ok.mp hlater
    cases hlast
    exact ⟨vip, ports, rest, hvip, hports, hrest, rfl⟩

/-- The checks of `appliedVIP`, read off its result. -/
theorem appliedVIP_eq_some {vip : Addr} (hvip : appliedVIP cluster seen service = some vip) :
    validNamespace service.ns = true ∧ validID service.name = true ∧ service.identity ∉ seen ∧
      service.fqdn = serviceFqdn service.ns service.name ∧
      vip = Dataplane.deriveVIP cluster service.ns service.name ∧ validID service.nodeGroup = true := by
  obtain ⟨_, hchecks⟩ := Option.filter_eq_some_iff.mp hvip
  simp only [Bool.and_eq_true, Bool.not_eq_true', decide_eq_false_iff_not, beq_iff_eq] at hchecks
  obtain ⟨⟨⟨⟨⟨⟨hgroup, hns⟩, hname⟩, hfresh⟩, hfqdn⟩, _⟩, hderived⟩ := hchecks
  exact ⟨hns, hname, hfresh, hfqdn, hderived, hgroup⟩

/-- Every converted Service has passed the identity checks. -/
theorem convertServices_eq_ok {zone final : Zone}
    (hconvert : convertServices cluster seen zone services = .ok (result, final)) :
    List.Forall₂ (fun service converted ↦ appliedVIP cluster seen service = some converted.vip ∧
      convertPorts service.backends [] service.ports = .ok converted.ports) services result := by
  induction services generalizing seen zone result with
  | nil =>
    cases hconvert
    exact .nil
  | cons first services ih =>
    obtain ⟨vip, ports, rest, hvip, hports, hrest, rfl⟩ := convertServices_cons_eq_ok hconvert
    refine .cons ⟨hvip, hports⟩ ((ih hrest).imp fun service converted ⟨hlater, hconverted⟩ ↦ ⟨?_, hconverted⟩)
    -- what is not among the Services so far and the first is not among those so far
    simp only [appliedVIP, Option.filter_eq_some_iff, List.mem_cons, Bool.and_eq_true, Bool.not_eq_true',
      decide_eq_false_iff_not, not_or] at hlater ⊢
    tauto

/-! ## Compiling what was converted -/

section Compile

variable {cluster : String} {services : List Api.Service} {result : List Dataplane.Service}

/-- The table keys of a Service. -/
def serviceKeys (cluster : String) (service : Api.Service) : List Dataplane.ServiceKey :=
  service.ports.map fun port ↦
    ⟨Dataplane.as16 (Dataplane.deriveVIP cluster service.ns service.name), port.servicePort,
      protocolNumber port.protocol⟩

theorem Converted.keys {converted : Dataplane.Service} (hconverted : Converted cluster service converted) :
    (converted.ports.map fun port ↦ Dataplane.Addressed.key (converted.vip, port)) =
      serviceKeys cluster service := by
  have hkeys := congrArg (List.map fun pair : Nat × Nat ↦
    (⟨Dataplane.as16 converted.vip, pair.1, pair.2⟩ : Dataplane.ServiceKey)) hconverted.ports.keys
  rw [List.map_map, List.map_map] at hkeys
  rw [serviceKeys, ← hconverted.vip]
  exact hkeys

theorem addressed_keys (hconverted : List.Forall₂ (Converted cluster) services result) :
    (Dataplane.addressed result).map Dataplane.Addressed.key = services.flatMap (serviceKeys cluster) := by
  induction hconverted with
  | nil => rfl
  | cons hfirst _ ih =>
    rw [Dataplane.addressed, List.flatMap_cons, List.map_append, List.map_map, List.flatMap_cons, ← ih]
    exact congrArg (· ++ _) hfirst.keys

theorem backendTotal_addressed (hconverted : List.Forall₂ (Converted cluster) services result) :
    Dataplane.backendTotal (Dataplane.addressed result) = backendPairs services := by
  induction hconverted with
  | nil => rfl
  | @cons service converted _ _ hfirst _ ih =>
    have hlength : converted.ports.length = service.ports.length := by
      have hkeys := congrArg List.length hfirst.ports.keys
      rwa [List.length_map, List.length_map] at hkeys
    have hcounts : converted.ports.map (fun port ↦ port.backends.length) =
        converted.ports.map fun _ ↦ service.backends.length :=
      List.map_congr_left hfirst.ports.count
    rw [Dataplane.addressed, List.flatMap_cons, Dataplane.backendTotal, List.map_append, List.sum_append,
      List.map_map, backendPairs, List.map_cons, List.sum_cons, ← backendPairs, ← ih]
    congr 1
    calc (converted.ports.map fun port ↦ port.backends.length).sum
        = (converted.ports.map fun _ ↦ service.backends.length).sum := by rw [hcounts]
      _ = service.ports.length * service.backends.length := by simp [hlength]

/-- The keys of a Service differ by protocol and port. -/
theorem nodup_serviceKeys (hservice : Convertible cluster service) :
    (serviceKeys cluster service).Nodup := by
  have hnodup := hservice.nodup
  rw [serviceKeys, List.nodup_iff_pairwise_ne, List.pairwise_map] at *
  refine hnodup.imp_of_mem ?_
  intro port other hport hother hne heq
  apply hne
  have htransport := (validPort_iff.mp (hservice.ports port hport)).1
  have htransportOther := (validPort_iff.mp (hservice.ports other hother)).1
  have hnumber := congrArg Dataplane.ServiceKey.port heq
  have hprotocol := congrArg Dataplane.ServiceKey.protocol heq
  dsimp only at hnumber hprotocol
  rw [portKey, portKey, hnumber]
  rcases htransport with htcp | hudp
  · rcases htransportOther with htcpOther | hudpOther
    · rw [htcp, htcpOther]
    · rw [htcp, hudpOther] at hprotocol
      exact absurd hprotocol (by decide)
  · rcases htransportOther with htcpOther | hudpOther
    · rw [hudp, htcpOther] at hprotocol
      exact absurd hprotocol (by decide)
    · rw [hudp, hudpOther]

/-- Virtual addresses tell the given Services apart. -/
def InjectiveVIPs (cluster : String) (services : List Api.Service) : Prop :=
  ∀ left ∈ services, ∀ right ∈ services, Dataplane.deriveVIP cluster left.ns left.name =
    Dataplane.deriveVIP cluster right.ns right.name → left.identity = right.identity

theorem nodup_allKeys (hservices : ∀ service ∈ services, Convertible cluster service)
    (hnodup : (services.map Api.Service.identity).Nodup) (hvips : InjectiveVIPs cluster services) :
    (services.flatMap (serviceKeys cluster)).Nodup := by
  rw [List.nodup_flatMap]
  refine ⟨fun service hservice ↦ nodup_serviceKeys (hservices service hservice), ?_⟩
  rw [List.nodup_iff_pairwise_ne, List.pairwise_map] at hnodup
  refine hnodup.imp_of_mem ?_
  intro left right hleft hright hne key hkey hotherKey
  obtain ⟨_, _, rfl⟩ := List.mem_map.mp hkey
  obtain ⟨_, _, heq⟩ := List.mem_map.mp hotherKey
  have hbits := congrArg Dataplane.ServiceKey.vip heq
  obtain ⟨leftBits, hleftBits, _⟩ := Dataplane.deriveVIP_shape cluster left.ns left.name
  obtain ⟨rightBits, hrightBits, _⟩ := Dataplane.deriveVIP_shape cluster right.ns right.name
  dsimp only at hbits
  rw [hleftBits, hrightBits, Dataplane.as16, Dataplane.as16] at hbits
  exact hne (hvips left hleft right hright (by rw [hleftBits, hrightBits, hbits]))

/-- What was converted compiles, when it fits. -/
theorem compile_converted (hconverted : List.Forall₂ (Converted cluster) services result)
    (hservices : ∀ service ∈ services, Convertible cluster service)
    (hnodup : (services.map Api.Service.identity).Nodup) (hvips : InjectiveVIPs cluster services)
    {node : Addr} (hnode : Dataplane.is6Only node = true)
    (hports : servicePorts services ≤ Dataplane.maxTableEntries)
    (hpairs : backendPairs services ≤ Dataplane.maxTableEntries) :
    ∃ tables, Dataplane.compile ⟨node, result⟩ = .ok tables := by
  have hkeys := addressed_keys hconverted
  have hlength : (Dataplane.addressed result).length = servicePorts services := by
    have hcount := congrArg List.length hkeys
    rw [List.length_map, List.length_flatMap] at hcount
    rw [hcount, servicePorts]
    simp [serviceKeys]
  apply Dataplane.compile_total hnode
  · intro service hservice
    obtain ⟨source, _, hsource⟩ := forall₂_mem_right hconverted hservice
    obtain ⟨bits, hbits, hplain⟩ := Dataplane.deriveVIP_shape cluster source.ns source.name
    rw [hsource.vip, hbits, Dataplane.is6Only, hplain]
    rfl
  · intro entry hentry
    obtain ⟨service, hservice, hmem⟩ := List.mem_flatMap.mp hentry
    obtain ⟨port, hport, rfl⟩ := List.mem_map.mp hmem
    obtain ⟨source, _, hsource⟩ := forall₂_mem_right hconverted hservice
    exact hsource.ports.compilable port hport
  · rw [hkeys]
    exact nodup_allKeys hservices hnodup hvips
  · rw [hlength]
    exact hports
  · rw [backendTotal_addressed hconverted]
    exact hpairs

end Compile

end Podmin.Agent.Service
