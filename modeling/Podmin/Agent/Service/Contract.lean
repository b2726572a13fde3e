import Mathlib.Data.String.Basic
import Podmin.Agent.Dataplane
import Podmin.Api.Coordination
import Podmin.Foundation.Fallible
import Podmin.Manifest.Service

/-!
# Service contracts

A node's desired Services become the wire contract of its `Hello`: sorted by identity, each with its
DNS name, virtual address and ports, without backends. `validateContract` is what the leader checks
of a contract before it admits the node.
-/

namespace Podmin.Agent.Service

open Foundation Fallible Api Manifest

/-! ## Building a contract -/

/-- Convert desired port metadata to transport form; the wire fields are unsigned 32-bit. -/
def wirePort (port : ServicePort) : TargetPort where
  name := port.name
  protocol := port.protocol
  servicePort := (port.port % 2 ^ 32).toNat
  targetPort := (port.targetPort % 2 ^ 32).toNat

def desiredLess (left right : Manifest.Service) : Bool :=
  if left.ns ≠ right.ns then left.ns < right.ns else left.name < right.name

def sortedDesired (input : List Manifest.Service) : List Manifest.Service :=
  sortSlice desiredLess input

def serviceFqdn (ns name : String) : String :=
  name ++ "." ++ ns ++ ".svc.cluster.local"

def contractItem (cluster nodeGroup : String) (wanted : Manifest.Service) : Api.Service where
  name := wanted.name
  fqdn := serviceFqdn wanted.ns wanted.name
  vip := (Dataplane.deriveVIP cluster wanted.ns wanted.name).string
  ports := wanted.ports.map wirePort
  backends := []
  nodeGroup := nodeGroup
  ns := wanted.ns

/-- The sorted wire contract of the desired Services. -/
def desiredContract (cluster nodeGroup : String) (desired : List Manifest.Service) :
    List Api.Service :=
  (sortedDesired desired).map (contractItem cluster nodeGroup)

/-- What one desired Service contributes to the configuration digest. -/
def digestText (service : Manifest.Service) : String :=
  let keys := sortSlice (fun left right ↦ decide (left < right)) service.selector.keys
  service.ns ++ "\x00" ++ service.name ++ "\x00" ++
    String.join (keys.map fun key ↦
      key ++ "=" ++ (service.selector.lookup key).getD "" ++ "\x00") ++
    String.join (service.ports.map fun port ↦
      port.name ++ "/" ++ port.protocol ++ "/" ++ toString port.port ++ "/" ++
        toString port.targetPort ++ "\x00")

def sha512Hex (text : String) : String :=
  Sha512.hexEncode (Sha512.sum512 (Text.utf8Bytes text))

def digestDesired (services : List Manifest.Service) : String :=
  sha512Hex (String.join ((sortedDesired services).map digestText))

/-! ## Validating a contract -/

def portKey (port : TargetPort) : String :=
  port.protocol ++ "/" ++ toString port.servicePort

def validPort (port : TargetPort) : Bool :=
  !(port.servicePort == 0 || decide (port.servicePort > 65535) || port.targetPort == 0 ||
    decide (port.targetPort > 65535) || (port.protocol != "TCP" && port.protocol != "UDP"))

def validateContractPorts (seen : List String) : List TargetPort → Except String Unit
  | [] => .ok ()
  | port :: ports =>
    if !validPort port || decide (portKey port ∈ seen) then .error "invalid service contract port"
    else validateContractPorts (portKey port :: seen) ports

/-- The checks of one item that do not depend on the items before it. -/
def validIdentity (cluster nodeGroup : String) (item : Api.Service) : Bool :=
  item.nodeGroup == nodeGroup && validNamespace item.ns && validID item.name &&
    item.fqdn == serviceFqdn item.ns item.name &&
    item.vip == (Dataplane.deriveVIP cluster item.ns item.name).string && item.backends.isEmpty

def validateContractItems (cluster nodeGroup : String) (seen : List String) (previous : String) :
    List Api.Service → Except String Unit
  | [] => .ok ()
  | item :: items =>
    if !validIdentity cluster nodeGroup item || !decide (previous < item.identity) ||
        decide (item.identity ∈ seen) then
      .error "invalid service contract identity"
    else do
      validateContractPorts [] item.ports
      validateContractItems cluster nodeGroup (item.identity :: seen) item.identity items

/-- `hex.DecodeString` succeeds. -/
def hexDecodes (value : String) : Bool :=
  value.toList.length % 2 == 0 && value.toList.all Netip.isHexDigit

def validateContract (cluster nodeGroup digest : String) (services : List Api.Service) :
    Except String Unit :=
  if !validID nodeGroup || digest.utf8ByteSize != 128 || decide (services.length > 10000) then
    .error "invalid service contract"
  else if !hexDecodes digest then .error "invalid service contract digest"
  else validateContractItems cluster nodeGroup [] "" services

/-! ## What a valid contract is -/

/-- One item of a valid contract. -/
structure ValidItem (cluster nodeGroup : String) (item : Api.Service) : Prop where
  nodeGroup_eq : item.nodeGroup = nodeGroup
  validNamespace : validNamespace item.ns = true
  validID : validID item.name = true
  fqdn_eq : item.fqdn = serviceFqdn item.ns item.name
  vip_eq : item.vip = (Dataplane.deriveVIP cluster item.ns item.name).string
  backends_eq : item.backends = []
  validPorts : ∀ port ∈ item.ports, validPort port = true
  nodupPorts : (item.ports.map portKey).Nodup

/-- The contracts the leader admits. -/
structure ValidContract (cluster nodeGroup digest : String) (services : List Api.Service) :
    Prop where
  validNodeGroup : Manifest.validID nodeGroup = true
  digestSize : digest.utf8ByteSize = 128
  digestHex : hexDecodes digest = true
  limit : services.length ≤ 10000
  items : ∀ item ∈ services, ValidItem cluster nodeGroup item
  ascending : (services.map Api.Service.identity).Pairwise (· < ·)

theorem validateContractPorts_eq_ok {seen : List String} {ports : List TargetPort} :
    validateContractPorts seen ports = .ok () ↔
      (∀ port ∈ ports, validPort port = true) ∧ (ports.map portKey).Nodup ∧
        ∀ port ∈ ports, portKey port ∉ seen := by
  refine distinct_eq_ok (fun _ ↦ rfl) fun seen port ports ↦ ?_
  rw [validateContractPorts]
  split
  · next hbad =>
    simp only [Bool.or_eq_true, Bool.not_eq_true', decide_eq_true_eq] at hbad
    simp only [reduceCtorEq, false_iff]
    rintro ⟨⟨hvalid, hseen⟩, _⟩
    exact hbad.elim (fun hinvalid ↦ by simp [hvalid] at hinvalid) hseen
  · next hgood =>
    simp only [Bool.or_eq_true, Bool.not_eq_true', decide_eq_true_eq, not_or, Bool.not_eq_false] at hgood
    simp [hgood]

variable {cluster nodeGroup : String}

theorem validItem_iff {item : Api.Service} :
    ValidItem cluster nodeGroup item ↔
      validIdentity cluster nodeGroup item = true ∧ validateContractPorts [] item.ports = .ok () := by
  simp only [validIdentity, Bool.and_eq_true, beq_iff_eq, List.isEmpty_iff,
    validateContractPorts_eq_ok, List.not_mem_nil, not_false_eq_true, implies_true, and_true]
  constructor
  · intro hitem
    exact ⟨⟨⟨⟨⟨⟨hitem.nodeGroup_eq, hitem.validNamespace⟩, hitem.validID⟩, hitem.fqdn_eq⟩,
      hitem.vip_eq⟩, hitem.backends_eq⟩, hitem.validPorts, hitem.nodupPorts⟩
  · rintro ⟨⟨⟨⟨⟨⟨hgroup, hns⟩, hid⟩, hfqdn⟩, hvip⟩, hbackends⟩, hports, hnodup⟩
    exact ⟨hgroup, hns, hid, hfqdn, hvip, hbackends, hports, hnodup⟩

variable {services : List Api.Service}

/-- The items are accepted exactly when each is valid and the identities ascend strictly from the
previous one. -/
theorem validateContractItems_eq_ok {seen : List String} {previous : String}
    (hseen : ∀ identity ∈ seen, identity ≤ previous) :
    validateContractItems cluster nodeGroup seen previous services = .ok () ↔
      (∀ item ∈ services, ValidItem cluster nodeGroup item) ∧
        (previous :: services.map Api.Service.identity).IsChain (· < ·) := by
  induction services generalizing seen previous with
  | nil => simp [validateContractItems]
  | cons item items ih =>
    rw [validateContractItems, List.map_cons, List.isChain_cons_cons]
    split
    · next hbad =>
      simp only [reduceCtorEq, List.mem_cons, forall_eq_or_imp, false_iff, not_and]
      rintro ⟨hitem, _⟩ hlt
      have hidentity := (validItem_iff.mp hitem).1
      have hmem : item.identity ∈ seen := by
        simpa [hidentity, hlt] using hbad
      exact absurd hlt (not_lt.mpr (hseen _ hmem))
    · next hgood =>
      simp only [Bool.or_eq_true, Bool.not_eq_true', decide_eq_true_eq, decide_eq_false_iff_not,
        not_or, not_not, Bool.not_eq_false] at hgood
      obtain ⟨⟨hidentity, hlt⟩, _⟩ := hgood
      have hseen' : ∀ identity ∈ item.identity :: seen, identity ≤ item.identity := by
        intro identity hmem
        rcases List.mem_cons.mp hmem with rfl | hmem
        · exact le_rfl
        · exact (hseen _ hmem).trans hlt.le
      simp only [List.mem_cons, forall_eq_or_imp, hlt, true_and]
      cases hports : validateContractPorts [] item.ports with
      | error message =>
        simp only [bind, Except.bind, reduceCtorEq, false_iff, not_and]
        rintro ⟨hitem, _⟩
        have := (validItem_iff.mp hitem).2
        simp [hports] at this
      | ok _ =>
        have hitem : ValidItem cluster nodeGroup item := validItem_iff.mpr ⟨hidentity, hports⟩
        simp only [bind, Except.bind, ih hseen', hitem, true_and]

theorem empty_lt_identity (item : Api.Service) : "" < item.identity := by
  rw [String.lt_iff_toList_lt]
  have hne : item.identity.toList ≠ [] := by
    simp [Api.Service.identity]
  obtain ⟨first, rest, heq⟩ := List.exists_cons_of_ne_nil hne
  rw [heq]
  exact List.nil_lt_cons first rest

theorem validateContract_eq_ok {digest : String} :
    validateContract cluster nodeGroup digest services = .ok () ↔
      ValidContract cluster nodeGroup digest services := by
  have hitems : validateContractItems cluster nodeGroup [] "" services = .ok () ↔
      (∀ item ∈ services, ValidItem cluster nodeGroup item) ∧
        (services.map Api.Service.identity).Pairwise (· < ·) := by
    rw [validateContractItems_eq_ok (by simp), List.isChain_iff_pairwise, List.pairwise_cons,
      and_iff_right (List.forall_mem_map.mpr fun item _ ↦ empty_lt_identity item)]
  rw [validateContract]
  constructor
  · intro hok
    split at hok
    · simp at hok
    next hshape =>
      split at hok
      · simp at hok
      next hhex =>
        simp only [Bool.or_eq_true, Bool.not_eq_true', bne_iff_ne, ne_eq, decide_eq_true_eq, not_or,
          not_not, Bool.not_eq_false, not_lt] at hshape hhex
        obtain ⟨hall, hascending⟩ := hitems.mp hok
        exact ⟨hshape.1.1, hshape.1.2, hhex, hshape.2, hall, hascending⟩
  · intro hvalid
    rw [if_neg (by simp [hvalid.validNodeGroup, hvalid.digestSize, hvalid.limit]),
      if_neg (by simp [hvalid.digestHex])]
    exact hitems.mpr ⟨hvalid.items, hvalid.ascending⟩

end Podmin.Agent.Service
