import Mathlib
import Podmin.Agent.Service.ContractIdentity
import Podmin.Manifest.Accepted

/-!
# Port identities

The ports of an endpoint are compared with those of its Service by name, protocol, service port and
target port, joined by NUL bytes. The numbers and the two protocols contain none, so between ports
of these protocols the joined text stands for the port, whatever the names contain.
-/

namespace Podmin.Agent.Service

open Foundation Text Api Manifest

theorem nul_not_mem_toString (value : Nat) : '\x00' ∉ (toString value).toList :=
  not_mem_toString (by decide) value

variable {port other : TargetPort}

/-- The numbers of a port can be read off its identity; the rest stays joined. -/
theorem portIdentity_numbers (heq : portIdentity port = portIdentity other) :
    port.name ++ "\x00" ++ port.protocol = other.name ++ "\x00" ++ other.protocol ∧
      port.servicePort = other.servicePort ∧ port.targetPort = other.targetPort := by
  simp only [portIdentity, nul_eq_singleton] at heq ⊢
  obtain ⟨hleading, htarget⟩ :=
    separated_inj_last (nul_not_mem_toString _) (nul_not_mem_toString _) heq
  obtain ⟨hnames, hservice⟩ :=
    separated_inj_last (nul_not_mem_toString _) (nul_not_mem_toString _) hleading
  exact ⟨hnames, Nat.repr_inj.mp hservice, Nat.repr_inj.mp htarget⟩

/-- TCP or UDP. -/
def TargetPort.Transport (port : TargetPort) : Prop :=
  port.protocol = "TCP" ∨ port.protocol = "UDP"

theorem TargetPort.Transport.nul_not_mem (hport : TargetPort.Transport port) :
    '\x00' ∉ port.protocol.toList := by
  rcases hport with htcp | hudp
  · rw [htcp]
    decide
  · rw [hudp]
    decide

/-- Ports of the two protocols are determined by their identity. -/
theorem portIdentity_inj (hport : TargetPort.Transport port) (hother : TargetPort.Transport other)
    (heq : portIdentity port = portIdentity other) :
    port = other := by
  obtain ⟨hnames, hservice, htarget⟩ := portIdentity_numbers heq
  rw [nul_eq_singleton] at hnames
  obtain ⟨hname, hprotocol⟩ := separated_inj_last hport.nul_not_mem hother.nul_not_mem hnames
  cases port
  cases other
  simp only at hname hprotocol hservice htarget
  rw [hname, hprotocol, hservice, htarget]

theorem validPort_iff :
    validPort port = true ↔ TargetPort.Transport port ∧ 1 ≤ port.servicePort ∧
      port.servicePort ≤ 65535 ∧ 1 ≤ port.targetPort ∧ port.targetPort ≤ 65535 := by
  simp only [validPort, TargetPort.Transport, Bool.not_eq_true', Bool.or_eq_false_iff, beq_eq_false_iff_ne,
    decide_eq_false_iff_not, Bool.and_eq_false_iff, bne_eq_false_iff_eq, not_lt]
  constructor
  · rintro ⟨⟨⟨⟨hservice, hserviceMax⟩, htarget⟩, htargetMax⟩, hprotocol⟩
    exact ⟨hprotocol, by omega, hserviceMax, by omega, htargetMax⟩
  · rintro ⟨hprotocol, hservice, hserviceMax, htarget, htargetMax⟩
    exact ⟨⟨⟨⟨by omega, hserviceMax⟩, by omega⟩, htargetMax⟩, hprotocol⟩

/-- Protocol and service port can be read off the key of a port. -/
theorem portKey_inj (heq : portKey port = portKey other) :
    port.protocol = other.protocol ∧ port.servicePort = other.servicePort := by
  have hslash : "/" = String.singleton '/' := rfl
  rw [portKey, portKey, hslash] at heq
  obtain ⟨hprotocol, hservice⟩ := separated_inj_last (not_mem_toString (by decide) _)
    (not_mem_toString (by decide) _) heq
  exact ⟨hprotocol, Nat.repr_inj.mp hservice⟩

/-- Ports with different keys have different identities. -/
theorem portKey_of_portIdentity (hport : validPort port = true) (hother : validPort other = true)
    (heq : portIdentity port = portIdentity other) :
    portKey port = portKey other := by
  rw [portIdentity_inj (validPort_iff.mp hport).1 (validPort_iff.mp hother).1 heq]

theorem nodup_portIdentity {ports : List TargetPort} (hvalid : ∀ port ∈ ports, validPort port = true)
    (hnodup : (ports.map portKey).Nodup) : (ports.map portIdentity).Nodup := by
  rw [List.nodup_iff_pairwise_ne, List.pairwise_map] at hnodup ⊢
  refine hnodup.imp_of_mem ?_
  intro port other hport hother hne heq
  exact hne (portKey_of_portIdentity (hvalid port hport) (hvalid other hother) heq)

/-! ## The ports of a desired Service -/

theorem wirePort_eq {port : ServicePort} (hport : port.Valid) :
    wirePort port = ⟨port.name, port.protocol, port.port.toNat, port.targetPort.toNat⟩ := by
  obtain ⟨_, ⟨hlow, hhigh⟩, htargetLow, htargetHigh⟩ := hport
  rw [wirePort, Int.emod_eq_of_lt (by omega) (by omega), Int.emod_eq_of_lt (by omega) (by omega)]

theorem validPort_wirePort {port : ServicePort} (hport : port.Valid) :
    validPort (wirePort port) = true := by
  rw [validPort_iff, wirePort_eq hport]
  obtain ⟨hprotocol, ⟨hlow, hhigh⟩, htargetLow, htargetHigh⟩ := hport
  refine ⟨hprotocol, ?_, ?_, ?_, ?_⟩
  all_goals
    dsimp only
    omega

theorem nodup_portKey_wirePort {service : Manifest.Service} (hservice : service.Valid) :
    ((service.ports.map wirePort).map portKey).Nodup := by
  have hnodup := hservice.nodup
  rw [List.nodup_iff_pairwise_ne, List.pairwise_map] at hnodup
  rw [List.map_map, List.nodup_iff_pairwise_ne, List.pairwise_map]
  refine hnodup.imp_of_mem ?_
  intro port other hport hother hne heq
  obtain ⟨hprotocol, hnumber⟩ := portKey_inj heq
  have hvalid := hservice.ports port hport
  have hvalidOther := hservice.ports other hother
  rw [wirePort_eq hvalid, wirePort_eq hvalidOther] at hprotocol hnumber
  apply hne
  have hsame : port.port = other.port := by
    have := hvalid.range
    have := hvalidOther.range
    dsimp only at hnumber
    omega
  rw [ServicePort.key, ServicePort.key, hsame]
  exact Prod.ext hprotocol rfl

end Podmin.Agent.Service
