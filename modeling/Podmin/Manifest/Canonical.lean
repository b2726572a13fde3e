import Mathlib
import Podmin.Manifest.Accepted

/-!
# Canonical Service documents

The CLI stores an accepted Service as a canonical document, and the agent parses that document again.
What it reads is the Service that was accepted.
-/

namespace Podmin.Manifest

open Foundation Fallible

/-- The wire form of a port in a canonical document. -/
def canonicalPort (port : ServicePort) : ServicePortDocument :=
  ⟨port.name, port.protocol, port.port, some (.number (toString port.targetPort))⟩

theorem parseServicePort_canonicalPort {port : ServicePort} (hvalid : port.Valid) :
    parseServicePort (canonicalPort port) = .ok port := by
  obtain ⟨hlow, hhigh⟩ := hvalid.targetRange
  have hdecode : decodeInt32 (.number (toString port.targetPort)) = some port.targetPort := by
    have hread : (toString port.targetPort).toInt? = some port.targetPort := Int.toInt?_repr _
    rw [decodeInt32, hread]
    exact if_pos ⟨by omega, by omega⟩
  have hsome : port.protocol ≠ "" := by
    rcases hvalid.protocol with htcp | hudp
    · rw [htcp]
      decide
    · rw [hudp]
      decide
  have hprotocol : ¬(port.protocol ≠ "TCP" ∧ port.protocol ≠ "UDP") := by
    rw [not_and_or, not_not, not_not]
    exact hvalid.protocol
  have hrange : ¬(port.port < 1 ∨ 65535 < port.port) := by
    rw [not_or, not_lt, not_lt]
    exact hvalid.range
  have htarget : ¬(port.targetPort < 1 ∨ 65535 < port.targetPort) := by
    rw [not_or, not_lt, not_lt]
    exact hvalid.targetRange
  unfold parseServicePort canonicalPort
  simp only [if_neg hsome, if_neg hprotocol, if_neg hrange, Option.elim_some, hdecode, if_neg htarget]

theorem parseServicePorts_canonicalPort {parsed ports : List ServicePort}
    (hvalid : ∀ port ∈ ports, port.Valid)
    (hnodup : ((parsed.reverse ++ ports).map ServicePort.key).Nodup) :
    parseServicePorts parsed (ports.map canonicalPort) = .ok (parsed.reverse ++ ports) := by
  induction ports generalizing parsed with
  | nil => simp [parseServicePorts]
  | cons port ports ih =>
    obtain ⟨hfirst, hrest⟩ := List.forall_mem_cons.mp hvalid
    have hfresh : (parsed.any fun other ↦ decide (other.protocol = port.protocol ∧
        other.port = port.port)) = false := by
      rw [List.any_eq_false]
      intro other hother hsame
      have hkey : other.key = port.key := Prod.ext (of_decide_eq_true hsame).1 (of_decide_eq_true hsame).2
      rw [List.map_append, List.map_cons] at hnodup
      refine (List.nodup_append.mp hnodup).2.2 other.key ?_ port.key List.mem_cons_self hkey
      exact List.mem_map.mpr ⟨other, List.mem_reverse.mpr hother, rfl⟩
    rw [List.map_cons, parseServicePorts, parseServicePort_canonicalPort hfirst, ok_bind, hfresh]
    have hnext := @ih (port :: parsed) hrest (by simpa using hnodup)
    simpa using hnext

/-- Parsing the canonical document of an accepted Service gives that Service. -/
theorem parseService_canonicalDocument {service : Service} (hvalid : service.Valid) :
    parseService (canonicalDocument service) = .ok service := by
  have hns : service.ns ≠ "" := ne_empty_of_matchLabel hvalid.ns
  have hports : parseServicePorts [] (service.ports.map canonicalPort) = .ok service.ports :=
    parseServicePorts_canonicalPort hvalid.ports hvalid.nodup
  have hnonempty : (service.ports.map canonicalPort).isEmpty = false := by
    rw [List.isEmpty_eq_false_iff]
    simpa using hvalid.nonempty
  have hdocument : canonicalDocument service = ⟨"v1", "Service", service.name, service.ns,
      service.selector, service.ports.map canonicalPort⟩ := rfl
  rw [hdocument]
  unfold parseService
  simp only [if_neg hns, hvalid.name, hvalid.ns, hvalid.selector, hnonempty, hports, ok_bind]
  simp

/-- The same Service; a selector is a map. -/
structure SameService (left right : Service) : Prop where
  name : left.name = right.name
  ns : left.ns = right.ns
  selector : ∀ key, left.selector.lookup key = right.selector.lookup key
  ports : left.ports = right.ports

end Podmin.Manifest
