import Podmin.Agent.Dataplane.Represents
import Podmin.Agent.Dataplane.RoundTrip

/-!
# Where packets go

From the Services of a snapshot through the tables and maps to the packets: a translated packet goes to
a backend of the port it is sent to. Tables may be replaced at any time, and a flow keeps the backend it
has.
-/

namespace Podmin.Agent.Dataplane.Bpf

open Foundation Transition

variable {order : ByteOrder} {kernel : Kernel} {faults : Faults} {flows : Flows} {flow : FlowKey}
  {forward : ForwardValue} {snapshot : Snapshot} {tables : Tables}

/-- The key of the port that a flow is sent to, on a little-endian host. -/
def FlowKey.service (flow : FlowKey) : Dataplane.ServiceKey :=
  ⟨flow.destination, (reverseBytes16 flow.destinationPort).toNat, flow.protocol.toNat⟩

def kernelBackend (backend : Dataplane.BackendValue) : BackendValue :=
  ⟨backend.address, reverseBytes16 (BitVec.ofNat 16 backend.port)⟩

/-- The snapshot has the backend at the port that the flow is sent to. -/
def Routes (snapshot : Snapshot) (flow : FlowKey) (forward : ForwardValue) : Prop :=
  ∃ port ∈ addressed snapshot.services, port.key = flow.service ∧
    ∃ backend ∈ port.values, kernelBackend backend = ⟨forward.backend, forward.backendPort⟩

/-! ## The tables in the kernel -/

theorem compile_represents (hcompile : compile snapshot = .ok tables) :
    Represents snapshot tables ∧ tables.backends.length ≤ maxTableEntries := by
  obtain ⟨_, hfits, htables⟩ := compile_eq_ok hcompile
  have hlaid : Laid (sortedEntries snapshot.services) tables := by
    rw [htables]
    exact foldl_layout_laid _ _ (sortedEntries_keys hfits)
  refine ⟨hlaid.represents hfits, ?_⟩
  rw [hlaid.backends, length_sortedEntries]
  exact hfits.total

/-- The backend under a hash is one of the port's. -/
theorem publish_backend (hcompile : compile snapshot = .ok tables) {service : ServiceValue} {hash : BitVec 32}
    {backend : BackendValue}
    (hservice : (publish tables).services
      ⟨flow.destination, flow.destinationPort, flow.protocol⟩ = some service)
    (hcount : service.backendCount ≠ 0)
    (hbackend : (publish tables).backends (service.backendOffset + hash % service.backendCount) = some backend)
    (snatPort : BitVec 16) : Routes snapshot flow ⟨backend.address, backend.port, snatPort⟩ := by
  obtain ⟨hrepresents, hlength⟩ := compile_represents hcompile
  obtain ⟨value, hvalue, rfl⟩ := Option.map_eq_some_iff.1 hservice
  obtain ⟨port, hport, hkey⟩ := (hrepresents.keys _).1 ⟨value, hvalue⟩
  have hinside := hrepresents.inside _ value hvalue
  have hperm := (hrepresents.ranges port hport value (hkey ▸ hvalue)).1
  have hmax : maxTableEntries = 65536 := rfl
  have hpos : value.backendCount ≠ 0 := fun hzero ↦ hcount (by simp [hzero])
  have hmod := Nat.mod_lt hash.toNat (Nat.pos_of_ne_zero hpos)
  -- nothing wraps around, since the whole table is shorter than 2 ^ 16
  have hindex : (BitVec.ofNat 32 value.backendOffset + hash % BitVec.ofNat 32 value.backendCount).toNat =
      value.backendOffset + hash.toNat % value.backendCount := by
    rw [BitVec.toNat_add, BitVec.toNat_umod, BitVec.toNat_ofNat, BitVec.toNat_ofNat,
      Nat.mod_eq_of_lt (by omega : value.backendCount < 2 ^ 32)]
    omega
  have hlt : value.backendOffset + hash.toNat % value.backendCount < tables.backends.length := by omega
  simp only [publish, hindex, List.getElem?_eq_getElem hlt, if_pos (hlt.trans_le hlength),
    Option.some.injEq] at hbackend
  refine ⟨port, hport, hkey,
    tables.backends[value.backendOffset + hash.toNat % value.backendCount], ?_, hbackend⟩
  rw [← hperm.mem_iff, Tables.range, List.mem_take_iff_getElem]
  exact ⟨hash.toNat % value.backendCount, by rw [List.length_drop]; omega, by rw [List.getElem_drop]⟩

/-! ## The entries of flows -/

/-- What holds of every forward entry. -/
def Flows.All (Holds : FlowKey → ForwardValue → Prop) (flows : Flows) : Prop :=
  ∀ key forward, flows.forward key = some forward → Holds key forward

section All

variable {Holds : FlowKey → ForwardValue → Prop}

theorem Flows.All.update (hall : flows.All Holds) {value : Option ForwardValue}
    (hvalue : ∀ forward, value = some forward → Holds flow forward) :
    Flows.All Holds { flows with forward := Function.update flows.forward flow value } := by
  intro other found hfound
  change Function.update flows.forward flow value other = some found at hfound
  rw [Function.update_apply] at hfound
  split_ifs at hfound with hother
  · exact hother ▸ hvalue found hfound
  · exact hall other found hfound

theorem Flows.All.setForward (hall : flows.All Holds) (hforward : Holds flow forward) :
    (flows.setForward flow forward).All Holds :=
  hall.update fun _ hvalue ↦ Option.some.inj hvalue ▸ hforward

theorem Flows.All.deleteForward (hall : flows.All Holds) : (flows.deleteForward flow).All Holds :=
  hall.update (by simp)

/-- Looking for a port changes no backend. -/
theorem probe_all {node : BitVec 128} (hall : flows.All Holds) (attempts attempt : Nat)
    (candidate : ForwardValue)
    (hcandidate : ∀ snatPort, Holds flow { candidate with snatPort }) :
    (probe order node flow faults flows attempts attempt candidate).2.All Holds := by
  induction attempts generalizing attempt candidate with
  | zero => exact hall
  | succ attempts ih =>
    rw [probe]
    split
    · split_ifs
      · exact hall
      · exact hall.setForward (hcandidate candidate.snatPort)
      · exact ih _ _ hcandidate
    · split_ifs
      · exact ih _ _ hcandidate
      · exact hall
      · exact Flows.All.setForward hall (hcandidate candidate.snatPort)

theorem forwardFor_all {service : ServiceValue} (hall : flows.All Holds)
    (hnew : flows.forward flow = none → ∀ backend snatPort,
      kernel.backends (service.backendOffset + flowHash flow % service.backendCount) = some backend →
      Holds flow ⟨backend.address, backend.port, snatPort⟩) :
    (forwardFor order kernel service flow faults flows).2.All Holds := by
  unfold forwardFor
  cases hforward : flows.forward flow with
  | some forward => exact hall
  | none =>
    dsimp only
    split
    · exact hall
    · next backend hbackend => exact probe_all hall _ _ _ fun snatPort ↦ hnew hforward backend snatPort hbackend

theorem repair_all {node : BitVec 128} (hall : flows.All Holds) :
    (repair node flow faults flows forward).2.All Holds := by
  unfold repair
  dsimp only
  split
  · exact hall.deleteForward
  · next after hafter =>
    have hkept : after.forward = flows.forward := by grind [Flows.setReverse]
    have hentries : after.All Holds := by
      rwa [Flows.All, hkept]
    split_ifs
    exacts [hentries, hentries.deleteForward]

/-- A packet leaves the entries there are, and makes one for a flow without an entry to a backend of its
port. -/
theorem podminIngress_all (hcompile : compile snapshot = .ok tables) (frame : Frame) (hall : flows.All Holds)
    (hnew : ∀ flow forward, flows.forward flow = none → Routes snapshot flow forward → Holds flow forward) :
    (podminIngress order (publish tables) faults flows frame).2.All Holds := by
  unfold podminIngress
  split
  · exact hall
  next transport _ =>
  dsimp only
  split
  · exact hall
  split
  · exact hall
  next service hservice =>
  split_ifs with hcount
  · exact hall
  have hfound := @forwardFor_all order (publish tables) faults flows (flowOf frame transport) Holds service hall
    fun hnone backend snatPort hbackend ↦
      hnew _ _ hnone (publish_backend hcompile hservice hcount hbackend snatPort)
  split
  · next hnext =>
    rw [hnext] at hfound
    exact hfound
  next forward after hnext =>
  rw [hnext] at hfound
  have hrepaired := @repair_all faults after (flowOf frame transport) forward Holds (publish tables).node hfound
  split <;> next hrepair => rw [hrepair] at hrepaired; exact hrepaired

end All

/-! ## Whole runs -/

/-- Only the tables of the given snapshots are activated. -/
def routing (order : ByteOrder) (activated : Set Snapshot) : System State Event where
  init state := ∃ snapshot ∈ activated, ∃ tables, compile snapshot = .ok tables ∧
    state = ⟨publish tables, noFlows⟩
  step state event next := Step order state event next ∧
    ∀ tables, event = .activate tables → ∃ snapshot ∈ activated, compile snapshot = .ok tables

/-- The kernel has the tables of one of the snapshots, and each flow a backend that one of them has for it. -/
structure Routed (activated : Set Snapshot) (state : State) : Prop where
  current : ∃ snapshot ∈ activated, ∃ tables, compile snapshot = .ok tables ∧ state.kernel = publish tables
  flows : state.flows.All fun flow forward ↦ ∃ snapshot ∈ activated, Routes snapshot flow forward

theorem routed_of_reachable {activated : Set Snapshot} {state : State}
    (hreach : Reachable (routing order activated) state) : Routed activated state := by
  refine hreach.invariant ?_ ?_
  · rintro _ ⟨snapshot, hsnapshot, tables, hcompile, rfl⟩
    exact ⟨⟨snapshot, hsnapshot, tables, hcompile, rfl⟩, fun _ _ hfound ↦ by cases hfound⟩
  · rintro ⟨kernel, flows⟩ event next - ⟨⟨snapshot, hsnapshot, tables, hcompile, hkernel⟩, hall⟩
      ⟨hstep, hallowed⟩
    have hkept : ∃ snapshot ∈ activated, ∃ tables, compile snapshot = .ok tables ∧ kernel = publish tables :=
      ⟨snapshot, hsnapshot, tables, hcompile, hkernel⟩
    cases hstep with
    | packet faults frame =>
      refine ⟨hkept, ?_⟩
      rw [show kernel = publish tables from hkernel]
      exact podminIngress_all hcompile frame hall fun flow forward _ hroutes ↦ ⟨snapshot, hsnapshot, hroutes⟩
    | evictForward key => exact ⟨hkept, hall.deleteForward⟩
    | evictReverse key => exact ⟨hkept, hall⟩
    | activate tables hnode =>
      obtain ⟨other, hother, hcompiled⟩ := hallowed tables rfl
      exact ⟨⟨other, hother, tables, hcompiled, rfl⟩, hall⟩

/-- In every run a translated packet goes to a backend that one of the snapshots has for the port it is sent to,
which is the current snapshot for the first packet of a flow; and no packet to a port of the current snapshot is
let through as it is. -/
theorem packet_routed {activated : Set Snapshot} {state : State}
    (hreach : Reachable (routing order activated) state)
    {frame : Frame} {transport : Transport} (hframe : frame.WellFormed)
    (htransport : frame.transport = some transport) (faults : Faults) :
    let result := podminIngress order state.kernel faults state.flows frame
    ∃ current ∈ activated, (∃ tables, compile current = .ok tables ∧ state.kernel = publish tables) ∧
      (∀ out, result.1 = .translated out → ∃ snapshot ∈ activated, ∃ forward,
        Routes snapshot (flowOf frame transport) forward ∧
        (state.flows.forward (flowOf frame transport) = none → snapshot = current) ∧
        out = rewrite order frame transport state.kernel.node forward.snatPort forward.backend
          forward.backendPort) ∧
      ((∃ port ∈ addressed current.services, port.key = (flowOf frame transport).service) →
        result.1 ≠ .pass) := by
  intro result
  obtain ⟨⟨current, hcurrent, tables, hcompile, hkernel⟩, hall⟩ := routed_of_reachable hreach
  refine ⟨current, hcurrent, ⟨tables, hcompile, hkernel⟩, fun out hout ↦ ?_, fun hserved ↦ ?_⟩
  · obtain ⟨found, forward, hfound, hrewrite, hforward, _⟩ :=
      (@podminIngress_handles order state.kernel faults state.flows frame).translated out hout
    cases htransport.symm.trans hfound
    have hentries : state.flows.All fun flow forward ↦ state.flows.forward flow = some forward ∨
        Routes current flow forward := fun _ _ ↦ .inl
    have hafter := @podminIngress_all order faults _ _ _ _ hcompile frame hentries fun _ _ _ ↦ .inr
    rw [← hkernel] at hafter
    rcases hafter _ forward hforward with hold | hnew
    · obtain ⟨snapshot, hsnapshot, hroutes⟩ := hall _ forward hold
      exact ⟨snapshot, hsnapshot, forward, hroutes, fun hnone ↦ (by cases hnone.symm.trans hold), hrewrite⟩
    · exact ⟨current, hcurrent, forward, hnew, fun _ ↦ rfl, hrewrite⟩
  · obtain ⟨value, hvalue⟩ := ((compile_represents hcompile).1.keys _).2 hserved
    obtain ⟨service, hservice⟩ : ∃ service, state.kernel.services
        ⟨frame.destination, transport.destination, frame.nextHeader⟩ = some service :=
      ⟨_, by rw [hkernel]; exact congrArg (Option.map _) hvalue⟩
    simp only [result, podminIngress, parse_wellFormed hframe htransport, hservice]
    grind

def dnsQuery : Frame :=
  ⟨true, ipprotoUDP, 1, 0xfd506f646d6900000000000000000001, some ⟨0, htons .little 53, 1, false⟩⟩

/-- A query to a name server with one backend is not let through. -/
theorem packet_routed_dns : ∃ state, Reachable (routing .little {dnsSnapshot [dnsPort [dnsBackend 2]]}) state ∧
    (podminIngress .little state.kernel noFaults state.flows dnsQuery).1 ≠ .pass := by
  have hstart : Reachable (routing .little {dnsSnapshot [dnsPort [dnsBackend 2]]}) _ :=
    .init ⟨_, rfl, _, rfl, rfl⟩
  obtain ⟨_, rfl, _, _, hpass⟩ := @packet_routed _ _ _ hstart dnsQuery _
    ⟨rfl, _, rfl, .inr ⟨rfl, by decide⟩⟩ rfl noFaults
  exact ⟨_, hstart, hpass ⟨_, List.mem_cons_self, by decide⟩⟩

end Podmin.Agent.Dataplane.Bpf
