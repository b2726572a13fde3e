import Podmin.Agent.Dataplane.Ingress
import Podmin.Foundation.OnceMap

/-!
# Translation and back

The program writes an entry of either flow map only where there is none, and lets a translated packet
out only with both entries in place. So an entry that is not lost keeps its value, replies find their
way back, and no two flows share a translation, whatever is lost and whichever tables are activated.
-/

namespace Podmin.Agent.Dataplane.Bpf

open Foundation OnceMap Transition

variable {key : FlowKey} {frame : Frame} {transport : Transport}

/-- The tuple of the other direction. -/
def FlowKey.swap (flow : FlowKey) : FlowKey :=
  ⟨flow.destination, flow.source, flow.destinationPort, flow.sourcePort, flow.protocol⟩

/-- A frame with the addresses, ports and protocol of a tuple. -/
def Frame.IsPacketOf (frame : Frame) (flow : FlowKey) : Prop :=
  ∃ transport, frame.transport = some transport ∧ flowOf frame transport = flow

/-- A TCP packet with a whole header or a UDP packet with a checksum. -/
def Frame.WellFormed (frame : Frame) : Prop :=
  frame.ipv6 = true ∧ ∃ transport, frame.transport = some transport ∧
    ((frame.nextHeader = ipprotoTCP ∧ transport.tcpComplete = true) ∨
      (frame.nextHeader = ipprotoUDP ∧ transport.checksum ≠ 0))

/-! ## Runs -/

structure State where
  kernel : Kernel
  flows : Flows

inductive Event
  | packet (faults : Faults) (frame : Frame)
  | evictForward (key : FlowKey)
  | evictReverse (key : FlowKey)
  | activate (tables : Tables)

/-- One frame, one lost entry, or an activation, which keeps the flow maps. -/
inductive Step (order : ByteOrder) (state : State) : Event → State → Prop
  | packet (faults : Faults) (frame : Frame) :
      Step order state (.packet faults frame)
        { state with flows := (podminIngress order state.kernel faults state.flows frame).2 }
  | evictForward (key : FlowKey) :
      Step order state (.evictForward key) { state with flows := state.flows.deleteForward key }
  | evictReverse (key : FlowKey) :
      Step order state (.evictReverse key) { state with flows := state.flows.deleteReverse key }
  | activate (tables : Tables) (hnode : tables.nodeIPv6 = state.kernel.node) :
      Step order state (.activate tables) { state with kernel := publish tables }

/-- Any frames, losses and activations with a fixed node address. -/
def natSystem (order : ByteOrder) : System State Event where
  init _ := True
  step := Step order

/-! ## What one frame does to the flow maps -/

section Frames

variable {order : ByteOrder} {kernel : Kernel} {faults : Faults} {flows after : Flows} {flow : FlowKey}

/-- Entries of both flow maps are kept or lost. -/
structure Flows.Keeps (before after : Flows) : Prop where
  forward : OnceMap.Keeps before.forward after.forward
  reverse : OnceMap.Keeps before.reverse after.reverse

theorem Flows.Keeps.refl (flows : Flows) : flows.Keeps flows :=
  ⟨.refl _, .refl _⟩

theorem Flows.Keeps.deleteForward (hkeeps : flows.Keeps after) (key : FlowKey) :
    flows.Keeps (after.deleteForward key) :=
  ⟨hkeeps.forward.delete key, hkeeps.reverse⟩

theorem Flows.Keeps.setForward (hkeeps : flows.Keeps after) (hnone : flows.forward key = none)
    (value : ForwardValue) :
    flows.Keeps (after.setForward key value) :=
  ⟨hkeeps.forward.insert hnone value, hkeeps.reverse⟩

theorem Flows.Keeps.setReverse (hkeeps : flows.Keeps after) (hnone : flows.reverse key = none)
    (value : ReverseValue) :
    flows.Keeps (after.setReverse key value) :=
  ⟨hkeeps.forward, hkeeps.reverse.insert hnone value⟩

theorem Flows.Keeps.deleteReverse (hkeeps : flows.Keeps after) (key : FlowKey) :
    flows.Keeps (after.deleteReverse key) :=
  ⟨hkeeps.forward, hkeeps.reverse.delete key⟩

/-- What making or finding a forward entry for a flow leaves: entries are only written where there are
none, and on success the entry is there and no reverse entry is lost. -/
structure Connects (flow : FlowKey) (before : Flows) (found : Option ForwardValue × Flows) : Prop where
  keeps : before.Keeps found.2
  forward : ∀ forward, found.1 = some forward → found.2.forward flow = some forward
  reverse : found.1.isSome → ∀ key, found.2.reverse key = none → before.reverse key = none

theorem Connects.failed (hkeeps : flows.Keeps after) : Connects flow flows (none, after) where
  keeps := hkeeps
  forward _ hforward := nomatch hforward
  reverse hforward := nomatch hforward

theorem Connects.made {candidate : ForwardValue} (hkeeps : flows.Keeps after)
    (hnone : flows.forward flow = none)
    (hreverse : ∀ key, after.reverse key = none → flows.reverse key = none) :
    Connects flow flows (some candidate, after.setForward flow candidate) where
  keeps := hkeeps.setForward hnone candidate
  forward forward hforward := by
    rw [← hforward]
    exact Function.update_self ..
  reverse _ := hreverse

theorem probe_connects {node : BitVec 128} (hnone : flows.forward flow = none) (attempts attempt : Nat)
    (candidate : ForwardValue) :
    Connects flow flows (probe order node flow faults flows attempts attempt candidate) := by
  induction attempts generalizing attempt candidate with
  | zero => exact .failed (.refl flows)
  | succ attempts ih =>
    rw [probe]
    split
    · split
      · split
        · exact .failed (.refl flows)
        · exact .made (.refl flows) hnone fun _ hkey ↦ hkey
      · exact ih _ _
    · next hfree =>
      split
      · exact ih _ _
      · have hinserted := (Flows.Keeps.refl flows).setReverse hfree (reverseValue flow)
        split
        · exact .failed (hinserted.deleteReverse _)
        · refine .made hinserted hnone fun key hkey ↦ ?_
          by_cases hsame : key = reverseKey node flow.protocol candidate
          · rw [hsame]
            exact hfree
          · exact (Function.update_of_ne hsame _ _).symm.trans hkey

theorem forwardFor_connects (kernel : Kernel) (service : ServiceValue) :
    Connects flow flows (forwardFor order kernel service flow faults flows) := by
  unfold forwardFor
  cases hforward : flows.forward flow with
  | some forward =>
    exact ⟨.refl flows, fun found hfound ↦ hfound ▸ hforward, fun _ _ hkey ↦ hkey⟩
  | none =>
    dsimp only
    split
    · exact .failed (.refl flows)
    · exact probe_connects hforward _ _ _

theorem reverseMatches_iff {reverse : ReverseValue} :
    reverseMatches reverse flow = true ↔ reverse = reverseValue flow := by
  cases reverse
  simp [reverseMatches, reverseValue, and_assoc]

/-- A reverse entry and the protocol of its key determine the flow. -/
theorem reverseValue_inj {other : FlowKey} (hvalue : reverseValue other = reverseValue flow)
    (hprotocol : other.protocol = flow.protocol) : other = flow := by
  obtain ⟨hclient, hvip, hclientPort, hvipPort⟩ := ReverseValue.mk.inj hvalue
  cases other
  cases flow
  exact FlowKey.mk.injEq .. ▸ ⟨hclient, hvip, hclientPort, hvipPort, hprotocol⟩

/-- What the repair of a flow leaves: on success its reverse entry is there. -/
structure Repairs (key flow : FlowKey) (before flows : Flows) (result : Bool × Flows) : Prop where
  keeps : before.Keeps result.2
  forward : result.1 = true → result.2.forward = flows.forward
  reverse : result.1 = true → result.2.reverse key = some (reverseValue flow)

theorem Repairs.failed {before : Flows} (hkeeps : before.Keeps after) :
    Repairs key flow before flows (false, after.deleteForward flow) where
  keeps := hkeeps.deleteForward flow
  forward hfalse := absurd hfalse Bool.false_ne_true
  reverse hfalse := absurd hfalse Bool.false_ne_true

theorem repair_repairs {before : Flows} {node : BitVec 128} (hkeeps : before.Keeps flows)
    (hnone : ∀ key, flows.reverse key = none → before.reverse key = none) (forward : ForwardValue) :
    Repairs (reverseKey node flow.protocol forward) flow before flows
      (repair node flow faults flows forward) := by
  unfold repair
  cases hreverse : flows.reverse (reverseKey node flow.protocol forward) with
  | some reverse =>
    simp only [hreverse, Option.any_some]
    split
    · next hmatches =>
      exact ⟨hkeeps, fun _ ↦ rfl, fun _ ↦ reverseMatches_iff.mp hmatches ▸ hreverse⟩
    · exact .failed hkeeps
  | none =>
    cases faults.repair with
    | true =>
      simp only [hreverse, if_true]
      exact .failed hkeeps
    | false =>
      have hinserted := hkeeps.setReverse (hnone _ hreverse) (reverseValue flow)
      simp only [hreverse, Bool.false_eq_true, if_false]
      split
      · exact ⟨hinserted, fun _ ↦ rfl, fun _ ↦ Function.update_self ..⟩
      · exact .failed hinserted

/-- What handling a frame leaves: entries are only written where there are none, and a translated frame
leaves with both entries of its flow in place. -/
structure Handles (order : ByteOrder) (kernel : Kernel) (flows : Flows) (frame : Frame)
    (result : Verdict × Flows) : Prop where
  keeps : flows.Keeps result.2
  translated : ∀ out, result.1 = .translated out → ∃ transport forward,
    frame.transport = some transport ∧
    out = rewrite order frame transport kernel.node forward.snatPort forward.backend forward.backendPort ∧
    result.2.forward (flowOf frame transport) = some forward ∧
    result.2.reverse (reverseKey kernel.node frame.nextHeader forward) =
      some (reverseValue (flowOf frame transport))

theorem parse_eq_ok (hparse : parse kernel frame = .ok transport) :
    frame.transport = some transport := by
  unfold parse at hparse
  grind

theorem parse_eq_error {verdict : Verdict} (hparse : parse kernel frame = .error verdict) :
    verdict = .shot ∨ verdict = .pass := by
  unfold parse at hparse
  grind

theorem parse_wellFormed (hframe : frame.WellFormed) (htransport : frame.transport = some transport) :
    parse kernel frame = .ok transport := by
  obtain ⟨hipv6, found, hfound, hprotocol⟩ := hframe
  cases htransport.symm.trans hfound
  rcases hprotocol with ⟨htcp, hcomplete⟩ | ⟨hudp, hchecksum⟩
  · simp [parse, hipv6, htcp, htransport, hcomplete, ipprotoTCP, ipprotoFragment, ipprotoUDP]
  · simpa [parse, hipv6, hudp, htransport, ipprotoTCP, ipprotoFragment, ipprotoUDP] using hchecksum

theorem Handles.kept {verdict : Verdict} (hkeeps : flows.Keeps after)
    (hverdict : ∀ out, verdict ≠ .translated out) : Handles order kernel flows frame (verdict, after) where
  keeps := hkeeps
  translated out hout := absurd hout (hverdict out)

theorem podminIngress_handles (frame : Frame) :
    Handles order kernel flows frame (podminIngress order kernel faults flows frame) := by
  unfold podminIngress
  split
  · next verdict hparse =>
    refine .kept (.refl flows) fun out ↦ ?_
    rcases parse_eq_error hparse with rfl | rfl
    · simp
    · simp
  next transport hparse =>
  dsimp only
  split
  · exact .kept (.refl flows) (by simp)
  split
  · exact .kept (.refl flows) (by simp)
  next service _ =>
  split
  · exact .kept (.refl flows) (by simp)
  have hconnects := @forwardFor_connects order faults flows (flowOf frame transport) kernel service
  split
  · next found hfound =>
    rw [hfound] at hconnects
    exact .kept hconnects.keeps (by simp)
  next forward found hfound =>
  rw [hfound] at hconnects
  have hrepairs := @repair_repairs faults found (flowOf frame transport) flows kernel.node
    hconnects.keeps (hconnects.reverse rfl) forward
  split
  · next repaired hrepair =>
    rw [hrepair] at hrepairs
    exact .kept hrepairs.keeps (by simp)
  · next repaired hrepair =>
    rw [hrepair] at hrepairs
    refine ⟨hrepairs.keeps, fun out hout ↦ ⟨transport, forward, parse_eq_ok hparse, ?_, ?_, ?_⟩⟩
    · exact (Verdict.translated.inj hout).symm
    · exact (congrFun (hrepairs.forward rfl) _).trans (hconnects.forward forward rfl)
    · exact hrepairs.reverse rfl

end Frames

/-! ## Whole runs -/

variable {order : ByteOrder}

theorem Step.keeps {state next : State} {event : Event} (hstep : Step order state event next) :
    state.flows.Keeps next.flows := by
  cases hstep with
  | packet faults frame => exact (podminIngress_handles frame).keeps
  | evictForward key => exact (Flows.Keeps.refl _).deleteForward key
  | evictReverse key => exact (Flows.Keeps.refl _).deleteReverse key
  | activate tables hnode => exact .refl _

theorem Step.node {state next : State} {event : Event} (hstep : Step order state event next) :
    next.kernel.node = state.kernel.node := by
  cases hstep with
  | packet faults frame => rfl
  | evictForward key => rfl
  | evictReverse key => rfl
  | activate tables hnode => exact hnode

theorem node_of_resumed {start later : State} {alive : State → Prop}
    (hlater : Reachable ((natSystem order).resumed start alive) later) :
    later.kernel.node = start.kernel.node := by
  refine @Reachable.invariant _ _ _ (fun state ↦ state.kernel.node = start.kernel.node) ?_ ?_ _ hlater
  · intro state hinit
    rw [hinit]
  · intro state event next _ hnode hstep
    exact hstep.1.node.trans hnode

variable {flow : FlowKey}

theorem Frame.IsPacketOf.eq (hframe : frame.IsPacketOf flow) (htransport : frame.transport = some transport) :
    flow = flowOf frame transport := by
  obtain ⟨found, hfound, hflow⟩ := hframe
  cases htransport.symm.trans hfound
  exact hflow.symm

/-- A translated packet of a flow leaves with the entries of the flow in place, under the tuple it
leaves with. -/
theorem translated_entries {kernel : Kernel} {faults : Faults} {flows after : Flows} {out : Frame}
    {outer : FlowKey} (hframe : frame.IsPacketOf flow)
    (hout : podminIngress order kernel faults flows frame = (.translated out, after))
    (houter : out.IsPacketOf outer) :
    ∃ forward : ForwardValue, after.forward flow = some forward ∧
      outer = ⟨kernel.node, forward.backend, forward.snatPort, forward.backendPort, flow.protocol⟩ ∧
      after.reverse outer.swap = some (reverseValue flow) := by
  have hhandles := @podminIngress_handles order kernel faults flows frame
  rw [hout] at hhandles
  obtain ⟨transport, forward, htransport, hrewrite, hforward, hreverse⟩ := hhandles.translated out rfl
  have hflow := hframe.eq htransport
  have htuple : outer =
      ⟨kernel.node, forward.backend, forward.snatPort, forward.backendPort, flow.protocol⟩ := by
    rw [houter.eq (by rw [hrewrite]; rfl), hrewrite, hflow]
    rfl
  refine ⟨forward, hflow ▸ hforward, htuple, ?_⟩
  rw [htuple, hflow]
  exact hreverse

/-- A reply with a reverse entry leaves with the addresses of the flow turned around. -/
theorem reply_of_reverse {kernel : Kernel} {faults : Faults} {flows : Flows} {reply : Frame}
    (hreply : reply.WellFormed) (hkey : reply.IsPacketOf key) (hprotocol : key.protocol = flow.protocol)
    (hentry : flows.reverse key = some (reverseValue flow)) :
    ∃ back, podminIngress order kernel faults flows reply = (.reply back, flows) ∧
      back.IsPacketOf flow.swap := by
  obtain ⟨transport, htransport, rfl⟩ := hkey
  rw [podminIngress, parse_wellFormed hreply htransport]
  simp only [hentry]
  refine ⟨_, rfl, _, rfl, ?_⟩
  rw [FlowKey.swap, ← hprotocol]
  rfl

/-- From any state on: a packet of a flow that leaves translated has its reverse entry; as long as that
entry is there, replies leave with the addresses of the flow turned around, and no other flow leaves
with the same tuple; as long as the forward entry is there, the flow leaves with the same tuple. -/
theorem nat_round_trip {order : ByteOrder} {state : State} {faults : Faults} {flows : Flows}
    {frame out : Frame} {flow outer : FlowKey} (hframe : frame.IsPacketOf flow)
    (hout : podminIngress order state.kernel faults state.flows frame = (.translated out, flows))
    (houter : out.IsPacketOf outer) :
    (outer.source = state.kernel.node ∧ flows.reverse outer.swap =
      some ⟨flow.source, flow.destination, flow.sourcePort, flow.destinationPort⟩) ∧
    (∀ later, Reachable ((natSystem order).resumed ⟨state.kernel, flows⟩
        fun state ↦ (state.flows.reverse outer.swap).isSome) later →
      (∀ faults reply, reply.WellFormed → reply.IsPacketOf outer.swap →
        ∃ back, podminIngress order later.kernel faults later.flows reply = (.reply back, later.flows) ∧
          back.IsPacketOf flow.swap) ∧
      ∀ faults other otherFrame otherOut after, otherFrame.IsPacketOf other →
        podminIngress order later.kernel faults later.flows otherFrame = (.translated otherOut, after) →
        otherOut.IsPacketOf outer → other = flow) ∧
    ∀ later, Reachable ((natSystem order).resumed ⟨state.kernel, flows⟩
        fun state ↦ (state.flows.forward flow).isSome) later →
      ∀ faults laterFrame laterOut laterOuter after, laterFrame.IsPacketOf flow →
        podminIngress order later.kernel faults later.flows laterFrame = (.translated laterOut, after) →
        laterOut.IsPacketOf laterOuter → laterOuter = outer := by
  obtain ⟨forward, hforward, htuple, hreverse⟩ := translated_entries hframe hout houter
  refine ⟨⟨by rw [htuple], hreverse⟩, fun later hlater ↦ ?_, fun later hlater ↦ ?_⟩
  · have hentry := @entry_of_resumed _ _ _ _ (natSystem order) (fun state ↦ state.flows.reverse) _ _ _ _
      (fun _ _ _ hstep ↦ (Step.keeps hstep).reverse) hreverse hlater
    refine ⟨fun faults reply hreply hkey ↦ ?_, ?_⟩
    · exact reply_of_reverse hreply hkey (by rw [htuple]; rfl) hentry
    · intro faults other otherFrame otherOut after hother htranslated hsame
      obtain ⟨_, _, hotherTuple, hkept⟩ := translated_entries hother htranslated hsame
      have hhandles := @podminIngress_handles order later.kernel faults later.flows otherFrame
      rw [htranslated] at hhandles
      -- the entry is that of the first flow, so the second flow is the first
      have hvalue := hhandles.keeps.reverse.eq_of_isSome hentry (by rw [hkept]; rfl)
      have heq : reverseValue other = reverseValue flow := Option.some.inj (hkept.symm.trans hvalue)
      exact reverseValue_inj heq (FlowKey.mk.inj (hotherTuple.symm.trans htuple)).2.2.2.2
  · have hentry := @entry_of_resumed _ _ _ _ (natSystem order) (fun state ↦ state.flows.forward) _ _ _ _
      (fun _ _ _ hstep ↦ (Step.keeps hstep).forward) hforward hlater
    intro faults laterFrame laterOut laterOuter after hlaterFrame htranslated hlaterOuter
    obtain ⟨found, hfound, hlaterTuple, _⟩ := translated_entries hlaterFrame htranslated hlaterOuter
    have hhandles := @podminIngress_handles order later.kernel faults later.flows laterFrame
    rw [htranslated] at hhandles
    have hvalue := hhandles.keeps.forward.eq_of_isSome hentry (by rw [hfound]; rfl)
    cases hfound.symm.trans hvalue
    rw [hlaterTuple, htuple, node_of_resumed hlater]

/-! ## A flow to one backend -/

/-- One service with one backend. -/
def sampleTables : Tables :=
  ⟨0x20010db8000000000000000000000001, AList.singleton ⟨0xfd50, 80, 6⟩ ⟨0, 1⟩,
    [⟨0x20010db8000000000000000000000100, 8080⟩]⟩

def noFaults : Faults := ⟨fun _ ↦ false, false, false⟩

def noFlows : Flows := ⟨fun _ ↦ none, fun _ ↦ none⟩

/-- The first packet of a connection to the service. -/
def sampleFrame : Frame :=
  ⟨true, ipprotoTCP, 0x20010db8000000000000000000000200, 0xfd50,
    some ⟨htons .little 40000, htons .little 80, 0, true⟩⟩

def sampleFlow : FlowKey :=
  ⟨0x20010db8000000000000000000000200, 0xfd50, htons .little 40000, htons .little 80, ipprotoTCP⟩

def sampleOut : Frame :=
  ⟨true, ipprotoTCP, 0x20010db8000000000000000000000001, 0x20010db8000000000000000000000100,
    some ⟨0x7676, htons .little 8080, 0x20d7, true⟩⟩

def sampleOuter : FlowKey :=
  ⟨0x20010db8000000000000000000000001, 0x20010db8000000000000000000000100, 0x7676, htons .little 8080,
    ipprotoTCP⟩

def sampleReply : Frame :=
  ⟨true, ipprotoTCP, 0x20010db8000000000000000000000100, 0x20010db8000000000000000000000001,
    some ⟨htons .little 8080, 0x7676, 0, true⟩⟩

/-- After the service is gone, the backend's answer still reaches the client. -/
theorem nat_round_trip_sample : ∃ flows back,
    podminIngress .little (publish sampleTables) noFaults noFlows sampleFrame =
      (.translated sampleOut, flows) ∧
    flows.reverse sampleOuter.swap =
      some ⟨sampleFlow.source, sampleFlow.destination, sampleFlow.sourcePort, sampleFlow.destinationPort⟩ ∧
    podminIngress .little (publish ⟨sampleTables.nodeIPv6, ∅, []⟩) noFaults flows sampleReply =
      (.reply back, flows) ∧ back.IsPacketOf sampleFlow.swap := by
  have hverdict : (podminIngress .little (publish sampleTables) noFaults noFlows sampleFrame).1 =
      .translated sampleOut := by decide +kernel
  obtain ⟨flows, hout⟩ : ∃ flows, podminIngress .little (publish sampleTables) noFaults noFlows
      sampleFrame = (.translated sampleOut, flows) := ⟨_, by rw [← hverdict]⟩
  obtain ⟨⟨_, hreverse⟩, hreply, _⟩ := @nat_round_trip .little ⟨publish sampleTables, noFlows⟩ noFaults
    flows sampleFrame sampleOut sampleFlow sampleOuter ⟨_, rfl, rfl⟩ hout ⟨_, rfl, rfl⟩
  have hstep : Step .little ⟨publish sampleTables, flows⟩ (.activate ⟨sampleTables.nodeIPv6, ∅, []⟩)
      ⟨publish ⟨sampleTables.nodeIPv6, ∅, []⟩, flows⟩ := .activate _ rfl
  have hlive : (flows.reverse sampleOuter.swap).isSome = true := by
    rw [hreverse]
    rfl
  obtain ⟨back, hback, hflow⟩ := (hreply _ (.step (.init rfl) ⟨hstep, hlive⟩)).1 noFaults sampleReply
    ⟨rfl, _, rfl, .inl ⟨rfl, rfl⟩⟩ ⟨_, rfl, rfl⟩
  exact ⟨flows, back, hout, hreverse, hback, hflow⟩

end Podmin.Agent.Dataplane.Bpf
