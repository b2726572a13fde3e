import Mathlib.Logic.Function.Basic
import Podmin.Agent.Dataplane

/-!
# The packet program

`podmin_ingress` of `internal/agent/dataplane/dataplane.bpf.c` and the maps it works on, as `publish`
fills them. A packet is handled atomically. Two-byte fields in network order are modelled as the host
loads them, so the byte order of the host is a parameter. The flow maps drop entries on their own; an
update of theirs may also fail.
-/

namespace Podmin.Agent.Dataplane.Bpf

open Foundation

inductive ByteOrder
  | little
  | big
  deriving DecidableEq, Repr

def htons : ByteOrder → BitVec 16 → BitVec 16
  | .little, value => value.rotateLeft 8
  | .big, value => value

def ntohs : ByteOrder → BitVec 16 → BitVec 16 := htons

def ipprotoTCP : BitVec 8 := 6

def ipprotoUDP : BitVec 8 := 17

/-- The next header of a fragment. -/
def ipprotoFragment : BitVec 8 := 44

/-! ## Maps -/

structure ServiceKey where
  vip : BitVec 128
  port : BitVec 16
  protocol : BitVec 8
  deriving DecidableEq, Repr

structure ServiceValue where
  backendOffset : BitVec 32
  backendCount : BitVec 32
  deriving DecidableEq, Repr

structure BackendValue where
  address : BitVec 128
  port : BitVec 16
  deriving DecidableEq, Repr

structure FlowKey where
  source : BitVec 128
  destination : BitVec 128
  sourcePort : BitVec 16
  destinationPort : BitVec 16
  protocol : BitVec 8
  deriving DecidableEq, Repr

structure ForwardValue where
  backend : BitVec 128
  backendPort : BitVec 16
  snatPort : BitVec 16
  deriving DecidableEq, Repr

structure ReverseValue where
  client : BitVec 128
  vip : BitVec 128
  clientPort : BitVec 16
  vipPort : BitVec 16
  deriving DecidableEq, Repr

/-- The maps one activation fills; the configuration is the node address. -/
structure Kernel where
  node : BitVec 128
  services : ServiceKey → Option ServiceValue
  serviceVips : BitVec 128 → Bool
  backends : BitVec 32 → Option BackendValue

/-- The maps that are kept across activations. -/
structure Flows where
  forward : FlowKey → Option ForwardValue
  reverse : FlowKey → Option ReverseValue

def reverseBytes16 (value : BitVec 16) : BitVec 16 :=
  value.rotateLeft 8

/-- Fill the maps of a new collection; the entries of an array map that are not written are zero. -/
def publish (tables : Tables) : Kernel where
  node := tables.nodeIPv6
  services key :=
    (tables.services.lookup ⟨key.vip, (reverseBytes16 key.port).toNat, key.protocol.toNat⟩).map
      fun value ↦ ⟨BitVec.ofNat 32 value.backendOffset, BitVec.ofNat 32 value.backendCount⟩
  serviceVips vip := tables.services.keys.any fun key ↦ key.vip = vip
  backends index :=
    if index.toNat < maxTableEntries then
      match tables.backends[index.toNat]? with
      | some backend => some ⟨backend.address, reverseBytes16 (BitVec.ofNat 16 backend.port)⟩
      | none => some ⟨0, 0⟩
    else none

def Flows.setForward (flows : Flows) (key : FlowKey) (value : ForwardValue) : Flows :=
  { flows with forward := Function.update flows.forward key (some value) }

def Flows.setReverse (flows : Flows) (key : FlowKey) (value : ReverseValue) : Flows :=
  { flows with reverse := Function.update flows.reverse key (some value) }

def Flows.deleteForward (flows : Flows) (key : FlowKey) : Flows :=
  { flows with forward := Function.update flows.forward key none }

def Flows.deleteReverse (flows : Flows) (key : FlowKey) : Flows :=
  { flows with reverse := Function.update flows.reverse key none }

/-! ## Packets -/

/-- The transport header; a TCP header has more bytes than the ones modelled. -/
structure Transport where
  source : BitVec 16
  destination : BitVec 16
  checksum : BitVec 16
  tcpComplete : Bool
  deriving DecidableEq, Repr

/-- A frame; `ipv6` says that it has the type of IPv6 and a whole header. -/
structure Frame where
  ipv6 : Bool
  nextHeader : BitVec 8
  source : BitVec 128
  destination : BitVec 128
  transport : Option Transport
  deriving DecidableEq, Repr

/-- What becomes of a frame: dropped, let through as it is, or let through rewritten, as a reply or as
a packet to a backend. -/
inductive Verdict
  | shot
  | pass
  | reply (frame : Frame)
  | translated (frame : Frame)
  deriving DecidableEq, Repr

def addressByte (address : BitVec 128) (index : Nat) : BitVec 8 :=
  address.extractLsb' (8 * (15 - index)) 8

def hashBytes (bytes : BitVec 128) (length : Nat) (hash : BitVec 32) : BitVec 32 :=
  (List.range 16).foldl
    (fun hash i ↦ if i < length then (hash ^^^ (addressByte bytes i).setWidth 32) * 16777619 else hash) hash

def flowHash (flow : FlowKey) : BitVec 32 :=
  hashBytes flow.destination 16 (hashBytes flow.source 16 2166136261) ^^^
    (flow.sourcePort.setWidth 32 <<< 16) ^^^ flow.destinationPort.setWidth 32 ^^^
    flow.protocol.setWidth 32

def addressWord (address : BitVec 128) (index : Nat) : BitVec 16 :=
  ((addressByte address index).setWidth 16 <<< 8) ||| (addressByte address (index + 1)).setWidth 16

def foldCarry (sum : BitVec 32) : BitVec 32 :=
  (sum &&& 0xffff) + (sum >>> 16)

/-- Update a checksum for an address and a port that change. -/
def checksumReplace (order : ByteOrder) (checksum : BitVec 16) (oldAddress newAddress : BitVec 128)
    (oldPort newPort : BitVec 16) : BitVec 16 :=
  let start : BitVec 32 := (~~~(ntohs order checksum)).setWidth 32
  let addresses := [0, 2, 4, 6, 8, 10, 12, 14].foldl (fun sum i ↦
    sum + (~~~(addressWord oldAddress i)).setWidth 32 + (addressWord newAddress i).setWidth 32) start
  let sum := addresses + (~~~(ntohs order oldPort)).setWidth 32 + (ntohs order newPort).setWidth 32
  let result : BitVec 16 := (~~~(foldCarry (foldCarry sum))).setWidth 16
  htons order (if result = 0 then 0xffff else result)

/-- Give a frame a new source and destination, one after the other in the checksum. -/
def rewrite (order : ByteOrder) (frame : Frame) (transport : Transport) (source : BitVec 128)
    (sourcePort : BitVec 16) (destination : BitVec 128) (destinationPort : BitVec 16) : Frame :=
  let checksum := checksumReplace order transport.checksum frame.source source transport.source sourcePort
  let checksum :=
    checksumReplace order checksum frame.destination destination transport.destination destinationPort
  { frame with
    source, destination
    transport := some { transport with source := sourcePort, destination := destinationPort, checksum } }

/-! ## Translation -/

def flowOf (frame : Frame) (transport : Transport) : FlowKey :=
  ⟨frame.source, frame.destination, transport.source, transport.destination, frame.nextHeader⟩

/-- The tuple of the replies to a translated flow. -/
def reverseKey (node : BitVec 128) (protocol : BitVec 8) (forward : ForwardValue) : FlowKey :=
  ⟨forward.backend, node, forward.backendPort, forward.snatPort, protocol⟩

def reverseValue (flow : FlowKey) : ReverseValue :=
  ⟨flow.source, flow.destination, flow.sourcePort, flow.destinationPort⟩

def reverseMatches (reverse : ReverseValue) (flow : FlowKey) : Bool :=
  reverse.client = flow.source && reverse.vip = flow.destination &&
    reverse.clientPort = flow.sourcePort && reverse.vipPort = flow.destinationPort

/-- The updates that fail while a packet is handled: the insertion of a reverse entry by attempt, the
update of the forward entry, and the insertion of a lost reverse entry. -/
structure Faults where
  probe : Nat → Bool
  forward : Bool
  repair : Bool

def snatPort (order : ByteOrder) (offset : BitVec 32) : BitVec 16 :=
  htons order (30000 + (offset % 2768).setWidth 16)

/-- Look for a port whose reverse entry is free or already belongs to the flow. An insertion that fails
is tried again with the same port. -/
def probe (order : ByteOrder) (node : BitVec 128) (flow : FlowKey) (faults : Faults) (flows : Flows) :
    (attempts attempt : Nat) → (candidate : ForwardValue) → Option ForwardValue × Flows
  | 0, _, _ => (none, flows)
  | attempts + 1, attempt, candidate =>
    let key := reverseKey node flow.protocol candidate
    match flows.reverse key with
    | some existing =>
      if reverseMatches existing flow then
        if faults.forward then (none, flows) else (some candidate, flows.setForward flow candidate)
      else
        probe order node flow faults flows attempts (attempt + 1) { candidate with
          snatPort := snatPort order (flowHash flow + BitVec.ofNat 32 attempt + 1) }
    | none =>
      if faults.probe attempt then probe order node flow faults flows attempts (attempt + 1) candidate
      else
        let inserted := flows.setReverse key (reverseValue flow)
        if faults.forward then (none, inserted.deleteReverse key)
        else (some candidate, inserted.setForward flow candidate)

/-- The forward entry of a flow, made for its first packet. -/
def forwardFor (order : ByteOrder) (kernel : Kernel) (service : ServiceValue) (flow : FlowKey)
    (faults : Faults) (flows : Flows) : Option ForwardValue × Flows :=
  match flows.forward flow with
  | some forward => (some forward, flows)
  | none =>
    let hash := flowHash flow
    match kernel.backends (service.backendOffset + hash % service.backendCount) with
    | none => (none, flows)
    | some backend =>
      probe order kernel.node flow faults flows 32 0 ⟨backend.address, backend.port, snatPort order hash⟩

/-- Put back a reverse entry that was lost, and give the flow up if the entry belongs to another. -/
def repair (node : BitVec 128) (flow : FlowKey) (faults : Faults) (flows : Flows)
    (forward : ForwardValue) : Bool × Flows :=
  let key := reverseKey node flow.protocol forward
  let repaired :=
    match flows.reverse key with
    | some _ => some flows
    | none => if faults.repair then none else some (flows.setReverse key (reverseValue flow))
  match repaired with
  | none => (false, flows.deleteForward flow)
  | some flows =>
    if (flows.reverse key).any (reverseMatches · flow) then (true, flows)
    else (false, flows.deleteForward flow)

/-- The transport header of a frame the program translates, or what becomes of the frame. -/
def parse (kernel : Kernel) (frame : Frame) : Except Verdict Transport :=
  if !frame.ipv6 then .error .pass
  else if frame.nextHeader = ipprotoFragment then
    .error (if kernel.serviceVips frame.destination then .shot else .pass)
  else if frame.nextHeader ≠ ipprotoTCP ∧ frame.nextHeader ≠ ipprotoUDP then
    .error (if kernel.serviceVips frame.destination then .shot else .pass)
  else
    match frame.transport with
    | none => .error .shot
    | some transport =>
      if frame.nextHeader = ipprotoTCP ∧ !transport.tcpComplete then .error .shot
      else if frame.nextHeader = ipprotoUDP ∧ transport.checksum = 0 then .error .shot
      else .ok transport

/-- Handle one frame. -/
def podminIngress (order : ByteOrder) (kernel : Kernel) (faults : Faults) (flows : Flows)
    (frame : Frame) : Verdict × Flows :=
  match parse kernel frame with
  | .error verdict => (verdict, flows)
  | .ok transport =>
    let flow := flowOf frame transport
    match flows.reverse flow with
    | some reverse =>
      (.reply (rewrite order frame transport reverse.vip reverse.vipPort reverse.client reverse.clientPort),
        flows)
    | none =>
      match kernel.services ⟨frame.destination, transport.destination, frame.nextHeader⟩ with
      | none => (.pass, flows)
      | some service =>
        if service.backendCount = 0 then (.shot, flows)
        else
          match forwardFor order kernel service flow faults flows with
          | (none, flows) => (.shot, flows)
          | (some forward, flows) =>
            match repair kernel.node flow faults flows forward with
            | (false, flows) => (.shot, flows)
            | (true, flows) =>
              (.translated (rewrite order frame transport kernel.node forward.snatPort forward.backend
                forward.backendPort), flows)

end Podmin.Agent.Dataplane.Bpf
