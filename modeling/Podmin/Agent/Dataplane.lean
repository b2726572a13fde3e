import Podmin.Foundation.GoMap
import Podmin.Foundation.Netip
import Podmin.Foundation.Sha512
import Podmin.Foundation.Text

/-!
# Service dataplane tables

The model of `internal/agent/dataplane`: virtual addresses are derived from Service identities, and
a complete snapshot is compiled into the service and backend tables of the kernel maps, whose
capacity is fixed.
-/

namespace Podmin.Agent.Dataplane

open Foundation Netip

/-- The capacity of the service and backend BPF maps. -/
def maxTableEntries : Nat := 65536

def protocolTCP : Nat := 6

def protocolUDP : Nat := 17

structure Backend where
  address : Addr
  port : Nat
  deriving DecidableEq, Repr

structure Port where
  protocol : Nat
  port : Nat
  backends : List Backend
  deriving DecidableEq, Repr

structure Service where
  vip : Addr
  ports : List Port
  deriving DecidableEq, Repr

structure Snapshot where
  nodeIPv6 : Addr
  services : List Service
  deriving DecidableEq, Repr

structure ServiceKey where
  vip : BitVec 128
  port : Nat
  protocol : Nat
  deriving DecidableEq, Repr

/-- A contiguous range of the backend table. -/
structure ServiceValue where
  backendOffset : Nat
  backendCount : Nat
  deriving DecidableEq, Repr

structure BackendValue where
  address : BitVec 128
  port : Nat
  deriving DecidableEq, Repr

structure Tables where
  nodeIPv6 : BitVec 128
  services : GoMap ServiceKey ServiceValue
  backends : List BackendValue

/-- The sixteen bytes of an address that was checked to be IPv6. -/
def as16 : Addr → BitVec 128
  | .v6 bits _ => bits
  | _ => 0

def ofBytes (bytes : List UInt8) : BitVec 128 :=
  BitVec.ofNat 128 (bytes.foldl (fun total byte ↦ total * 256 + byte.toNat) 0)

/-- The virtual address of a Service identity in `fd50:6f64:6d69::/64`. -/
def deriveVIP (cluster ns name : String) : Addr :=
  let sum := Sha512.sum512 (Text.utf8Bytes (cluster ++ "\x00" ++ ns ++ "\x00" ++ name))
  .v6 (ofBytes ([0xfd, 0x50, 0x6f, 0x64, 0x6d, 0x69, 0, 0] ++ sum.take 8)) ""

/-! ## Compilation -/

structure Entry where
  key : ServiceKey
  backends : List BackendValue
  deriving DecidableEq, Repr

def is6Only (addr : Addr) : Bool :=
  addr.is6 && !addr.is4In6

def backendLess (left right : BackendValue) : Bool :=
  if left.address ≠ right.address then left.address < right.address else left.port < right.port

def keyLess (left right : ServiceKey) : Bool :=
  if left.vip ≠ right.vip then left.vip < right.vip
  else if left.protocol ≠ right.protocol then left.protocol < right.protocol
  else left.port < right.port

/-- The backends of one port; every one must be an IPv6 address with a port. -/
def compileBackends : List Backend → Except String (List BackendValue)
  | [] => .ok []
  | backend :: rest =>
    if !is6Only backend.address || backend.port == 0 then
      .error "invalid dataplane snapshot: backend address or port"
    else do
      let values ← compileBackends rest
      .ok (⟨as16 backend.address, backend.port⟩ :: values)

/-- Add one port to the entries and the backend count collected so far. -/
def compilePort (vip : Addr) (collected : List Entry × Nat) (port : Port) :
    Except String (List Entry × Nat) :=
  let (entries, backendCount) := collected
  let key : ServiceKey := ⟨as16 vip, port.port, port.protocol⟩
  if port.port = 0 ∨ (port.protocol ≠ protocolTCP ∧ port.protocol ≠ protocolUDP) then
    .error "invalid dataplane snapshot: service protocol or port"
  else if key ∈ entries.map Entry.key then
    .error "invalid dataplane snapshot: duplicate service port"
  else if entries.length = maxTableEntries then
    .error "invalid dataplane snapshot: too many service ports"
  else if port.backends.length > maxTableEntries - backendCount then
    .error "invalid dataplane snapshot: too many backends"
  else do
    let values ← compileBackends port.backends
    .ok (entries ++ [⟨key, sortSlice backendLess values⟩], backendCount + port.backends.length)

def compileService (collected : List Entry × Nat) (service : Service) :
    Except String (List Entry × Nat) :=
  if !is6Only service.vip then .error "invalid dataplane snapshot: service VIP must be IPv6"
  else service.ports.foldlM (compilePort service.vip) collected

/-- Lay the sorted entries out one after the other in the backend table. -/
def layout (tables : Tables) (entry : Entry) : Tables :=
  { tables with
    services := tables.services.insert entry.key ⟨tables.backends.length, entry.backends.length⟩
    backends := tables.backends ++ entry.backends }

def compile (snapshot : Snapshot) : Except String Tables :=
  if snapshot.services.isEmpty then .ok ⟨0, ∅, []⟩
  else if !is6Only snapshot.nodeIPv6 then
    .error "invalid dataplane snapshot: node address must be IPv6"
  else do
    let (entries, _) ← snapshot.services.foldlM compileService ([], 0)
    let sorted := sortSlice (fun left right ↦ keyLess left.key right.key) entries
    .ok (sorted.foldl layout ⟨as16 snapshot.nodeIPv6, ∅, []⟩)

/-! ## Selection -/

def bigEndianUint64 (bytes : List UInt8) : Nat :=
  (bytes.take 8).foldl (fun total byte ↦ total * 256 + byte.toNat) 0 % 2 ^ 64

/-- Select a backend for a flow by the hash of its bytes. -/
def Tables.selectBackend (tables : Tables) (key : ServiceKey) (flow : List UInt8) : Option BackendValue :=
  match tables.services.lookup key with
  | none => none
  | some service =>
    if service.backendCount = 0 then none
    else
      let sum := Sha512.sum512 flow
      let index :=
        (service.backendOffset + bigEndianUint64 sum % service.backendCount % 2 ^ 32) % 2 ^ 32
      tables.backends[index]?

end Podmin.Agent.Dataplane
