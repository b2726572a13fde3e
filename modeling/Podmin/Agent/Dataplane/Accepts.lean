import Mathlib.Algebra.BigOperators.Group.List.Basic
import Mathlib.Tactic.Ring
import Podmin.Agent.Dataplane
import Podmin.Foundation.Fallible

/-!
# What the dataplane compiles

`compile` accepts every snapshot of plain IPv6 addresses with proper ports whose keys differ and
whose totals fit the tables.
-/

namespace Podmin.Agent.Dataplane

open Foundation Netip Fallible

/-! ## Virtual addresses -/

theorem foldl_bytes (bytes : List UInt8) (start : Nat) :
    bytes.foldl (fun total byte ↦ total * 256 + byte.toNat) start =
      start * 256 ^ bytes.length + bytes.foldl (fun total byte ↦ total * 256 + byte.toNat) 0 := by
  induction bytes generalizing start with
  | nil => simp
  | cons byte bytes ih =>
    rw [List.foldl_cons, List.foldl_cons, ih, ih (0 * 256 + byte.toNat), List.length_cons, pow_succ]
    ring

theorem foldl_bytes_lt (bytes : List UInt8) :
    bytes.foldl (fun total byte ↦ total * 256 + byte.toNat) 0 < 256 ^ bytes.length := by
  induction bytes using List.reverseRecOn with
  | nil => simp
  | append_singleton bytes byte ih =>
    rw [List.foldl_append, List.length_append, List.length_singleton, pow_succ]
    have hbyte := byte.toNat_lt
    simp only [List.foldl_cons, List.foldl_nil]
    omega

/-- A virtual address starts with its fixed 64 bits. -/
theorem deriveVIP_shape (cluster ns name : String) :
    ∃ bits, deriveVIP cluster ns name = .v6 bits "" ∧ (Addr.v6 bits "").is4In6 = false := by
  refine ⟨_, rfl, ?_⟩
  generalize hsum : (Sha512.sum512 (Text.utf8Bytes (cluster ++ "\x00" ++ ns ++ "\x00" ++ name))).take 8 =
    tail
  have hlength : tail.length = 8 := by
    rw [← hsum, List.length_take, Sha512.length_sum512]
    rfl
  have hbound := foldl_bytes_lt tail
  rw [hlength] at hbound
  have hvalue : ofBytes ([0xfd, 0x50, 0x6f, 0x64, 0x6d, 0x69, 0, 0] ++ tail) =
      BitVec.ofNat 128 (0xfd506f646d690000 * 256 ^ 8 +
        tail.foldl (fun total byte ↦ total * 256 + byte.toNat) 0) := by
    rw [ofBytes, List.foldl_append, foldl_bytes tail, hlength]
    rfl
  rw [hvalue, Addr.is4In6, beq_eq_false_iff_ne]
  intro hmapped
  have htoNat := congrArg BitVec.toNat hmapped
  rw [BitVec.toNat_ushiftRight, BitVec.toNat_ofNat, BitVec.toNat_ofNat, Nat.shiftRight_eq_div_pow] at htoNat
  norm_num at htoNat hbound
  omega

/-! ## Compiling -/

theorem compileBackends_total {backends : List Backend}
    (hbackends : ∀ backend ∈ backends, is6Only backend.address = true ∧ backend.port ≠ 0) :
    ∃ values, compileBackends backends = .ok values := by
  induction backends with
  | nil => exact ⟨[], rfl⟩
  | cons backend backends ih =>
    obtain ⟨⟨haddress, hport⟩, hrest⟩ := List.forall_mem_cons.mp hbackends
    obtain ⟨values, hvalues⟩ := ih hrest
    refine ⟨⟨as16 backend.address, backend.port⟩ :: values, ?_⟩
    rw [compileBackends, if_neg (by simp [haddress, hport]), hvalues]
    rfl

/-- A port together with the virtual address of its Service. -/
abbrev Addressed := Addr × Port

def Addressed.key (entry : Addressed) : ServiceKey :=
  ⟨as16 entry.1, entry.2.port, entry.2.protocol⟩

/-- The ports of all Services in order. -/
def addressed (services : List Service) : List Addressed :=
  services.flatMap fun service ↦ service.ports.map fun port ↦ (service.vip, port)

/-- A port that can be compiled on its own. -/
structure Compilable (port : Port) : Prop where
  number : port.port ≠ 0
  protocol : port.protocol = protocolTCP ∨ port.protocol = protocolUDP
  backends : ∀ backend ∈ port.backends, is6Only backend.address = true ∧ backend.port ≠ 0

def compileAddressed (collected : List Entry × Nat) (entry : Addressed) :
    Except String (List Entry × Nat) :=
  compilePort entry.1 collected entry.2

theorem foldlM_compileService {services : List Service}
    (hvips : ∀ service ∈ services, is6Only service.vip = true) (collected : List Entry × Nat) :
    services.foldlM compileService collected = (addressed services).foldlM compileAddressed collected := by
  induction services generalizing collected with
  | nil => rfl
  | cons service services ih =>
    obtain ⟨hvip, hrest⟩ := List.forall_mem_cons.mp hvips
    have hfirst : compileService collected service =
        (service.ports.map fun port ↦ (service.vip, port)).foldlM compileAddressed collected := by
      rw [compileService, if_neg (by simp [hvip]), List.foldlM_map]
      rfl
    rw [addressed, List.flatMap_cons, List.foldlM_append, List.foldlM_cons, hfirst]
    congr 1
    funext next
    exact ih hrest next

/-- One more port is accepted while its key is new and there is room. -/
theorem compilePort_total {vip : Addr} {port : Port} (hport : Compilable port) {entries : List Entry}
    {count : Nat} (hkey : Addressed.key (vip, port) ∉ entries.map Entry.key)
    (hentries : entries.length < maxTableEntries)
    (hcount : count + port.backends.length ≤ maxTableEntries) :
    ∃ entry, entry.key = Addressed.key (vip, port) ∧ compilePort vip (entries, count) port =
      .ok (entries ++ [entry], count + port.backends.length) := by
  obtain ⟨values, hvalues⟩ := compileBackends_total hport.backends
  have hprotocol : ¬(port.port = 0 ∨ (port.protocol ≠ protocolTCP ∧ port.protocol ≠ protocolUDP)) := by
    rintro (hzero | ⟨htcp, hudp⟩)
    · exact hport.number hzero
    · exact hport.protocol.elim htcp hudp
  refine ⟨⟨_, sortSlice backendLess values⟩, rfl, ?_⟩
  unfold compilePort
  dsimp only
  rw [Addressed.key] at hkey
  rw [if_neg hprotocol, if_neg hkey, if_neg hentries.ne, if_neg (by omega), hvalues]
  rfl

/-- The number of backends of a list of ports. -/
def backendTotal (entries : List Addressed) : Nat :=
  (entries.map fun entry ↦ entry.2.backends.length).sum

/-- Ports with new keys are all accepted while there is room for them. -/
theorem foldlM_compileAddressed_total {ports : List Addressed} {entries : List Entry} {count : Nat}
    (hports : ∀ entry ∈ ports, Compilable entry.2)
    (hkeys : (entries.map Entry.key ++ ports.map Addressed.key).Nodup)
    (hentries : entries.length + ports.length ≤ maxTableEntries)
    (hcount : count + backendTotal ports ≤ maxTableEntries) :
    ∃ result, ports.foldlM compileAddressed (entries, count) = .ok result := by
  induction ports generalizing entries count with
  | nil => exact ⟨_, rfl⟩
  | cons first ports ih =>
    obtain ⟨hfirst, hrest⟩ := List.forall_mem_cons.mp hports
    rw [backendTotal, List.map_cons, List.sum_cons, ← backendTotal] at hcount
    rw [List.length_cons] at hentries
    have hfresh : first.key ∉ entries.map Entry.key := by
      intro hmem
      rw [List.map_cons, List.nodup_append] at hkeys
      exact hkeys.2.2 _ hmem _ List.mem_cons_self rfl
    have hroom : count + first.2.backends.length ≤ maxTableEntries := by omega
    obtain ⟨entry, hkey, hentry⟩ := compilePort_total hfirst hfresh (by omega) hroom
    have hkeys' : ((entries ++ [entry]).map Entry.key ++ ports.map Addressed.key).Nodup := by
      rw [List.map_append, List.map_singleton, List.append_assoc, List.singleton_append, hkey]
      exact hkeys
    obtain ⟨result, hresult⟩ := ih hrest hkeys'
      (by simp only [List.length_append, List.length_singleton]; omega)
      (by omega : count + first.2.backends.length + backendTotal ports ≤ maxTableEntries)
    exact ⟨result, bind_eq_ok.mpr ⟨_, hentry, hresult⟩⟩

/-- A snapshot of plain addresses and proper ports that fits the tables is compiled. -/
theorem compile_total {snapshot : Snapshot} (hnode : is6Only snapshot.nodeIPv6 = true)
    (hvips : ∀ service ∈ snapshot.services, is6Only service.vip = true)
    (hports : ∀ entry ∈ addressed snapshot.services, Compilable entry.2)
    (hkeys : ((addressed snapshot.services).map Addressed.key).Nodup)
    (hentries : (addressed snapshot.services).length ≤ maxTableEntries)
    (hcount : backendTotal (addressed snapshot.services) ≤ maxTableEntries) :
    ∃ tables, compile snapshot = .ok tables := by
  rw [compile]
  split
  · exact ⟨_, rfl⟩
  · rw [if_neg (by simp [hnode]), foldlM_compileService hvips]
    obtain ⟨result, hresult⟩ := @foldlM_compileAddressed_total (addressed snapshot.services) [] 0 hports
      (by simpa using hkeys) (by simpa using hentries) (by simpa using hcount)
    exact ⟨_, bind_eq_ok.mpr ⟨result, hresult, rfl⟩⟩

end Podmin.Agent.Dataplane
