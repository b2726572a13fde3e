import Mathlib.Data.Prod.Lex
import Podmin.Agent.Dataplane.Accepts
import Podmin.Foundation.Rearranged
import Podmin.Foundation.Segments

/-!
# What the tables represent

`compile` succeeds exactly on snapshots of proper addresses and ports whose keys differ and that fit the
tables. The tables then have one range of backends for each key, in an order that depends on nothing but
the set of ports and the backends of each.
-/

namespace Podmin.Agent.Dataplane

open Foundation Netip Fallible

variable {collected : List Entry × Nat} {services : List Service} {snapshot left right : Snapshot}
  {tables : Tables}

/-! ## Orders -/

def backendKey (value : BackendValue) : Lex (Nat × Nat) :=
  toLex (value.address.toNat, value.port)

theorem backendLess_eq (left right : BackendValue) :
    backendLess left right = decide (backendKey left < backendKey right) := by
  simp only [backendLess, backendKey, Prod.Lex.toLex_lt_toLex, BitVec.lt_def]
  by_cases haddress : left.address = right.address
  · simp [haddress]
  · have htoNat := mt BitVec.eq_of_toNat_eq haddress
    simp [haddress, htoNat]

theorem backendKey_injective : Function.Injective backendKey := by
  intro left right heq
  have hpair := Prod.mk.inj (toLex.injective heq)
  cases left with
  | mk address port =>
    cases right with
    | mk address' port' =>
      have haddress : address = address' := BitVec.eq_of_toNat_eq hpair.1
      have hport : port = port' := hpair.2
      rw [haddress, hport]

def orderKey (key : ServiceKey) : Lex (Nat × Lex (Nat × Nat)) :=
  toLex (key.vip.toNat, toLex (key.protocol, key.port))

theorem keyLess_eq (left right : ServiceKey) :
    keyLess left right = decide (orderKey left < orderKey right) := by
  simp only [keyLess, orderKey, Prod.Lex.toLex_lt_toLex, BitVec.lt_def]
  by_cases hvip : left.vip = right.vip
  · by_cases hprotocol : left.protocol = right.protocol
    · simp [hvip, hprotocol]
    · simp [hvip, hprotocol]
  · have htoNat := mt BitVec.eq_of_toNat_eq hvip
    simp [hvip, htoNat]

theorem orderKey_injective : Function.Injective orderKey := by
  intro left right heq
  have hpair := Prod.mk.inj (toLex.injective heq)
  have hrest := Prod.mk.inj (toLex.injective hpair.2)
  cases left with
  | mk vip port protocol =>
    cases right with
    | mk vip' port' protocol' =>
      have hvip : vip = vip' := BitVec.eq_of_toNat_eq hpair.1
      have hprotocol : protocol = protocol' := hrest.1
      have hport : port = port' := hrest.2
      rw [hvip, hprotocol, hport]

/-! ## Collecting the entries -/

def Backend.value (backend : Backend) : BackendValue :=
  ⟨as16 backend.address, backend.port⟩

/-- The backends a port has in the tables. -/
def Addressed.values (port : Addressed) : List BackendValue :=
  port.2.backends.map Backend.value

def Addressed.entry (port : Addressed) : Entry :=
  ⟨port.key, sortSlice backendLess port.values⟩

/-- The ports differ in their keys and fit the tables with their backends. -/
structure Fits (ports : List Addressed) : Prop where
  keys : (ports.map Addressed.key).Nodup
  length : ports.length ≤ maxTableEntries
  total : backendTotal ports ≤ maxTableEntries

/-- What is collected once some ports are compiled. -/
structure Collected (ports : List Addressed) (collected : List Entry × Nat) : Prop where
  entries : collected.1 = ports.map Addressed.entry
  count : collected.2 = backendTotal ports
  compilable : ∀ port ∈ ports, Compilable port.2
  fits : Fits ports

theorem compileBackends_eq_ok {backends : List Backend} {values : List BackendValue}
    (hcompile : compileBackends backends = .ok values) :
    (∀ backend ∈ backends, is6Only backend.address = true ∧ backend.port ≠ 0) ∧
      values = backends.map Backend.value := by
  induction backends generalizing values with
  | nil =>
    cases hcompile
    simp
  | cons backend backends ih =>
    unfold compileBackends at hcompile
    split at hcompile
    · cases hcompile
    · next hvalid =>
      obtain ⟨rest, hrest, hvalues⟩ := bind_eq_ok.mp hcompile
      cases hvalues
      obtain ⟨hbackends, rfl⟩ := ih hrest
      refine ⟨List.forall_mem_cons.mpr ⟨?_, hbackends⟩, rfl⟩
      simpa using hvalid

theorem backendTotal_concat (ports : List Addressed) (port : Addressed) :
    backendTotal (ports ++ [port]) = backendTotal ports + port.2.backends.length := by
  simp [backendTotal]

theorem compilePort_collected {vip : Addr} {ports : List Addressed} {next : List Entry × Nat} {port : Port}
    (hcollected : Collected ports collected) (hcompile : compilePort vip collected port = .ok next) :
    Collected (ports ++ [(vip, port)]) next := by
  obtain ⟨entries, count⟩ := collected
  have hentries : entries = ports.map Addressed.entry := hcollected.entries
  have hcount : count = backendTotal ports := hcollected.count
  have hkeys : entries.map Entry.key = ports.map Addressed.key := by
    rw [hentries, List.map_map]
    rfl
  have hports := hcollected.fits.length
  have hbackends := hcollected.fits.total
  unfold compilePort at hcompile
  dsimp only at hcompile
  rw [hkeys] at hcompile
  split at hcompile
  · cases hcompile
  next hproper =>
  split at hcompile
  · cases hcompile
  next hfresh =>
  split at hcompile
  · cases hcompile
  next hfull =>
  split at hcompile
  · cases hcompile
  next hroom =>
  obtain ⟨values, hvalues, hnext⟩ := bind_eq_ok.mp hcompile
  cases hnext
  obtain ⟨hvalid, rfl⟩ := compileBackends_eq_ok hvalues
  have hlength : entries.length = ports.length := by rw [hentries, List.length_map]
  constructor
  · rw [hentries, List.map_append]
    rfl
  · rw [backendTotal_concat, hcount]
  · rw [List.forall_mem_append]
    refine ⟨hcollected.compilable, List.forall_mem_singleton.mpr ⟨?_, ?_, hvalid⟩⟩
    · exact fun hzero ↦ hproper (.inl hzero)
    · by_contra hother
      exact hproper (.inr (not_or.mp hother))
  · constructor
    · rw [List.map_append, List.map_singleton]
      exact hcollected.fits.keys.append (List.nodup_singleton _)
        (List.disjoint_singleton.mpr hfresh)
    · rw [List.length_append, List.length_singleton]
      omega
    · rw [backendTotal_concat]
      dsimp only
      omega

theorem addressed_concat (services : List Service) (service : Service) :
    addressed (services ++ [service]) =
      addressed services ++ service.ports.map fun port ↦ (service.vip, port) := by
  simp [addressed]

theorem compileService_collected {done : List Service} {next : List Entry × Nat} {service : Service}
    (hcollected : Collected (addressed done) collected)
    (hcompile : compileService collected service = .ok next) :
    is6Only service.vip = true ∧ Collected (addressed (done ++ [service])) next := by
  unfold compileService at hcompile
  split at hcompile
  · cases hcompile
  · next hvip =>
    refine ⟨by simpa using hvip, ?_⟩
    rw [addressed_concat]
    refine @foldlM_success _ _ _ _
      (fun ports state ↦ Collected (addressed done ++ ports.map fun port ↦ (service.vip, port)) state)
      ?_ service.ports [] collected next (by simpa using hcollected) hcompile
    intro ports port state after hstate hport
    rw [List.map_append, List.map_singleton, ← List.append_assoc]
    exact compilePort_collected hstate hport

/-- Addresses and ports that can be compiled one by one. -/
structure Snapshot.Proper (snapshot : Snapshot) : Prop where
  node : is6Only snapshot.nodeIPv6 = true
  vips : ∀ service ∈ snapshot.services, is6Only service.vip = true
  ports : ∀ port ∈ addressed snapshot.services, Compilable port.2

/-- The entries in the order they are laid out. -/
def sortedEntries (services : List Service) : List Entry :=
  sortSlice (fun left right ↦ keyLess left.key right.key) ((addressed services).map Addressed.entry)

/-- The tables before the first entry is laid out. -/
def Snapshot.start (snapshot : Snapshot) : Tables :=
  ⟨if snapshot.services.isEmpty then 0 else as16 snapshot.nodeIPv6, ∅, []⟩

theorem collected_of_foldlM (hcompile : services.foldlM compileService ([], 0) = .ok collected) :
    (∀ service ∈ services, is6Only service.vip = true) ∧ Collected (addressed services) collected := by
  refine @foldlM_success _ _ _ _ (fun done state ↦
    (∀ service ∈ done, is6Only service.vip = true) ∧ Collected (addressed done) state)
    ?_ services [] ([], 0) collected ?_ hcompile
  · rintro done service state next ⟨hvips, hstate⟩ hnext
    obtain ⟨hvip, hcollected⟩ := compileService_collected hstate hnext
    exact ⟨List.forall_mem_append.mpr ⟨hvips, List.forall_mem_singleton.mpr hvip⟩, hcollected⟩
  · refine ⟨by simp, rfl, rfl, by simp [addressed], ?_, ?_, ?_⟩
    · exact List.nodup_nil
    · exact Nat.zero_le _
    · exact Nat.zero_le _

theorem compile_eq_ok (hcompile : compile snapshot = .ok tables) :
    (snapshot.services = [] ∨ snapshot.Proper) ∧ Fits (addressed snapshot.services) ∧
      tables = (sortedEntries snapshot.services).foldl layout snapshot.start := by
  unfold compile at hcompile
  split at hcompile
  · next hempty =>
    cases hcompile
    have hnil := List.isEmpty_iff.mp hempty
    refine ⟨.inl hnil, ?_, ?_⟩
    · rw [hnil]
      exact ⟨List.nodup_nil, Nat.zero_le _, Nat.zero_le _⟩
    · rw [Snapshot.start, if_pos hempty, hnil]
      rfl
  next hempty =>
  split at hcompile
  · cases hcompile
  next hnode =>
  obtain ⟨collected, hfold, htables⟩ := bind_eq_ok.mp hcompile
  obtain ⟨hvips, hcollected⟩ := collected_of_foldlM hfold
  refine ⟨.inr ⟨by simpa using hnode, hvips, hcollected.compilable⟩, hcollected.fits, ?_⟩
  cases htables
  rw [Snapshot.start, if_neg hempty, sortedEntries, hcollected.entries]

/-- `compile` accepts a snapshot exactly if it is empty or proper and fits the tables. -/
theorem compile_ok_iff :
    (∃ tables, compile snapshot = .ok tables) ↔
      (snapshot.services = [] ∨ snapshot.Proper) ∧ Fits (addressed snapshot.services) := by
  constructor
  · rintro ⟨tables, hcompile⟩
    have hinverse := compile_eq_ok hcompile
    exact ⟨hinverse.1, hinverse.2.1⟩
  · rintro ⟨hempty | hproper, hfits⟩
    · exact ⟨_, by rw [compile, hempty]; rfl⟩
    · exact compile_total hproper.node hproper.vips hproper.ports hfits.keys hfits.length hfits.total

/-! ## Ranges -/

open Segments

/-- What is laid out after some entries: their backends, and for each of them the range it takes. -/
structure Laid (entries : List Entry) (tables : Tables) : Prop where
  backends : tables.backends = entries.flatMap Entry.backends
  services : ∀ key value, tables.services.lookup key = some value ↔ ∃ entry, entry.key = key ∧
    StartsAt Entry.backends entries entry value.backendOffset ∧
    value.backendCount = entry.backends.length

theorem layout_laid {entries : List Entry} {entry : Entry} (hlaid : Laid entries tables)
    (hfresh : entry.key ∉ entries.map Entry.key) : Laid (entries ++ [entry]) (layout tables entry) := by
  constructor
  · rw [layout, hlaid.backends, List.flatMap_append, List.flatMap_singleton]
  · intro key value
    rw [layout, GoMap.lookup_insert_eq]
    simp only [startsAt_concat]
    split
    · next hkey =>
      constructor
      · intro hvalue
        cases hvalue
        exact ⟨entry, hkey.symm, .inr ⟨rfl, by rw [hlaid.backends]⟩, rfl⟩
      · rintro ⟨other, hother, hstarts | ⟨rfl, hoffset⟩, hcount⟩
        · exact absurd (List.mem_map.mpr ⟨other, hstarts.mem, hother.trans hkey⟩) hfresh
        · rw [hlaid.backends, ← hoffset, ← hcount]
    · next hkey =>
      rw [hlaid.services]
      constructor
      · rintro ⟨other, hother, hstarts, hcount⟩
        exact ⟨other, hother, .inl hstarts, hcount⟩
      · rintro ⟨other, hother, hstarts | ⟨rfl, _⟩, hcount⟩
        · exact ⟨other, hother, hstarts, hcount⟩
        · exact absurd hother.symm hkey

theorem foldl_layout_laid (node : BitVec 128) (entries : List Entry)
    (hkeys : (entries.map Entry.key).Nodup) : Laid entries (entries.foldl layout ⟨node, ∅, []⟩) := by
  induction entries using List.reverseRecOn with
  | nil =>
    refine ⟨rfl, fun key value ↦ ⟨fun hlookup ↦ ?_, ?_⟩⟩
    · simp at hlookup
    · rintro ⟨entry, _, hstarts, _⟩
      simpa using hstarts.mem
  | append_singleton entries entry ih =>
    rw [List.map_append, List.map_singleton] at hkeys
    have hfresh : entry.key ∉ entries.map Entry.key :=
      List.disjoint_singleton.mp (List.disjoint_of_nodup_append hkeys)
    rw [List.foldl_append]
    exact layout_laid (ih hkeys.of_append_left) hfresh

theorem sortedEntries_perm (services : List Service) :
    (sortedEntries services).Perm ((addressed services).map Addressed.entry) :=
  sortSlice_perm _ _

theorem sortedEntries_keys (hfits : Fits (addressed services)) :
    ((sortedEntries services).map Entry.key).Nodup := by
  rw [((sortedEntries_perm services).map Entry.key).nodup_iff, List.map_map]
  exact hfits.keys

theorem mem_sortedEntries {entry : Entry} :
    entry ∈ sortedEntries services ↔ ∃ port ∈ addressed services, port.entry = entry := by
  rw [(sortedEntries_perm services).mem_iff, List.mem_map]

/-- The backends a table entry stands for. -/
def Tables.range (tables : Tables) (value : ServiceValue) : List BackendValue :=
  (tables.backends.drop value.backendOffset).take value.backendCount

/-- The tables represent a snapshot: one range for each of its keys with the sorted backends of its port,
where the ranges lie apart and make up the whole backend table. -/
structure Represents (snapshot : Snapshot) (tables : Tables) : Prop where
  distinct : ((addressed snapshot.services).map Addressed.key).Nodup
  keys : ∀ key, (∃ value, tables.services.lookup key = some value) ↔
    ∃ port ∈ addressed snapshot.services, port.key = key
  inside : ∀ key value, tables.services.lookup key = some value →
    value.backendOffset + value.backendCount ≤ tables.backends.length
  apart : ∀ key value other otherValue, tables.services.lookup key = some value →
    tables.services.lookup other = some otherValue → key ≠ other →
    value.backendOffset + value.backendCount ≤ otherValue.backendOffset ∨
      otherValue.backendOffset + otherValue.backendCount ≤ value.backendOffset
  covers : ∀ index < tables.backends.length, ∃ key value, tables.services.lookup key = some value ∧
    value.backendOffset ≤ index ∧ index < value.backendOffset + value.backendCount
  ranges : ∀ port ∈ addressed snapshot.services, ∀ value, tables.services.lookup port.key = some value →
    (tables.range value).Perm port.values ∧
      (tables.range value).Pairwise fun left right ↦ backendLess right left = false

theorem sorted_values (port : Addressed) :
    port.entry.backends.Pairwise fun left right ↦ backendLess right left = false := by
  apply (sortSlice_pairwise backendLess_eq port.values).imp
  intro left right hle
  rw [backendLess_eq, decide_eq_false_iff_not]
  exact not_lt.mpr hle

theorem Laid.represents (hfits : Fits (addressed snapshot.services))
    (hlaid : Laid (sortedEntries snapshot.services) tables) : Represents snapshot tables where
  distinct := hfits.keys
  keys key := by
    constructor
    · rintro ⟨value, hvalue⟩
      obtain ⟨entry, rfl, hstarts, _⟩ := (hlaid.services key value).mp hvalue
      obtain ⟨port, hport, rfl⟩ := mem_sortedEntries.mp hstarts.mem
      exact ⟨port, hport, rfl⟩
    · rintro ⟨port, hport, rfl⟩
      obtain ⟨offset, hstarts⟩ := exists_startsAt (mem_sortedEntries.mpr ⟨port, hport, rfl⟩)
      exact ⟨⟨offset, _⟩, (hlaid.services _ _).mpr ⟨port.entry, rfl, hstarts, rfl⟩⟩
  inside key value hvalue := by
    obtain ⟨entry, _, hstarts, hcount⟩ := (hlaid.services key value).mp hvalue
    rw [hcount, hlaid.backends]
    exact hstarts.end_le
  apart key value other otherValue hvalue hother hne := by
    obtain ⟨entry, hkey, hstarts, hcount⟩ := (hlaid.services key value).mp hvalue
    obtain ⟨otherEntry, hotherKey, hotherStarts, hotherCount⟩ := (hlaid.services other otherValue).mp hother
    rw [hcount, hotherCount]
    apply hstarts.separated hotherStarts
    intro heq
    exact hne (by rw [← hkey, ← hotherKey, heq])
  covers index hindex := by
    rw [hlaid.backends] at hindex
    obtain ⟨entry, offset, hstarts, hinside⟩ := exists_of_lt hindex
    exact ⟨entry.key, ⟨offset, entry.backends.length⟩,
      (hlaid.services _ _).mpr ⟨entry, rfl, hstarts, rfl⟩, hinside⟩
  ranges port hport value hvalue := by
    obtain ⟨entry, hkey, hstarts, hcount⟩ := (hlaid.services _ value).mp hvalue
    have hentry : entry = port.entry :=
      List.inj_on_of_nodup_map (sortedEntries_keys hfits) hstarts.mem
        (mem_sortedEntries.mpr ⟨port, hport, rfl⟩) hkey
    have hrange : tables.range value = port.entry.backends := by
      rw [Tables.range, hlaid.backends, hcount, hstarts.slice, hentry]
    rw [hrange]
    exact ⟨sortSlice_perm backendLess port.values, sorted_values port⟩

/-! ## Reordering -/

def Port.Reorders (left right : Port) : Prop :=
  left.protocol = right.protocol ∧ left.port = right.port ∧ left.backends.Perm right.backends

def Service.Reorders (left right : Service) : Prop :=
  left.vip = right.vip ∧ Rearranged Port.Reorders left.ports right.ports

/-- The same snapshot with its Services, their ports and the backends of these in any order. -/
def Snapshot.Reorders (left right : Snapshot) : Prop :=
  left.nodeIPv6 = right.nodeIPv6 ∧ Rearranged Service.Reorders left.services right.services

def Addressed.Reorders (left right : Addressed) : Prop :=
  left.1 = right.1 ∧ left.2.Reorders right.2

theorem Addressed.Reorders.key_eq {left right : Addressed} (hreorders : left.Reorders right) :
    left.key = right.key := by
  unfold Addressed.key
  rw [hreorders.1, hreorders.2.1, hreorders.2.2.1]

theorem Addressed.Reorders.entry_eq {left right : Addressed} (hreorders : left.Reorders right) :
    left.entry = right.entry := by
  have hvalues : sortSlice backendLess left.values = sortSlice backendLess right.values :=
    sortSlice_congr backendLess_eq (fun _ _ _ _ heq ↦ backendKey_injective heq)
      (hreorders.2.2.2.map Backend.value)
  rw [Addressed.entry, Addressed.entry, hreorders.key_eq, hvalues]

theorem Port.Reorders.compilable {left right : Port} (hreorders : left.Reorders right)
    (hleft : Compilable left) : Compilable right where
  number := hreorders.2.1 ▸ hleft.number
  protocol := hreorders.1 ▸ hleft.protocol
  backends backend hbackend := hleft.backends backend (hreorders.2.2.mem_iff.mpr hbackend)

theorem addressed_rearranged {left right : List Service}
    (hrearranged : Rearranged Service.Reorders left right) :
    Rearranged Addressed.Reorders (addressed left) (addressed right) := by
  apply hrearranged.flatMap
  rintro first second ⟨hvip, hports⟩
  rw [hvip]
  apply hports.map
  intro port other hport
  exact ⟨rfl, hport⟩

theorem Fits.rearranged {left right : List Addressed} (hfits : Fits left)
    (hrearranged : Rearranged Addressed.Reorders left right) : Fits right := by
  have hkeys := hrearranged.map_perm fun _ _ hreorders ↦ hreorders.key_eq
  have hcounts : (left.map fun port ↦ port.2.backends.length).Perm
      (right.map fun port ↦ port.2.backends.length) :=
    hrearranged.map_perm fun _ _ hreorders ↦ hreorders.2.2.2.length_eq
  have hlength : left.length = right.length := by simpa using hkeys.length_eq
  constructor
  · exact hkeys.nodup_iff.mp hfits.keys
  · exact hlength ▸ hfits.length
  · have htotal : backendTotal left = backendTotal right := hcounts.sum_eq
    exact htotal ▸ hfits.total

theorem Snapshot.Proper.reorders (hproper : left.Proper) (hreorders : left.Reorders right) : right.Proper where
  node := hreorders.1 ▸ hproper.node
  vips := hreorders.2.forall_mem (fun _ _ hservice hvip ↦ hservice.1 ▸ hvip) hproper.vips
  ports := (addressed_rearranged hreorders.2).forall_mem
    (fun _ _ hport hcompilable ↦ hport.2.compilable hcompilable) hproper.ports

/-- Entries with distinct keys are laid out in one order only. -/
theorem sortedEntries_reorders {left right : List Service} (hfits : Fits (addressed right))
    (hrearranged : Rearranged Service.Reorders left right) : sortedEntries left = sortedEntries right := by
  have hentries := (addressed_rearranged hrearranged).map_perm fun _ _ hreorders ↦ hreorders.entry_eq
  have hkeys : (((addressed right).map Addressed.entry).map Entry.key).Nodup := by
    rw [List.map_map]
    exact hfits.keys
  unfold sortedEntries
  apply sortSlice_congr (fun first second ↦ keyLess_eq first.key second.key) _ hentries
  intro first hfirst second hsecond heq
  exact List.inj_on_of_nodup_map hkeys hfirst hsecond (orderKey_injective heq)

theorem services_isEmpty_reorders (hreorders : left.Reorders right) :
    left.services = [] ↔ right.services = [] := by
  have hlength := ((hreorders.2.map_perm (fun _ _ hservice ↦ hservice.1)).length_eq :
    (left.services.map Service.vip).length = _)
  rw [List.length_map, List.length_map] at hlength
  rw [← List.length_eq_zero_iff, hlength, List.length_eq_zero_iff]

/-- The order in which a snapshot lists what it has does not matter. -/
theorem compile_reorders (hreorders : left.Reorders right) (hcompile : compile left = .ok tables) :
    compile right = .ok tables := by
  obtain ⟨hproper, hfits, htables⟩ := compile_eq_ok hcompile
  have hright : Fits (addressed right.services) := hfits.rearranged (addressed_rearranged hreorders.2)
  have hempty := services_isEmpty_reorders hreorders
  obtain ⟨other, hother⟩ := compile_ok_iff.mpr
    ⟨hproper.imp hempty.mp fun hleft ↦ hleft.reorders hreorders, hright⟩
  have hstart : left.start = right.start := by
    have hisEmpty : left.services.isEmpty = right.services.isEmpty := by
      rw [Bool.eq_iff_iff, List.isEmpty_iff, List.isEmpty_iff]
      exact hempty
    rw [Snapshot.start, Snapshot.start, hisEmpty, hreorders.1]
  rw [hother, htables, (compile_eq_ok hother).2.2, hstart, sortedEntries_reorders hright hreorders.2]

/-! ## Selection -/

/-- A backend of the port under a key if it has one, and none otherwise. -/
structure Selects (snapshot : Snapshot) (key : ServiceKey) (selected : Option BackendValue) : Prop where
  some : ∀ backend, selected = some backend →
    ∃ port ∈ addressed snapshot.services, port.key = key ∧ backend ∈ port.values
  none : selected = none ↔ ∀ port ∈ addressed snapshot.services, port.key = key → port.values = []

theorem Represents.selects (hrepresents : Represents snapshot tables)
    (hlength : tables.backends.length ≤ maxTableEntries) (key : ServiceKey) (flow : List UInt8) :
    Selects snapshot key (tables.selectBackend key flow) := by
  unfold Tables.selectBackend
  cases hlookup : tables.services.lookup key with
  | none =>
    refine ⟨by simp, ⟨fun _ port hport hkey ↦ ?_, fun _ ↦ rfl⟩⟩
    obtain ⟨value, hvalue⟩ := (hrepresents.keys key).mpr ⟨port, hport, hkey⟩
    cases hlookup.symm.trans hvalue
  | some value =>
    obtain ⟨port, hport, rfl⟩ := (hrepresents.keys key).mp ⟨value, hlookup⟩
    have hunique : ∀ other ∈ addressed snapshot.services, other.key = port.key → other = port :=
      fun other hother hkey ↦ List.inj_on_of_nodup_map hrepresents.distinct hother hport hkey
    have hperm := (hrepresents.ranges port hport value hlookup).1
    have hinside := hrepresents.inside port.key value hlookup
    have hcount : port.values.length = value.backendCount := by
      rw [← hperm.length_eq, Tables.range, List.length_take, List.length_drop]
      omega
    dsimp only
    split
    · next hzero =>
      refine ⟨by simp, ⟨fun _ other hother hkey ↦ ?_, fun _ ↦ rfl⟩⟩
      rw [hunique other hother hkey]
      exact List.length_eq_zero_iff.mp (hcount.trans hzero)
    · next hzero =>
      have hmod : bigEndianUint64 (Sha512.sum512 flow) % value.backendCount < value.backendCount :=
        Nat.mod_lt _ (Nat.pos_of_ne_zero hzero)
      generalize bigEndianUint64 (Sha512.sum512 flow) % value.backendCount = index at hmod
      have hmax : maxTableEntries = 65536 := rfl
      have hindex : (value.backendOffset + index % 2 ^ 32) % 2 ^ 32 = value.backendOffset + index := by
        omega
      have hlt : value.backendOffset + index < tables.backends.length := by omega
      rw [hindex, List.getElem?_eq_getElem hlt]
      have hmem : tables.backends[value.backendOffset + index] ∈ port.values := by
        rw [← hperm.mem_iff, Tables.range, List.mem_take_iff_getElem]
        exact ⟨index, by rw [List.length_drop]; omega, by rw [List.getElem_drop]⟩
      refine ⟨fun backend hbackend ↦ ?_, ⟨fun hnone ↦ by simp at hnone, fun hnothing ↦ ?_⟩⟩
      · cases hbackend
        exact ⟨port, hport, rfl, hmem⟩
      · rw [hnothing port hport rfl] at hmem
        simp at hmem

theorem length_sortedEntries (services : List Service) :
    ((sortedEntries services).flatMap Entry.backends).length = backendTotal (addressed services) := by
  have hentry : (fun port : Addressed ↦ port.entry.backends.length) =
      fun port ↦ port.2.backends.length := by
    funext port
    rw [Addressed.entry, (sortSlice_perm backendLess port.values).length_eq, Addressed.values,
      List.length_map]
  calc
    ((sortedEntries services).flatMap Entry.backends).length =
        (((addressed services).map Addressed.entry).flatMap Entry.backends).length :=
      ((sortedEntries_perm services).flatMap_right Entry.backends).length_eq
    _ = ((addressed services).map fun port ↦ port.entry.backends.length).sum := by
      rw [List.length_flatMap, List.map_map]
      rfl
    _ = backendTotal (addressed services) := by rw [hentry, backendTotal]

/-! ## The tables of a snapshot -/

/-- Tables represent the snapshot they were compiled from, in whatever order it was listed, and select from
its backends only; a proper snapshot is rejected only if it does not fit or repeats a key. -/
theorem compile_exact (snapshot : Snapshot) :
    (∀ tables, compile snapshot = .ok tables →
      Represents snapshot tables ∧ (∀ other, snapshot.Reorders other → compile other = .ok tables) ∧
      ∀ key flow, Selects snapshot key (tables.selectBackend key flow)) ∧
    (snapshot.services ≠ [] → snapshot.Proper →
      ((∃ message, compile snapshot = .error message) ↔
        65536 < (addressed snapshot.services).length ∨
        65536 < backendTotal (addressed snapshot.services) ∨
        ¬((addressed snapshot.services).map Addressed.key).Nodup)) := by
  constructor
  · intro tables hcompile
    obtain ⟨_, hfits, htables⟩ := compile_eq_ok hcompile
    have hlaid : Laid (sortedEntries snapshot.services) tables := by
      rw [htables]
      exact foldl_layout_laid _ _ (sortedEntries_keys hfits)
    have hlength : tables.backends.length ≤ maxTableEntries := by
      rw [hlaid.backends, length_sortedEntries]
      exact hfits.total
    exact ⟨hlaid.represents hfits, fun other hreorders ↦ compile_reorders hreorders hcompile,
      (hlaid.represents hfits).selects hlength⟩
  · intro _ hproper
    have haccepts : (∃ tables, compile snapshot = .ok tables) ↔ Fits (addressed snapshot.services) := by
      rw [compile_ok_iff, and_iff_right (.inr hproper)]
    have hrejects : (∃ message, compile snapshot = .error message) ↔
        ¬∃ tables, compile snapshot = .ok tables := by
      cases compile snapshot <;> simp
    rw [hrejects, haccepts]
    constructor
    · intro hnot
      by_contra hfits
      push Not at hfits
      exact hnot ⟨hfits.2.2, hfits.1, hfits.2.1⟩
    · rintro hover hfits
      have hlength : (addressed snapshot.services).length ≤ 65536 := hfits.length
      have htotal : backendTotal (addressed snapshot.services) ≤ 65536 := hfits.total
      rcases hover with hports | hbackends | hrepeats
      · omega
      · omega
      · exact hrepeats hfits.keys

/-- A name server with two backends, and a web port that has none yet. -/
def dnsPort (backends : List Backend) : Port := ⟨protocolUDP, 53, backends⟩

def dnsBackend (host : BitVec 128) : Backend :=
  ⟨.v6 (0x20010db8000000000000000000000000 ||| host) "", 8053⟩

def dnsSnapshot (ports : List Port) : Snapshot :=
  ⟨.v6 0x20010db8000000000000000000000010 "", [⟨.v6 0xfd506f646d6900000000000000000001 "", ports⟩]⟩

/-- The name server is found under its key in whatever order its backends are listed; the web port is not
served. -/
theorem compile_exact_dns : ∃ tables,
    compile (dnsSnapshot [dnsPort [dnsBackend 3, dnsBackend 2], ⟨protocolTCP, 80, []⟩]) = .ok tables ∧
    compile (dnsSnapshot [⟨protocolTCP, 80, []⟩, dnsPort [dnsBackend 2, dnsBackend 3]]) = .ok tables ∧
    tables.selectBackend ⟨0xfd506f646d6900000000000000000001, 80, 6⟩ [1] = none ∧
    tables.selectBackend ⟨0xfd506f646d6900000000000000000001, 53, 17⟩ [1] ≠ none := by
  have hports : addressed
      (dnsSnapshot [dnsPort [dnsBackend 3, dnsBackend 2], ⟨protocolTCP, 80, []⟩]).services =
      [(.v6 0xfd506f646d6900000000000000000001 "", dnsPort [dnsBackend 3, dnsBackend 2]),
        (.v6 0xfd506f646d6900000000000000000001 "", ⟨protocolTCP, 80, []⟩)] := rfl
  have hproper : (dnsSnapshot [dnsPort [dnsBackend 3, dnsBackend 2], ⟨protocolTCP, 80, []⟩]).Proper := by
    refine ⟨by decide, by decide, ?_⟩
    rw [hports]
    rintro port hport
    rcases List.mem_pair.mp hport with rfl | rfl
    · exact ⟨by decide, by decide, by decide⟩
    · exact ⟨by decide, by decide, by simp⟩
  obtain ⟨tables, hcompile⟩ := compile_ok_iff.mpr ⟨.inr hproper, by
    rw [hports]
    exact ⟨by decide, by decide, by decide⟩⟩
  obtain ⟨_, hreorders, hselects⟩ := (compile_exact _).1 tables hcompile
  refine ⟨tables, hcompile, hreorders _ ⟨rfl, _, .refl _, .cons ⟨rfl, ?_⟩ .nil⟩, ?_, ?_⟩
  · exact ⟨[_, _], .swap _ _ _, .cons ⟨rfl, rfl, .refl _⟩ (.cons ⟨rfl, rfl, .swap _ _ _⟩ .nil)⟩
  · rw [(hselects _ _).none, hports]
    rintro port hport hkey
    rcases List.mem_pair.mp hport with rfl | rfl
    · exact absurd hkey (by decide)
    · rfl
  · rw [Ne, (hselects _ _).none, hports]
    intro hnothing
    exact absurd (hnothing _ List.mem_cons_self (by decide)) (by decide)

end Podmin.Agent.Dataplane
