import Mathlib.Data.List.AList
import Mathlib.Data.List.Sort

/-!
# Maps, sets of keys and sorted slices

A map is an association list without repeated keys. Go leaves the order in which a map is ranged
over open, so an iteration is over some permutation of the entries. `sort.Slice` leaves the order of
elements that compare equal open; `sortSlice` keeps them in place, and what is proved of it uses
only that the result is an ordered permutation.
-/

namespace Podmin.Foundation

/-- A map from keys to values. -/
abbrev GoMap (Key Value : Type*) := AList fun _ : Key ↦ Value

variable {Item : Type*}

namespace GoMap

variable {Key Value : Type*}

/-- The pairs of a map in the order the model keeps them. -/
def pairs (map : GoMap Key Value) : List (Key × Value) :=
  map.entries.map fun entry ↦ (entry.1, entry.2)

/-- Keep the entries a test accepts. -/
def filter (map : GoMap Key Value) (keep : Key → Value → Bool) : GoMap Key Value where
  entries := map.entries.filter fun entry ↦ keep entry.1 entry.2
  nodupKeys := map.nodupKeys.sublist List.filter_sublist

/-- Change every value. -/
def mapValues (map : GoMap Key Value) (change : Key → Value → Value) : GoMap Key Value where
  entries := map.entries.map fun entry ↦ ⟨entry.1, change entry.1 entry.2⟩
  nodupKeys := by
    rw [List.NodupKeys, List.keys, List.map_map]
    exact map.nodupKeys

theorem nodup_pairs_keys (map : GoMap Key Value) : (map.pairs.map Prod.fst).Nodup := by
  rw [pairs, List.map_map]
  exact map.keys_nodup

variable [DecidableEq Key]

theorem mem_pairs {map : GoMap Key Value} {key : Key} {value : Value} :
    (key, value) ∈ map.pairs ↔ map.lookup key = some value := by
  rw [← Option.mem_def, AList.mem_lookup_iff, pairs, List.mem_map]
  constructor
  · rintro ⟨⟨entryKey, entryValue⟩, hentry, heq⟩
    cases heq
    exact hentry
  · intro hentry
    exact ⟨_, hentry, rfl⟩

/-- Maps with the same entries differ in the order of these at most. -/
theorem pairs_perm_of_lookup {left right : GoMap Key Value}
    (hsame : ∀ key, left.lookup key = right.lookup key) :
    left.pairs.Perm right.pairs := by
  apply (List.perm_ext_iff_of_nodup (left.nodup_pairs_keys.of_map _) (right.nodup_pairs_keys.of_map _)).mpr
  rintro ⟨key, value⟩
  rw [mem_pairs, mem_pairs, hsame]

/-- One entry and the entries under other keys. -/
theorem pairs_perm_cons {map : GoMap Key Value} {key : Key} {value : Value}
    (hlookup : map.lookup key = some value) :
    map.pairs.Perm ((key, value) :: map.pairs.filter fun entry ↦ decide (entry.1 ≠ key)) := by
  classical
  have hmem := mem_pairs.mpr hlookup
  have hnodup : map.pairs.Nodup := map.nodup_pairs_keys.of_map Prod.fst
  have hothers : map.pairs.erase (key, value) =
      map.pairs.filter fun entry ↦ decide (entry.1 ≠ key) := by
    rw [hnodup.erase_eq_filter]
    apply List.filter_congr
    rintro ⟨other, stored⟩ hentry
    by_cases hkey : other = key
    · subst hkey
      cases (mem_pairs.mp hentry).symm.trans hlookup
      simp
    · simp [hkey]
  rw [← hothers]
  exact List.perm_cons_erase hmem

theorem lookup_filter (map : GoMap Key Value) (keep : Key → Value → Bool) (key : Key) :
    (map.filter keep).lookup key = (map.lookup key).filter (keep key) := by
  ext value
  rw [Option.filter_eq_some_iff, ← Option.mem_def, ← Option.mem_def, AList.mem_lookup_iff,
    AList.mem_lookup_iff, filter, List.mem_filter]

theorem lookup_insert_eq (map : GoMap Key Value) (key other : Key) (value : Value) :
    (map.insert key value).lookup other = if other = key then some value else map.lookup other := by
  split
  · next heq => rw [heq, AList.lookup_insert]
  · next hne => exact AList.lookup_insert_ne hne

theorem lookup_erase_eq (map : GoMap Key Value) (key other : Key) :
    (map.erase key).lookup other = if other = key then none else map.lookup other := by
  split
  · next heq => rw [heq, AList.lookup_erase]
  · next hne => exact AList.lookup_erase_ne hne

theorem lookup_foldl_erase (items : List Item) (key : Item → Key) (map : GoMap Key Value) (other : Key) :
    (items.foldl (fun map item ↦ map.erase (key item)) map).lookup other =
      if other ∈ items.map key then none else map.lookup other := by
  induction items generalizing map with
  | nil => simp
  | cons item items ih =>
    rw [List.foldl_cons, ih, lookup_erase_eq, List.map_cons]
    by_cases hlater : other ∈ items.map key
    · simp [hlater]
    · by_cases hself : other = key item
      · simp [hself]
      · simp [hlater, hself]

/-- The map that results from inserting entries one after the other. -/
def ofPairs (entries : List (Key × Value)) : GoMap Key Value :=
  entries.foldl (fun map entry ↦ map.insert entry.1 entry.2) ∅

variable {entries : List (Key × Value)}

theorem lookup_foldl_insert (hnodup : (entries.map Prod.fst).Nodup) (map : GoMap Key Value) (key : Key)
    (value : Value) :
    (entries.foldl (fun map entry ↦ map.insert entry.1 entry.2) map).lookup key = some value ↔
      (key, value) ∈ entries ∨ (key ∉ entries.map Prod.fst ∧ map.lookup key = some value) := by
  induction entries generalizing map with
  | nil => simp
  | cons entry entries ih =>
    obtain ⟨first, stored⟩ := entry
    rw [List.map_cons, List.nodup_cons] at hnodup
    rw [List.foldl_cons, ih hnodup.2, lookup_insert_eq, List.mem_cons, List.map_cons, List.mem_cons]
    by_cases heq : key = first
    · subst heq
      have hfresh : (key, value) ∉ entries := fun hmem ↦
        hnodup.1 (List.mem_map.mpr ⟨_, hmem, rfl⟩)
      simp only [hfresh, false_or, hnodup.1, not_false_eq_true, true_and, if_true, Option.some.injEq,
        Prod.mk.injEq, not_true_eq_false, false_and, or_false]
      exact eq_comm
    · simp [heq]

theorem lookup_ofPairs (hnodup : (entries.map Prod.fst).Nodup) (key : Key) (value : Value) :
    (ofPairs entries).lookup key = some value ↔ (key, value) ∈ entries := by
  rw [ofPairs, lookup_foldl_insert hnodup]
  simp

end GoMap

/-- The order in which each `range` over a map visits its keys; `site` tells the loops apart. -/
structure Iteration where
  order : String → List String → List String
  perm : ∀ site keys, (order site keys).Perm keys

/-- The entries of a map in the order a loop visits them. -/
def Iteration.range {Value : Type*} (iteration : Iteration) (site : String)
    (map : GoMap String Value) : List (String × Value) :=
  (iteration.order site (map.pairs.map Prod.fst)).filterMap fun key ↦
    (map.lookup key).map fun value ↦ (key, value)

theorem Iteration.mem_range {Value : Type*} {iteration : Iteration} {site : String}
    {map : GoMap String Value} {key : String} {value : Value} :
    (key, value) ∈ iteration.range site map ↔ map.lookup key = some value := by
  rw [range, List.mem_filterMap]
  constructor
  · intro hvisited
    obtain ⟨visited, _, hentry⟩ := hvisited
    obtain ⟨stored, hstored, hpair⟩ := Option.map_eq_some_iff.mp hentry
    cases hpair
    exact hstored
  · intro hlookup
    have hkey : key ∈ map.pairs.map Prod.fst :=
      List.mem_map.mpr ⟨(key, value), GoMap.mem_pairs.mpr hlookup, rfl⟩
    exact ⟨key, (iteration.perm site _).mem_iff.mpr hkey, by simp [hlookup]⟩

theorem Iteration.nodup_range {Value : Type*} (iteration : Iteration) (site : String)
    (map : GoMap String Value) : ((iteration.range site map).map Prod.fst).Nodup := by
  have hsub : ((iteration.range site map).map Prod.fst).Sublist
      (iteration.order site (map.pairs.map Prod.fst)) := by
    rw [range]
    induction iteration.order site (map.pairs.map Prod.fst) with
    | nil => exact List.Sublist.refl _
    | cons key keys ih =>
      cases hlookup : map.lookup key with
      | none => simpa [hlookup] using ih.cons key
      | some value => simpa [hlookup] using ih
  exact hsub.nodup ((iteration.perm site _).nodup_iff.mpr map.nodup_pairs_keys)

/-- `sort.Slice` with a less function. -/
def sortSlice {Item : Type*} (less : Item → Item → Bool) (items : List Item) : List Item :=
  items.insertionSort fun left right ↦ less right left = false

theorem sortSlice_perm (less : Item → Item → Bool) (items : List Item) :
    (sortSlice less items).Perm items :=
  List.perm_insertionSort _ items

@[simp]
theorem mem_sortSlice {less : Item → Item → Bool} {items : List Item} {item : Item} :
    item ∈ sortSlice less items ↔ item ∈ items :=
  (sortSlice_perm less items).mem_iff

/-- A slice sorted by a key is ordered by it. -/
theorem sortSlice_pairwise {Item Key : Type*} [LinearOrder Key] {less : Item → Item → Bool}
    {key : Item → Key} (hless : ∀ left right, less left right = decide (key left < key right))
    (items : List Item) : (sortSlice less items).Pairwise fun left right ↦ key left ≤ key right := by
  have hle : ∀ left right, less right left = false ↔ key left ≤ key right := by
    intro left right
    rw [hless, decide_eq_false_iff_not, not_lt]
  have htotal : Std.Total fun left right ↦ less right left = false :=
    ⟨fun left right ↦ by simpa only [hle] using le_total (key left) (key right)⟩
  have htrans : IsTrans Item fun left right ↦ less right left = false :=
    ⟨fun _ _ _ ↦ by simpa only [hle] using le_trans⟩
  exact (List.pairwise_insertionSort _ items).imp fun hordered ↦ (hle _ _).mp hordered

/-- Sorting leaves nothing open where only equal items have the same key: there is one ordered permutation. -/
theorem eq_sortSlice {Key : Type*} [LinearOrder Key] {less : Item → Item → Bool} {key : Item → Key}
    (hless : ∀ left right, less left right = decide (key left < key right)) {items sorted : List Item}
    (hkey : ∀ left ∈ items, ∀ right ∈ items, key left = key right → left = right) (hperm : sorted.Perm items)
    (hordered : sorted.Pairwise fun left right ↦ key left ≤ key right) :
    sorted = sortSlice less items := by
  apply List.Perm.eq_of_pairwise _ hordered (sortSlice_pairwise hless items)
    (hperm.trans (sortSlice_perm less items).symm)
  intro left right hleft hright hle hge
  exact hkey left (hperm.mem_iff.mp hleft) right (mem_sortSlice.mp hright) (le_antisymm hle hge)

theorem sortSlice_congr {Item Key : Type*} [LinearOrder Key] {less : Item → Item → Bool}
    {key : Item → Key} (hless : ∀ left right, less left right = decide (key left < key right))
    {left right : List Item}
    (hkey : ∀ first ∈ right, ∀ second ∈ right, key first = key second → first = second)
    (hperm : left.Perm right) : sortSlice less left = sortSlice less right :=
  eq_sortSlice hless hkey ((sortSlice_perm less left).trans hperm) (sortSlice_pairwise hless left)

end Podmin.Foundation
