import Mathlib
import Podmin.Foundation.Codec
import Podmin.Manifest.Index
import Podmin.Manifest.YamlNode

/-!
# Values written as YAML

Maps of strings and integers are marshalled with their keys in order. The text is read twice: into
nodes, which are validated, and into JSON, which is decoded. What is assumed of the packages is that
both readings give the Go value that was written.
-/

namespace Podmin.Manifest

open Foundation

/-! ## Values -/

/-- A value that is marshalled; the order of the entries of a mapping has no meaning. -/
inductive Yaml where
  | string (value : String)
  | integer (value : Int)
  | sequence (items : List Yaml)
  | mapping (entries : List (String × Yaml))

mutual

/-- The value with the entries of every mapping in the order of their keys. -/
def Yaml.sort (less : String → String → Bool) : Yaml → Yaml
  | .string value => .string value
  | .integer value => .integer value
  | .sequence items => .sequence (Yaml.sortItems less items)
  | .mapping entries =>
    .mapping (sortSlice (fun left right ↦ less left.1 right.1) (Yaml.sortEntries less entries))

def Yaml.sortItems (less : String → String → Bool) : List Yaml → List Yaml
  | [] => []
  | item :: items => item.sort less :: Yaml.sortItems less items

def Yaml.sortEntries (less : String → String → Bool) : List (String × Yaml) → List (String × Yaml)
  | [] => []
  | (key, value) :: entries => (key, value.sort less) :: Yaml.sortEntries less entries

end

mutual

def Yaml.toJson : Yaml → Json
  | .string value => .string value
  | .integer value => .number (toString value)
  | .sequence items => .array (Yaml.itemsToJson items)
  | .mapping entries => .object (Yaml.entriesToJson entries)

def Yaml.itemsToJson : List Yaml → List Json
  | [] => []
  | item :: items => item.toJson :: Yaml.itemsToJson items

def Yaml.entriesToJson : List (String × Yaml) → List (String × Json)
  | [] => []
  | (key, value) :: entries => (key, value.toJson) :: Yaml.entriesToJson entries

end

mutual

/-- Every mapping has different keys; keys and integers are of the given kinds. -/
def Yaml.Formed (key : String → Prop) (number : Int → Prop) : Yaml → Prop
  | .string _ => True
  | .integer value => number value
  | .sequence items => Yaml.FormedItems key number items
  | .mapping entries => (entries.map Prod.fst).Nodup ∧ (∀ name ∈ entries.map Prod.fst, key name) ∧
      Yaml.FormedEntries key number entries

def Yaml.FormedItems (key : String → Prop) (number : Int → Prop) : List Yaml → Prop
  | [] => True
  | item :: items => item.Formed key number ∧ Yaml.FormedItems key number items

def Yaml.FormedEntries (key : String → Prop) (number : Int → Prop) : List (String × Yaml) → Prop
  | [] => True
  | (_, value) :: entries => value.Formed key number ∧ Yaml.FormedEntries key number entries

end

/-- No key of a mapping is repeated or the merge key. -/
abbrev Yaml.Keyed : Yaml → Prop :=
  Yaml.Formed (· ≠ "<<") fun _ ↦ True

/-- What a Go value of maps, slices, strings and integers is: keys are not repeated, and integers have
64 bits. -/
abbrev Yaml.GoValue : Yaml → Prop :=
  Yaml.Formed (fun _ ↦ True) fun value ↦ -2 ^ 63 ≤ value ∧ value < 2 ^ 63

variable {key : String → Prop} {number : Int → Prop}

variable {entries : List (String × Yaml)}

namespace Yaml

theorem sortEntries_eq (less : String → String → Bool) (entries : List (String × Yaml)) :
    sortEntries less entries = entries.map fun entry ↦ (entry.1, entry.2.sort less) := by
  induction entries with
  | nil => rfl
  | cons entry entries ih => rw [sortEntries, ih, List.map_cons]

theorem formedEntries_iff :
    FormedEntries key number entries ↔ ∀ entry ∈ entries, entry.2.Formed key number := by
  induction entries with
  | nil => simp [FormedEntries]
  | cons entry entries ih => simp [FormedEntries, ih]

theorem sortEntries_keys (less : String → String → Bool) (entries : List (String × Yaml)) :
    (sortEntries less entries).map Prod.fst = entries.map Prod.fst := by
  rw [sortEntries_eq, List.map_map]
  rfl

mutual

/-- Sorting changes no key and no integer. -/
theorem formed_sort (less : String → String → Bool) (value : Yaml) :
    (value.sort less).Formed key number ↔ value.Formed key number := by
  cases value with
  | string text => exact Iff.rfl
  | integer number => exact Iff.rfl
  | sequence items => exact formedItems_sort less items
  | mapping entries =>
    have hperm := sortSlice_perm (fun left right : String × Yaml ↦ less left.1 right.1)
      (sortEntries less entries)
    have hkeys := hperm.map Prod.fst
    rw [sortEntries_keys] at hkeys
    rw [sort, Formed, Formed, hkeys.nodup_iff, ← formedEntries_sort less entries, formedEntries_iff,
      formedEntries_iff]
    simp only [hperm.mem_iff, hkeys.mem_iff]

theorem formedItems_sort (less : String → String → Bool) (items : List Yaml) :
    FormedItems key number (sortItems less items) ↔ FormedItems key number items := by
  cases items with
  | nil => exact Iff.rfl
  | cons item items => rw [sortItems, FormedItems, FormedItems, formed_sort less item,
    formedItems_sort less items]

theorem formedEntries_sort (less : String → String → Bool) (entries : List (String × Yaml)) :
    FormedEntries key number (sortEntries less entries) ↔ FormedEntries key number entries := by
  cases entries with
  | nil => exact Iff.rfl
  | cons entry entries =>
    obtain ⟨name, value⟩ := entry
    rw [sortEntries, FormedEntries, FormedEntries, formed_sort less value, formedEntries_sort less entries]

end

end Yaml

/-! ## Nodes -/

section Nodes

variable {Id : Type} (graph : NodeGraph Id)

mutual

/-- A node holds a value. -/
def Represents : Yaml → Id → Prop
  | .string value, id => graph id = { kind := .scalarNode, tag := "!!str", value }
  | .integer value, id => graph id = { kind := .scalarNode, tag := "!!int", value := toString value }
  | .sequence items, id => (graph id).kind = .sequenceNode ∧ RepresentsItems items (graph id).content
  | .mapping entries, id => (graph id).kind = .mappingNode ∧ RepresentsEntries entries (graph id).content

def RepresentsItems : List Yaml → List Id → Prop
  | [], ids => ids = []
  | item :: items, ids => ∃ id rest, ids = id :: rest ∧ Represents item id ∧ RepresentsItems items rest

/-- Keys and values alternate. -/
def RepresentsEntries : List (String × Yaml) → List Id → Prop
  | [], ids => ids = []
  | (key, value) :: entries, ids => ∃ name id rest, ids = name :: id :: rest ∧
      graph name = { kind := .scalarNode, tag := "!!str", value := key } ∧ Represents value id ∧
      RepresentsEntries entries rest

end

variable {graph}

theorem keysOf_representsEntries {ids : List Id} (hentries : RepresentsEntries graph entries ids) :
    (∀ key ∈ keysOf ids, (graph key).kind = .scalarNode ∧ (graph key).tag = "!!str") ∧
      (keysOf ids).map (fun key ↦ (graph key).value) = entries.map Prod.fst := by
  induction entries generalizing ids with
  | nil =>
    rw [show ids = [] from hentries]
    simp [keysOf]
  | cons entry entries ih =>
    obtain ⟨key, value⟩ := entry
    obtain ⟨name, id, rest, rfl, hname, _, hrest⟩ := hentries
    obtain ⟨hkinds, hkeys⟩ := ih hrest
    refine ⟨fun other hother ↦ ?_, ?_⟩
    · rcases List.mem_cons.mp hother with rfl | hlater
      · rw [hname]
        exact ⟨rfl, rfl⟩
      · exact hkinds other hlater
    · rw [keysOf, List.map_cons, hkeys, hname, List.map_cons]

variable {id : Id}

/-- The mapping that a node holds has well formed keys exactly when they differ and none of them merges. -/
theorem wellKeyed_iff (hentries : RepresentsEntries graph entries (graph id).content) :
    WellKeyed graph (graph id) ↔ (entries.map Prod.fst).Nodup ∧ ∀ name ∈ entries.map Prod.fst, name ≠ "<<" := by
  obtain ⟨hkinds, hkeys⟩ := keysOf_representsEntries hentries
  rw [← hkeys]
  constructor
  · intro hwell
    refine ⟨hwell.distinct, fun name hname ↦ ?_⟩
    obtain ⟨key, hkey, rfl⟩ := List.mem_map.mp hname
    exact (hwell.strings key hkey).2.2
  · rintro ⟨hdistinct, hmerge⟩
    refine ⟨fun key hkey ↦ ⟨(hkinds key hkey).1, (hkinds key hkey).2, fun hsame ↦ ?_⟩, hdistinct⟩
    exact hmerge _ (List.mem_map_of_mem hkey) hsame

/-- A node that is no alias is well formed exactly when its keys and its children are. -/
theorem wellFormed_iff (hkind : (graph id).kind ≠ .aliasNode) :
    WellFormed graph id ↔ ((graph id).kind = .mappingNode → WellKeyed graph (graph id)) ∧
      ∀ child ∈ (graph id).content, WellFormed graph child := by
  constructor
  · intro hwell
    exact ⟨hwell.keyed id .refl, fun child hchild ↦ hwell.points (.inl ⟨hkind, hchild⟩)⟩
  · rintro ⟨hkeyed, hchildren⟩
    refine wellFormed_of_points (fun halias ↦ absurd halias hkind) (fun halias ↦ absurd halias hkind) hkeyed ?_
    intro next hpoints
    rcases hpoints with hchild | hfollows
    · exact hchildren next hchild.2
    · exact absurd hfollows.1 hkind

theorem wellFormed_scalar {tag value : String} (hnode : graph id = { kind := .scalarNode, tag, value }) :
    WellFormed graph id := by
  have hkind : (graph id).kind = .scalarNode := by rw [hnode]
  refine (wellFormed_iff (by rw [hkind]; decide)).mpr ⟨fun hmapping ↦ ?_, fun child hchild ↦ ?_⟩
  · rw [hkind] at hmapping
    cases hmapping
  · rw [hnode] at hchild
    cases hchild

mutual

/-- A value is held by well-formed nodes exactly when its keys are in order. -/
theorem wellFormed_iff_keyed (value : Yaml) {id : Id} (hvalue : Represents graph value id) :
    WellFormed graph id ↔ value.Keyed := by
  cases value with
  | string text => exact iff_of_true (wellFormed_scalar hvalue) trivial
  | integer number => exact iff_of_true (wellFormed_scalar hvalue) trivial
  | sequence items =>
    obtain ⟨hkind, hitems⟩ := hvalue
    rw [wellFormed_iff (by rw [hkind]; decide), wellFormed_items_iff items hitems, Yaml.Keyed, Yaml.Formed]
    exact and_iff_right fun hmapping ↦ by rw [hkind] at hmapping; cases hmapping
  | mapping entries =>
    obtain ⟨hkind, hentries⟩ := hvalue
    rw [wellFormed_iff (by rw [hkind]; decide), wellFormed_entries_iff entries hentries, Yaml.Keyed,
      Yaml.Formed,
      hkind, wellKeyed_iff hentries]
    simp [and_assoc]

theorem wellFormed_items_iff (items : List Yaml) {ids : List Id} (hitems : RepresentsItems graph items ids) :
    (∀ id ∈ ids, WellFormed graph id) ↔ Yaml.FormedItems (· ≠ "<<") (fun _ ↦ True) items := by
  cases items with
  | nil =>
    rw [show ids = [] from hitems]
    simp [Yaml.FormedItems]
  | cons item items =>
    obtain ⟨id, rest, rfl, hitem, hrest⟩ := hitems
    rw [List.forall_mem_cons, wellFormed_iff_keyed item hitem, wellFormed_items_iff items hrest,
      Yaml.FormedItems]

theorem wellFormed_entries_iff (entries : List (String × Yaml)) {ids : List Id}
    (hentries : RepresentsEntries graph entries ids) :
    (∀ id ∈ ids, WellFormed graph id) ↔ Yaml.FormedEntries (· ≠ "<<") (fun _ ↦ True) entries := by
  cases entries with
  | nil =>
    rw [show ids = [] from hentries]
    simp [Yaml.FormedEntries]
  | cons entry entries =>
    obtain ⟨key, value⟩ := entry
    obtain ⟨name, id, rest, rfl, hname, hvalue, hrest⟩ := hentries
    rw [List.forall_mem_cons, List.forall_mem_cons, wellFormed_iff_keyed value hvalue,
      wellFormed_entries_iff entries hrest, Yaml.FormedEntries]
    exact and_iff_right (wellFormed_scalar hname)

end

variable [DecidableEq Id]

theorem ends_of_children (hkind : (graph id).kind ≠ .aliasNode)
    (hchildren : ∀ child ∈ (graph id).content, ∀ state, Ends graph child state) (state : Traversal Id) :
    Ends graph id state :=
  ends_of_points (fun _ hfollows ↦ absurd hfollows.1 hkind) fun child hchild before _ ↦
    hchildren child hchild.2 before

theorem ends_scalar {tag value : String} (hnode : graph id = { kind := .scalarNode, tag, value })
    (state : Traversal Id) : Ends graph id state := by
  refine ends_of_children (by rw [hnode]; simp) (fun child hchild ↦ ?_) state
  rw [hnode] at hchild
  cases hchild

mutual

/-- The nodes of a value are visited in finite time. -/
theorem ends_of_represents (value : Yaml) {id : Id} (hvalue : Represents graph value id)
    (state : Traversal Id) :
    Ends graph id state := by
  cases value with
  | string text => exact ends_scalar hvalue state
  | integer number => exact ends_scalar hvalue state
  | sequence items =>
    obtain ⟨hkind, hitems⟩ := hvalue
    exact ends_of_children (by rw [hkind]; decide) (ends_of_representsItems items hitems) state
  | mapping entries =>
    obtain ⟨hkind, hentries⟩ := hvalue
    exact ends_of_children (by rw [hkind]; decide) (ends_of_representsEntries entries hentries) state

theorem ends_of_representsItems (items : List Yaml) {ids : List Id} (hitems : RepresentsItems graph items ids) :
    ∀ id ∈ ids, ∀ state, Ends graph id state := by
  cases items with
  | nil =>
    rw [show ids = [] from hitems]
    simp
  | cons item items =>
    obtain ⟨id, rest, rfl, hitem, hrest⟩ := hitems
    exact List.forall_mem_cons.mpr ⟨ends_of_represents item hitem, ends_of_representsItems items hrest⟩

theorem ends_of_representsEntries (entries : List (String × Yaml)) {ids : List Id}
    (hentries : RepresentsEntries graph entries ids) : ∀ id ∈ ids, ∀ state, Ends graph id state := by
  cases entries with
  | nil =>
    rw [show ids = [] from hentries]
    simp
  | cons entry entries =>
    obtain ⟨key, value⟩ := entry
    obtain ⟨name, id, rest, rfl, hname, hvalue, hrest⟩ := hentries
    exact List.forall_mem_cons.mpr ⟨ends_scalar hname, List.forall_mem_cons.mpr
      ⟨ends_of_represents value hvalue, ends_of_representsEntries entries hrest⟩⟩

end

end Nodes

/-! ## The packages -/

/-- What is assumed of the packages that write and read YAML. -/
structure YamlLibrary where
  /-- Keys are ordered by their rank. -/
  Rank : Type
  linearOrder : LinearOrder Rank
  rank : String → Rank
  rank_injective : Function.Injective rank
  Id : Type
  decidableEq : DecidableEq Id
  marshal : Yaml → List UInt8
  /-- The nodes of a text, and the documents of the decoder's stream. -/
  decode : List UInt8 → NodeGraph Id × List (Except String Id)
  toJSON : List UInt8 → Except String Json
  /-- The text of a map does not depend on the order in which it is ranged over. -/
  marshal_congr : ∀ left right : Yaml, left.GoValue → right.GoValue →
    left.sort (fun first second ↦ decide (rank first < rank second)) =
    right.sort (fun first second ↦ decide (rank first < rank second)) → marshal left = marshal right
  decode_marshal : ∀ value : Yaml, value.GoValue →
    ∃ document root, (decode (marshal value)).2 = [.ok document] ∧
    (decode (marshal value)).1 document = { kind := .documentNode, content := [root] } ∧
    Represents (decode (marshal value)).1 (value.sort fun first second ↦ decide (rank first < rank second)) root
  toJSON_marshal : ∀ value : Yaml, value.GoValue → toJSON (marshal value) =
    .ok (value.sort fun first second ↦ decide (rank first < rank second)).toJson

namespace YamlLibrary

instance instLinearOrderRank (library : YamlLibrary) : LinearOrder library.Rank := library.linearOrder

instance instDecidableEqId (library : YamlLibrary) : DecidableEq library.Id := library.decidableEq

/-- The order of keys. -/
def less (library : YamlLibrary) (left right : String) : Bool :=
  decide (library.rank left < library.rank right)

end YamlLibrary

/-! ## A library -/

namespace Yaml

/-- Four bytes for each character, and a zero at the end. -/
def writeText : List Char → List UInt8
  | [] => [0]
  | char :: chars =>
    1 :: .ofNat (char.toNat / 65536) :: .ofNat (char.toNat / 256) :: .ofNat char.toNat :: writeText chars

def readText : List UInt8 → Option (List Char × List UInt8)
  | 0 :: rest => some ([], rest)
  | 1 :: high :: middle :: low :: rest =>
    (readText rest).map fun (chars, rest) ↦
      (.ofNat (high.toNat * 65536 + middle.toNat * 256 + low.toNat) :: chars, rest)
  | _ => none

theorem readText_writeText (chars : List Char) (rest : List UInt8) :
    readText (writeText chars ++ rest) = some (chars, rest) := by
  induction chars with
  | nil => rfl
  | cons char chars ih =>
    have hvalid : char.toNat.isValidChar := char.valid
    have hnumber : char.toNat / 65536 % 256 * 65536 + char.toNat / 256 % 256 * 256 + char.toNat % 256 =
        char.toNat := by
      unfold Nat.isValidChar at hvalid
      omega
    simp [writeText, readText, ih, hnumber]

mutual

def write : Yaml → List UInt8
  | .string value => 0 :: writeText value.toList
  | .integer value => 1 :: writeText (toString value).toList
  | .sequence items => 2 :: writeItems items
  | .mapping entries => 3 :: writeEntries entries

def writeItems : List Yaml → List UInt8
  | [] => [0]
  | item :: items => 1 :: (item.write ++ writeItems items)

def writeEntries : List (String × Yaml) → List UInt8
  | [] => [0]
  | (key, value) :: entries => 1 :: (writeText key.toList ++ (value.write ++ writeEntries entries))

end

mutual

def read : Nat → List UInt8 → Option (Yaml × List UInt8)
  | _ + 1, 0 :: rest => (readText rest).map fun (text, rest) ↦ (.string (.ofList text), rest)
  | _ + 1, 1 :: rest => do
    let (text, rest) ← readText rest
    let number ← (String.ofList text).toInt?
    some (.integer number, rest)
  | fuel + 1, 2 :: rest => (readItems fuel rest).map fun (items, rest) ↦ (.sequence items, rest)
  | fuel + 1, 3 :: rest => (readEntries fuel rest).map fun (entries, rest) ↦ (.mapping entries, rest)
  | _, _ => none

def readItems : Nat → List UInt8 → Option (List Yaml × List UInt8)
  | _ + 1, 0 :: rest => some ([], rest)
  | fuel + 1, 1 :: rest => do
    let (item, rest) ← read fuel rest
    let (items, rest) ← readItems fuel rest
    some (item :: items, rest)
  | _, _ => none

def readEntries : Nat → List UInt8 → Option (List (String × Yaml) × List UInt8)
  | _ + 1, 0 :: rest => some ([], rest)
  | fuel + 1, 1 :: rest => do
    let (key, rest) ← readText rest
    let (value, rest) ← read fuel rest
    let (entries, rest) ← readEntries fuel rest
    some ((.ofList key, value) :: entries, rest)
  | _, _ => none

end

mutual

theorem read_write (value : Yaml) {fuel : Nat} (hfuel : value.write.length ≤ fuel) (rest : List UInt8) :
    read fuel (value.write ++ rest) = some (value, rest) := by
  cases fuel with
  | zero => cases value <;> simp [write] at hfuel
  | succ fuel =>
    cases value with
    | string text => simp [write, read, readText_writeText]
    | integer number =>
      have hread : number.repr.toInt? = some number := Int.toInt?_repr _
      simp [write, read, readText_writeText, hread]
    | sequence items =>
      simp only [write, List.length_cons, Nat.add_le_add_iff_right] at hfuel
      simp [write, read, readItems_write items hfuel]
    | mapping entries =>
      simp only [write, List.length_cons, Nat.add_le_add_iff_right] at hfuel
      simp [write, read, readEntries_write entries hfuel]

theorem readItems_write (items : List Yaml) {fuel : Nat} (hfuel : (writeItems items).length ≤ fuel)
    (rest : List UInt8) : readItems fuel (writeItems items ++ rest) = some (items, rest) := by
  cases fuel with
  | zero => cases items <;> simp [writeItems] at hfuel
  | succ fuel =>
    cases items with
    | nil => rfl
    | cons item items =>
      simp only [writeItems, List.length_cons, List.length_append] at hfuel
      simp [writeItems, readItems, read_write item (show _ ≤ fuel by omega),
        readItems_write items (show _ ≤ fuel by omega)]

theorem readEntries_write (entries : List (String × Yaml)) {fuel : Nat}
    (hfuel : (writeEntries entries).length ≤ fuel) (rest : List UInt8) :
    readEntries fuel (writeEntries entries ++ rest) = some (entries, rest) := by
  cases fuel with
  | zero => rcases entries with _ | ⟨⟨_, _⟩, _⟩ <;> simp [writeEntries] at hfuel
  | succ fuel =>
    cases entries with
    | nil => rfl
    | cons entry entries =>
      obtain ⟨key, value⟩ := entry
      simp only [writeEntries, List.length_cons, List.length_append] at hfuel
      simp [writeEntries, readEntries, readText_writeText, read_write value (show _ ≤ fuel by omega),
        readEntries_write entries (show _ ≤ fuel by omega)]

end

/-- Values as self-delimiting bytes. -/
def codec : Codec Yaml where
  decode input :=
    match read input.length input with
    | some (value, []) => .ok value
    | _ => .error "yaml: invalid text"
  encode := write
  decode_encode value := by
    have hread := read_write value le_rfl []
    rw [List.append_nil] at hread
    rw [hread]

instance decidableEqYaml : DecidableEq Yaml := fun left right ↦
  decidable_of_iff (codec.encode left = codec.encode right) codec.encode_injective.eq_iff

end Yaml

/-- The nodes of all values. -/
inductive ValueNode where
  | document (value : Yaml)
  | value (value : Yaml)
  | key (name : String)
  deriving DecidableEq

/-- The node of a value has the nodes of its parts as its children. -/
def valueGraph : NodeGraph ValueNode
  | .document value => { kind := .documentNode, content := [.value value] }
  | .value (.string value) => { kind := .scalarNode, tag := "!!str", value }
  | .value (.integer value) => { kind := .scalarNode, tag := "!!int", value := toString value }
  | .value (.sequence items) => { kind := .sequenceNode, content := items.map .value }
  | .value (.mapping entries) =>
    { kind := .mappingNode, content := entries.flatMap fun entry ↦ [.key entry.1, .value entry.2] }
  | .key name => { kind := .scalarNode, tag := "!!str", value := name }

mutual

theorem represents_value (value : Yaml) : Represents valueGraph value (.value value) := by
  cases value with
  | string text => exact rfl
  | integer number => exact rfl
  | sequence items => exact ⟨rfl, represents_items items⟩
  | mapping entries => exact ⟨rfl, represents_entries entries⟩

theorem represents_items (items : List Yaml) : RepresentsItems valueGraph items (items.map .value) := by
  cases items with
  | nil => exact rfl
  | cons item items => exact ⟨_, _, rfl, represents_value item, represents_items items⟩

theorem represents_entries (entries : List (String × Yaml)) :
    RepresentsEntries valueGraph entries (entries.flatMap fun entry ↦ [.key entry.1, .value entry.2]) := by
  cases entries with
  | nil => exact rfl
  | cons entry entries =>
    obtain ⟨key, value⟩ := entry
    exact ⟨_, _, _, rfl, rfl, represents_value value, represents_entries entries⟩

end

end Podmin.Manifest
