import Mathlib.Data.String.Basic
import Podmin.Foundation.GoMap
import Podmin.Foundation.Netip
import Podmin.Foundation.Sha512
import Podmin.Foundation.Text
import Podmin.Manifest.Identifiers

/-!
# The deployment index

The model of `internal/manifest/index.go`. The index is the single cluster-wide desired-state object:
a JSON object from `NodeGroup/name` to the content-addressed paths of a Pod and an optional Service.
A stored body is the JSON value it consists of, or nothing when it is not one JSON value.
-/

namespace Podmin.Manifest

open Foundation GoMap

/-! ## JSON values -/

inductive Json where
  | null
  | bool (value : Bool)
  | number (text : String)
  | string (value : String)
  | array (items : List Json)
  | object (members : List (String × Json))

mutual

/-- No object repeats a key, at any depth. -/
def Json.uniqueKeys : Json → Bool
  | .object members => decide (members.map Prod.fst).Nodup && Json.uniqueMembers members
  | .array items => Json.uniqueItems items
  | _ => true

def Json.uniqueMembers : List (String × Json) → Bool
  | [] => true
  | (_, value) :: members => value.uniqueKeys && Json.uniqueMembers members

def Json.uniqueItems : List Json → Bool
  | [] => true
  | item :: items => item.uniqueKeys && Json.uniqueItems items

end

/-! ## Content-addressed paths -/

/-- One index entry: the path of a Pod and of its Service; an absent Service is the empty path. -/
structure IndexDeployment where
  pod : String
  service : String
  deriving DecidableEq, Repr

abbrev Index := GoMap String IndexDeployment

/-- The lower-case SHA-512 digest of a body. -/
def digest (body : List UInt8) : String :=
  Sha512.hexEncode (Sha512.sum512 body)

def isLowerCase (value : String) : Bool :=
  value.toList.all fun char ↦ !('A' ≤ char && char ≤ 'Z')

/-- The digest in a content-addressed YAML key. -/
def objectDigest (key : String) : Option String :=
  let filename := ((Text.split '/' key).getLast?).getD ""
  let value := Text.trimSuffix filename ".yaml"
  if Text.hasSuffix filename ".yaml" && value.toList.length == 128 &&
      value.toList.all Netip.isHexDigit && isLowerCase value then some value
  else none

/-- The body is the immutable payload the path names. -/
def verify (path : String) (body : List UInt8) : Bool :=
  objectDigest path == some (digest body)

theorem digest_chars (body : List UInt8) : ∀ char ∈ (digest body).toList,
    Sha512.isLowerHex char = true :=
  Sha512.hexEncode_isLowerHex _

theorem length_digest (body : List UInt8) : (digest body).toList.length = 128 := by
  rw [digest, Sha512.length_hexEncode, Sha512.length_sum512]

theorem isHexDigit_of_isLowerHex {char : Char} (hchar : Sha512.isLowerHex char = true) :
    Netip.isHexDigit char = true ∧ ('A' ≤ char && char ≤ 'Z') = false ∧ char ≠ '/' := by
  simp only [Sha512.isLowerHex, Netip.isHexDigit, Bool.or_eq_true, Bool.and_eq_true,
    decide_eq_true_eq, Bool.and_eq_false_imp, decide_eq_false_iff_not, Char.le_def,
    UInt32.le_iff_toNat_le, Char.reduceVal, UInt32.reduceToNat] at hchar ⊢
  refine ⟨by omega, by omega, ?_⟩
  rintro rfl
  simp at hchar

/-- The path of a payload names its digest. -/
theorem objectDigest_path (leading : String) (body : List UInt8) :
    objectDigest (leading ++ "/" ++ (digest body ++ ".yaml")) = some (digest body) := by
  have hslash : '/' ∉ (digest body ++ ".yaml").toList := by
    simp only [String.toList_append, List.mem_append, not_or]
    refine ⟨fun hmem ↦ ?_, by decide⟩
    exact (isHexDigit_of_isLowerHex (digest_chars body _ hmem)).2.2 rfl
  have hlast := Text.getLast?_split hslash leading
  have hsplit : (Text.split '/' (leading ++ "/" ++ (digest body ++ ".yaml"))).getLast? =
      some (digest body ++ ".yaml") := hlast
  have hhex : (digest body).toList.all Netip.isHexDigit = true :=
    List.all_eq_true.mpr fun char hchar ↦ (isHexDigit_of_isLowerHex (digest_chars body char hchar)).1
  have hlower : isLowerCase (digest body) = true :=
    List.all_eq_true.mpr fun char hchar ↦ by
      simp [(isHexDigit_of_isLowerHex (digest_chars body char hchar)).2.1]
  rw [objectDigest, hsplit]
  simp [Text.trimSuffix_append, Text.hasSuffix_append, length_digest, hhex, hlower]

theorem verify_path (leading : String) (body : List UInt8) :
    verify (leading ++ "/" ++ (digest body ++ ".yaml")) body = true := by
  rw [verify, objectDigest_path]
  simp

def deploymentKey (nodeGroup name : String) : String :=
  nodeGroup ++ "/" ++ name

def deploymentIdentity (key : String) : Option (String × String) :=
  match Text.split '/' key with
  | [nodeGroup, name] => if validID nodeGroup && validID name then some (nodeGroup, name) else none
  | _ => none

theorem slash_not_mem {value : String} (hvalue : ∀ char ∈ value.toList, isLabelChar char = true) :
    '/' ∉ value.toList :=
  fun hmem ↦ absurd (hvalue '/' hmem) (by decide)

theorem deploymentIdentity_deploymentKey {nodeGroup name : String}
    (hnodeGroup : validID nodeGroup = true) (hname : validID name = true) :
    deploymentIdentity (deploymentKey nodeGroup name) = some (nodeGroup, name) := by
  have hkey : deploymentKey nodeGroup name = Text.join '/' [nodeGroup, name] := by
    apply String.toList_injective
    simp [deploymentKey, Text.join, List.intercalate]
  have hsplit : Text.split '/' (deploymentKey nodeGroup name) = [nodeGroup, name] := by
    rw [hkey]
    refine Text.split_join (by simp) ?_
    simp [slash_not_mem (validID_chars hnodeGroup), slash_not_mem (validID_chars hname)]
  simp [deploymentIdentity, hsplit, hnodeGroup, hname]

/-- The namespace and name of a content-addressed Service key. -/
def serviceIdentity (key : String) : Option (String × String) :=
  match Text.split '/' key with
  | [root, ns, name, algorithm, _] =>
    if root == "services" && validNamespace ns && validID name && algorithm == "sha512" &&
        (objectDigest key).isSome then some (ns, name)
    else none
  | _ => none

def podObject (key nodeGroup : String) : Bool :=
  match Text.split '/' key with
  | [root, group, pods, algorithm, _] =>
    root == "nodegroups" && group == nodeGroup && pods == "pods" && algorithm == "sha512" &&
      (objectDigest key).isSome
  | _ => false

/-! ## Decoding -/

/-- The folding under which member names match field names when they do not match exactly. -/
def foldName (name : String) : List Char :=
  name.toList.map fun char ↦
    if char = '\u017f' then 's' else if char = '\u212a' then 'k' else char.toLower

def decodeString (current : String) : Json → Except String String
  | .string value => .ok value
  | .null => .ok current
  | _ => .error "json: cannot unmarshal value into string"

/-- Decode one member of an entry; a later member overwrites an earlier one. -/
def decodeMember (deployment : IndexDeployment) (member : String × Json) :
    Except String IndexDeployment :=
  if foldName member.1 = foldName "pod" then do
    let value ← decodeString deployment.pod member.2
    .ok { deployment with pod := value }
  else if foldName member.1 = foldName "service" then do
    let value ← decodeString deployment.service member.2
    .ok { deployment with service := value }
  else .error ("json: unknown field \"" ++ member.1 ++ "\"")

def decodeDeployment : Json → Except String IndexDeployment
  | .null => .ok ⟨"", ""⟩
  | .object members => members.foldlM decodeMember ⟨"", ""⟩
  | _ => .error "json: cannot unmarshal value into IndexDeployment"

def decodeEntry (index : Index) (member : String × Json) : Except String Index := do
  let deployment ← decodeDeployment member.2
  .ok (index.insert member.1 deployment)

/-- A `null` document decodes to no map. -/
def decodeIndex : Json → Except String (Option Index)
  | .null => .ok none
  | .object members => do
    let index ← members.foldlM decodeEntry (∅ : Index)
    .ok (some index)
  | _ => .error "json: cannot unmarshal value into Index"

/-- Check every entry; `services` are the Service identities referenced so far. -/
def validateEntries (services : List (String × String)) :
    List (String × IndexDeployment) → Except String Unit
  | [] => .ok ()
  | (key, deployment) :: entries =>
    match deploymentIdentity key with
    | none => .error ("invalid index deployment \"" ++ key ++ "\"")
    | some (nodeGroup, _) =>
      if !podObject deployment.pod nodeGroup then
        .error ("invalid index deployment \"" ++ key ++ "\"")
      else if deployment.service = "" then validateEntries services entries
      else
        match serviceIdentity deployment.service with
        | none =>
          .error ("invalid or duplicate Service reference for deployment \"" ++ key ++ "\"")
        | some identity =>
          if identity ∈ services then
            .error ("invalid or duplicate Service reference for deployment \"" ++ key ++ "\"")
          else validateEntries (identity :: services) entries

/-- Strictly parse and validate an index body. -/
def parseIndex (body : Option Json) : Except String Index :=
  match body with
  | none => .error "parse index: invalid JSON"
  | some value =>
    if !value.uniqueKeys then .error "parse index: duplicate JSON object key"
    else do
      match ← decodeIndex value with
      | none => .error "incomplete index"
      | some index =>
        validateEntries [] index.pairs
        .ok index

/-! ## Encoding -/

def encodeDeployment (deployment : IndexDeployment) : Json :=
  .object (("pod", .string deployment.pod) ::
    if deployment.service = "" then [] else [("service", .string deployment.service)])

def entryLess (left right : String × IndexDeployment) : Bool :=
  decide (left.1 < right.1)

/-- Canonical JSON: members sorted by key, an empty Service left out. -/
def encodeIndex (index : Index) : Json :=
  .object ((sortSlice entryLess index.pairs).map fun entry ↦ (entry.1, encodeDeployment entry.2))

/-- The canonical body of an index that parses. -/
def marshalIndex (index : Index) : Except String (Option Json) := do
  let _ ← parseIndex (some (encodeIndex index))
  .ok (some (encodeIndex index))

/-! ## What a valid index is -/

/-- One entry of a valid index. -/
def ValidEntry (key : String) (deployment : IndexDeployment) : Prop :=
  ∃ nodeGroup name, deploymentIdentity key = some (nodeGroup, name) ∧
    podObject deployment.pod nodeGroup = true ∧
    (deployment.service ≠ "" → (serviceIdentity deployment.service).isSome = true)

/-- The Service identity an entry references. -/
def referenced (deployment : IndexDeployment) : Option (String × String) :=
  if deployment.service = "" then none else serviceIdentity deployment.service

/-- Every entry is valid, and no Service identity is referenced by two entries. -/
structure ValidIndex (index : Index) : Prop where
  entries : ∀ key deployment, index.lookup key = some deployment → ValidEntry key deployment
  owner : ∀ left right first second identity, index.lookup left = some first →
    index.lookup right = some second → referenced first = some identity →
    referenced second = some identity → left = right

variable {entries : List (String × IndexDeployment)}

theorem validateEntries_eq_ok {services : List (String × String)} :
    validateEntries services entries = .ok () ↔
      (∀ entry ∈ entries, ValidEntry entry.1 entry.2) ∧
        (entries.filterMap fun entry ↦ referenced entry.2).Nodup ∧
        ∀ entry ∈ entries, ∀ identity, referenced entry.2 = some identity →
          identity ∉ services := by
  induction entries generalizing services with
  | nil => simp [validateEntries]
  | cons entry entries ih =>
    obtain ⟨key, deployment⟩ := entry
    rw [validateEntries]
    cases hkey : deploymentIdentity key with
    | none =>
      simp only [reduceCtorEq, false_iff, not_and]
      intro hall
      obtain ⟨_, _, hsome, _⟩ := hall _ List.mem_cons_self
      simp [hkey] at hsome
    | some parts =>
      obtain ⟨nodeGroup, name⟩ := parts
      dsimp only
      split
      · next hpod =>
        simp only [reduceCtorEq, false_iff, not_and]
        intro hall
        obtain ⟨_, _, hsome, hvalid, _⟩ := hall _ List.mem_cons_self
        simp only [hkey, Option.some.injEq, Prod.mk.injEq] at hsome
        simp [hsome.1, hvalid] at hpod
      next hpod =>
        have hpod : podObject deployment.pod nodeGroup = true := by simpa using hpod
        split
        · next hempty =>
          have hentry : ValidEntry key deployment := ⟨nodeGroup, name, hkey, hpod, by simp [hempty]⟩
          have hnone : referenced deployment = none := by simp [referenced, hempty]
          simp [ih, hentry, hnone]
        next hservice =>
          cases hidentity : serviceIdentity deployment.service with
          | none =>
            simp only [reduceCtorEq, false_iff, not_and]
            intro hall
            obtain ⟨_, _, _, _, hsome⟩ := hall _ List.mem_cons_self
            simp [hidentity] at hsome
            exact absurd hsome hservice
          | some identity =>
            have hentry : ValidEntry key deployment :=
              ⟨nodeGroup, name, hkey, hpod, by simp [hidentity]⟩
            have hsome : referenced deployment = some identity := by
              simp [referenced, hservice, hidentity]
            dsimp only
            split
            · next hmem =>
              simp only [reduceCtorEq, false_iff, not_and]
              intro _ _ hfresh
              exact hfresh _ List.mem_cons_self identity hsome hmem
            next hfresh =>
              rw [ih]
              simp only [List.mem_cons, forall_eq_or_imp, hentry, true_and, hsome,
                List.filterMap_cons, Option.some.injEq, forall_eq', hfresh, not_false_eq_true,
                List.nodup_cons, List.mem_filterMap, not_exists, not_and, not_or]
              grind

variable {index : Index}

/-- The entries of an index are accepted, in whatever order they are visited, exactly when the index
is valid. -/
theorem validateEntries_pairs :
    validateEntries [] index.pairs = .ok () ↔ ValidIndex index := by
  have hkeys : index.pairs.Pairwise fun left right ↦ left.1 ≠ right.1 :=
    List.pairwise_map.mp index.nodup_pairs_keys
  rw [validateEntries_eq_ok]
  simp only [List.not_mem_nil, not_false_eq_true, implies_true, and_true, List.Nodup,
    List.pairwise_filterMap]
  constructor
  · rintro ⟨hentries, hdistinct⟩
    refine ⟨fun key deployment hlookup ↦ hentries _ (mem_pairs.mpr hlookup), ?_⟩
    intro left right first second identity hleft hright hfirst hsecond
    have hsymm : Std.Symm fun left right : String × IndexDeployment ↦
        ∀ first, referenced left.2 = some first → ∀ second, referenced right.2 = some second →
          first ≠ second :=
      ⟨fun _ _ hne first hfirst second hsecond ↦ (hne second hsecond first hfirst).symm⟩
    by_contra hne
    exact hdistinct.forall (mem_pairs.mpr hleft) (mem_pairs.mpr hright)
      (fun heq ↦ hne (congrArg Prod.fst heq)) identity hfirst identity hsecond rfl
  · rintro ⟨hentries, howner⟩
    refine ⟨fun entry hentry ↦ hentries _ _ (mem_pairs.mp hentry), ?_⟩
    refine hkeys.imp_of_mem fun {left right} hleft hright hne first hfirst second hsecond heq ↦ ?_
    subst heq
    exact hne (howner _ _ _ _ first (mem_pairs.mp hleft) (mem_pairs.mp hright) hfirst
      hsecond)

/-- Validity only depends on what the index maps each key to. -/
theorem ValidIndex.congr {left right : Index} (hvalid : ValidIndex left)
    (hsame : ∀ key, right.lookup key = left.lookup key) : ValidIndex right where
  entries key deployment hlookup := hvalid.entries key deployment ((hsame key).symm.trans hlookup)
  owner first second left right identity hleft hright :=
    hvalid.owner first second left right identity ((hsame first).symm.trans hleft)
      ((hsame second).symm.trans hright)

variable {deployment : IndexDeployment}

/-- An entry may be added whose Service no other one references. -/
theorem ValidIndex.insert {key : String} (hvalid : ValidIndex index) (hentry : ValidEntry key deployment)
    (howner : ∀ other entry identity, index.lookup other = some entry → referenced entry = some identity →
      referenced deployment ≠ some identity) : ValidIndex (AList.insert key deployment index) where
  entries other stored hlookup := by
    rw [lookup_insert_eq] at hlookup
    split at hlookup
    · next heq =>
      cases hlookup
      exact heq ▸ hentry
    · exact hvalid.entries other stored hlookup
  owner left right first second identity hleft hright hfirst hsecond := by
    rw [lookup_insert_eq] at hleft hright
    split at hleft <;> split at hright
    · next hkey hother => rw [hkey, hother]
    · cases hleft
      exact absurd hfirst (howner right second identity hright hsecond)
    · cases hright
      exact absurd hsecond (howner left first identity hleft hfirst)
    · exact hvalid.owner left right first second identity hleft hright hfirst hsecond

theorem ValidEntry.single {key : String} (hentry : ValidEntry key deployment) :
    ValidIndex (AList.insert key deployment ∅) :=
  ValidIndex.insert ⟨by simp, by simp⟩ hentry (by simp)

/-! ## Round trips -/

theorem parseIndex_eq_ok {body : Option Json} :
    parseIndex body = .ok index ↔
      ∃ value, body = some value ∧ value.uniqueKeys = true ∧
        decodeIndex value = .ok (some index) ∧ ValidIndex index := by
  cases body with
  | none => simp [parseIndex]
  | some value =>
    simp only [parseIndex, Option.some.injEq, exists_eq_left']
    cases hunique : value.uniqueKeys with
    | false => simp
    | true =>
      cases hdecode : decodeIndex value with
      | error message => simp [bind, Except.bind]
      | ok decoded =>
        cases decoded with
        | none => simp [bind, Except.bind]
        | some parsed =>
          simp only [Bool.not_true, Bool.false_eq_true, if_false, bind, Except.bind, true_and,
            Except.ok.injEq, Option.some.injEq]
          cases hentries : validateEntries [] parsed.pairs with
          | error message =>
            have hbad : ¬ValidIndex parsed := by
              rw [← validateEntries_pairs, hentries]
              simp
            simp only [reduceCtorEq, false_iff, not_and]
            rintro rfl
            exact hbad
          | ok _ =>
            have hgood : ValidIndex parsed := validateEntries_pairs.mp hentries
            simp only [Except.ok.injEq]
            constructor
            · rintro rfl
              exact ⟨rfl, hgood⟩
            · exact And.left

theorem decodeDeployment_encodeDeployment (deployment : IndexDeployment) :
    decodeDeployment (encodeDeployment deployment) = .ok deployment := by
  obtain ⟨pod, service⟩ := deployment
  have hservice : foldName "service" ≠ foldName "pod" := by decide
  by_cases hempty : service = ""
  · simp [encodeDeployment, decodeDeployment, decodeMember, decodeString, bind, Except.bind, pure,
      Except.pure, hempty]
  · simp [encodeDeployment, decodeDeployment, decodeMember, decodeString, bind, Except.bind, pure,
      Except.pure, hempty, hservice]

theorem uniqueKeys_encodeDeployment (deployment : IndexDeployment) :
    (encodeDeployment deployment).uniqueKeys = true := by
  unfold encodeDeployment
  split <;> simp [Json.uniqueKeys, Json.uniqueMembers]

theorem uniqueMembers_map :
    Json.uniqueMembers (entries.map fun entry ↦ (entry.1, encodeDeployment entry.2)) = true := by
  induction entries with
  | nil => rfl
  | cons entry entries ih => simp [Json.uniqueMembers, uniqueKeys_encodeDeployment, ih]

theorem decodeEntries_encode (entries : List (String × IndexDeployment)) (index : Index) :
    (entries.map fun entry ↦ (entry.1, encodeDeployment entry.2)).foldlM decodeEntry index =
      .ok (entries.foldl (fun index entry ↦ index.insert entry.1 entry.2) index) := by
  induction entries generalizing index with
  | nil => rfl
  | cons entry entries ih =>
    simp [decodeEntry, decodeDeployment_encodeDeployment, bind, Except.bind, ih]

theorem nodup_sorted_keys (index : Index) :
    ((sortSlice entryLess index.pairs).map Prod.fst).Nodup :=
  ((sortSlice_perm entryLess index.pairs).map Prod.fst).nodup_iff.mpr index.nodup_pairs_keys

theorem lookup_sorted_pairs (index : Index) (key : String) :
    (ofPairs (sortSlice entryLess index.pairs)).lookup key = index.lookup key := by
  ext deployment
  rw [lookup_ofPairs (nodup_sorted_keys index), mem_sortSlice, mem_pairs]

/-- A valid index parses back from its canonical JSON. -/
theorem parseIndex_encodeIndex (hvalid : ValidIndex index) :
    parseIndex (some (encodeIndex index)) =
      .ok (ofPairs (sortSlice entryLess index.pairs)) := by
  have hunique : (encodeIndex index).uniqueKeys = true := by
    have hkeys := nodup_sorted_keys index
    simp only [encodeIndex, Json.uniqueKeys, uniqueMembers_map, Bool.and_true, decide_eq_true_eq,
      List.map_map]
    exact hkeys
  refine parseIndex_eq_ok.mpr ⟨_, rfl, hunique, ?_, hvalid.congr (lookup_sorted_pairs index)⟩
  simp [encodeIndex, decodeIndex, decodeEntries_encode, bind, Except.bind, ofPairs]

theorem ValidEntry.parseIndex_single {key : String} (hentry : ValidEntry key deployment) :
    parseIndex (some (encodeIndex (AList.insert key deployment ∅))) =
      .ok (AList.insert key deployment ∅) :=
  parseIndex_encodeIndex hentry.single

theorem marshalIndex_of_valid (hvalid : ValidIndex index) :
    marshalIndex index = .ok (some (encodeIndex index)) := by
  simp [marshalIndex, parseIndex_encodeIndex hvalid, bind, Except.bind]

/-- What is marshalled parses back to an index with the same entries, and is valid. -/
theorem marshalIndex_eq_ok {body : Option Json} (hmarshal : marshalIndex index = .ok body) :
    ValidIndex index ∧ ∃ parsed, parseIndex body = .ok parsed ∧
      ∀ key, parsed.lookup key = index.lookup key := by
  unfold marshalIndex at hmarshal
  cases hparse : parseIndex (some (encodeIndex index)) with
  | error message => simp [hparse, bind, Except.bind] at hmarshal
  | ok parsed =>
    simp only [hparse, bind, Except.bind, Except.ok.injEq] at hmarshal
    subst hmarshal
    obtain ⟨value, hvalue, _, hdecode, hvalid⟩ := parseIndex_eq_ok.mp hparse
    cases hvalue
    have hparsed : parsed = ofPairs (sortSlice entryLess index.pairs) := by
      simp only [encodeIndex, decodeIndex, decodeEntries_encode, bind, Except.bind, Except.ok.injEq,
        Option.some.injEq] at hdecode
      exact hdecode.symm
    have hlookup : ∀ key, parsed.lookup key = index.lookup key := by
      rw [hparsed]
      exact lookup_sorted_pairs index
    exact ⟨hvalid.congr fun key ↦ (hlookup key).symm, parsed, hparse, hlookup⟩

end Podmin.Manifest
