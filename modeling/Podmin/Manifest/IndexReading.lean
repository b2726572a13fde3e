import Mathlib.Logic.Relation
import Podmin.Foundation.Fallible
import Podmin.Manifest.Index

/-!
# Readings of an index body

Repeated keys are looked for in the tokens of a body, with the keys as they are written. The decoder matches
member names to fields without regard to case. An accepted body may therefore have two members for one field,
and what it means then depends on which of them comes last.
-/

namespace Podmin.Manifest

open Foundation Fallible Json

variable {members others : List (String × Json)} {deployment : IndexDeployment} {member : String × Json}
  {index : Index} {other body : Json}

/-! ## The token scan -/

/-- A token of `json.Decoder`. -/
inductive Token where
  | delim (char : Char)
  | null
  | bool (value : Bool)
  | number (text : String)
  | string (value : String)

mutual

/-- The tokens of a value, in the order they are read. -/
def Json.tokens : Json → List Token
  | .null => [.null]
  | .bool value => [.bool value]
  | .number text => [.number text]
  | .string value => [.string value]
  | .array items => .delim '[' :: itemTokens items
  | .object members => .delim '{' :: memberTokens members

/-- The tokens of the members of an object, and of its end. -/
def Json.memberTokens : List (String × Json) → List Token
  | [] => [.delim '}']
  | (key, value) :: members => .string key :: (value.tokens ++ memberTokens members)

def Json.itemTokens : List Json → List Token
  | [] => [.delim ']']
  | item :: items => item.tokens ++ itemTokens items

end

/-- `Decoder.More`: the next token does not close an object or an array. -/
def more : List Token → Bool
  | [] => false
  | .delim char :: _ => char ≠ ']' && char ≠ '}'
  | _ => true

def duplicateKey (key : String) : String :=
  "duplicate JSON object key \"" ++ key ++ "\""

mutual

/-- Consume one value and check the keys of every object; the result is what is left. -/
def scanJSONValue : Nat → List Token → Except String (List Token)
  | 0, _ => .error "EOF"
  | _ + 1, [] => .error "EOF"
  | fuel + 1, .delim char :: rest =>
    if char = '{' then scanMembers fuel [] rest
    else if char = '[' then scanItems fuel rest
    else .error "invalid JSON delimiter"
  | _ + 1, _ :: rest => .ok rest

/-- The loop over the members of an object. -/
def scanMembers : Nat → List String → List Token → Except String (List Token)
  | 0, _, _ => .error "EOF"
  | fuel + 1, seen, tokens =>
    if more tokens = true then
      match tokens with
      | .string key :: rest =>
        if key ∈ seen then .error (duplicateKey key)
        else do
          let rest ← scanJSONValue fuel rest
          scanMembers fuel (key :: seen) rest
      | _ => .error (duplicateKey "")
    else
      match tokens with
      | [] => .error "EOF"
      | _ :: rest => .ok rest

/-- The loop over the items of an array. -/
def scanItems : Nat → List Token → Except String (List Token)
  | 0, _ => .error "EOF"
  | fuel + 1, tokens =>
    if more tokens = true then do
      let rest ← scanJSONValue fuel tokens
      scanItems fuel rest
    else
      match tokens with
      | [] => .error "EOF"
      | _ :: rest => .ok rest

end

def rejectDuplicateJSONKeys (tokens : List Token) : Except String Unit := do
  let rest ← scanJSONValue tokens.length tokens
  if rest.isEmpty = true then .ok () else .error "index contains invalid trailing JSON"

/-- A scan leaves the rest of the tokens if the keys are unique, and names one that is not otherwise. -/
def Scans (result : Except String (List Token)) (unique : Bool) (rest : List Token) : Prop :=
  if unique = true then result = .ok rest else ∃ key, result = .error (duplicateKey key)

theorem more_tokens (value : Json) (rest : List Token) : more (value.tokens ++ rest) = true := by
  cases value <;> simp [tokens, more]

theorem tokens_pos (value : Json) : 0 < value.tokens.length := by
  cases value <;> simp [tokens]

theorem memberTokens_pos (members : List (String × Json)) : 0 < (memberTokens members).length := by
  cases members <;> simp [memberTokens]

theorem itemTokens_pos (items : List Json) : 0 < (itemTokens items).length := by
  cases items with
  | nil => simp [itemTokens]
  | cons item items =>
    rw [itemTokens, List.length_append]
    exact Nat.add_pos_left (tokens_pos item) _

/-- A scan that goes on after a value. -/
theorem Scans.bind {result : Except String (List Token)} {unique later : Bool} {middle rest : List Token}
    {next : List Token → Except String (List Token)} (hfirst : Scans result unique middle)
    (hnext : Scans (next middle) later rest) : Scans (result >>= next) (unique && later) rest := by
  cases unique with
  | true =>
    have hok : result = .ok middle := hfirst
    rw [hok, Bool.true_and]
    exact hnext
  | false =>
    obtain ⟨key, hkey⟩ : ∃ key, result = .error (duplicateKey key) := hfirst
    rw [hkey, Bool.false_and]
    exact ⟨key, rfl⟩

/-- The members have keys of their own, none of which was seen before. -/
def freshMembers (seen : List String) (members : List (String × Json)) : Bool :=
  decide (members.map Prod.fst).Nodup && (members.all fun member ↦ decide (member.1 ∉ seen)) &&
    uniqueMembers members

theorem freshMembers_cons {seen : List String} {key : String} {value : Json} (hseen : key ∉ seen) :
    freshMembers seen ((key, value) :: members) = (value.uniqueKeys && freshMembers (key :: seen) members) := by
  rw [Bool.eq_iff_iff]
  simp only [freshMembers, uniqueMembers, List.map_cons, List.nodup_cons, List.all_cons, hseen,
    Bool.and_eq_true, decide_eq_true_eq, List.all_eq_true, List.mem_cons, not_or, not_false_eq_true, true_and,
    List.mem_map, not_exists, not_and]
  grind

mutual

theorem scans_tokens (value : Json) (fuel : Nat) (hfuel : value.tokens.length ≤ fuel) (rest : List Token) :
    Scans (scanJSONValue fuel (value.tokens ++ rest)) value.uniqueKeys rest := by
  obtain ⟨fuel, rfl⟩ := Nat.exists_eq_add_one_of_ne_zero ((tokens_pos value).trans_le hfuel).ne'
  cases value with
  | null => rfl
  | bool flag => rfl
  | number text => rfl
  | string text => rfl
  | array items =>
    have hitems := scans_itemTokens items fuel (Nat.le_of_succ_le_succ hfuel) rest
    exact hitems
  | object members =>
    have hmembers := scans_memberTokens members fuel [] (Nat.le_of_succ_le_succ hfuel) rest
    have hsame : freshMembers [] members = (object members).uniqueKeys := by
      have hall : (members.all fun _ ↦ true) = true := List.all_eq_true.mpr fun _ _ ↦ rfl
      simp [freshMembers, uniqueKeys, hall]
    rw [← hsame]
    exact hmembers

theorem scans_memberTokens (members : List (String × Json)) (fuel : Nat) (seen : List String)
    (hfuel : (memberTokens members).length ≤ fuel) (rest : List Token) :
    Scans (scanMembers fuel seen (memberTokens members ++ rest)) (freshMembers seen members) rest := by
  obtain ⟨fuel, rfl⟩ := Nat.exists_eq_add_one_of_ne_zero ((memberTokens_pos members).trans_le hfuel).ne'
  cases members with
  | nil => rfl
  | cons member members =>
    obtain ⟨key, value⟩ := member
    rw [memberTokens, List.length_cons, List.length_append] at hfuel
    have hvalue := scans_tokens value fuel (by omega) (memberTokens members ++ rest)
    have hmembers := scans_memberTokens members fuel (key :: seen) (by omega) rest
    by_cases hseen : key ∈ seen
    · have hfails : freshMembers seen ((key, value) :: members) = false := by
        simp [freshMembers, hseen]
      rw [hfails]
      refine ⟨key, ?_⟩
      simp [memberTokens, scanMembers, more, hseen]
    · rw [freshMembers_cons hseen]
      have hbind := hvalue.bind hmembers
      simpa [memberTokens, scanMembers, more, hseen] using hbind

theorem scans_itemTokens (items : List Json) (fuel : Nat) (hfuel : (itemTokens items).length ≤ fuel)
    (rest : List Token) :
    Scans (scanItems fuel (itemTokens items ++ rest)) (uniqueItems items) rest := by
  obtain ⟨fuel, rfl⟩ := Nat.exists_eq_add_one_of_ne_zero ((itemTokens_pos items).trans_le hfuel).ne'
  cases items with
  | nil => rfl
  | cons item items =>
    have hpos := itemTokens_pos items
    have htokens := tokens_pos item
    rw [itemTokens, List.length_append] at hfuel
    have hitem := scans_tokens item fuel (by omega) (itemTokens items ++ rest)
    have hitems := scans_itemTokens items fuel (by omega) rest
    have hbind := hitem.bind hitems
    simpa [itemTokens, scanItems, more_tokens, uniqueItems] using hbind

end

/-- The scan accepts exactly the values in which no object repeats a key. -/
theorem rejectDuplicateJSONKeys_tokens (value : Json) :
    rejectDuplicateJSONKeys value.tokens = .ok () ↔ value.uniqueKeys = true := by
  have hscans := scans_tokens value value.tokens.length le_rfl []
  rw [List.append_nil] at hscans
  unfold rejectDuplicateJSONKeys
  cases hunique : value.uniqueKeys with
  | true =>
    rw [hunique] at hscans
    have hok : scanJSONValue value.tokens.length value.tokens = .ok [] := hscans
    simp [hok]
  | false =>
    rw [hunique] at hscans
    obtain ⟨key, hkey⟩ : ∃ key, scanJSONValue value.tokens.length value.tokens =
      .error (duplicateKey key) := hscans
    simp [hkey]

/-! ## What a body says -/

/-- The text that a member gives to a field. -/
def fieldText (field : String) (member : String × Json) : Option String :=
  if foldName member.1 = foldName field then
    match member.2 with
    | .string value => some value
    | _ => none
  else none

/-- A member names a field and holds a text, or nothing. -/
def Readable (member : String × Json) : Prop :=
  (foldName member.1 = foldName "pod" ∨ foldName member.1 = foldName "service") ∧
    (member.2 = .null ∨ ∃ value, member.2 = .string value)

theorem foldName_service_ne : foldName "service" ≠ foldName "pod" := by decide

theorem decodeMember_eq_ok {result : IndexDeployment} :
    decodeMember deployment member = .ok result ↔ Readable member ∧
      result = ⟨(fieldText "pod" member).getD deployment.pod,
        (fieldText "service" member).getD deployment.service⟩ := by
  obtain ⟨name, value⟩ := member
  by_cases hpod : foldName name = foldName "pod"
  · cases value <;>
      simp [decodeMember, decodeString, fieldText, Readable, hpod, foldName_service_ne.symm, eq_comm]
  · by_cases hservice : foldName name = foldName "service"
    · cases value <;>
        simp [decodeMember, decodeString, fieldText, Readable, hservice, foldName_service_ne.symm, eq_comm]
    · simp [decodeMember, Readable, hpod, hservice]

/-- The last text that the members give to a field. -/
def lastText (field : String) (members : List (String × Json)) (current : String) : String :=
  (members.filterMap (fieldText field)).getLast?.getD current

theorem lastText_cons (field : String) (member : String × Json) (members : List (String × Json))
    (current : String) :
    lastText field (member :: members) current =
      lastText field members ((fieldText field member).getD current) := by
  unfold lastText
  cases htext : fieldText field member with
  | none => rw [List.filterMap_cons_none htext, Option.getD_none]
  | some value =>
    rw [List.filterMap_cons_some htext, List.getLast?_cons]
    rfl

theorem decodeMembers_eq_ok {result : IndexDeployment} :
    members.foldlM decodeMember deployment = .ok result ↔ (∀ member ∈ members, Readable member) ∧
      result = ⟨lastText "pod" members deployment.pod, lastText "service" members deployment.service⟩ := by
  induction members generalizing deployment with
  | nil => simp [lastText, pure, Except.pure, eq_comm]
  | cons member members ih =>
    rw [List.foldlM_cons, bind_eq_ok]
    simp only [decodeMember_eq_ok, ih, lastText_cons, List.mem_cons, forall_eq_or_imp]
    constructor
    · rintro ⟨next, ⟨hmember, rfl⟩, hmembers, rfl⟩
      exact ⟨⟨hmember, hmembers⟩, rfl⟩
    · rintro ⟨⟨hmember, hmembers⟩, rfl⟩
      exact ⟨_, ⟨hmember, rfl⟩, hmembers, rfl⟩

/-- A member that comes last decides its field. -/
theorem lastText_append_singleton {field text : String} (htext : fieldText field member = some text)
    (members : List (String × Json)) (current : String) :
    lastText field (members ++ [member]) current = text := by
  simp [lastText, List.filterMap_append, htext]

/-- Members for one field agree on its text. -/
def Agree (members : List (String × Json)) : Prop :=
  ∀ left ∈ members, ∀ right ∈ members, ∀ first second, left.2 = .string first → right.2 = .string second →
    foldName left.1 = foldName right.1 → first = second

theorem Agree.perm (hagree : Agree members) (hperm : members.Perm others) :
    Agree others :=
  fun left hleft right hright ↦ hagree left (hperm.mem_iff.mpr hleft) right (hperm.mem_iff.mpr hright)

theorem fieldText_eq_some {field text : String} :
    fieldText field member = some text ↔ foldName member.1 = foldName field ∧ member.2 = .string text := by
  unfold fieldText
  split_ifs with hname
  · cases hvalue : member.2 <;> simp [hname]
  · simp [hname]

theorem getLast?_eq_of_mem {Item : Type*} {left right : List Item} (hmem : ∀ item, item ∈ left ↔ item ∈ right)
    (hsame : ∀ first ∈ left, ∀ second ∈ left, first = second) : left.getLast? = right.getLast? := by
  cases hleft : left.getLast? with
  | none =>
    have hempty : right = [] := by
      rw [List.eq_nil_iff_forall_not_mem]
      intro item hitem
      rw [List.getLast?_eq_none_iff.mp hleft] at hmem
      exact absurd ((hmem item).mpr hitem) (List.not_mem_nil)
    rw [hempty, List.getLast?_nil]
  | some first =>
    cases hright : right.getLast? with
    | none =>
      have hempty := List.getLast?_eq_none_iff.mp hright
      rw [hempty] at hmem
      exact absurd ((hmem first).mp (List.mem_of_getLast? hleft)) List.not_mem_nil
    | some second =>
      rw [hsame first (List.mem_of_getLast? hleft) second ((hmem second).mpr (List.mem_of_getLast? hright))]

/-- Where the members agree, their order does not matter. -/
theorem lastText_perm (hagree : Agree members) (hperm : members.Perm others) (field current : String) :
    lastText field members current = lastText field others current := by
  unfold lastText
  rw [getLast?_eq_of_mem (fun text ↦ (hperm.filterMap _).mem_iff) fun first hfirst second hsecond ↦ ?_]
  obtain ⟨left, hleft, hfirst⟩ := List.mem_filterMap.mp hfirst
  obtain ⟨right, hright, hsecond⟩ := List.mem_filterMap.mp hsecond
  obtain ⟨hleftName, hleftText⟩ := fieldText_eq_some.mp hfirst
  obtain ⟨hrightName, hrightText⟩ := fieldText_eq_some.mp hsecond
  exact hagree left hleft right hright first second hleftText hrightText (hleftName.trans hrightName.symm)

theorem decodeDeployment_perm (hagree : Agree members) (hperm : members.Perm others)
    (hdecodes : decodeDeployment (.object members) = .ok deployment) :
    decodeDeployment (.object others) = .ok deployment := by
  obtain ⟨hreadable, hresult⟩ := decodeMembers_eq_ok.mp hdecodes
  refine decodeMembers_eq_ok.mpr ⟨fun member hmember ↦ hreadable member (hperm.mem_iff.mpr hmember), ?_⟩
  rw [hresult, lastText_perm hagree hperm, lastText_perm hagree hperm]

/-! ## Reading a whole body -/

theorem uniqueMembers_iff :
    uniqueMembers members = true ↔ ∀ member ∈ members, member.2.uniqueKeys = true := by
  induction members with
  | nil => simp [uniqueMembers]
  | cons member members ih =>
    obtain ⟨key, value⟩ := member
    simp [uniqueMembers, ih]

theorem uniqueKeys_object :
    (object members).uniqueKeys = true ↔
      (members.map Prod.fst).Nodup ∧ ∀ member ∈ members, member.2.uniqueKeys = true := by
  rw [uniqueKeys, Bool.and_eq_true, decide_eq_true_eq, uniqueMembers_iff]

/-- The entries of a body that decodes. -/
structure Reads (members : List (String × Json)) (index : Index) : Prop where
  entries : ∀ member ∈ members, ∃ deployment, decodeDeployment member.2 = .ok deployment ∧
    index.lookup member.1 = some deployment
  only : ∀ key, key ∉ members.map Prod.fst → index.lookup key = none

theorem reads_of_decodeEntries {start : Index} (hnodup : (members.map Prod.fst).Nodup)
    (hdecodes : members.foldlM decodeEntry start = .ok index) :
    (∀ member ∈ members, ∃ deployment, decodeDeployment member.2 = .ok deployment ∧
        index.lookup member.1 = some deployment) ∧
      ∀ key, key ∉ members.map Prod.fst → index.lookup key = start.lookup key := by
  induction members generalizing start with
  | nil =>
    cases hdecodes
    simp
  | cons member members ih =>
    rw [List.map_cons, List.nodup_cons] at hnodup
    obtain ⟨next, hentry, hrest⟩ := bind_eq_ok.mp hdecodes
    obtain ⟨deployment, hdeployment, hnext⟩ := bind_eq_ok.mp hentry
    cases hnext
    obtain ⟨hentries, hother⟩ := ih hnodup.2 hrest
    refine ⟨fun stored hstored ↦ ?_, fun key hkey ↦ ?_⟩
    · rcases List.mem_cons.mp hstored with rfl | hlater
      · refine ⟨deployment, hdeployment, ?_⟩
        rw [hother stored.1 hnodup.1, GoMap.lookup_insert_eq, if_pos rfl]
      · exact hentries stored hlater
    · rw [List.map_cons, List.mem_cons, not_or] at hkey
      rw [hother key hkey.2, GoMap.lookup_insert_eq, if_neg hkey.1]

/-- Two readings of the same entries are the same. -/
theorem Reads.lookup_eq {other : Index} (hreads : Reads members index) (hothers : Reads others other)
    (hkeys : (members.map Prod.fst).Perm (others.map Prod.fst))
    (hsame : ∀ member ∈ members, ∃ second ∈ others, second.1 = member.1 ∧
      decodeDeployment second.2 = decodeDeployment member.2)
    (key : String) :
    other.lookup key = index.lookup key := by
  by_cases hkey : key ∈ members.map Prod.fst
  · obtain ⟨member, hmember, rfl⟩ := List.mem_map.mp hkey
    obtain ⟨deployment, hdecodes, hlookup⟩ := hreads.entries member hmember
    obtain ⟨second, hsecond, hname, hvalue⟩ := hsame member hmember
    obtain ⟨given, hgiven, hgivenLookup⟩ := hothers.entries second hsecond
    rw [hvalue, hdecodes] at hgiven
    cases hgiven
    rw [hlookup, ← hname, hgivenLookup]
  · rw [hreads.only key hkey, hothers.only key fun hin ↦ hkey (hkeys.mem_iff.mpr hin)]

/-- A body is accepted exactly when it is an object with unique keys whose entries decode to a valid index. -/
theorem parseIndex_object :
    parseIndex (some (.object members)) = .ok index ↔
      (object members).uniqueKeys = true ∧ members.foldlM decodeEntry ∅ = .ok index ∧
        ValidIndex index := by
  rw [parseIndex_eq_ok]
  simp only [Option.some.injEq, exists_eq_left', decodeIndex]
  refine and_congr_right fun _ ↦ and_congr_left fun _ ↦ ?_
  cases members.foldlM decodeEntry ∅ with
  | error message => simp
  | ok decoded => simp

theorem exists_object_of_parseIndex (hparse : parseIndex (some body) = .ok index) :
    ∃ members, body = .object members := by
  obtain ⟨value, hvalue, _, hdecode, _⟩ := parseIndex_eq_ok.mp hparse
  cases hvalue
  cases body with
  | object members => exact ⟨members, rfl⟩
  | _ => cases hdecode

theorem reads_of_parseIndex (hparse : parseIndex (some (.object members)) = .ok index) :
    Reads members index := by
  obtain ⟨hunique, hdecodes, _⟩ := parseIndex_object.mp hparse
  obtain ⟨hentries, honly⟩ := reads_of_decodeEntries (uniqueKeys_object.mp hunique).1 hdecodes
  exact ⟨hentries, fun key hkey ↦ (honly key hkey).trans (AList.lookup_empty key)⟩

/-- A body with the entries of an accepted one is accepted, and has the same reading. -/
theorem parseIndex_of_same_entries (hparse : parseIndex (some (.object members)) = .ok index)
    (hunique : (object others).uniqueKeys = true)
    (hkeys : (members.map Prod.fst).Perm (others.map Prod.fst))
    (hforth : ∀ member ∈ members, ∃ second ∈ others, second.1 = member.1 ∧
      decodeDeployment second.2 = decodeDeployment member.2)
    (hback : ∀ second ∈ others, ∃ member ∈ members, decodeDeployment second.2 = decodeDeployment member.2) :
    ∃ other, parseIndex (some (.object others)) = .ok other ∧ ∀ key, other.lookup key = index.lookup key := by
  have hreads := reads_of_parseIndex hparse
  obtain ⟨other, hdecodes⟩ := @foldlM_total _ _ _ decodeEntry others (fun second hsecond state ↦ by
    obtain ⟨member, hmember, hsame⟩ := hback second hsecond
    obtain ⟨deployment, hdeployment, _⟩ := hreads.entries member hmember
    refine ⟨state.insert second.1 deployment, ?_⟩
    rw [decodeEntry, hsame, hdeployment]
    rfl) ∅
  obtain ⟨hentries, honly⟩ := reads_of_decodeEntries (uniqueKeys_object.mp hunique).1 hdecodes
  have hothers : Reads others other :=
    ⟨hentries, fun key hkey ↦ (honly key hkey).trans (AList.lookup_empty key)⟩
  have hlookup := hreads.lookup_eq hothers hkeys hforth
  exact ⟨other, parseIndex_object.mpr
    ⟨hunique, hdecodes, (parseIndex_object.mp hparse).2.2.congr hlookup⟩, hlookup⟩

/-! ## Reordering -/

/-- The members of one object, at any depth, are permuted. -/
inductive Json.Reorders : Json → Json → Prop
  | here {members others : List (String × Json)} (hperm : members.Perm others) :
    Reorders (.object members) (.object others)
  | member {front back : List (String × Json)} {key : String} {value other : Json}
      (hvalue : Reorders value other) :
    Reorders (.object (front ++ (key, value) :: back)) (.object (front ++ (key, other) :: back))
  | item {front back : List Json} {value other : Json} (hvalue : Reorders value other) :
    Reorders (.array (front ++ value :: back)) (.array (front ++ other :: back))

/-- In every entry, members for one field agree on its text. -/
def EntriesAgree (body : Json) : Prop :=
  ∀ members, body = .object members → ∀ key fields, (key, .object fields) ∈ members → Agree fields

/-- An entry that decodes is reordered at its own level only. -/
theorem reorders_entry {value : Json} (hdecodes : decodeDeployment value = .ok deployment)
    (hreorders : Reorders value other) :
    ∃ fields permuted, value = .object fields ∧ other = .object permuted ∧ fields.Perm permuted := by
  cases hreorders with
  | here hperm => exact ⟨_, _, rfl, rfl, hperm⟩
  | item hvalue => cases hdecodes
  | @member front back key inner changed hvalue =>
    obtain ⟨hreadable, _⟩ := decodeMembers_eq_ok.mp hdecodes
    have hinner : Readable (key, inner) := hreadable _ (by simp)
    rcases hinner.2 with hnull | ⟨text, htext⟩
    · rw [show inner = .null from hnull] at hvalue
      cases hvalue
    · rw [show inner = .string text from htext] at hvalue
      cases hvalue

theorem uniqueKeys_perm {fields permuted : List (String × Json)} (hperm : fields.Perm permuted)
    (hunique : (object fields).uniqueKeys = true) : (object permuted).uniqueKeys = true := by
  obtain ⟨hnodup, hmembers⟩ := uniqueKeys_object.mp hunique
  exact uniqueKeys_object.mpr ⟨(hperm.map _).nodup_iff.mp hnodup,
    fun member hmember ↦ hmembers member (hperm.mem_iff.mpr hmember)⟩

/-- One reordering of an accepted body whose entries agree. -/
theorem parseIndex_reorders (hparse : parseIndex (some body) = .ok index) (hagree : EntriesAgree body)
    (hreorders : Reorders body other) :
    EntriesAgree other ∧ ∃ parsed, parseIndex (some other) = .ok parsed ∧
      ∀ key, parsed.lookup key = index.lookup key := by
  cases hreorders with
  | item hvalue =>
    obtain ⟨members, hmembers⟩ := exists_object_of_parseIndex hparse
    cases hmembers
  | @here members others hperm =>
    refine ⟨fun permuted hpermuted key fields hfields ↦ ?_, ?_⟩
    · cases hpermuted
      exact hagree members rfl key fields (hperm.mem_iff.mpr hfields)
    · refine parseIndex_of_same_entries hparse (uniqueKeys_perm hperm (parseIndex_object.mp hparse).1)
        (hperm.map _) (fun member hmember ↦ ⟨member, hperm.mem_iff.mp hmember, rfl, rfl⟩)
        (fun member hmember ↦ ⟨member, hperm.mem_iff.mpr hmember, rfl⟩)
  | @member front back key value changed hvalue =>
    obtain ⟨deployment, hdecodes, _⟩ := (reads_of_parseIndex hparse).entries (key, value) (by simp)
    obtain ⟨fields, permuted, rfl, rfl, hperm⟩ := reorders_entry hdecodes hvalue
    have hfields : Agree fields := hagree _ rfl key fields (by simp)
    have hsame : decodeDeployment (.object permuted) = decodeDeployment (.object fields) :=
      (decodeDeployment_perm hfields hperm hdecodes).trans hdecodes.symm
    obtain ⟨hnodup, hmembers⟩ := uniqueKeys_object.mp (parseIndex_object.mp hparse).1
    refine ⟨fun members hpermuted name inner hinner ↦ ?_, ?_⟩
    · cases hpermuted
      rcases List.mem_append.mp hinner with hfront | hback
      · exact hagree _ rfl name inner (List.mem_append_left _ hfront)
      · rcases List.mem_cons.mp hback with hhere | hlater
        · cases hhere
          exact hfields.perm hperm
        · exact hagree _ rfl name inner (List.mem_append_right _ (List.mem_cons_of_mem _ hlater))
    · refine parseIndex_of_same_entries hparse (uniqueKeys_object.mpr ⟨?_, fun member hmember ↦ ?_⟩) ?_
        (fun member hmember ↦ ?_) (fun member hmember ↦ ?_)
      · simpa using hnodup
      · rcases List.mem_append.mp hmember with hfront | hback
        · exact hmembers member (List.mem_append_left _ hfront)
        · rcases List.mem_cons.mp hback with rfl | hlater
          · exact uniqueKeys_perm hperm (hmembers (key, .object fields) (by simp))
          · exact hmembers member (List.mem_append_right _ (List.mem_cons_of_mem _ hlater))
      · simp
      · rcases List.mem_append.mp hmember with hfront | hback
        · exact ⟨member, List.mem_append_left _ hfront, rfl, rfl⟩
        · rcases List.mem_cons.mp hback with rfl | hlater
          · exact ⟨(key, .object permuted), by simp, rfl, hsame⟩
          · exact ⟨member, List.mem_append_right _ (List.mem_cons_of_mem _ hlater), rfl, rfl⟩
      · rcases List.mem_append.mp hmember with hfront | hback
        · exact ⟨member, List.mem_append_left _ hfront, rfl⟩
        · rcases List.mem_cons.mp hback with rfl | hlater
          · exact ⟨(key, .object fields), by simp, hsame⟩
          · exact ⟨member, List.mem_append_right _ (List.mem_cons_of_mem _ hlater), rfl⟩

/-- Any number of reorderings. -/
theorem parseIndex_reordered (hparse : parseIndex (some body) = .ok index) (hagree : EntriesAgree body)
    (hreorders : Relation.ReflTransGen Reorders body other) :
    EntriesAgree other ∧ ∃ parsed, parseIndex (some other) = .ok parsed ∧
      ∀ key, parsed.lookup key = index.lookup key := by
  induction hreorders with
  | refl => exact ⟨hagree, index, hparse, fun _ ↦ rfl⟩
  | tail _ hstep ih =>
    obtain ⟨hbetween, parsed, hparsed, hsame⟩ := ih
    obtain ⟨hafter, final, hfinal, hlast⟩ := parseIndex_reorders hparsed hbetween hstep
    exact ⟨hafter, final, hfinal, fun key ↦ (hlast key).trans (hsame key)⟩

/-- A body has one reading: no order of the members of its objects changes it, and its index is read back from
its canonical body. -/
structure OneReading (body : Json) (index : Index) : Prop where
  reordered : ∀ other, Relation.ReflTransGen Reorders body other →
    ∃ parsed, parseIndex (some other) = .ok parsed ∧ ∀ key, parsed.lookup key = index.lookup key
  marshalled : ∃ canonical, marshalIndex index = .ok canonical ∧
    ∃ parsed, parseIndex canonical = .ok parsed ∧ ∀ key, parsed.lookup key = index.lookup key

/-- Put a member of an entry last: it then gives its field the text that the reading has. -/
theorem OneReading.fieldText_eq (hreading : OneReading (.object members) index) {key : String}
    {fields : List (String × Json)} (hentry : (key, .object fields) ∈ members) (hmember : member ∈ fields) :
    ∃ deployment, index.lookup key = some deployment ∧
      (∀ text, fieldText "pod" member = some text → deployment.pod = text) ∧
      ∀ text, fieldText "service" member = some text → deployment.service = text := by
  obtain ⟨front, back, rfl⟩ := List.append_of_mem hentry
  obtain ⟨before, after, rfl⟩ := List.append_of_mem hmember
  have hperm : (before ++ member :: after).Perm (before ++ after ++ [member]) := by
    rw [List.append_assoc]
    exact (List.perm_append_singleton member after).symm.append_left before
  obtain ⟨parsed, hparsed, hsame⟩ := hreading.reordered _ (.single (.member (.here hperm)))
  obtain ⟨deployment, hdecodes, hlookup⟩ :=
    (reads_of_parseIndex hparsed).entries (key, .object (before ++ after ++ [member])) (by simp)
  obtain ⟨_, rfl⟩ := decodeMembers_eq_ok.mp hdecodes
  refine ⟨_, (hsame key).symm.trans hlookup, fun text htext ↦ ?_, fun text htext ↦ ?_⟩
  · exact lastText_append_singleton htext _ _
  · exact lastText_append_singleton htext _ _

/-- An accepted body has one reading exactly when the members of its entries agree on every field. -/
theorem oneReading_iff {body : Json} {index : Index} (hparse : parseIndex (some body) = .ok index) :
    OneReading body index ↔ EntriesAgree body := by
  constructor
  · intro hreading members hbody key fields hentry left hleft right hright first second hfirst hsecond hname
    subst hbody
    obtain ⟨deployment, hlookup, hleftPod, hleftService⟩ := hreading.fieldText_eq hentry hleft
    obtain ⟨same, hsame, hrightPod, hrightService⟩ := hreading.fieldText_eq hentry hright
    rw [hlookup] at hsame
    cases hsame
    -- the names are those of one of the two fields
    obtain ⟨entry, hdecodes, _⟩ := (reads_of_parseIndex hparse).entries (key, .object fields) hentry
    have hreadable : Readable left := (decodeMembers_eq_ok.mp hdecodes).1 left hleft
    rcases hreadable.1 with hpod | hservice
    · rw [← hleftPod first (fieldText_eq_some.mpr ⟨hpod, hfirst⟩),
        hrightPod second (fieldText_eq_some.mpr ⟨hname.symm.trans hpod, hsecond⟩)]
    · rw [← hleftService first (fieldText_eq_some.mpr ⟨hservice, hfirst⟩),
        hrightService second (fieldText_eq_some.mpr ⟨hname.symm.trans hservice, hsecond⟩)]
  · intro hagree
    obtain ⟨_, _, _, _, hvalid⟩ := parseIndex_eq_ok.mp hparse
    refine ⟨fun other hreorders ↦ (parseIndex_reordered hparse hagree hreorders).2, ?_⟩
    exact ⟨_, marshalIndex_of_valid hvalid, _, parseIndex_encodeIndex hvalid, lookup_sorted_pairs index⟩

/-- The path of a Pod of the NodeGroup `web`. -/
def examplePod (digit : Char) : String :=
  "nodegroups/web/pods/sha512/" ++ String.ofList (List.replicate 128 digit) ++ ".yaml"

theorem podObject_examplePod {digit : Char} (hdigit : Sha512.isLowerHex digit = true) :
    podObject (examplePod digit) "web" = true := by
  obtain ⟨hhex, hlower, hslash⟩ := isHexDigit_of_isLowerHex hdigit
  obtain ⟨name, hname, hchars⟩ : ∃ name, examplePod digit = "nodegroups/web/pods/sha512/" ++ name ++ ".yaml" ∧
      name.toList = List.replicate 128 digit := ⟨_, rfl, String.toList_ofList⟩
  have hkey : "nodegroups/web/pods/sha512/" ++ name ++ ".yaml" =
      Text.join '/' ["nodegroups", "web", "pods", "sha512", name ++ ".yaml"] := by
    apply String.toList_injective
    simp [Text.join, List.intercalate]
  have hparts : ∀ part ∈ ["nodegroups", "web", "pods", "sha512", name ++ ".yaml"], '/' ∉ part.toList := by
    simp [hchars, hslash.symm]
  have hcase : isLowerCase name = true := by
    rw [isLowerCase, hchars, List.all_replicate, hlower]
    rfl
  rw [hname, podObject, objectDigest, hkey, Text.split_join (by simp) hparts]
  simp [Text.trimSuffix_append, Text.hasSuffix_append, hcase, hchars, hhex]

/-- A body with one deployment, which has two spellings of one field. -/
def spelledBody (second : Char) : Json :=
  .object [("web/web", .object [("pod", .string (examplePod '0')), ("Pod", .string (examplePod second))])]

theorem parseIndex_spelledBody {second : Char} (hsecond : Sha512.isLowerHex second = true) :
    parseIndex (some (spelledBody second)) = .ok (AList.insert "web/web" ⟨examplePod second, ""⟩ ∅) := by
  have hspelling : foldName "Pod" = foldName "pod" := by decide
  have hdecodes : [("pod", string (examplePod '0')), ("Pod", .string (examplePod second))].foldlM
      decodeMember ⟨"", ""⟩ = .ok ⟨examplePod second, ""⟩ :=
    decodeMembers_eq_ok.mpr ⟨by simp [Readable, hspelling],
      by simp [lastText, fieldText, hspelling, foldName_service_ne.symm]⟩
  have hentry : ValidEntry "web/web" ⟨examplePod second, ""⟩ :=
    ⟨"web", "web", by decide, podObject_examplePod hsecond, fun hservice ↦ absurd rfl hservice⟩
  refine parseIndex_object.mpr ⟨by simp [uniqueKeys, uniqueMembers], ?_, hentry.single⟩
  simp [decodeEntry, decodeDeployment, hdecodes]

/-- Two spellings of one field that agree. -/
theorem oneReading_iff_spellings :
    parseIndex (some (spelledBody '0')) = .ok (AList.insert "web/web" ⟨examplePod '0', ""⟩ ∅) ∧
      OneReading (spelledBody '0') (AList.insert "web/web" ⟨examplePod '0', ""⟩ ∅) := by
  have hparse := @parseIndex_spelledBody '0' (by decide)
  refine ⟨hparse, (oneReading_iff hparse).mpr ?_⟩
  intro members hbody key fields hentry left hleft right hright first second hfirst hsecond _
  cases hbody
  cases List.mem_singleton.mp hentry
  have htext : ∀ member ∈ [("pod", string (examplePod '0')), ("Pod", .string (examplePod '0'))],
      member.2 = .string (examplePod '0') := by simp
  exact string.inj ((hfirst.symm.trans (htext left hleft)).trans ((htext right hright).symm.trans hsecond))

/-- Two spellings of one field that differ: the body is accepted, and its reading depends on their order. -/
theorem spellings_depend_on_order :
    ∃ body index, parseIndex (some body) = .ok index ∧ ¬OneReading body index := by
  have hparse := @parseIndex_spelledBody '1' (by decide)
  refine ⟨_, _, hparse, fun hreading ↦ ?_⟩
  obtain ⟨deployment, hlookup, hfirst, _⟩ := hreading.fieldText_eq List.mem_cons_self
    (@List.mem_cons_self _ ("pod", string (examplePod '0')) _)
  rw [GoMap.lookup_insert_eq, if_pos rfl] at hlookup
  cases hlookup
  have hsame : examplePod '1' = examplePod '0' := hfirst _ (fieldText_eq_some.mpr ⟨rfl, rfl⟩)
  exact absurd hsame (by decide +kernel)

end Podmin.Manifest
