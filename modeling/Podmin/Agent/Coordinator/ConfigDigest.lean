import Mathlib.Data.Fintype.Defs
import Podmin.Agent.Coordinator.HonestReport
import Podmin.Foundation.Framing
import Podmin.Manifest.Canonical

/-!
# What the configuration digest identifies

The digest is taken of all fields of the sorted Services, each terminated by a NUL. Selectors are written as
`key=value` and ports with slashes. The parser restricts neither the characters of selectors nor those of port
names, so a text may be read in more than one way. The digest identifies the Services exactly when no NUL occurs
in these places, no equals sign in port names, and none in selector keys or none in selector values.
-/

namespace Podmin.Agent.Coordination

open Foundation Manifest Agent.Service Framing

variable {selector : GoMap String String} {left right : List Manifest.Service} {char : Char}

/-! ## A Service as the digest sees it -/

/-- Selectors are in the order of their keys. -/
structure Configured where
  ns : String
  name : String
  selector : List (String × String)
  ports : List ServicePort
  deriving DecidableEq

def sortedSelector (selector : GoMap String String) : List (String × String) :=
  (sortSlice (fun left right ↦ decide (left < right)) selector.keys).map fun key ↦
    (key, (selector.lookup key).getD "")

def configured (service : Manifest.Service) : Configured :=
  ⟨service.ns, service.name, sortedSelector service.selector, service.ports⟩

def selectorField (entry : String × String) : String :=
  entry.1 ++ "=" ++ entry.2

def portField (port : ServicePort) : String :=
  port.name ++ "/" ++ port.protocol ++ "/" ++ toString port.port ++ "/" ++ toString port.targetPort

def Configured.header (service : Configured) : List String :=
  [service.ns, service.name]

def Configured.body (service : Configured) : List String :=
  service.selector.map selectorField ++ service.ports.map portField

def Configured.fields (service : Configured) : List String :=
  service.header ++ service.body

/-- What is hashed. -/
def digestInput (services : List Manifest.Service) : String :=
  String.join ((sortedDesired services).map digestText)

theorem digestDesired_eq (services : List Manifest.Service) :
    digestDesired services = sha512Hex (digestInput services) := rfl

theorem terminated_map {Item : Type*} (field : Item → String) (items : List Item) :
    terminated '\x00' (items.map field) = String.join (items.map fun item ↦ field item ++ "\x00") := by
  rw [terminated, List.map_map]
  rfl

theorem digestText_eq (service : Manifest.Service) :
    digestText service = terminated '\x00' (configured service).fields := by
  have hselector : terminated '\x00' ((configured service).selector.map selectorField) =
      String.join ((sortSlice (fun left right ↦ decide (left < right)) service.selector.keys).map fun key ↦
        key ++ "=" ++ (service.selector.lookup key).getD "" ++ "\x00") := by
    rw [terminated_map, configured, sortedSelector, List.map_map]
    rfl
  rw [Configured.fields, Configured.header, Configured.body, List.cons_append, List.cons_append,
    List.nil_append,
    terminated_cons, terminated_cons, terminated_append, hselector, terminated_map,
    digestText]
  simp only [String.append_assoc, portField, configured, nul_eq_singleton]

theorem digestInput_eq (services : List Manifest.Service) :
    digestInput services =
      terminated '\x00' (((sortedDesired services).map configured).flatMap Configured.fields) := by
  have htexts : (sortedDesired services).map digestText =
    ((sortedDesired services).map configured).map fun service ↦
      terminated '\x00' service.fields := by
    rw [List.map_map]
    exact List.map_congr_left fun service _ ↦ digestText_eq service
  rw [digestInput, htexts, terminated_flatMap]

/-! ## The same Services -/

/-- The same Services in any order. -/
def SameServices (left right : List Manifest.Service) : Prop :=
  ∃ middle : List Manifest.Service, left.Perm middle ∧ List.Forall₂ SameService middle right

theorem mem_sortedSelector {key value : String} :
    (key, value) ∈ sortedSelector selector ↔ selector.lookup key = some value := by
  rw [sortedSelector, List.mem_map]
  constructor
  · rintro ⟨other, hother, hentry⟩
    obtain ⟨rfl, rfl⟩ := Prod.mk.inj hentry
    obtain ⟨stored, hstored⟩ := Option.isSome_iff_exists.mp
      (AList.lookup_isSome.mpr (AList.mem_keys.mpr (mem_sortSlice.mp hother)))
    rw [hstored, Option.getD_some]
  · intro hlookup
    have hkey : key ∈ selector.keys := by
      rw [← AList.mem_keys, ← AList.lookup_isSome, hlookup]
      rfl
    exact ⟨key, mem_sortSlice.mpr hkey, by rw [hlookup, Option.getD_some]⟩

theorem sortedSelector_congr {left right : GoMap String String}
    (hsame : ∀ key, left.lookup key = right.lookup key) : sortedSelector left = sortedSelector right := by
  have hkeys : left.keys.Perm right.keys := by
    rw [List.perm_ext_iff_of_nodup left.keys_nodup right.keys_nodup]
    intro key
    rw [← AList.mem_keys, ← AList.mem_keys, ← AList.lookup_isSome, ← AList.lookup_isSome, hsame]
  have hsorted := @sortSlice_congr _ _ _ (fun left right : String ↦ decide (left < right)) id (fun _ _ ↦ rfl)
    left.keys right.keys (fun _ _ _ _ hkey ↦ hkey) hkeys
  rw [sortedSelector, sortedSelector, hsorted]
  exact List.map_congr_left fun key _ ↦ by rw [hsame]

theorem configured_eq_iff {left right : Manifest.Service} :
    configured left = configured right ↔ SameService left right := by
  constructor
  · intro hsame
    obtain ⟨hns, hname, hselector, hports⟩ := Configured.mk.inj hsame
    refine ⟨hname, hns, fun key ↦ ?_, hports⟩
    ext value
    rw [← mem_sortedSelector, ← mem_sortedSelector, hselector]
  · intro hsame
    rw [configured, configured, hsame.ns, hsame.name, sortedSelector_congr hsame.selector, hsame.ports]

theorem map_configured_of_same (hsame : List.Forall₂ SameService left right) :
    left.map configured = right.map configured := by
  induction hsame with
  | nil => rfl
  | cons hfirst _ ih => rw [List.map_cons, List.map_cons, configured_eq_iff.mpr hfirst, ih]

theorem sameServices_iff_perm :
    SameServices left right ↔ (left.map configured).Perm (right.map configured) := by
  constructor
  · rintro ⟨middle, hperm, hsame⟩
    rw [← map_configured_of_same hsame]
    exact hperm.map configured
  · intro hperm
    have hleft : List.Forall₂ (fun service seen ↦ seen = configured service) left (left.map configured) :=
      List.forall₂_map_right_iff.mpr (List.forall₂_same.mpr fun _ _ ↦ rfl)
    have hcomp : Relation.Comp (List.Forall₂ fun service seen ↦ seen = configured service) List.Perm left
        (right.map configured) := ⟨_, hleft, hperm⟩
    rw [List.forall₂_comp_perm_eq_perm_comp_forall₂] at hcomp
    obtain ⟨middle, hmiddle, hseen⟩ := hcomp
    refine ⟨middle, hmiddle, (List.forall₂_map_right_iff.mp hseen).imp fun _ _ hsame ↦ ?_⟩
    exact configured_eq_iff.mp hsame.symm

/-- Distinct Services are the same in any order exactly when they are the same once sorted. -/
theorem sameServices_iff_sorted (hleft : (left.map fun service ↦ (service.ns, service.name)).Nodup)
    (hright : (right.map fun service ↦ (service.ns, service.name)).Nodup) :
    SameServices left right ↔ (sortedDesired left).map configured = (sortedDesired right).map configured := by
  have hsortedLeft : ((sortedDesired left).map configured).Perm (left.map configured) :=
    (sortSlice_perm desiredLess left).map configured
  have hsortedRight : ((sortedDesired right).map configured).Perm (right.map configured) :=
    (sortSlice_perm desiredLess right).map configured
  rw [sameServices_iff_perm]
  constructor
  · intro hperm
    let ascends : Configured → Configured → Prop := fun first second ↦
      toLex (first.ns, first.name) < toLex (second.ns, second.name)
    have hascends : ∀ {services : List Manifest.Service},
        (services.map fun service ↦ (service.ns, service.name)).Nodup →
          ((sortedDesired services).map configured).Pairwise ascends := fun hdistinct ↦
      List.pairwise_map.mpr (sortedDesired_ascending hdistinct)
    refine List.Perm.eq_of_pairwise (fun first second _ _ hless hgreater ↦ ?_) (hascends hleft)
      (hascends hright)
      (hsortedLeft.trans (hperm.trans hsortedRight.symm))
    exact absurd hgreater (lt_asymm hless)
  · intro hsame
    exact hsortedLeft.symm.trans (hsame ▸ hsortedRight)

/-! ## Reading the fields back -/

/-- The texts of a Service whose characters the parser does not restrict. -/
inductive Place where
  | key
  | value
  | portName
  deriving DecidableEq

instance fintypePlace : Fintype Place :=
  ⟨{.key, .value, .portName}, by rintro (_ | _ | _) <;> decide⟩

def Place.texts (service : Manifest.Service) : Place → List String
  | .key => service.selector.pairs.map Prod.fst
  | .value => service.selector.pairs.map Prod.snd
  | .portName => service.ports.map ServicePort.name

/-- What separates a key from a value, and a field from the next. -/
inductive Separator where
  | equals
  | nul
  deriving DecidableEq

instance fintypeSeparator : Fintype Separator :=
  ⟨{.equals, .nul}, by rintro (_ | _) <;> decide⟩

def Separator.sign : Separator → Char
  | .equals => '='
  | .nul => '\x00'

/-- A separator does not occur in the texts of a place. -/
def Avoids (service : Manifest.Service) (place : Place) (separator : Separator) : Prop :=
  ∀ text ∈ place.texts service, separator.sign ∉ text.toList

instance decidableAvoids (service : Manifest.Service) (place : Place) (separator : Separator) :
    Decidable (Avoids service place separator) :=
  inferInstanceAs (Decidable (∀ text ∈ place.texts service, separator.sign ∉ text.toList))

theorem not_mem_toString_int (hchar : char.isDigit = false) {value : Int} (hvalue : 1 ≤ value) :
    char ∉ (toString value).toList := by
  obtain ⟨number, rfl⟩ := Int.eq_ofNat_of_zero_le (le_trans zero_le_one hvalue)
  exact Text.not_mem_toString hchar number

theorem toString_int_injective {left right : Int} (hsame : toString left = toString right) : left = right := by
  have hread := congrArg String.toInt? hsame
  rw [show (toString left).toInt? = some left from Int.toInt?_repr _,
    show (toString right).toInt? = some right from Int.toInt?_repr _] at hread
  exact Option.some.inj hread

theorem not_mem_protocol {port : ServicePort} (hport : port.Valid) (hchar : char ∉ "TCPUDP".toList) :
    char ∉ port.protocol.toList := by
  rcases hport.protocol with htcp | hudp
  · rw [htcp]
    exact fun hmem ↦ hchar (by revert hmem; simp; tauto)
  · rw [hudp]
    exact fun hmem ↦ hchar (by revert hmem; simp; tauto)

/-- A port is read back from the end of its field. -/
theorem portField_injective {left right : ServicePort} (hleft : left.Valid) (hright : right.Valid)
    (hsame : portField left = portField right) : left = right := by
  have hslash : '/'.isDigit = false := by decide
  unfold portField at hsame
  obtain ⟨hsame, htarget⟩ := @Text.separated_inj_last '/' _ _ _ _
    (not_mem_toString_int hslash hleft.targetRange.1)
    (not_mem_toString_int hslash hright.targetRange.1) hsame
  obtain ⟨hsame, hport⟩ := @Text.separated_inj_last '/' _ _ _ _ (not_mem_toString_int hslash hleft.range.1)
    (not_mem_toString_int hslash hright.range.1) hsame
  obtain ⟨hname, hprotocol⟩ := @Text.separated_inj_last '/' _ _ _ _ (not_mem_protocol hleft (by decide))
    (not_mem_protocol hright (by decide)) hsame
  cases left
  cases right
  simp only [ServicePort.mk.injEq]
  exact ⟨hname, hprotocol, toString_int_injective hport, toString_int_injective htarget⟩

/-- A selector is read back from the start of its field if its key has no equals sign, and from the end if its
value has none. -/
theorem selectorField_injective {left right : String × String}
    (hequals : '=' ∉ left.1.toList ∧ '=' ∉ right.1.toList ∨ '=' ∉ left.2.toList ∧ '=' ∉ right.2.toList)
    (hsame : selectorField left = selectorField right) : left = right := by
  rcases hequals with ⟨hleft, hright⟩ | ⟨hleft, hright⟩
  · obtain ⟨hkey, hvalue⟩ := @Text.separated_inj_first '=' _ _ _ _ hleft hright hsame
    exact Prod.ext hkey hvalue
  · obtain ⟨hkey, hvalue⟩ := @Text.separated_inj_last '=' _ _ _ _ hleft hright hsame
    exact Prod.ext hkey hvalue

theorem mem_selectorField (entry : String × String) : '=' ∈ (selectorField entry).toList := by
  simp [selectorField]

theorem mem_portField (port : ServicePort) : '/' ∈ (portField port).toList := by
  simp [portField]

theorem not_mem_portField {port : ServicePort} (hport : port.Valid) (hdigit : char.isDigit = false)
    (hprotocol : char ∉ "TCPUDP".toList) (hslash : char ≠ '/') (hname : char ∉ port.name.toList) :
    char ∉ (portField port).toList := by
  have hseparator : char ∉ "/".toList := by simpa using hslash
  simp only [portField, String.toList_append, List.mem_append, not_or]
  exact ⟨⟨⟨⟨⟨⟨hname, hseparator⟩, not_mem_protocol hport hprotocol⟩, hseparator⟩,
    not_mem_toString_int hdigit hport.range.1⟩, hseparator⟩, not_mem_toString_int hdigit hport.targetRange.1⟩

/-- Fields of selectors and ports have a separator, names do not. -/
def separated (field : String) : Bool :=
  field.toList.any fun char ↦ char == '=' || char == '/'

theorem separated_eq_true {field : String} :
    separated field = true ↔ '=' ∈ field.toList ∨ '/' ∈ field.toList := by
  simp only [separated, List.any_eq_true, Bool.or_eq_true, beq_iff_eq]
  constructor
  · rintro ⟨char, hmem, rfl | rfl⟩
    · exact .inl hmem
    · exact .inr hmem
  · rintro (hmem | hmem)
    · exact ⟨'=', hmem, .inl rfl⟩
    · exact ⟨'/', hmem, .inr rfl⟩

theorem separated_label {field : String} (hfield : ∀ char ∈ field.toList, isLabelChar char = true) :
    separated field = false := by
  rw [← Bool.not_eq_true, separated_eq_true, not_or]
  exact ⟨fun hmem ↦ absurd (hfield _ hmem) (by decide), fun hmem ↦ absurd (hfield _ hmem) (by decide)⟩

section Fields

variable {service other : Manifest.Service}

theorem framed_configured (hvalid : service.Valid) :
    Framed Configured.header Configured.body separated 2 (configured service) where
  length := rfl
  header field hfield := by
    rcases List.mem_cons.mp hfield with rfl | hname
    · exact separated_label (validNamespace_chars hvalid.ns)
    · rw [List.mem_singleton.mp hname]
      exact separated_label (validID_chars hvalid.name)
  body field hfield := by
    rw [separated_eq_true]
    rcases List.mem_append.mp hfield with hselector | hport
    · obtain ⟨entry, _, rfl⟩ := List.mem_map.mp hselector
      exact .inl (mem_selectorField entry)
    · obtain ⟨port, _, rfl⟩ := List.mem_map.mp hport
      exact .inr (mem_portField port)

theorem avoids_entry {separator : Separator} {entry : String × String}
    (hentry : entry ∈ sortedSelector service.selector) :
    (Avoids service .key separator → separator.sign ∉ entry.1.toList) ∧
      (Avoids service .value separator → separator.sign ∉ entry.2.toList) := by
  have hpair : entry ∈ service.selector.pairs := GoMap.mem_pairs.mpr (mem_sortedSelector.mp hentry)
  exact ⟨fun havoids ↦ havoids _ (List.mem_map_of_mem hpair),
    fun havoids ↦ havoids _ (List.mem_map_of_mem hpair)⟩

theorem nul_not_mem_fields (hvalid : service.Valid) (hnul : ∀ place, Avoids service place .nul) :
    ∀ field ∈ (configured service).fields, '\x00' ∉ field.toList := by
  intro field hfield
  rcases List.mem_append.mp hfield with hheader | hbody
  · rcases List.mem_cons.mp hheader with rfl | hname
    · exact nul_not_mem_namespace hvalid.ns
    · rw [List.mem_singleton.mp hname]
      exact nul_not_mem_id hvalid.name
  · rcases List.mem_append.mp hbody with hselector | hport
    · obtain ⟨entry, hentry, rfl⟩ := List.mem_map.mp hselector
      simp only [selectorField, String.toList_append, List.mem_append, not_or]
      exact ⟨⟨(avoids_entry hentry).1 (hnul .key), by decide⟩, (avoids_entry hentry).2 (hnul .value)⟩
    · obtain ⟨port, hmem, rfl⟩ := List.mem_map.mp hport
      exact not_mem_portField (hvalid.ports port hmem) (by decide) (by decide) (by decide)
        (hnul .portName _ (List.mem_map_of_mem hmem))

/-- Maps whose values tell the members of two lists apart. -/
theorem map_injective_on {Item Value : Type*} {view : Item → Value} {left right : List Item}
    (hview : ∀ first ∈ left, ∀ second ∈ right, view first = view second → first = second)
    (hsame : left.map view = right.map view) : left = right := by
  induction left generalizing right with
  | nil => exact (List.map_eq_nil_iff.mp hsame.symm).symm
  | cons first firsts ih =>
    cases right with
    | nil => cases hsame
    | cons second seconds =>
      obtain ⟨hhead, htail⟩ := List.cons.inj hsame
      rw [hview first List.mem_cons_self second List.mem_cons_self hhead,
        ih (fun item hitem later hlater ↦ hview item (List.mem_cons_of_mem _ hitem) later
          (List.mem_cons_of_mem _ hlater)) htail]

/-- A Service is read back from its fields. -/
theorem configured_injective (hvalid : service.Valid) (hotherValid : other.Valid)
    (hnames : Avoids service .portName .equals) (hotherNames : Avoids other .portName .equals)
    (hselectors : ∀ first ∈ sortedSelector service.selector, ∀ second ∈ sortedSelector other.selector,
      selectorField first = selectorField second → first = second)
    (hheader : (configured service).header = (configured other).header)
    (hbody : (configured service).body = (configured other).body) : configured service = configured other := by
  let hasEquals : String → Bool := fun field ↦ decide ('=' ∈ field.toList)
  have hfields : ∀ (entries : List (String × String)), ∀ field ∈ entries.map selectorField,
      hasEquals field = true := by
    intro entries field hfield
    obtain ⟨entry, _, rfl⟩ := List.mem_map.mp hfield
    exact decide_eq_true (mem_selectorField entry)
  have hports : ∀ {wanted : Manifest.Service}, wanted.Valid → Avoids wanted .portName .equals →
      ∀ field ∈ (wanted.ports.map portField).head?, hasEquals field = false := by
    intro wanted hwanted hwantedNames field hfield
    obtain ⟨port, hport, rfl⟩ := List.mem_map.mp (List.mem_of_mem_head? hfield)
    exact decide_eq_false (not_mem_portField (hwanted.ports port hport) (by decide) (by decide) (by decide)
      (hwantedNames _ (List.mem_map_of_mem hport)))
  obtain ⟨hselector, hport⟩ := append_injective (hfields _) (hfields _) (hports hvalid hnames)
    (hports hotherValid hotherNames) hbody
  have hselectorSame : sortedSelector service.selector = sortedSelector other.selector :=
    map_injective_on hselectors hselector
  have hportSame : service.ports = other.ports :=
    map_injective_on (fun first hfirst second hsecond ↦
      portField_injective (hvalid.ports first hfirst) (hotherValid.ports second hsecond)) hport
  obtain ⟨hns, hname⟩ := List.cons.inj hheader
  have hnsSame : service.ns = other.ns := hns
  have hnameSame : service.name = other.name := (List.cons.inj hname).1
  rw [configured, configured, hnsSame, hnameSame, hselectorSame, hportSame]

end Fields

/-! ## Identification -/

variable {excluded : Place → Separator → Prop}

/-- Parsed Services with different identities, without the separators that are excluded from a place. -/
structure Admissible (excluded : Place → Separator → Prop) (services : List Manifest.Service) : Prop where
  parsed : ∀ service ∈ services, ∃ document, parseService document = .ok service
  distinct : (services.map fun service ↦ (service.ns, service.name)).Nodup
  avoids : ∀ service ∈ services, ∀ place separator, excluded place separator → Avoids service place separator

/-- Two different inputs of SHA-512 with one digest. -/
def Collides (left right : List Manifest.Service) : Prop :=
  digestInput left ≠ digestInput right ∧ sha512Hex (digestInput left) = sha512Hex (digestInput right)

/-- Where SHA-512 does not collide, two admissible lists have one digest exactly if they are the same. -/
def Identifies (excluded : Place → Separator → Prop) : Prop :=
  ∀ left right, Admissible excluded left → Admissible excluded right → ¬Collides left right →
    (digestDesired left = digestDesired right ↔ SameServices left right)

/-- The Services are read back from the input of the digest. -/
theorem sorted_eq_of_digestInput (hleft : Admissible excluded left) (hright : Admissible excluded right)
    (hnul : ∀ place, excluded place .nul) (hnames : excluded .portName .equals)
    (hselector : excluded .key .equals ∨ excluded .value .equals)
    (hsame : digestInput left = digestInput right) :
    (sortedDesired left).map configured = (sortedDesired right).map configured := by
  have hmembers : ∀ {services : List Manifest.Service}, Admissible excluded services →
      ∀ seen ∈ (sortedDesired services).map configured, ∃ service ∈ services, service.Valid ∧
        configured service = seen := by
    intro services hservices seen hseen
    obtain ⟨service, hsorted, rfl⟩ := List.mem_map.mp hseen
    have hservice := mem_sortedDesired.mp hsorted
    obtain ⟨document, hparse⟩ := hservices.parsed service hservice
    exact ⟨service, hservice, parseService_valid hparse, rfl⟩
  have hfree : ∀ {services : List Manifest.Service}, Admissible excluded services →
      ∀ field ∈ ((sortedDesired services).map configured).flatMap Configured.fields, '\x00' ∉ field.toList := by
    intro services hservices field hfield
    obtain ⟨seen, hseen, hin⟩ := List.mem_flatMap.mp hfield
    obtain ⟨service, hservice, hvalid, rfl⟩ := hmembers hservices seen hseen
    exact nul_not_mem_fields hvalid
      (fun place ↦ hservices.avoids service hservice place .nul (hnul place)) field hin
  have hframed : ∀ {services : List Manifest.Service}, Admissible excluded services →
      ∀ seen ∈ (sortedDesired services).map configured,
        Framed Configured.header Configured.body separated 2 seen := by
    intro services hservices seen hseen
    obtain ⟨service, _, hvalid, rfl⟩ := hmembers hservices seen hseen
    exact framed_configured hvalid
  rw [digestInput_eq, digestInput_eq] at hsame
  have hfields := terminated_injective (hfree hleft) (hfree hright) hsame
  have hblocks := flatMap_injective (by norm_num) (hframed hleft) (hframed hright) hfields
  refine map_injective_on (fun seen hseen later hlater hparts ↦ ?_) hblocks
  obtain ⟨service, hservice, hvalid, rfl⟩ := hmembers hleft seen hseen
  obtain ⟨other, hother, hotherValid, rfl⟩ := hmembers hright later hlater
  obtain ⟨hheader, hbody⟩ := Prod.mk.inj hparts
  refine configured_injective hvalid hotherValid (hleft.avoids service hservice _ _ hnames)
    (hright.avoids other hother _ _ hnames) (fun first hfirst second hsecond ↦ selectorField_injective ?_)
      hheader hbody
  exact hselector.imp
    (fun hkey ↦ ⟨(avoids_entry hfirst).1 (hleft.avoids service hservice _ .equals hkey),
      (avoids_entry hsecond).1 (hright.avoids other hother _ .equals hkey)⟩)
    (fun hvalue ↦ ⟨(avoids_entry hfirst).2 (hleft.avoids service hservice _ .equals hvalue),
      (avoids_entry hsecond).2 (hright.avoids other hother _ .equals hvalue)⟩)

/-! ## Ambiguous texts -/

/-- A Service of the default namespace. -/
def exampleService (name : String) (selector : List (String × String)) (ports : List ServicePort) :
    Manifest.Service :=
  ⟨name, "default", .ofPairs selector, ports⟩

def tcpPort : ServicePort := ⟨"", "TCP", 80, 80⟩

def udpPort : ServicePort := ⟨"", "UDP", 53, 53⟩

/-- Valid Services with different identities, in which separators only occur at the spoiled places. -/
def SpoiledAt (spoiled : List (Place × Separator)) (services : List Manifest.Service) : Prop :=
  (services.map fun service ↦ (service.ns, service.name)).Nodup ∧ ∀ service ∈ services, service.Valid ∧
    ∀ place separator, (place, separator) ∈ spoiled ∨ Avoids service place separator

instance decidableSpoiledAt (spoiled : List (Place × Separator)) (services : List Manifest.Service) :
    Decidable (SpoiledAt spoiled services) :=
  inferInstanceAs (Decidable (_ ∧ _))

theorem SpoiledAt.admissible {spoiled : List (Place × Separator)} {services : List Manifest.Service}
    (hspoiled : SpoiledAt spoiled services) (hallowed : ∀ entry ∈ spoiled, ¬excluded entry.1 entry.2) :
    Admissible excluded services where
  parsed service hservice := ⟨_, parseService_canonicalDocument (hspoiled.2 service hservice).1⟩
  distinct := hspoiled.1
  avoids service hservice place separator hexcluded :=
    ((hspoiled.2 service hservice).2 place separator).resolve_left fun hmem ↦ hallowed _ hmem hexcluded

/-- Two lists with one text have one digest. -/
theorem digestDesired_of_digestInput (hinput : digestInput left = digestInput right) :
    ¬Collides left right ∧ digestDesired left = digestDesired right := by
  refine ⟨fun hcollides ↦ hcollides.1 hinput, ?_⟩
  rw [digestDesired_eq, digestDesired_eq, hinput]

/-- Where the digest identifies the Services, one of the places that spoil a text is excluded. -/
theorem Identifies.exists_excluded (hidentifies : Identifies excluded) (spoiled : List (Place × Separator))
    (left right : List Manifest.Service) (hleft : SpoiledAt spoiled left) (hright : SpoiledAt spoiled right)
    (hinput : digestInput left = digestInput right)
    (hdiffers : ¬(left.map configured).Perm (right.map configured)) :
    ∃ entry ∈ spoiled, excluded entry.1 entry.2 := by
  by_contra hnone
  have hallowed : ∀ entry ∈ spoiled, ¬excluded entry.1 entry.2 := fun entry hentry hexcluded ↦
    hnone ⟨entry, hentry, hexcluded⟩
  obtain ⟨hcollision, hdigest⟩ := digestDesired_of_digestInput hinput
  exact hdiffers (sameServices_iff_perm.mp
    ((hidentifies left right (hleft.admissible hallowed) (hright.admissible hallowed) hcollision).mp hdigest))

/-- The digest identifies the Services exactly when no NUL occurs in selectors and port names, no equals sign in
port names, and none in selector keys or none in selector values. -/
theorem identifies_iff (excluded : Place → Separator → Prop) :
    Identifies excluded ↔ (∀ place, excluded place .nul) ∧ excluded .portName .equals ∧
      (excluded .key .equals ∨ excluded .value .equals) := by
  constructor
  · intro hidentifies
    refine ⟨fun place ↦ ?_, ?_, ?_⟩
    · cases place with
      | key =>
        -- a key holds the end of its Service and the start of the next
        simpa using hidentifies.exists_excluded [(.key, .nul)]
          [exampleService "web" [("", "b"), ("/TCP/80/80\x00default\x00zeb\x00k", "v")] [tcpPort]]
          [exampleService "web" [("", "b")] [tcpPort], exampleService "zeb" [("k", "v")] [tcpPort]]
          (by decide) (by decide) (by decide) (by decide)
      | value =>
        simpa using hidentifies.exists_excluded [(.value, .nul)]
          [exampleService "web" [("a", "b\x00/TCP/80/80")] [udpPort]]
          [exampleService "web" [("a", "b")] [tcpPort, udpPort]]
          (by decide) (by decide) (by decide) (by decide)
      | portName =>
        simpa using hidentifies.exists_excluded [(.portName, .nul)]
          [exampleService "web" [("a", "b")] [⟨"/TCP/80/80\x00", "UDP", 53, 53⟩]]
          [exampleService "web" [("a", "b")] [tcpPort, udpPort]]
          (by decide) (by decide) (by decide) (by decide)
    · simpa using hidentifies.exists_excluded [(.portName, .equals)]
        [exampleService "web" [("", "v")] [⟨"a=b", "TCP", 80, 80⟩, udpPort]]
        [exampleService "web" [("", "v"), ("a", "b/TCP/80/80")] [udpPort]]
        (by decide) (by decide) (by decide) (by decide)
    · simpa using hidentifies.exists_excluded [(.key, .equals), (.value, .equals)]
        [exampleService "web" [("a=b", "c")] [tcpPort]] [exampleService "web" [("a", "b=c")] [tcpPort]]
        (by decide) (by decide) (by decide) (by decide)
  · rintro ⟨hnul, hnames, hselector⟩ left right hleft hright hcollision
    rw [sameServices_iff_sorted hleft.distinct hright.distinct]
    constructor
    · intro hdigest
      have hinput : digestInput left = digestInput right :=
        not_not.mp fun hdiffers ↦ hcollision ⟨hdiffers, hdigest⟩
      exact sorted_eq_of_digestInput hleft hright hnul hnames hselector hinput
    · intro hsame
      rw [digestDesired_eq, digestDesired_eq, digestInput_eq, digestInput_eq, hsame]

/-- Two accepted Services with different selectors and one digest. -/
theorem digest_of_two_selectors :
    ∃ left right, Admissible (fun _ _ ↦ False) left ∧ Admissible (fun _ _ ↦ False) right ∧
      ¬Collides left right ∧
      digestDesired left = digestDesired right ∧ ¬SameServices left right := by
  have hadmissible : ∀ {services}, SpoiledAt [(.key, .equals), (.value, .equals)] services →
      Admissible (fun _ _ ↦ False) services := fun hspoiled ↦ hspoiled.admissible (by simp)
  obtain ⟨hcollision, hdigest⟩ := @digestDesired_of_digestInput
    [exampleService "web" [("a=b", "c")] [tcpPort]] [exampleService "web" [("a", "b=c")] [tcpPort]] (by decide)
  refine ⟨_, _, hadmissible (by decide), hadmissible (by decide), hcollision, hdigest, ?_⟩
  rw [sameServices_iff_perm]
  decide

end Podmin.Agent.Coordination
