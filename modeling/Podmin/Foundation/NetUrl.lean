import Mathlib.Data.List.TakeWhile
import Podmin.Foundation.Text

/-!
# Texts of URLs

Percent-encoding and the URLs of Go's `net/url` that have a scheme, a host and a path. Strings are
sequences of bytes. A path is escaped as a whole, so that slashes are kept; unescaping returns what was
escaped. Left out are user information, opaque URLs and hosts in brackets, and a query or fragment is
kept as it is written.
-/

namespace Podmin.Foundation.NetUrl

open List

abbrev Bytes := List UInt8

/-- What a text is in a URL. -/
inductive Encoding where
  | host
  | path
  | pathSegment
  deriving DecidableEq

def isAlphanumeric (byte : UInt8) : Bool :=
  (97 ≤ byte && byte ≤ 122) || (65 ≤ byte && byte ≤ 90) || (48 ≤ byte && byte ≤ 57)

/-- `shouldEscape`. -/
def shouldEscape (mode : Encoding) (byte : UInt8) : Bool :=
  if isAlphanumeric byte then false
  else if mode = .host ∧ byte ∈ Text.utf8Bytes "!$&'()*+,;=:[]<>\"" then false
  else if byte ∈ Text.utf8Bytes "-_.~" then false
  else if byte ∈ Text.utf8Bytes "$&+,/:;=?@" then
    match mode with
    | .host => true
    | .path => byte == 63
    | .pathSegment => decide (byte ∈ Text.utf8Bytes "/;,?")
  else true

def upperHex (digit : UInt8) : UInt8 :=
  if digit < 10 then 48 + digit else 55 + digit

def escapeByte (mode : Encoding) (byte : UInt8) : Bytes :=
  if shouldEscape mode byte then [37, upperHex (byte / 16), upperHex (byte % 16)] else [byte]

def escape (mode : Encoding) (text : Bytes) : Bytes :=
  text.flatMap (escapeByte mode)

/-- The value of a hexadecimal digit. -/
def unhex (byte : UInt8) : Option UInt8 :=
  if 48 ≤ byte ∧ byte ≤ 57 then some (byte - 48)
  else if 97 ≤ byte ∧ byte ≤ 102 then some (byte - 87)
  else if 65 ≤ byte ∧ byte ≤ 70 then some (byte - 55)
  else none

/-- `unescape`; none where Go returns an error. In a host only bytes outside ASCII and the percent sign may be
escaped, and what has to be escaped may not stand as it is. -/
def unescape (mode : Encoding) : Bytes → Option Bytes
  | [] => some []
  | byte :: rest =>
    if byte = 37 then
      match rest with
      | high :: low :: rest => do
        let first ← unhex high
        let second ← unhex low
        if mode = .host ∧ first < 8 ∧ [high, low] ≠ [50, 53] then none
        else (unescape mode rest).map ((first * 16 + second) :: ·)
      | _ => none
    else if mode = .host ∧ byte < 128 ∧ shouldEscape mode byte then none
    else (unescape mode rest).map (byte :: ·)

def validEncoded (mode : Encoding) (text : Bytes) : Bool :=
  text.all fun byte ↦ decide (byte ∈ Text.utf8Bytes "!$&'()*+,;=:@[]%") || !shouldEscape mode byte

/-! ## Round trip -/

/-- What holds of all 256 bytes. -/
theorem forall_byte {holds : UInt8 → Bool} (hall : (range 256).all fun value ↦ holds (UInt8.ofNat value))
    (byte : UInt8) : holds byte = true := by
  have hbyte := all_eq_true.mp hall byte.toNat (mem_range.mpr byte.toNat_lt)
  rwa [UInt8.ofNat_toNat] at hbyte

/-- An escaped byte is a percent sign and two digits that are read back, and any other byte is no
percent sign. -/
theorem escapeByte_path (byte : UInt8) :
    (byte ≠ 37 ∧ escapeByte .path byte = [byte]) ∨
      ∃ high low first second, escapeByte .path byte = [37, high, low] ∧
      unhex high = some first ∧ unhex low = some second ∧ first * 16 + second = byte := by
  have hdigits := @forall_byte (fun byte ↦ decide (unhex (upperHex (byte / 16)) = some (byte / 16) ∧
    unhex (upperHex (byte % 16)) = some (byte % 16) ∧ byte / 16 * 16 + byte % 16 = byte))
      (by decide +kernel) byte
  have hpercent := @forall_byte (fun byte ↦ shouldEscape .path byte || byte != 37) (by decide +kernel) byte
  unfold escapeByte
  by_cases hescape : shouldEscape .path byte = true
  · rw [if_pos hescape]
    exact .inr ⟨_, _, _, _, rfl, of_decide_eq_true hdigits⟩
  · rw [if_neg hescape]
    simp only [hescape, Bool.false_or, bne_iff_ne] at hpercent
    exact .inl ⟨hpercent, rfl⟩

theorem unescape_plain {mode : Encoding} {byte : UInt8} (hpercent : byte ≠ 37)
    (hkept : ¬(mode = .host ∧ byte < 128 ∧ shouldEscape mode byte = true)) (rest : Bytes) :
    unescape mode (byte :: rest) = (unescape mode rest).map (byte :: ·) := by
  rw [unescape.eq_def]
  simp only [if_neg hpercent, if_neg hkept]

/-- Unescaping returns what was escaped. -/
theorem unescape_escape {mode : Encoding} (hmode : mode ≠ .host) (text : Bytes) :
    unescape mode (escape .path text) = some text := by
  induction text with
  | nil => rfl
  | cons byte text ih =>
    have hescape : escape .path (byte :: text) = escapeByte .path byte ++ escape .path text := rfl
    rw [hescape]
    rcases escapeByte_path byte with ⟨hbyte, hplain⟩ | ⟨high, low, first, second, hcoded, hhigh, hlow, hvalue⟩
    · rw [hplain, singleton_append, unescape_plain hbyte fun hhost ↦ hmode hhost.1, ih]
      rfl
    · rw [hcoded]
      simp only [cons_append, nil_append, unescape, if_true, hhigh, hlow, ih, Option.bind_eq_bind,
        Option.bind_some, if_neg fun hhost : mode = .host ∧ _ ↦ hmode hhost.1, hvalue, Option.map_some]

/-- Escaping a path makes no slash, question mark, number sign or control character. -/
theorem escape_path_bytes {text : Bytes} {byte : UInt8} (hbyte : byte ∈ escape .path text) :
    byte ≠ 63 ∧ byte ≠ 35 ∧ 32 ≤ byte ∧ byte ≠ 127 ∧ (byte = 47 → 47 ∈ text) := by
  obtain ⟨source, hsource, hout⟩ := mem_flatMap.mp hbyte
  have hsafe := @forall_byte (fun source ↦ (escapeByte .path source).all fun out ↦
    decide (out ≠ 63 ∧ out ≠ 35 ∧ 32 ≤ out ∧ out ≠ 127 ∧ (out = 47 → source = 47))) (by decide +kernel) source
  have hout := of_decide_eq_true (all_eq_true.mp hsafe byte hout)
  exact ⟨hout.1, hout.2.1, hout.2.2.1, hout.2.2.2.1, fun hslash ↦ hout.2.2.2.2 hslash ▸ hsource⟩

theorem escape_ne_nil {mode : Encoding} {text : Bytes} (hne : text ≠ []) : escape mode text ≠ [] := by
  obtain ⟨byte, text, rfl⟩ := exists_cons_of_ne_nil hne
  have hescape : escape mode (byte :: text) = escapeByte mode byte ++ escape mode text := rfl
  rw [hescape]
  unfold escapeByte
  split
  · simp
  · simp

theorem escape_append (mode : Encoding) (first second : Bytes) :
    escape mode (first ++ second) = escape mode first ++ escape mode second :=
  flatMap_append

/-! ## URLs -/

structure Url where
  scheme : Bytes
  host : Bytes
  path : Bytes
  rawPath : Bytes := []
  rawQuery : Bytes := []
  fragment : Bytes := []
  deriving DecidableEq

namespace Url

/-- `URL.EscapedPath`. -/
def escapedPath (url : Url) : Bytes :=
  if url.rawPath ≠ [] ∧ validEncoded .path url.rawPath ∧
    unescape .path url.rawPath = some url.path then url.rawPath
  else if url.path = [42] then [42]
  else escape .path url.path

/-- `URL.String` of a URL with a scheme and without query and fragment. -/
def string (url : Url) : Bytes :=
  let path := url.escapedPath
  url.scheme ++ Text.utf8Bytes ":" ++ (if url.host ≠ [] ∨ url.path ≠ [] then Text.utf8Bytes "//" else []) ++
    escape .host url.host ++
    (if path ≠ [] ∧ path.head? ≠ some 47 ∧ url.host ≠ [] then Text.utf8Bytes "/" else []) ++ path

/-- Set the path, and the raw path where the text is not the default encoding. -/
def setPath (url : Url) (text : Bytes) : Option Url := do
  let path ← unescape .path text
  some { url with path, rawPath := if escape .path path = text then [] else text }

end Url

def isSchemeByte (byte : UInt8) : Bool :=
  isAlphanumeric byte || decide (byte ∈ Text.utf8Bytes "+-.")

/-- The scheme before the first colon, and the rest. -/
def getScheme (text : Bytes) : Option (Bytes × Bytes) :=
  let scheme := text.takeWhile isSchemeByte
  match scheme, text.dropWhile isSchemeByte with
  | [], 58 :: _ => none
  | first :: _, 58 :: rest => if first < 65 then some ([], text) else some (scheme, rest)
  | _, _ => some ([], text)

def lower (byte : UInt8) : UInt8 :=
  if 65 ≤ byte ∧ byte ≤ 90 then byte + 32 else byte

/-- A host with an optional port. -/
def parseHost (text : Bytes) : Option Bytes :=
  if text.head? = some 91 ∨ 64 ∈ text then none
  else if 58 ∈ text ∧ ¬(text.reverse.takeWhile (· ≠ 58)).all (fun byte ↦ 48 ≤ byte && byte ≤ 57) then none
  else unescape .host text

/-- `strings.Cut` at a byte. -/
def cut (separator : UInt8) (text : Bytes) : Bytes × Bytes :=
  (text.takeWhile (· ≠ separator), (text.dropWhile (· ≠ separator)).drop 1)

/-- `Parse`; none where Go returns an error and for the URLs that are left out. -/
def parse (text : Bytes) : Option Url :=
  let (text, fragment) := cut 35 text
  if text.any (fun byte ↦ byte < 32 || byte == 127) then none
  else do
    let (scheme, rest) ← getScheme text
    let (rest, rawQuery) := cut 63 rest
    match rest with
    | 47 :: 47 :: rest =>
      let host ← parseHost (rest.takeWhile (· ≠ 47))
      Url.setPath { scheme := scheme.map lower, host, path := [], rawQuery, fragment } (rest.dropWhile (· ≠ 47))
    | _ => none

/-! ## Reading a URL back -/

/-- A letter, a digit, a hyphen or a dot. -/
def isHostByte (byte : UInt8) : Bool :=
  isAlphanumeric byte || byte == 45 || byte == 46

theorem hostByte_plain {byte : UInt8} (hbyte : isHostByte byte = true) :
    escapeByte .host byte = [byte] ∧ byte ≠ 37 ∧ shouldEscape .host byte = false ∧ byte ≠ 47 ∧ byte ≠ 58 ∧
      byte ≠ 63 ∧ byte ≠ 35 ∧ byte ≠ 64 ∧ byte ≠ 91 ∧ 32 ≤ byte ∧ byte ≠ 127 := by
  have hplain := @forall_byte (fun byte ↦ !isHostByte byte ||
    decide (escapeByte .host byte = [byte] ∧ byte ≠ 37 ∧
    shouldEscape .host byte = false ∧ byte ≠ 47 ∧ byte ≠ 58 ∧ byte ≠ 63 ∧ byte ≠ 35 ∧ byte ≠ 64 ∧ byte ≠ 91 ∧
    32 ≤ byte ∧ byte ≠ 127)) (by decide +kernel) byte
  simp only [hbyte, Bool.not_true, Bool.false_or] at hplain
  exact of_decide_eq_true hplain

section Host

variable {host : Bytes} (hhost : ∀ byte ∈ host, isHostByte byte = true)

include hhost

theorem escape_host : escape .host host = host := by
  induction host with
  | nil => rfl
  | cons byte host ih =>
    obtain ⟨hfirst, hrest⟩ := forall_mem_cons.mp hhost
    have hescape : escape .host (byte :: host) = escapeByte .host byte ++ escape .host host := rfl
    rw [hescape, (hostByte_plain hfirst).1, ih hrest]
    rfl

theorem unescape_host : unescape .host host = some host := by
  induction host with
  | nil => rfl
  | cons byte host ih =>
    obtain ⟨hfirst, hrest⟩ := forall_mem_cons.mp hhost
    obtain ⟨_, hpercent, hplain, _⟩ := hostByte_plain hfirst
    rw [unescape_plain hpercent (by simp [hplain]), ih hrest]
    rfl

theorem parseHost_host : parseHost host = some host := by
  have hnot : ∀ {byte : UInt8}, isHostByte byte = false → byte ∉ host := by
    intro byte hother hmem
    rw [hhost byte hmem] at hother
    cases hother
  have hbracket : host.head? ≠ some 91 := fun hhead ↦ hnot (by decide) (mem_of_head? hhead)
  rw [parseHost, if_neg (not_or.mpr ⟨hbracket, hnot (by decide)⟩), if_neg fun hport ↦ hnot (by decide) hport.1,
    unescape_host hhost]

end Host

theorem cut_of_not_mem {separator : UInt8} {text : Bytes} (hnot : separator ∉ text) :
    cut separator text = (text, []) := by
  have hall : ∀ byte ∈ text, decide (byte ≠ separator) = true := by
    intro byte hbyte
    rw [decide_eq_true_iff]
    rintro rfl
    exact hnot hbyte
  rw [cut, takeWhile_eq_self_iff.mpr hall, dropWhile_eq_nil_iff.mpr hall]
  rfl

/-- The text of a URL with a slash before its path, from its parts. -/
theorem string_eq {host : Bytes} (hhost : ∀ byte ∈ host, isHostByte byte = true) (hne : host ≠ [])
    (scheme path : Bytes) :
    Url.string { scheme, host, path := 47 :: path } =
      scheme ++ 58 :: 47 :: 47 :: (host ++ 47 :: escape .path path) := by
  have hpath : Url.escapedPath { scheme, host, path := 47 :: path } = 47 :: escape .path path := by
    rw [Url.escapedPath, if_neg (by simp), if_neg (by simp)]
    rfl
  rw [Url.string, hpath, escape_host hhost, if_pos (.inl hne), if_neg (by simp)]
  have hcolon : Text.utf8Bytes ":" = [58] := by decide
  have hslashes : Text.utf8Bytes "//" = [47, 47] := by decide
  simp only [hcolon, hslashes, append_assoc, cons_append, nil_append]

theorem getScheme_colon {scheme : Bytes} (hne : scheme ≠ [])
    (hletters : ∀ byte ∈ scheme, 97 ≤ byte ∧ byte ≤ 122)
    (rest : Bytes) : getScheme (scheme ++ 58 :: rest) = some (scheme, rest) := by
  have hscheme : ∀ byte ∈ scheme, isSchemeByte byte = true := by
    intro byte hbyte
    simp [isSchemeByte, isAlphanumeric, hletters byte hbyte]
  have hcolon : isSchemeByte 58 = false := by decide
  obtain ⟨first, tail, rfl⟩ := exists_cons_of_ne_nil hne
  have hfirst : ¬first < 65 := by
    have hletter := (hletters first mem_cons_self).1
    rw [UInt8.le_iff_toNat_le] at hletter
    rw [UInt8.lt_iff_toNat_lt]
    simp only [UInt8.reduceToNat] at hletter ⊢
    omega
  have htake : ((first :: tail) ++ 58 :: rest).takeWhile isSchemeByte = first :: tail := by
    rw [takeWhile_append_of_pos hscheme, takeWhile_cons_of_neg (by simp [hcolon]), append_nil]
  have hdrop : ((first :: tail) ++ 58 :: rest).dropWhile isSchemeByte = 58 :: rest := by
    rw [dropWhile_append_of_pos hscheme, dropWhile_cons_of_neg (by simp [hcolon])]
  simp only [getScheme, htake, hdrop, if_neg hfirst]

theorem map_lower {scheme : Bytes} (hletters : ∀ byte ∈ scheme, 97 ≤ byte ∧ byte ≤ 122) :
    scheme.map lower = scheme := by
  calc
    scheme.map lower = scheme.map id := by
      apply map_congr_left
      intro byte hbyte
      have hletter := (hletters byte hbyte).1
      have hlower : ¬(65 ≤ byte ∧ byte ≤ 90) := by
        simp only [UInt8.le_iff_toNat_le, UInt8.reduceToNat] at hletter ⊢
        omega
      rw [lower, if_neg hlower, id]
    _ = scheme := map_id scheme

/-- A URL with a lower-case scheme, a host of letters, digits, hyphens and dots, and a rooted path is
read back from its text. -/
theorem parse_string {scheme host : Bytes} (hscheme : scheme ≠ [])
    (hletters : ∀ byte ∈ scheme, 97 ≤ byte ∧ byte ≤ 122) (hne : host ≠ [])
    (hhost : ∀ byte ∈ host, isHostByte byte = true) (path : Bytes) :
    parse (Url.string { scheme, host, path := 47 :: path }) = some { scheme, host, path := 47 :: path } := by
  rw [string_eq hhost hne]
  set tail := host ++ 47 :: escape .path path with htail
  have hsafe : ∀ byte ∈ scheme ++ 58 :: 47 :: 47 :: tail, byte ≠ 35 ∧ byte ≠ 63 ∧ 32 ≤ byte ∧ byte ≠ 127 := by
    intro byte hbyte
    simp only [htail, mem_append, mem_cons] at hbyte
    rcases hbyte with hbyte | rfl | rfl | rfl | hbyte | rfl | hbyte
    · have hletter := hletters byte hbyte
      have hplain : isHostByte byte = true := by simp [isHostByte, isAlphanumeric, hletter]
      obtain ⟨_, _, _, _, _, hquery, hfragment, _, _, hcontrol⟩ := hostByte_plain hplain
      exact ⟨hfragment, hquery, hcontrol⟩
    · decide
    · decide
    · decide
    · obtain ⟨_, _, _, _, _, hquery, hfragment, _, _, hcontrol⟩ := hostByte_plain (hhost byte hbyte)
      exact ⟨hfragment, hquery, hcontrol⟩
    · decide
    · obtain ⟨hquery, hfragment, hcontrol, hdelete, _⟩ := escape_path_bytes hbyte
      exact ⟨hfragment, hquery, hcontrol, hdelete⟩
  have hfragment : 35 ∉ scheme ++ 58 :: 47 :: 47 :: tail := fun hmem ↦ (hsafe 35 hmem).1 rfl
  have hquery : 63 ∉ 47 :: 47 :: tail := fun hmem ↦
    (hsafe 63 (mem_append_right _ (mem_cons_of_mem _ hmem))).2.1 rfl
  have hcontrol : (scheme ++ 58 :: 47 :: 47 :: tail).any (fun byte ↦ byte < 32 || byte == 127) = false := by
    rw [any_eq_false]
    intro byte hbyte
    obtain ⟨_, _, hprintable, hdelete⟩ := hsafe byte hbyte
    simp [hprintable, hdelete]
  have hslash : ∀ byte ∈ host, decide (byte ≠ 47) = true := by
    intro byte hbyte
    obtain ⟨_, _, _, hslash, _⟩ := hostByte_plain (hhost byte hbyte)
    exact decide_eq_true hslash
  have hauthority : tail.takeWhile (fun byte ↦ decide (byte ≠ 47)) = host := by
    rw [htail, takeWhile_append_of_pos hslash, takeWhile_cons_of_neg (by simp), append_nil]
  have hrest : tail.dropWhile (fun byte ↦ decide (byte ≠ 47)) = escape .path (47 :: path) := by
    rw [htail, dropWhile_append_of_pos hslash, dropWhile_cons_of_neg (by simp)]
    rfl
  have hset : ∀ url : Url, url.setPath (escape .path (47 :: path)) =
    some { url with path := 47 :: path, rawPath := [] } := by
    intro url
    rw [Url.setPath, unescape_escape (by decide)]
    simp
  simp only [parse, cut_of_not_mem hfragment, hcontrol, getScheme_colon hscheme hletters, cut_of_not_mem hquery,
    hauthority, parseHost_host hhost, hrest, hset, map_lower hletters, Option.bind_eq_bind, Option.bind_some,
    Bool.false_eq_true, if_false]

end Podmin.Foundation.NetUrl
