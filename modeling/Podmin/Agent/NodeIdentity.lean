import Mathlib.Data.List.DropRight
import Podmin.Foundation.NetUrl
import Podmin.Manifest.Identifiers

/-!
# Node identities in certificates

A node's certificate names it by a SPIFFE URI: the cluster's trust domain, and a path of the node ID and
the NodeGroup. The certificate carries the text of the URI, and its reader parses that text, splits the
escaped path and unescapes the two components. Node IDs and NodeGroups are byte strings; signatures and
chains are not modelled.
-/

namespace Podmin.Agent.Identity

open Foundation NetUrl Text

structure NodeIdentity where
  nodeID : Bytes
  nodeGroup : Bytes
  deriving DecidableEq

/-- What is read of a certificate; times are in nanoseconds. -/
structure Certificate where
  notBefore : Int
  notAfter : Int
  ipAddresses : List (BitVec 128)
  uris : List Url

/-- The authentication of a gRPC peer. -/
inductive AuthInfo where
  | tls (verifiedChains : List (List Certificate))
  | other

/-- The context of a call, with its peer. -/
structure Context where
  peer : Option AuthInfo

/-- A returned error, or the panic of a nil pointer. -/
inductive Failure where
  | returned (message : String)
  | panicked
  deriving DecidableEq

def trustDomain (cluster : String) : Bytes :=
  utf8Bytes (cluster ++ ".podmin.internal")

def validatePart (value : Bytes) : Except String Unit :=
  if value = [] ∨ value.any (fun byte ↦ decide (byte ∈ utf8Bytes "/?#@")) then
    .error "identity component is empty or contains reserved characters"
  else .ok ()

/-- The URI of a node. -/
def nodeURI (cluster : String) (nodeID nodeGroup : Bytes) : Url where
  scheme := utf8Bytes "spiffe"
  host := trustDomain cluster
  path := utf8Bytes "/node/" ++ nodeID ++ utf8Bytes "/nodegroup/" ++ nodeGroup

def leafLifetime : Int := 24 * 3600 * 1000000000

/-- The template that `issue` signs. -/
def issue (cluster : String) (nodeID nodeGroup : Bytes) (address : BitVec 128) (now : Int) : Certificate where
  notBefore := now - 5 * 60 * 1000000000
  notAfter := now + leafLifetime
  ipAddresses := [address]
  uris := [nodeURI cluster nodeID nodeGroup]

/-- The certificate as its reader sees it: each URI is parsed from its text. -/
def Certificate.received (certificate : Certificate) : Option Certificate := do
  let uris ← certificate.uris.mapM fun uri ↦ parse uri.string
  some { certificate with uris }

/-- `strings.Trim` of slashes. -/
def trimSlashes (text : Bytes) : Bytes :=
  (text.dropWhile (· == 47)).rdropWhile (· == 47)

/-- The identity of a URI for a cluster. -/
def identityOfURI (uri : Url) (cluster : String) : Except Failure NodeIdentity :=
  match (trimSlashes uri.escapedPath).splitOn 47 with
  | [node, id, nodegroup, group] =>
    if uri.scheme ≠ utf8Bytes "spiffe" ∨ uri.host ≠ trustDomain cluster ∨ node ≠ utf8Bytes "node" ∨
        nodegroup ≠ utf8Bytes "nodegroup" then .error (.returned "invalid node SPIFFE identity")
    else
      match unescape .pathSegment id with
      | none => .error (.returned "invalid node ID in SPIFFE identity")
      | some nodeID =>
        match unescape .pathSegment group with
        | none => .error (.returned "invalid node SPIFFE identity components")
        | some nodeGroup =>
          if validatePart nodeID ≠ .ok () ∨ validatePart nodeGroup ≠ .ok () then
            .error (.returned "invalid node SPIFFE identity components")
          else .ok { nodeID, nodeGroup }
  | _ => .error (.returned "invalid node SPIFFE identity")

/-- The identity of a verified TLS peer. The source reads the peer's authentication before it asks
whether there is a peer. -/
def identityFromContext (ctx : Context) (cluster : String) : Except Failure NodeIdentity :=
  match ctx.peer with
  | none => .error .panicked
  | some (.tls ((leaf :: _) :: _)) =>
    match leaf.uris with
    | [uri] => identityOfURI uri cluster
    | _ => .error (.returned "node certificate must contain exactly one URI SAN")
  | some _ => .error (.returned "coordination peer is not verified with TLS")

/-! ## The trust domain -/

theorem utf8Bytes_eq (text : String) : utf8Bytes text = text.toList.flatMap String.utf8EncodeChar := by
  have hbytes : text.toUTF8 = (text.toList.flatMap String.utf8EncodeChar).toByteArray :=
    (String.utf8Encode_toList).symm
  rw [utf8Bytes, hbytes, List.data_toByteArray]

theorem utf8Bytes_injective {first second : String} (hbytes : utf8Bytes first = utf8Bytes second) :
    first = second :=
  String.toByteArray_inj.mp (ByteArray.ext (Array.toList_inj.mp hbytes))

theorem trustDomain_injective {first second : String} (hdomain : trustDomain first = trustDomain second) :
    first = second := by
  have hchars := congrArg String.toList (utf8Bytes_injective hdomain)
  rw [String.toList_append, String.toList_append] at hchars
  exact String.toList_inj.mp (List.append_cancel_right hchars)

theorem labelChar_ascii {char : Char} (hchar : Manifest.isLabelChar char = true ∨ char = '.') :
    char.toNat < 128 := by
  simp only [Manifest.isLabelChar, Manifest.isLowerOrDigit, Manifest.isLower, Bool.or_eq_true, Bool.and_eq_true,
    decide_eq_true_eq, beq_iff_eq] at hchar
  rcases hchar with ((⟨_, hlower⟩ | ⟨_, hdigit⟩) | rfl) | rfl
  · exact lt_of_le_of_lt (UInt32.le_iff_toNat_le.mp hlower) (by decide)
  · exact lt_of_le_of_lt (UInt32.le_iff_toNat_le.mp hdigit) (by decide)
  · decide
  · decide

theorem labelChar_bytes {char : Char} (hchar : Manifest.isLabelChar char = true ∨ char = '.') :
    ∀ byte ∈ String.utf8EncodeChar char, isHostByte byte = true := by
  have hall : ∀ value < 128, (Manifest.isLabelChar (Char.ofNat value) = true ∨ Char.ofNat value = '.') →
      ∀ byte ∈ String.utf8EncodeChar (Char.ofNat value), isHostByte byte = true := by
    decide +kernel
  have hbytes := hall char.toNat (labelChar_ascii hchar)
  rw [Char.ofNat_toNat] at hbytes
  exact hbytes hchar

variable {cluster : String}

theorem trustDomain_host (hcluster : Manifest.validID cluster = true) :
    ∀ byte ∈ trustDomain cluster, isHostByte byte = true := by
  intro byte hbyte
  rw [trustDomain, utf8Bytes_eq, String.toList_append] at hbyte
  obtain ⟨char, hchar, hbyte⟩ := List.mem_flatMap.mp hbyte
  have hsuffix : ∀ char ∈ ".podmin.internal".toList, Manifest.isLabelChar char = true ∨ char = '.' := by
    simp [Manifest.isLabelChar, Manifest.isLowerOrDigit, Manifest.isLower]
  rcases List.mem_append.mp hchar with hchar | hchar
  · exact labelChar_bytes (.inl (Manifest.validID_chars hcluster char hchar)) byte hbyte
  · exact labelChar_bytes (hsuffix char hchar) byte hbyte

theorem trustDomain_ne_nil (cluster : String) : trustDomain cluster ≠ [] := by
  intro hnil
  have hempty : cluster ++ ".podmin.internal" = "" := utf8Bytes_injective (hnil.trans (by decide))
  exact absurd hempty (by simp)

/-! ## The path -/

theorem slash_not_mem {value : Bytes} (hvalue : validatePart value = .ok ()) : 47 ∉ value := by
  intro hslash
  rw [validatePart, if_pos (.inr (List.any_eq_true.mpr ⟨47, hslash, by decide⟩))] at hvalue
  cases hvalue

theorem validatePart_ne_nil {value : Bytes} (hvalue : validatePart value = .ok ()) : value ≠ [] := by
  rintro rfl
  rw [validatePart, if_pos (.inl rfl)] at hvalue
  cases hvalue

/-- The components of the escaped path of a node. -/
def segments (nodeID nodeGroup : Bytes) : List Bytes :=
  [utf8Bytes "node", escape .path nodeID, utf8Bytes "nodegroup", escape .path nodeGroup]

theorem nodeURI_path (cluster : String) (nodeID nodeGroup : Bytes) :
    (nodeURI cluster nodeID nodeGroup).path =
      47 :: (utf8Bytes "node/" ++ nodeID ++ utf8Bytes "/nodegroup/" ++ nodeGroup) := by
  have hslash : utf8Bytes "/node/" = 47 :: utf8Bytes "node/" := by decide
  rw [nodeURI, hslash]
  rfl

theorem join_segments (nodeID nodeGroup : Bytes) :
    [47].intercalate (segments nodeID nodeGroup) = utf8Bytes "node" ++ 47 :: (escape .path nodeID ++
      47 :: (utf8Bytes "nodegroup" ++ 47 :: escape .path nodeGroup)) := by
  simp only [segments, List.intercalate, List.intersperse, List.flatten_cons, List.flatten_nil,
    List.cons_append,
    List.nil_append, List.append_nil]

theorem nodeURI_escapedPath (cluster : String) (nodeID nodeGroup : Bytes) :
    (nodeURI cluster nodeID nodeGroup).escapedPath = 47 :: [47].intercalate (segments nodeID nodeGroup) := by
  have hnode : escape .path (utf8Bytes "/node/") = 47 :: (utf8Bytes "node" ++ [47]) := by decide
  have hgroup : escape .path (utf8Bytes "/nodegroup/") = 47 :: (utf8Bytes "nodegroup" ++ [47]) := by
    decide
  rw [Url.escapedPath, if_neg fun hraw ↦ hraw.1 rfl, nodeURI_path, if_neg (by simp), ← nodeURI_path cluster]
  simp only [nodeURI, escape_append, hnode, hgroup, join_segments, List.append_assoc, List.cons_append,
    List.nil_append]

section Path

variable {nodeID nodeGroup : Bytes} (hnode : validatePart nodeID = .ok ())
  (hgroup : validatePart nodeGroup = .ok ())

include hnode hgroup

theorem segments_no_slash : ∀ segment ∈ segments nodeID nodeGroup, 47 ∉ segment := by
  intro segment hsegment hslash
  simp only [segments, List.mem_cons, List.not_mem_nil, or_false] at hsegment
  rcases hsegment with rfl | rfl | rfl | rfl
  · exact absurd hslash (by decide)
  · exact slash_not_mem hnode ((escape_path_bytes hslash).2.2.2.2 rfl)
  · exact absurd hslash (by decide)
  · exact slash_not_mem hgroup ((escape_path_bytes hslash).2.2.2.2 rfl)

/-- Neither component is empty or has a slash, so the path splits into its four components. -/
theorem split_escapedPath (cluster : String) :
    (trimSlashes (nodeURI cluster nodeID nodeGroup).escapedPath).splitOn 47 = segments nodeID nodeGroup := by
  have hhead : ([47].intercalate (segments nodeID nodeGroup)).dropWhile (· == 47) =
      [47].intercalate (segments nodeID nodeGroup) := by
    have hbytes : utf8Bytes "node" = 110 :: utf8Bytes "ode" := by decide
    rw [join_segments, hbytes]
    exact List.dropWhile_cons_of_neg (by decide)
  have hlast : ∀ hne, ¬(([47].intercalate (segments nodeID nodeGroup)).getLast hne == 47) = true := by
    intro hne hslash
    have hgroupne := @escape_ne_nil .path _ (validatePart_ne_nil hgroup)
    simp only [join_segments, List.getLast_append_of_ne_nil, List.getLast_cons hgroupne, ne_eq, reduceCtorEq,
      not_false_eq_true, List.getLast_cons, List.append_eq_nil_iff, and_false, beq_iff_eq] at hslash
    exact segments_no_slash hnode hgroup _ (by simp [segments]) (hslash ▸ List.getLast_mem hgroupne)
  have htrim : trimSlashes (47 :: [47].intercalate (segments nodeID nodeGroup)) =
      [47].intercalate (segments nodeID nodeGroup) := by
    rw [trimSlashes, List.dropWhile_cons_of_pos (by decide), hhead, List.rdropWhile_eq_self_iff.mpr hlast]
  rw [nodeURI_escapedPath, htrim,
    List.splitOn_intercalate _ (segments_no_slash hnode hgroup) (by simp [segments])]

theorem identityOfURI_nodeURI (cluster : String) :
    identityOfURI (nodeURI cluster nodeID nodeGroup) cluster = .ok { nodeID, nodeGroup } := by
  rw [identityOfURI, split_escapedPath hnode hgroup cluster]
  simp only [segments, nodeURI, ne_eq, not_true_eq_false, or_self, if_false, hnode, hgroup,
    unescape_escape (show Encoding.pathSegment ≠ .host by decide)]

theorem identityOfURI_other {other : String} (hother : other ≠ cluster) :
    identityOfURI (nodeURI cluster nodeID nodeGroup) other =
      .error (.returned "invalid node SPIFFE identity") := by
  have hdomain : trustDomain cluster ≠ trustDomain other :=
    fun hdomain ↦ hother (trustDomain_injective hdomain).symm
  rw [identityOfURI, split_escapedPath hnode hgroup cluster]
  exact if_pos (.inr (.inl hdomain))

end Path

/-! ## Certificates -/

/-- The issued certificate is received as it was made. -/
theorem received_issue (hcluster : Manifest.validID cluster = true) (nodeID nodeGroup : Bytes)
    (address : BitVec 128) (now : Int) :
    (issue cluster nodeID nodeGroup address now).received =
      some (issue cluster nodeID nodeGroup address now) := by
  have hletters : ∀ byte ∈ utf8Bytes "spiffe", 97 ≤ byte ∧ byte ≤ 122 := by decide +kernel
  have hparse : parse (nodeURI cluster nodeID nodeGroup).string = some (nodeURI cluster nodeID nodeGroup) := by
    have huri : nodeURI cluster nodeID nodeGroup =
        { scheme := utf8Bytes "spiffe", host := trustDomain cluster,
          path := 47 :: (utf8Bytes "node/" ++ nodeID ++ utf8Bytes "/nodegroup/" ++ nodeGroup) } := by
      rw [← nodeURI_path cluster nodeID nodeGroup]
      rfl
    rw [huri]
    exact parse_string (by decide) hletters (trustDomain_ne_nil cluster) (trustDomain_host hcluster) _
  simp [Certificate.received, issue, hparse]

/-- The peer was verified by TLS, and its first chain starts with the certificate. -/
def Context.Presents (ctx : Context) (leaf : Certificate) : Prop :=
  ∃ chain chains, ctx.peer = some (.tls ((leaf :: chain) :: chains))

theorem identityFromContext_presents {ctx : Context} {nodeID nodeGroup : Bytes} {address : BitVec 128}
    {now : Int} (hctx : ctx.Presents (issue cluster nodeID nodeGroup address now)) (verifier : String) :
    identityFromContext ctx verifier = identityOfURI (nodeURI cluster nodeID nodeGroup) verifier := by
  obtain ⟨chain, chains, hpeer⟩ := hctx
  rw [identityFromContext, hpeer]
  rfl

/-- A node, by what its certificate is issued for. -/
structure Node where
  cluster : String
  nodeID : Bytes
  nodeGroup : Bytes

structure Node.Admitted (node : Node) : Prop where
  cluster : Manifest.validID node.cluster = true
  nodeID : validatePart node.nodeID = .ok ()
  nodeGroup : validatePart node.nodeGroup = .ok ()

/-- The context presents the certificate that some call of `issue` made for the node, as it is received. -/
def Context.Authenticates (ctx : Context) (node : Node) : Prop :=
  ∃ address now leaf, (issue node.cluster node.nodeID node.nodeGroup address now).received = some leaf ∧
    ctx.Presents leaf

theorem Node.Admitted.identity {node : Node} (hnode : node.Admitted) {ctx : Context}
    (hctx : ctx.Authenticates node) :
    identityFromContext ctx node.cluster = .ok { nodeID := node.nodeID, nodeGroup := node.nodeGroup } ∧
      ∀ other, other ≠ node.cluster →
        identityFromContext ctx other = .error (.returned "invalid node SPIFFE identity") := by
  obtain ⟨address, now, leaf, hleaf, hpresents⟩ := hctx
  rw [received_issue hnode.cluster, Option.some.injEq] at hleaf
  subst hleaf
  constructor
  · rw [identityFromContext_presents hpresents, identityOfURI_nodeURI hnode.nodeID hnode.nodeGroup]
  · intro other hother
    rw [identityFromContext_presents hpresents, identityOfURI_other hnode.nodeID hnode.nodeGroup hother]

/-- Every certificate that is issued for an admitted node is received. Whoever presents it is that node
for its own cluster and nobody for another, so two peers that are one node for some cluster were issued
the same triple. -/
theorem node_identity_unambiguous {node : Node} (hnode : node.Admitted) :
    (∀ address now, ∃ leaf,
      (issue node.cluster node.nodeID node.nodeGroup address now).received = some leaf) ∧
    (∀ ctx : Context, ctx.Authenticates node →
      identityFromContext ctx node.cluster = .ok { nodeID := node.nodeID, nodeGroup := node.nodeGroup } ∧
      ∀ other, other ≠ node.cluster → ∃ failure, identityFromContext ctx other = .error (.returned failure)) ∧
    ∀ another : Node, another.Admitted → ∀ first second : Context, first.Authenticates node →
      second.Authenticates another → ∀ verifier identity, identityFromContext first verifier = .ok identity →
      identityFromContext second verifier = .ok identity → another = node := by
  refine ⟨fun address now ↦ ⟨_, received_issue hnode.cluster _ _ address now⟩, ?_, ?_⟩
  · intro ctx hctx
    obtain ⟨hown, hothers⟩ := hnode.identity hctx
    exact ⟨hown, fun other hother ↦ ⟨_, hothers other hother⟩⟩
  · intro another hanother first second hfirst hsecond verifier identity hidentity hsame
    -- Both are verified for their own cluster only, so the verifier is the cluster of both.
    have hverifier : ∀ {node : Node} {ctx : Context}, node.Admitted → ctx.Authenticates node →
        identityFromContext ctx verifier = .ok identity →
        node = ⟨verifier, identity.nodeID, identity.nodeGroup⟩ := by
      intro node ctx hnode hctx hidentity
      obtain ⟨hown, hothers⟩ := hnode.identity hctx
      have hcluster : verifier = node.cluster := by
        by_contra hother
        rw [hothers verifier hother] at hidentity
        cases hidentity
      subst hcluster
      rw [hown, Except.ok.injEq] at hidentity
      rw [← hidentity]
    rw [hverifier hanother hsecond hsame, hverifier hnode hfirst hidentity]

/-- A node ID with a percent sign, a space, a dot and a letter outside ASCII. -/
theorem node_identity_escaped :
    ∃ ctx : Context, ctx.Authenticates ⟨"main", utf8Bytes "a%2F b.ü", utf8Bytes "workers"⟩ ∧
      identityFromContext ctx "main" = .ok ⟨utf8Bytes "a%2F b.ü", utf8Bytes "workers"⟩ := by
  have hnode : Node.Admitted ⟨"main", utf8Bytes "a%2F b.ü", utf8Bytes "workers"⟩ :=
    ⟨by decide, by decide, by decide⟩
  obtain ⟨hissued, hidentity, _⟩ := node_identity_unambiguous hnode
  obtain ⟨leaf, hleaf⟩ := hissued 0 0
  have hctx : Context.Authenticates ⟨some (.tls [[leaf]])⟩ _ := ⟨0, 0, leaf, hleaf, [], [], rfl⟩
  exact ⟨_, hctx, (hidentity _ hctx).1⟩

end Podmin.Agent.Identity
