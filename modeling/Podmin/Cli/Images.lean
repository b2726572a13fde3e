import Podmin.Foundation.Fallible
import Podmin.Foundation.Transition

/-!
# Publishing images

`mergeIndexes` of `internal/cli/images`: pushing a tag replaces its descriptor in the `index.json` of
a repository and adds a descriptor for every manifest nested in the pushed image. Blobs are
addressed by content and never deleted, so one function gives what every digest decodes to.
-/

namespace Podmin.Cli.Images

open Foundation Fallible Transition

/-- A descriptor; without a reference name it carries no tag. -/
structure Descriptor where
  mediaType : String
  digest : String
  refName : String := ""
  deriving DecidableEq, Repr

def imageIndexMediaType (mediaType : String) : Bool :=
  mediaType == "application/vnd.oci.image.index.v1+json" ||
    mediaType == "application/vnd.docker.distribution.manifest.list.v2+json"

/-- The image indexes among the blobs, nested without cycles: `depth` decreases towards the leaves. -/
structure Blobs where
  read : String → Option (List Descriptor)
  depth : String → Nat
  depth_lt : ∀ digest children child, read digest = some children → child ∈ children →
    depth child.digest < depth digest

def digests (manifests : List Descriptor) : List String := manifests.map Descriptor.digest

@[simp]
theorem digests_append (first second : List Descriptor) :
    digests (first ++ second) = digests first ++ digests second := List.map_append

/-- The descriptors collected so far; a digest is only seen if one of them has it. -/
structure Collection where
  target : List Descriptor
  seen : List String
  seen_subset : seen ⊆ digests target

def Collection.append (collection : Collection) (descriptor : Descriptor) : Collection where
  target := collection.target ++ [descriptor]
  seen := descriptor.digest :: collection.seen
  seen_subset := by
    intro digest hseen
    rw [digests_append, List.mem_append]
    cases hseen with
    | head => exact .inr List.mem_cons_self
    | tail _ hbefore => exact .inl (collection.seen_subset hbefore)

/-- Append a child unless its digest has been seen. -/
def Collection.add (collection : Collection) (child : Descriptor) : Collection :=
  if child.digest ∈ collection.seen then collection else collection.append child

/-- Add every nested manifest; the fuel bounds the depth of the nesting. -/
def appendChildren (blobs : Blobs) :
    Nat → Collection → Descriptor → Except String Collection
  | 0, _, descriptor => .error ("read image index " ++ descriptor.digest ++ ": nested too deeply")
  | fuel + 1, collection, descriptor =>
    if !imageIndexMediaType descriptor.mediaType then .ok collection
    else
      match blobs.read descriptor.digest with
      | none => .error ("read image index " ++ descriptor.digest ++ ": not found")
      | some children => children.foldlM
          (fun collection child ↦ appendChildren blobs fuel (collection.add child) child) collection

def appendIndexChildren (blobs : Blobs) (collection : Collection) (descriptor : Descriptor) :
    Except String Collection :=
  appendChildren blobs (blobs.depth descriptor.digest + 1) collection descriptor

/-- One pushed tag: the local index, and the tags in it and in the repository. -/
structure Push where
  incoming : List Descriptor
  sourceTag : String
  destinationTag : String
  destinationTag_ne : destinationTag ≠ ""

/-- The descriptors a push keeps. -/
def Push.kept (push : Push) (existing : List Descriptor) : List Descriptor :=
  existing.filter fun descriptor ↦ descriptor.refName ≠ push.destinationTag

/-- The pushed descriptors, under their new tag. -/
def Push.tagged (push : Push) : List Descriptor :=
  (push.incoming.filter fun descriptor ↦ descriptor.refName = push.sourceTag).map
    fun descriptor ↦ { descriptor with refName := push.destinationTag }

/-- Add one pushed descriptor and what is nested in it. -/
def addTagged (blobs : Blobs) (collection : Collection) (descriptor : Descriptor) :
    Except String Collection :=
  appendIndexChildren blobs (collection.append descriptor) descriptor

/-- Replace the destination tag, add nested manifests, and keep all other descriptors. -/
def mergeIndexes (blobs : Blobs) (push : Push) (existing : List Descriptor) :
    Except String (List Descriptor) := do
  let kept := push.kept existing
  let collection ← push.tagged.foldlM (addTagged blobs) ⟨kept, digests kept, List.Subset.refl _⟩
  if push.tagged.isEmpty then
    .error ("source tag \"" ++ push.sourceTag ++ "\" is absent from the local OCI index")
  else .ok collection.target

/-- The descriptor a tag resolves to. -/
def resolve (manifests : List Descriptor) (tag : String) : Option Descriptor :=
  manifests.find? (·.refName = tag)

/-- Whether every nested manifest is published, with fuel for the depth of the nesting. -/
def completeWithin (blobs : Blobs) (published : List String) : Nat → Descriptor → Bool
  | 0, _ => false
  | fuel + 1, descriptor =>
    if !imageIndexMediaType descriptor.mediaType then true
    else
      match blobs.read descriptor.digest with
      | none => false
      | some children => children.all fun child ↦
          decide (child.digest ∈ published) && completeWithin blobs published fuel child

/-- Whether the registry can resolve every nested manifest by digest. -/
def publishedIndexComplete (blobs : Blobs) (published : List String) (descriptor : Descriptor) :
    Bool :=
  completeWithin blobs published (blobs.depth descriptor.digest + 1) descriptor

/-- Merges written to one repository, from an empty index. -/
def system (blobs : Blobs) : System (List Descriptor) Push where
  init manifests := manifests = []
  step manifests push next := mergeIndexes blobs push manifests = .ok next

end Podmin.Cli.Images
