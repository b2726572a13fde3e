import Podmin.Cli.Images

/-!
# Published tags stay pullable

A registry serves a manifest by digest only if a top-level descriptor carries the digest. A merge
publishes everything nested in the image it pushes, and leaves every other tag where it was. It also
removes the old descriptor of its tag, which another tag may need: a child is not added a second time
when its digest is already there, so a repushed tag may take the only descriptor of a manifest that is
nested in the image of another tag.
-/

namespace Podmin.Cli.Images

open Relation Foundation Fallible Transition

variable {parent child descriptor : Descriptor} {published : List String} {fuel : Nat}
  {next existing manifests : List Descriptor} {push : Push}

/-! ## Nested manifests -/

section Nesting

variable (blobs : Blobs)

/-- The second descriptor is listed in the image index the first one points to. -/
def Child (parent child : Descriptor) : Prop :=
  imageIndexMediaType parent.mediaType ∧
    ∃ children, blobs.read parent.digest = some children ∧ child ∈ children

/-- A manifest reachable by nested image indexes. -/
def Nested : Descriptor → Descriptor → Prop := TransGen (Child blobs)

/-- The image indexes of a descriptor are there to be read. -/
def Present (descriptor : Descriptor) : Prop :=
  ∀ inner, ReflTransGen (Child blobs) descriptor inner → imageIndexMediaType inner.mediaType →
    (blobs.read inner.digest).isSome

/-- Everything nested in a descriptor is published under its digest. -/
def Covered (published : List String) (descriptor : Descriptor) : Prop :=
  ∀ inner, Nested blobs descriptor inner → inner.digest ∈ published

end Nesting

variable {blobs : Blobs}

theorem Child.depth_lt (hchild : Child blobs parent child) :
    blobs.depth child.digest < blobs.depth parent.digest := by
  obtain ⟨_, children, hread, hmem⟩ := hchild
  exact blobs.depth_lt _ _ _ hread hmem

theorem child_iff {children : List Descriptor} (hindex : imageIndexMediaType parent.mediaType)
    (hread : blobs.read parent.digest = some children) :
    Child blobs parent child ↔ child ∈ children := by
  simp [Child, hindex, hread]

theorem not_child_of_leaf (hleaf : ¬ imageIndexMediaType parent.mediaType) : ¬ Child blobs parent child :=
  fun hchild ↦ hleaf hchild.1

theorem covered_iff :
    Covered blobs published descriptor ↔
      ∀ child, Child blobs descriptor child →
        child.digest ∈ published ∧ Covered blobs published child := by
  constructor
  · intro hcovered child hchild
    exact ⟨hcovered child (.single hchild), fun inner hinner ↦ hcovered inner (.head hchild hinner)⟩
  · intro hchildren inner hinner
    obtain ⟨child, hchild, hrest⟩ := TransGen.head'_iff.mp hinner
    obtain ⟨hpublished, hcovered⟩ := hchildren child hchild
    cases reflTransGen_iff_eq_or_transGen.mp hrest with
    | inl hsame =>
      rw [hsame]
      exact hpublished
    | inr hdeeper => exact hcovered inner hdeeper

theorem present_iff :
    Present blobs descriptor ↔
      (imageIndexMediaType descriptor.mediaType → (blobs.read descriptor.digest).isSome) ∧
        ∀ child, Child blobs descriptor child → Present blobs child := by
  constructor
  · intro hpresent
    exact ⟨hpresent descriptor .refl,
      fun child hchild inner hinner ↦ hpresent inner (.head hchild hinner)⟩
  · intro hboth inner hinner
    cases ReflTransGen.cases_head hinner with
    | inl hsame =>
      rw [← hsame]
      exact hboth.1
    | inr hdeeper =>
      obtain ⟨child, hchild, hrest⟩ := hdeeper
      exact hboth.2 child hchild inner hrest

theorem present_of_leaf (hleaf : ¬ imageIndexMediaType descriptor.mediaType) : Present blobs descriptor :=
  present_iff.mpr ⟨fun hindex ↦ absurd hindex hleaf,
    fun _ hchild ↦ absurd hchild (not_child_of_leaf hleaf)⟩

theorem covered_of_leaf (hleaf : ¬ imageIndexMediaType descriptor.mediaType) :
    Covered blobs published descriptor :=
  covered_iff.mpr fun _ hchild ↦ absurd hchild (not_child_of_leaf hleaf)

theorem Covered.mono {more : List String} (hcovered : Covered blobs published descriptor)
    (hsubset : published ⊆ more) :
    Covered blobs more descriptor :=
  fun inner hinner ↦ hsubset (hcovered inner hinner)

/-- The code's own check says that everything nested is there and published. -/
theorem completeWithin_iff (hfuel : blobs.depth descriptor.digest < fuel) :
    completeWithin blobs published fuel descriptor = true ↔
      Present blobs descriptor ∧ Covered blobs published descriptor := by
  induction fuel generalizing descriptor with
  | zero => omega
  | succ fuel ih =>
    unfold completeWithin
    by_cases hindex : imageIndexMediaType descriptor.mediaType
    · rw [hindex, present_iff, covered_iff]
      cases hread : blobs.read descriptor.digest with
      | none => simp [hindex]
      | some children =>
        have hdeeper : ∀ child ∈ children,
            (completeWithin blobs published fuel child = true ↔
              Present blobs child ∧ Covered blobs published child) := by
          intro child hchild
          have hdepth := blobs.depth_lt _ _ _ hread hchild
          exact ih (by omega)
        have hall : (children.all fun child ↦ decide (child.digest ∈ published) &&
            completeWithin blobs published fuel child) = true ↔
            ∀ child ∈ children, child.digest ∈ published ∧
              Present blobs child ∧ Covered blobs published child := by
          rw [List.all_eq_true]
          refine forall₂_congr fun child hchild ↦ ?_
          rw [Bool.and_eq_true, decide_eq_true_iff, hdeeper child hchild]
        simp only [Bool.not_true, Bool.false_eq_true, if_false, hall, child_iff hindex hread]
        simp only [Option.isSome_some, implies_true, true_and]
        exact ⟨fun h ↦ ⟨fun c hc ↦ (h c hc).2.1, fun c hc ↦ ⟨(h c hc).1, (h c hc).2.2⟩⟩,
          fun h c hc ↦ ⟨(h.2 c hc).1, h.1 c hc, (h.2 c hc).2⟩⟩
    · simp [hindex, present_of_leaf hindex, covered_of_leaf hindex]

theorem publishedIndexComplete_iff :
    publishedIndexComplete blobs published descriptor = true ↔
      Present blobs descriptor ∧ Covered blobs published descriptor :=
  completeWithin_iff (Nat.lt_succ_self _)

/-! ## What a merge publishes -/

/-- A collection grown by manifests of one image, with all of them published. -/
structure Gathered (blobs : Blobs) (descriptor : Descriptor) (before after : Collection) : Prop where
  extra : ∃ added, after.target = before.target ++ added ∧ ∀ inner ∈ added, Nested blobs descriptor inner
  present : Present blobs descriptor
  covered : Covered blobs (digests after.target) descriptor

theorem Collection.add_target (collection : Collection) (child : Descriptor) :
    ∃ added, (collection.add child).target = collection.target ++ added ∧
      (∀ inner ∈ added, inner = child) ∧ child.digest ∈ digests (collection.add child).target := by
  unfold Collection.add
  split
  · next hseen => exact ⟨[], by simp, by simp, collection.seen_subset hseen⟩
  · exact ⟨[child], rfl, by simp, by simp [Collection.append, digests]⟩

theorem digests_subset_append (first second : List Descriptor) :
    digests first ⊆ digests (first ++ second) := by
  rw [digests_append]
  exact List.subset_append_left _ _

/-- A collection into which some children of a descriptor have been gathered. -/
structure Gathering (blobs : Blobs) (descriptor : Descriptor) (before : Collection)
    (done : List Descriptor) (state : Collection) : Prop where
  extra : ∃ added, state.target = before.target ++ added ∧ ∀ inner ∈ added, Nested blobs descriptor inner
  each : ∀ child ∈ done, Present blobs child ∧ child.digest ∈ digests state.target ∧
    Covered blobs (digests state.target) child

theorem Gathering.round {before state next : Collection} {done : List Descriptor}
    (hdone : Gathering blobs descriptor before done state) (hchild : Child blobs descriptor child)
    (hnext : Gathered blobs child (state.add child) next) :
    Gathering blobs descriptor before (done ++ [child]) next := by
  obtain ⟨old, hold, holdNested⟩ := hdone.extra
  obtain ⟨self, hself, hselfOnly, hdigest⟩ := state.add_target child
  obtain ⟨deeper, hdeeper, hdeeperNested⟩ := hnext.extra
  have hgrow : digests state.target ⊆ digests next.target := by
    rw [hdeeper, hself, List.append_assoc]
    exact digests_subset_append _ _
  constructor
  · refine ⟨old ++ self ++ deeper, by simp [hdeeper, hself, hold], ?_⟩
    intro inner hinner
    rcases List.mem_append.mp hinner with hfirst | hlast
    · rcases List.mem_append.mp hfirst with hinner | hinner
      · exact holdNested inner hinner
      · rw [hselfOnly inner hinner]
        exact .single hchild
    · exact .head hchild (hdeeperNested inner hlast)
  · intro item hitem
    rcases List.mem_append.mp hitem with hbefore | hlast
    · obtain ⟨hthere, hpublished, hcovered⟩ := hdone.each item hbefore
      exact ⟨hthere, hgrow hpublished, hcovered.mono hgrow⟩
    · rw [List.mem_singleton.mp hlast]
      refine ⟨hnext.present, ?_, hnext.covered⟩
      rw [hdeeper]
      exact digests_subset_append _ _ hdigest

theorem appendChildren_gathered {before after : Collection}
    (happend : appendChildren blobs fuel before descriptor = .ok after) :
    Gathered blobs descriptor before after := by
  induction fuel generalizing before after descriptor with
  | zero => cases happend
  | succ fuel ih =>
    unfold appendChildren at happend
    by_cases hindex : imageIndexMediaType descriptor.mediaType
    · cases hread : blobs.read descriptor.digest with
      | none => simp [hindex, hread] at happend
      | some children =>
        simp only [hindex, hread, Bool.not_true, Bool.false_eq_true, if_false] at happend
        have hstart : [] ⊆ children → Gathering blobs descriptor before [] before :=
          fun _ ↦ ⟨⟨[], by simp, by simp⟩, by simp⟩
        have hround : ∀ done child state next,
            (done ⊆ children → Gathering blobs descriptor before done state) →
            appendChildren blobs fuel (state.add child) child = .ok next →
            done ++ [child] ⊆ children → Gathering blobs descriptor before (done ++ [child]) next := by
          intro done child state next hdone hnext hsubset
          obtain ⟨hbefore, hlast⟩ := List.append_subset.mp hsubset
          have hchild := (child_iff hindex hread).mpr (hlast List.mem_cons_self)
          exact (hdone hbefore).round hchild (ih hnext)
        have hfinal : Gathering blobs descriptor before children after :=
          foldlM_success hround hstart happend (List.Subset.refl _)
        refine ⟨hfinal.extra, present_iff.mpr ⟨by simp [hread], ?_⟩, covered_iff.mpr ?_⟩
        · intro child hchild
          exact (hfinal.each child ((child_iff hindex hread).mp hchild)).1
        · intro child hchild
          exact (hfinal.each child ((child_iff hindex hread).mp hchild)).2
    · simp only [hindex, Bool.not_false, if_true, Except.ok.injEq] at happend
      cases happend
      exact ⟨⟨[], by simp, by simp⟩, present_of_leaf hindex, covered_of_leaf hindex⟩

/-- The fuel suffices when every image index can be read. -/
theorem appendChildren_total (hpresent : Present blobs descriptor)
    (hfuel : blobs.depth descriptor.digest < fuel) (before : Collection) :
    ∃ after, appendChildren blobs fuel before descriptor = .ok after := by
  induction fuel generalizing descriptor before with
  | zero => omega
  | succ fuel ih =>
    unfold appendChildren
    by_cases hindex : imageIndexMediaType descriptor.mediaType
    · obtain ⟨hthere, hchildren⟩ := present_iff.mp hpresent
      obtain ⟨children, hread⟩ := Option.isSome_iff_exists.mp (hthere hindex)
      simp only [hindex, hread, Bool.not_true, Bool.false_eq_true, if_false]
      refine foldlM_total ?_ before
      intro child hmem state
      have hchild := (child_iff hindex hread).mpr hmem
      have hdepth := hchild.depth_lt
      exact ih (hchildren child hchild) (by omega) _
    · exact ⟨before, by simp [hindex]⟩

/-- A collection into which some of the pushed descriptors have been merged. -/
structure Merging (blobs : Blobs) (kept done : List Descriptor) (state : Collection) : Prop where
  extra : ∃ added, state.target = kept ++ added ∧ added.head? = done.head? ∧
    ∀ inner ∈ added, ∃ top ∈ done, ReflTransGen (Child blobs) top inner
  each : ∀ top ∈ done, Present blobs top ∧ top.digest ∈ digests state.target ∧
    Covered blobs (digests state.target) top

theorem Merging.round {kept done : List Descriptor} {top : Descriptor} {state next : Collection}
    (hdone : Merging blobs kept done state) (hnext : addTagged blobs state top = .ok next) :
    Merging blobs kept (done ++ [top]) next := by
  have hgathered := appendChildren_gathered hnext
  obtain ⟨old, hold, hhead, horigin⟩ := hdone.extra
  obtain ⟨deeper, hdeeper, hnested⟩ := hgathered.extra
  have htarget : next.target = state.target ++ top :: deeper := by
    simpa [Collection.append] using hdeeper
  constructor
  · refine ⟨old ++ top :: deeper, by rw [htarget, hold, List.append_assoc], ?_, ?_⟩
    · simp [List.head?_append, hhead]
    · intro inner hinner
      rcases List.mem_append.mp hinner with hbefore | hafter
      · obtain ⟨other, hother, hreach⟩ := horigin inner hbefore
        exact ⟨other, List.mem_append_left _ hother, hreach⟩
      · refine ⟨top, by simp, ?_⟩
        cases hafter with
        | head => exact .refl
        | tail _ hinner => exact (hnested inner hinner).to_reflTransGen
  · intro item hitem
    rcases List.mem_append.mp hitem with hbefore | hlast
    · obtain ⟨hpresent, hpublished, hcovered⟩ := hdone.each item hbefore
      have hgrow : digests state.target ⊆ digests next.target := by
        rw [htarget]
        exact digests_subset_append _ _
      exact ⟨hpresent, hgrow hpublished, hcovered.mono hgrow⟩
    · rw [List.mem_singleton.mp hlast]
      exact ⟨hgathered.present, by simp [htarget, digests], hgathered.covered⟩

/-- What a successful merge writes: the other descriptors, then the pushed one, then more of the
pushed image. -/
theorem mergeIndexes_eq_ok (hmerge : mergeIndexes blobs push existing = .ok next) :
    (∃ top added, push.tagged.head? = some top ∧ next = push.kept existing ++ top :: added) ∧
      (∀ inner ∈ next, inner ∈ push.kept existing ∨
        ∃ top ∈ push.tagged, ReflTransGen (Child blobs) top inner) ∧
      ∀ top ∈ push.tagged, Present blobs top ∧ top.digest ∈ digests next ∧
        Covered blobs (digests next) top := by
  obtain ⟨collection, hfold, hresult⟩ := bind_eq_ok.mp hmerge
  have hstart : Merging blobs (push.kept existing) []
      ⟨push.kept existing, digests (push.kept existing), List.Subset.refl _⟩ :=
    ⟨⟨[], by simp, rfl, by simp⟩, by simp⟩
  have hfinal : Merging blobs (push.kept existing) push.tagged collection :=
    foldlM_success (fun _ _ _ _ ↦ Merging.round) hstart hfold
  split at hresult
  · cases hresult
  · next hsome =>
    cases hresult
    obtain ⟨added, htarget, hhead, horigin⟩ := hfinal.extra
    refine ⟨?_, ?_, hfinal.each⟩
    · cases htagged : push.tagged with
      | nil => simp [htagged] at hsome
      | cons top rest =>
        rw [htagged, List.head?_cons, List.head?_eq_some_iff] at hhead
        obtain ⟨more, hmore⟩ := hhead
        exact ⟨top, more, rfl, by rw [htarget, hmore]⟩
    · intro inner hinner
      rw [htarget] at hinner
      exact (List.mem_append.mp hinner).imp id (horigin inner)

/-- A merge succeeds when the source tag is there and the image indexes of its images can be read. -/
theorem mergeIndexes_total (htagged : push.tagged ≠ []) (hpresent : ∀ top ∈ push.tagged, Present blobs top)
    (existing : List Descriptor) :
    ∃ next, mergeIndexes blobs push existing = .ok next := by
  obtain ⟨collection, hfold⟩ := foldlM_total
    (fun top htop (state : Collection) ↦
      appendChildren_total (hpresent top htop) (Nat.lt_succ_self _) (state.append top))
    ⟨push.kept existing, digests (push.kept existing), List.Subset.refl _⟩
  refine ⟨collection.target, bind_eq_ok.mpr ⟨collection, hfold, ?_⟩⟩
  simp [htagged]

/-! ## Runs -/

/-- Every tag can be pulled: what is nested in its image is published. -/
def Pullable (blobs : Blobs) (manifests : List Descriptor) : Prop :=
  ∀ descriptor ∈ manifests, descriptor.refName ≠ "" →
    Covered blobs (digests manifests) descriptor ∧
      publishedIndexComplete blobs (digests manifests) descriptor = true

/-- The push does not take away the last descriptor of a manifest nested in the image of another
tag: whatever loses its descriptor is found under another one that is kept, or in the pushed image. -/
def undisturbed (blobs : Blobs) (manifests : List Descriptor) (push : Push) : Prop :=
  ∀ removed ∈ manifests, removed.refName = push.destinationTag →
    ∀ other ∈ manifests, other.refName ≠ "" → other.refName ≠ push.destinationTag →
      ∀ inner, Nested blobs other inner → inner.digest = removed.digest →
        (∃ kept ∈ manifests, kept.refName ≠ push.destinationTag ∧ kept.digest = removed.digest) ∨
          ∃ top ∈ push.tagged, ∃ pushed, ReflTransGen (Child blobs) top pushed ∧
            pushed.digest = removed.digest

theorem pullable_iff :
    Pullable blobs manifests ↔ ∀ descriptor ∈ manifests, descriptor.refName ≠ "" →
      Present blobs descriptor ∧ Covered blobs (digests manifests) descriptor := by
  unfold Pullable
  refine forall₃_congr fun descriptor _ _ ↦ ?_
  rw [publishedIndexComplete_iff]
  exact ⟨And.right, fun hboth ↦ ⟨hboth.2, hboth⟩⟩

theorem mem_digests {digest : String} :
    digest ∈ digests manifests ↔ ∃ descriptor ∈ manifests, descriptor.digest = digest :=
  List.mem_map

theorem Push.mem_kept :
    descriptor ∈ push.kept existing ↔
      descriptor ∈ existing ∧ descriptor.refName ≠ push.destinationTag := by
  simp [Push.kept]

/-- Whatever is in a pushed image can be read and is published. -/
theorem merged_of_pushed (hmerge : mergeIndexes blobs push existing = .ok next) {top inner : Descriptor}
    (htop : top ∈ push.tagged) (hreach : ReflTransGen (Child blobs) top inner) :
    Present blobs inner ∧ inner.digest ∈ digests next ∧ Covered blobs (digests next) inner := by
  obtain ⟨hpresent, hpublished, hcovered⟩ := (mergeIndexes_eq_ok hmerge).2.2 top htop
  refine ⟨fun deeper hdeeper ↦ hpresent deeper (hreach.trans hdeeper), ?_,
    fun deeper hdeeper ↦ hcovered deeper (.trans_right hreach hdeeper)⟩
  cases reflTransGen_iff_eq_or_transGen.mp hreach with
  | inl hsame =>
    rw [hsame]
    exact hpublished
  | inr hnested => exact hcovered inner hnested

theorem merged_of_kept (hmerge : mergeIndexes blobs push existing = .ok next) (hmem : descriptor ∈ existing)
    (htag : descriptor.refName ≠ push.destinationTag) :
    descriptor ∈ next := by
  obtain ⟨top, added, _, hnext⟩ := (mergeIndexes_eq_ok hmerge).1
  rw [hnext]
  exact List.mem_append_left _ (Push.mem_kept.mpr ⟨hmem, htag⟩)

/-- A merge keeps the other tags pullable exactly when it does not disturb them. -/
theorem pullable_merge_iff (hmerge : mergeIndexes blobs push manifests = .ok next)
    (hbefore : Pullable blobs manifests) :
    Pullable blobs next ↔ undisturbed blobs manifests push := by
  have horigin := (mergeIndexes_eq_ok hmerge).2.1
  constructor
  · intro hafter removed hremoved hremovedTag other hother htagged hotherTag inner hnested hdigest
    have hcovered := (hafter other (merged_of_kept hmerge hother hotherTag) htagged).1
    obtain ⟨found, hfound, hsame⟩ := mem_digests.mp (hcovered inner hnested)
    cases horigin found hfound with
    | inl hkept =>
      obtain ⟨hmem, htag⟩ := Push.mem_kept.mp hkept
      exact .inl ⟨found, hmem, htag, hsame.trans hdigest⟩
    | inr hpushed =>
      obtain ⟨top, htop, hreach⟩ := hpushed
      exact .inr ⟨top, htop, found, hreach, hsame.trans hdigest⟩
  · intro hundisturbed
    rw [pullable_iff]
    intro descriptor hdescriptor htagged
    cases horigin descriptor hdescriptor with
    | inr hpushed =>
      obtain ⟨top, htop, hreach⟩ := hpushed
      obtain ⟨hpresent, _, hcovered⟩ := merged_of_pushed hmerge htop hreach
      exact ⟨hpresent, hcovered⟩
    | inl hkept =>
      obtain ⟨hmem, htag⟩ := Push.mem_kept.mp hkept
      obtain ⟨hpresent, hcovered⟩ := pullable_iff.mp hbefore descriptor hmem htagged
      refine ⟨hpresent, fun inner hnested ↦ ?_⟩
      obtain ⟨found, hfound, hsame⟩ := mem_digests.mp (hcovered inner hnested)
      by_cases hfoundTag : found.refName = push.destinationTag
      · rw [← hsame]
        rcases hundisturbed found hfound hfoundTag descriptor hmem htagged htag inner hnested
          hsame.symm with hother | hpushed
        · obtain ⟨kept, hkeptMem, hkeptTag, hkeptDigest⟩ := hother
          exact mem_digests.mpr ⟨kept, merged_of_kept hmerge hkeptMem hkeptTag, hkeptDigest⟩
        · obtain ⟨top, htop, pushed, hreach, hpushedDigest⟩ := hpushed
          rw [← hpushedDigest]
          exact (merged_of_pushed hmerge htop hreach).2.1
      · exact mem_digests.mpr ⟨found, merged_of_kept hmerge hfound hfoundTag, hsame⟩

theorem resolve_destinationTag (hmerge : mergeIndexes blobs push existing = .ok next) :
    ∃ source, resolve push.incoming push.sourceTag = some source ∧
      resolve next push.destinationTag = some { source with refName := push.destinationTag } := by
  obtain ⟨top, added, hhead, hnext⟩ := (mergeIndexes_eq_ok hmerge).1
  rw [Push.tagged, List.head?_map, List.head?_filter, Option.map_eq_some_iff] at hhead
  obtain ⟨source, hsource, htop⟩ := hhead
  refine ⟨source, hsource, ?_⟩
  have hkept : (push.kept existing).find? (·.refName = push.destinationTag) = none := by
    rw [List.find?_eq_none]
    intro descriptor hdescriptor
    simpa using (Push.mem_kept.mp hdescriptor).2
  rw [resolve, hnext, List.find?_append, hkept, Option.none_or, ← htop]
  simp

theorem resolve_otherTag {tag : String} (hmerge : mergeIndexes blobs push existing = .ok next)
    (htag : tag ≠ push.destinationTag) (hresolve : resolve existing tag = some descriptor) :
    resolve next tag = some descriptor := by
  obtain ⟨top, added, _, hnext⟩ := (mergeIndexes_eq_ok hmerge).1
  have hkept : resolve (push.kept existing) tag = resolve existing tag := by
    unfold resolve Push.kept
    rw [List.find?_filter]
    congr 1
    funext other
    by_cases hother : other.refName = tag
    · simp [hother, htag]
    · simp [hother]
  unfold resolve at hkept hresolve ⊢
  rw [hnext, List.find?_append, hkept, hresolve, Option.some_or]

/-! ## A multi-platform image and one of its platforms -/

/-- The image of one platform, and an image index that lists it. -/
def platformImage (digest refName : String) : Descriptor :=
  ⟨"application/vnd.oci.image.manifest.v1+json", digest, refName⟩

def platformIndex : Descriptor :=
  ⟨"application/vnd.oci.image.index.v1+json", "sha256:1d", "v1"⟩

def platformBlobs : Blobs where
  read digest := if digest = "sha256:1d" then some [platformImage "sha256:a1" ""] else none
  depth digest := if digest = "sha256:1d" then 1 else 0
  depth_lt := by
    intro digest children child hread hchild
    split at hread
    · next hdigest =>
      cases hread
      rw [List.mem_singleton.mp hchild, hdigest]
      decide
    · cases hread

theorem nested_platform {parent inner : Descriptor} (hnested : Nested platformBlobs parent inner) :
    inner = platformImage "sha256:a1" "" := by
  obtain ⟨_, _, _, children, hread, hchild⟩ := TransGen.tail'_iff.mp hnested
  change (if _ then some [platformImage "sha256:a1" ""] else none) = some children at hread
  split at hread
  · cases hread
    exact List.mem_singleton.mp hchild
  · cases hread

/-- Push a descriptor under the tag it carries. -/
def pushOf (descriptor : Descriptor) (htag : descriptor.refName ≠ "") : Push :=
  ⟨[descriptor], descriptor.refName, descriptor.refName, htag⟩

/-- The platform's image is pushed under a tag of its own, then the index, and then the platform's tag
moves on: the index is left with a manifest that is no longer published. -/
theorem repush_breaks_tag :
    Reachable (system platformBlobs) [platformIndex, platformImage "sha256:a2" "v1-amd64"] ∧
      ¬ Pullable platformBlobs [platformIndex, platformImage "sha256:a2" "v1-amd64"] := by
  have hfirst : mergeIndexes platformBlobs
      (pushOf (platformImage "sha256:a1" "v1-amd64") (by decide)) [] =
        .ok [platformImage "sha256:a1" "v1-amd64"] := by rfl
  have hsecond : mergeIndexes platformBlobs (pushOf platformIndex (by decide))
      [platformImage "sha256:a1" "v1-amd64"] =
        .ok [platformImage "sha256:a1" "v1-amd64", platformIndex] := by rfl
  have hthird : mergeIndexes platformBlobs
      (pushOf (platformImage "sha256:a2" "v1-amd64") (by decide))
      [platformImage "sha256:a1" "v1-amd64", platformIndex] =
        .ok [platformIndex, platformImage "sha256:a2" "v1-amd64"] := by rfl
  constructor
  · exact .step (.step (.step (.init rfl) hfirst) hsecond) hthird
  · intro hpullable
    have hcomplete := (hpullable platformIndex List.mem_cons_self (by decide)).2
    revert hcomplete
    decide

/-- In every run of merges that do not disturb other tags, every tag can be pulled after every merge.
A merge of a readable image succeeds; it moves its own tag and no other, and it keeps all tags pullable
exactly when it does not disturb one. -/
theorem tags_stay_pullable (blobs : Blobs) (manifests : List Descriptor) :
    (Reachable ((system blobs).guarded (undisturbed blobs)) manifests → Pullable blobs manifests) ∧
      ∀ push : Push,
        (push.tagged ≠ [] → (∀ top ∈ push.tagged, Present blobs top) →
          ∃ next, mergeIndexes blobs push manifests = .ok next) ∧
        ∀ next, mergeIndexes blobs push manifests = .ok next →
          (Pullable blobs manifests → (Pullable blobs next ↔ undisturbed blobs manifests push)) ∧
          (∃ source, resolve push.incoming push.sourceTag = some source ∧
            resolve next push.destinationTag =
              some { source with refName := push.destinationTag }) ∧
          ∀ tag descriptor, tag ≠ push.destinationTag →
            resolve manifests tag = some descriptor → resolve next tag = some descriptor := by
  refine ⟨?_, fun push ↦ ⟨fun htagged hpresent ↦ mergeIndexes_total htagged hpresent manifests,
    fun next hmerge ↦ ⟨pullable_merge_iff hmerge, resolve_destinationTag hmerge, ?_⟩⟩⟩
  · apply Reachable.invariant
    · intro start hstart
      rw [show start = [] from hstart]
      simp [Pullable]
    · intro before push next _ hbefore hstep
      exact (pullable_merge_iff hstep.2 hbefore).mpr hstep.1
  · intro tag descriptor
    exact resolve_otherTag hmerge

/-- The index is pushed first, so its child has a descriptor of its own, and the platform's tag may
then be pushed and moved. -/
theorem tags_stay_pullable_moved :
    ∃ next, mergeIndexes platformBlobs (pushOf (platformImage "sha256:a3" "v1-amd64") (by decide))
        [platformIndex, platformImage "sha256:a1" "", platformImage "sha256:a2" "v1-amd64"] = .ok next ∧
      Pullable platformBlobs next ∧ resolve next "v1" = some platformIndex ∧
      resolve next "v1-amd64" = some (platformImage "sha256:a3" "v1-amd64") := by
  have hmerge : mergeIndexes platformBlobs (pushOf platformIndex (by decide)) [] =
      .ok [platformIndex, platformImage "sha256:a1" ""] := by rfl
  have hpushed : mergeIndexes platformBlobs (pushOf (platformImage "sha256:a2" "v1-amd64") (by decide))
      [platformIndex, platformImage "sha256:a1" ""] =
        .ok [platformIndex, platformImage "sha256:a1" "", platformImage "sha256:a2" "v1-amd64"] := by rfl
  obtain ⟨hreached, hpush⟩ := tags_stay_pullable platformBlobs
    [platformIndex, platformImage "sha256:a1" "", platformImage "sha256:a2" "v1-amd64"]
  have hpullable := hreached
    (.step (.step (.init rfl) ⟨fun _ hremoved ↦ absurd hremoved List.not_mem_nil, hmerge⟩)
    ⟨fun removed hremoved htag ↦ absurd htag ((by decide : ∀ removed ∈ [platformIndex,
      platformImage "sha256:a1" ""], removed.refName ≠ "v1-amd64") removed hremoved), hpushed⟩)
  obtain ⟨htotal, hmerged⟩ := hpush (pushOf (platformImage "sha256:a3" "v1-amd64") (by decide))
  obtain ⟨next, hnext⟩ := htotal (by decide) (List.forall_mem_singleton.mpr (present_of_leaf (by decide)))
  obtain ⟨hiff, ⟨source, hsource, hmoved⟩, hothers⟩ := hmerged next hnext
  cases hsource
  refine ⟨next, hnext, (hiff hpullable).mpr ?_, hothers "v1" _ (by decide) rfl, hmoved⟩
  -- the manifest that the moved tag gives up is listed in no index
  intro removed hremoved htag other _ _ _ inner hinner hdigest
  rw [nested_platform hinner] at hdigest
  exact absurd htag ((by decide : ∀ removed ∈ [platformIndex, platformImage "sha256:a1" "",
    platformImage "sha256:a2" "v1-amd64"], "sha256:a1" = removed.digest → removed.refName ≠ "v1-amd64")
      removed hremoved hdigest)

end Podmin.Cli.Images
