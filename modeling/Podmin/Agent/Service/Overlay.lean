import Podmin.Agent.Service.Apply
import Podmin.Agent.Service.ContractIdentity

/-!
# What a node applies

The Services a node applies are those of the snapshot that it keeps and its own contract. It keeps
an item of its own NodeGroup when that is the current contract, and an item of another NodeGroup
when the identity is not claimed locally.
-/

namespace Podmin.Agent.Service

open Foundation Api

open scoped List

variable {item : Api.Service} {services : List Api.Service}

/-- Whether a snapshot item is kept; `wanted` is the local contract by identity. -/
def keeps (nodeGroup : String) (wanted : GoMap String Api.Service) (item : Api.Service) : Bool :=
  match wanted.lookup item.identity with
  | some claimed => decide (item.nodeGroup = nodeGroup ∧ { item with backends := [] } = claimed)
  | none => decide (item.nodeGroup ≠ nodeGroup)

theorem keeps_congr {nodeGroup : String} {wanted other : GoMap String Api.Service}
    (hlookup : wanted.lookup item.identity = other.lookup item.identity) :
    keeps nodeGroup wanted item = keeps nodeGroup other item := by
  rw [keeps, keeps, hlookup]

section Fold

variable {nodeGroup : String}

/-- One round: the item is kept or not, and a kept one is no longer wanted. -/
theorem overlayItem_cases (overlay : Overlay) (item : Api.Service) :
    (keeps nodeGroup overlay.2 item = true ∧
        (overlayItem nodeGroup overlay item).1 = overlay.1 ++ [item] ∧
        ∀ identity, (overlayItem nodeGroup overlay item).2.lookup identity =
          if identity = item.identity then none else overlay.2.lookup identity) ∨
      (keeps nodeGroup overlay.2 item = false ∧ overlayItem nodeGroup overlay item = overlay) := by
  unfold keeps overlayItem
  cases hlookup : overlay.2.lookup item.identity with
  | none =>
    by_cases hgroup : item.nodeGroup = nodeGroup
    · right
      simp [hgroup]
    · left
      simp only [hgroup, ne_eq, not_false_eq_true, decide_true, if_true, true_and]
      intro identity
      split
      · next hself => rw [hself, hlookup]
      · rfl
  | some claimed =>
    by_cases hsame : item.nodeGroup = nodeGroup ∧ { item with backends := [] } = claimed
    · left
      dsimp only
      rw [if_pos hsame]
      exact ⟨decide_eq_true hsame, rfl, fun identity ↦ GoMap.lookup_erase_eq overlay.2 _ identity⟩
    · right
      simp [hsame]

/-- Only snapshot items are kept, and nothing becomes wanted. -/
theorem foldl_overlayItem_subset {services : List Api.Service} {overlay : Overlay} :
    (∀ item ∈ (services.foldl (overlayItem nodeGroup) overlay).1, item ∈ overlay.1 ∨ item ∈ services) ∧
      ∀ identity claimed, (services.foldl (overlayItem nodeGroup) overlay).2.lookup identity =
        some claimed → overlay.2.lookup identity = some claimed := by
  induction services generalizing overlay with
  | nil => exact ⟨fun _ hitem ↦ .inl hitem, fun _ _ hclaimed ↦ hclaimed⟩
  | cons first services ih =>
    obtain ⟨hkept, hwanted⟩ := ih
    rw [List.foldl_cons]
    rcases @overlayItem_cases nodeGroup overlay first with ⟨_, hadded, herased⟩ | ⟨_, hsame⟩
    · constructor
      · intro item hitem
        rcases hkept item hitem with hbefore | hlater
        · rw [hadded, List.mem_append, List.mem_singleton] at hbefore
          rcases hbefore with hbefore | rfl
          · exact .inl hbefore
          · exact .inr List.mem_cons_self
        · exact .inr (List.mem_cons_of_mem first hlater)
      · intro identity claimed hclaimed
        have hbefore := hwanted identity claimed hclaimed
        rw [herased] at hbefore
        split at hbefore
        · cases hbefore
        · exact hbefore
    · rw [hsame] at hkept hwanted ⊢
      exact ⟨fun item hitem ↦ (hkept item hitem).imp_right (List.mem_cons_of_mem first), hwanted⟩

/-- What is kept stays. -/
theorem foldl_overlayItem_mono {overlay : Overlay} (hitem : item ∈ overlay.1) :
    item ∈ (services.foldl (overlayItem nodeGroup) overlay).1 := by
  induction services generalizing overlay with
  | nil => exact hitem
  | cons first services ih =>
    apply ih
    rcases @overlayItem_cases nodeGroup overlay first with ⟨_, hadded, _⟩ | ⟨_, hsame⟩
    · rw [hadded]
      exact List.mem_append_left _ hitem
    · rw [hsame]
      exact hitem

/-- An item of another NodeGroup with an identity that is not claimed is kept. -/
theorem foldl_overlayItem_foreign {overlay : Overlay} (hitem : item ∈ services)
    (hgroup : item.nodeGroup ≠ nodeGroup) (hfree : overlay.2.lookup item.identity = none) :
    item ∈ (services.foldl (overlayItem nodeGroup) overlay).1 := by
  induction services generalizing overlay with
  | nil => cases hitem
  | cons first services ih =>
    rw [List.foldl_cons]
    rcases List.mem_cons.mp hitem with rfl | hlater
    · apply foldl_overlayItem_mono
      rcases @overlayItem_cases nodeGroup overlay item with ⟨_, hadded, _⟩ | ⟨hdropped, _⟩
      · rw [hadded]
        exact List.mem_append_right _ List.mem_cons_self
      · simp [keeps, hfree, hgroup] at hdropped
    · apply ih hlater
      rcases @overlayItem_cases nodeGroup overlay first with ⟨_, _, herased⟩ | ⟨_, hsame⟩
      · rw [herased, hfree, ite_self]
      · rw [hsame]
        exact hfree

/-- Items that share an identity are not claimed locally. -/
def Unambiguous (services : List Api.Service) (wanted : GoMap String Api.Service) : Prop :=
  services.Pairwise fun left right ↦ left.identity = right.identity → wanted.lookup left.identity = none

/-- Of the items under a claimed identity only the last may be kept. -/
def KeptLast (nodeGroup : String) (services : List Api.Service) (wanted : GoMap String Api.Service) : Prop :=
  services.Pairwise fun left right ↦ left.identity = right.identity →
    keeps nodeGroup wanted left = true → wanted.lookup left.identity = none

theorem Unambiguous.keptLast {wanted : GoMap String Api.Service} (hunambiguous : Unambiguous services wanted) :
    KeptLast nodeGroup services wanted :=
  hunambiguous.imp fun hfree hsame _ ↦ hfree hsame

theorem unambiguous_of_nodup (hnodup : (services.map Api.Service.identity).Nodup)
    (wanted : GoMap String Api.Service) :
    Unambiguous services wanted := by
  rw [List.nodup_iff_pairwise_ne, List.pairwise_map] at hnodup
  exact hnodup.imp fun hne hsame ↦ absurd hsame hne

/-- Where nothing follows a kept item under its claimed identity, the loop is a filter. -/
theorem foldl_overlayItem_filter {services : List Api.Service} (overlay : Overlay)
    (hlast : KeptLast nodeGroup services overlay.2) :
    (services.foldl (overlayItem nodeGroup) overlay).1 =
        overlay.1 ++ services.filter (keeps nodeGroup overlay.2) ∧
      ∀ identity, (services.foldl (overlayItem nodeGroup) overlay).2.lookup identity =
        if identity ∈ (services.filter (keeps nodeGroup overlay.2)).map Api.Service.identity then none
        else overlay.2.lookup identity := by
  induction services generalizing overlay with
  | nil => simp
  | cons first services ih =>
    obtain ⟨hfirst, hrest⟩ := List.pairwise_cons.mp hlast
    -- an item under the identity of a kept one was not claimed before and is not claimed after it
    have hlookup : ∀ item ∈ services, (overlayItem nodeGroup overlay first).2.lookup item.identity =
        overlay.2.lookup item.identity := by
      intro item hitem
      rcases @overlayItem_cases nodeGroup overlay first with ⟨hkeeps, _, herased⟩ | ⟨_, hsame⟩
      · rw [herased]
        split
        · next hidentity => rw [hidentity, hfirst item hitem hidentity.symm hkeeps]
        · rfl
      · rw [hsame]
    have hnext : KeptLast nodeGroup services (overlayItem nodeGroup overlay first).2 := by
      apply hrest.imp_of_mem
      intro left right hleft _ hfree hsame hkeeps
      rw [keeps_congr (hlookup left hleft)] at hkeeps
      rw [hlookup left hleft, hfree hsame hkeeps]
    obtain ⟨hkept, hwanted⟩ := ih (overlayItem nodeGroup overlay first) hnext
    have hcongr : services.filter (keeps nodeGroup (overlayItem nodeGroup overlay first).2) =
        services.filter (keeps nodeGroup overlay.2) :=
      List.filter_congr fun item hitem ↦ keeps_congr (hlookup item hitem)
    rw [List.foldl_cons, hkept, hcongr]
    rw [hcongr] at hwanted
    rcases @overlayItem_cases nodeGroup overlay first with
      ⟨hkeeps, hadded, herased⟩ | ⟨hdrops, hsame⟩
    · rw [hadded, List.filter_cons_of_pos hkeeps]
      refine ⟨by simp, fun identity ↦ ?_⟩
      rw [hwanted, herased, List.map_cons]
      by_cases hself : identity = first.identity
      · simp [hself]
      · simp only [List.mem_cons, hself, false_or, if_false]
    · rw [List.filter_cons_of_neg (by simp [hdrops])]
      rw [hsame] at hwanted ⊢
      exact ⟨rfl, hwanted⟩

/-- A claimed item stays wanted until an item that equals it apart from its backends is kept. -/
theorem foldl_overlayItem_stands {services : List Api.Service} {overlay : Overlay} {identity : String}
    {claimed : Api.Service} (hclaimed : overlay.2.lookup identity = some claimed) :
    (∃ item ∈ (services.foldl (overlayItem nodeGroup) overlay).1, { item with backends := [] } = claimed) ∨
      (services.foldl (overlayItem nodeGroup) overlay).2.lookup identity = some claimed := by
  induction services generalizing overlay with
  | nil => exact .inr hclaimed
  | cons first services ih =>
    rw [List.foldl_cons]
    rcases @overlayItem_cases nodeGroup overlay first with ⟨hkeeps, hadded, herased⟩ | ⟨_, hsame⟩
    · by_cases hself : identity = first.identity
      · rw [keeps, ← hself, hclaimed] at hkeeps
        refine .inl ⟨first, foldl_overlayItem_mono ?_, (of_decide_eq_true hkeeps).2⟩
        rw [hadded]
        exact List.mem_append_right _ List.mem_cons_self
      · exact ih (by rw [herased, if_neg hself, hclaimed])
    · rw [hsame]
      exact ih hclaimed

end Fold

/-! ## The applied Services -/

theorem lookup_contractMap_eq_none {contract : List Api.Service} {identity : String}
    (hfree : identity ∉ contract.map Api.Service.identity) :
    (contractMap contract).lookup identity = none := by
  cases hlookup : (contractMap contract).lookup identity with
  | none => rfl
  | some item =>
    obtain ⟨hitem, hidentity⟩ := lookup_contractMap hlookup
    exact absurd (List.mem_map.mpr ⟨item, hitem, hidentity⟩) hfree

section Effective

variable {controller : Controller} {snapshot : Snapshot}

/-- What is applied comes from the snapshot or from the local contract. -/
theorem mem_effectiveServices (hitem : item ∈ controller.effectiveServices snapshot) :
    item ∈ snapshot.services ∨ item ∈ controller.contract.2 := by
  rw [Controller.effectiveServices, mem_sortSlice, List.mem_append] at hitem
  obtain ⟨hkept, hwanted⟩ := @foldl_overlayItem_subset controller.nodeGroup snapshot.services
    ([], contractMap controller.contract.2)
  rcases hitem with hitem | hitem
  · rcases hkept item hitem with hnone | hsnapshot
    · cases hnone
    · exact .inl hsnapshot
  · obtain ⟨⟨identity, _⟩, hentry, rfl⟩ := List.mem_map.mp hitem
    exact .inr (lookup_contractMap (hwanted identity _ (GoMap.mem_pairs.mp hentry))).1

/-- A Service of another NodeGroup whose identity is not claimed locally is applied. -/
theorem mem_effectiveServices_of_foreign (hitem : item ∈ snapshot.services)
    (hgroup : item.nodeGroup ≠ controller.nodeGroup)
    (hfree : item.identity ∉ controller.contract.2.map Api.Service.identity) :
    item ∈ controller.effectiveServices snapshot := by
  rw [Controller.effectiveServices, mem_sortSlice, List.mem_append]
  exact .inl (foldl_overlayItem_foreign hitem hgroup (lookup_contractMap_eq_none hfree))

section Nodup

variable (hnodup : (snapshot.services.map Api.Service.identity).Nodup)

include hnodup

/-- The snapshot items that are kept when identities differ. -/
theorem mem_effectiveServices_of_keeps {item : Api.Service} (hitem : item ∈ snapshot.services)
    (hkeeps : keeps controller.nodeGroup (contractMap controller.contract.2) item = true) :
    item ∈ controller.effectiveServices snapshot := by
  rw [Controller.effectiveServices, mem_sortSlice, List.mem_append,
    (foldl_overlayItem_filter _ (unambiguous_of_nodup hnodup _).keptLast).1, List.nil_append]
  exact .inl (List.mem_filter.mpr ⟨hitem, hkeeps⟩)

/-- Conversely, an applied item is kept or has no backends. -/
theorem keeps_of_mem_effectiveServices (hitem : item ∈ controller.effectiveServices snapshot) :
    (item ∈ snapshot.services ∧
        keeps controller.nodeGroup (contractMap controller.contract.2) item = true) ∨
      item ∈ controller.contract.2 := by
  rw [Controller.effectiveServices, mem_sortSlice, List.mem_append,
    (foldl_overlayItem_filter _ (unambiguous_of_nodup hnodup _).keptLast).1, List.nil_append,
      List.mem_filter] at hitem
  rcases hitem with hkept | hlocal
  · exact .inl hkept
  · obtain ⟨⟨identity, _⟩, hentry, rfl⟩ := List.mem_map.mp hlocal
    exact .inr (lookup_contractMap (foldl_overlayItem_subset.2 identity _ (GoMap.mem_pairs.mp hentry))).1

/-- A node without Services applies a snapshot of other NodeGroups as it is. -/
theorem effectiveServices_perm (hcontract : controller.contract.2 = [])
    (hforeign : ∀ item ∈ snapshot.services, item.nodeGroup ≠ controller.nodeGroup) :
    controller.effectiveServices snapshot ~ snapshot.services := by
  obtain ⟨hkept, hwanted⟩ := @foldl_overlayItem_filter controller.nodeGroup snapshot.services
    ([], contractMap controller.contract.2) (unambiguous_of_nodup hnodup _).keptLast
  have hempty : ∀ identity, (contractMap controller.contract.2).lookup identity = none := by
    intro identity
    rw [hcontract]
    rfl
  have hall : snapshot.services.filter (keeps controller.nodeGroup (contractMap controller.contract.2)) =
      snapshot.services := by
    rw [List.filter_eq_self]
    intro item hitem
    rw [keeps, hempty]
    exact decide_eq_true (hforeign item hitem)
  rw [Controller.effectiveServices, hkept, hall, List.nil_append]
  generalize (snapshot.services.foldl (overlayItem controller.nodeGroup)
    ([], contractMap controller.contract.2)).2 = remaining at hwanted
  have hnone : remaining.pairs = [] := by
    rw [List.eq_nil_iff_forall_not_mem]
    rintro ⟨identity, item⟩ hentry
    have hlookup := GoMap.mem_pairs.mp hentry
    rw [hwanted, hempty, ite_self] at hlookup
    cases hlookup
  rw [hnone, List.map_nil, List.append_nil]
  exact sortSlice_perm _ _

/-- Applied identities differ when those of the snapshot do. -/
theorem nodup_effectiveServices :
    ((controller.effectiveServices snapshot).map Api.Service.identity).Nodup := by
  obtain ⟨hkept, hwanted⟩ := @foldl_overlayItem_filter controller.nodeGroup snapshot.services
    ([], contractMap controller.contract.2) (unambiguous_of_nodup hnodup _).keptLast
  rw [Controller.effectiveServices, ((sortSlice_perm _ _).map _).nodup_iff, List.map_append, hkept,
    List.nil_append]
  generalize hfold : (snapshot.services.foldl (overlayItem controller.nodeGroup)
    ([], contractMap controller.contract.2)).2 = remaining at hwanted
  -- a remaining entry is the contract item of its key
  have hidentity : ∀ identity item, remaining.lookup identity = some item → item.identity = identity := by
    intro identity item hitem
    rw [← hfold] at hitem
    exact (lookup_contractMap (foldl_overlayItem_subset.2 identity item hitem)).2
  refine List.Nodup.append ?_ ?_ ?_
  · exact (List.filter_sublist.map _).nodup hnodup
  · have hkeys : (remaining.pairs.map Prod.snd).map Api.Service.identity = remaining.pairs.map Prod.fst := by
      rw [List.map_map]
      apply List.map_congr_left
      intro entry hentry
      exact hidentity entry.1 entry.2 (GoMap.mem_pairs.mp hentry)
    rw [hkeys]
    exact remaining.nodup_pairs_keys
  · intro identity hkeptIdentity hremaining
    obtain ⟨item, hitem, rfl⟩ := List.mem_map.mp hremaining
    obtain ⟨⟨key, _⟩, hentry, rfl⟩ := List.mem_map.mp hitem
    have hlookup := GoMap.mem_pairs.mp hentry
    have hkey := hidentity key _ hlookup
    rw [hwanted, if_pos (hkey ▸ hkeptIdentity)] at hlookup
    cases hlookup

end Nodup

end Effective

end Podmin.Agent.Service
