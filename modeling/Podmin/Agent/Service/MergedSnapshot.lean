import Podmin.Agent.Service.ClusterSnapshot

/-!
# What a cluster snapshot consists of

A snapshot that was built holds, up to order, the contract of every registered NodeGroup with the
endpoints of that NodeGroup's nodes. Building fails only when two NodeGroups claim one identity.
-/

namespace Podmin.Agent.Service

open Foundation Fallible Api

variable {peers : List Peer} {nodeGroup : String} {merged : Merged}

/-! ## One contract per NodeGroup -/

theorem lookup_foldl_nodeGroups (peers : List Peer) (groups : GoMap String Hello) (nodeGroup : String)
    {hello : Hello}
    (hlookup : (peers.foldl (fun groups peer ↦ groups.insert peer.hello.nodeGroup peer.hello)
      groups).lookup nodeGroup = some hello) :
    (∃ peer ∈ peers, peer.hello = hello ∧ hello.nodeGroup = nodeGroup) ∨
      groups.lookup nodeGroup = some hello := by
  induction peers generalizing groups with
  | nil => exact .inr hlookup
  | cons peer peers ih =>
    rcases ih _ hlookup with hlater | hbefore
    · obtain ⟨other, hother, hsame⟩ := hlater
      exact .inl ⟨other, List.mem_cons_of_mem peer hother, hsame⟩
    · rw [GoMap.lookup_insert_eq] at hbefore
      split at hbefore
      · next hgroup =>
        cases hbefore
        exact .inl ⟨peer, List.mem_cons_self, rfl, hgroup.symm⟩
      · exact .inr hbefore

theorem lookup_byNodeGroup {hello : Hello} (hlookup : (byNodeGroup peers).lookup nodeGroup = some hello) :
    ∃ peer ∈ peers, peer.hello = hello ∧ hello.nodeGroup = nodeGroup := by
  rcases lookup_foldl_nodeGroups peers ∅ nodeGroup hlookup with hpeer | hempty
  · exact hpeer
  · simp at hempty

theorem mem_foldl_nodeGroups {groups : GoMap String Hello} :
    nodeGroup ∈ peers.foldl (fun groups peer ↦ groups.insert peer.hello.nodeGroup peer.hello)
        groups ↔ (∃ peer ∈ peers, peer.hello.nodeGroup = nodeGroup) ∨ nodeGroup ∈ groups := by
  induction peers generalizing groups with
  | nil => simp
  | cons peer peers ih =>
    rw [List.foldl_cons, ih, AList.mem_insert]
    simp only [List.mem_cons, exists_eq_or_imp]
    constructor
    · rintro (hlater | hself | hbefore)
      · exact .inl (.inr hlater)
      · exact .inl (.inl hself.symm)
      · exact .inr hbefore
    · rintro ((hself | hlater) | hbefore)
      · exact .inr (.inl hself.symm)
      · exact .inl hlater
      · exact .inr (.inr hbefore)

theorem mem_sortedNodeGroups :
    nodeGroup ∈ sortedNodeGroups peers ↔ ∃ peer ∈ peers, peer.hello.nodeGroup = nodeGroup := by
  rw [sortedNodeGroups, mem_sortSlice, ← AList.mem_keys, byNodeGroup, mem_foldl_nodeGroups]
  simp

theorem nodup_sortedNodeGroups (peers : List Peer) : (sortedNodeGroups peers).Nodup :=
  (sortSlice_perm _ _).nodup_iff.mpr (byNodeGroup peers).keys_nodup

theorem exists_byNodeGroup {peer : Peer} (hpeer : peer ∈ peers) :
    ∃ hello, (byNodeGroup peers).lookup peer.hello.nodeGroup = some hello := by
  have hmem : peer.hello.nodeGroup ∈ byNodeGroup peers :=
    mem_foldl_nodeGroups.mpr (.inl ⟨peer, hpeer, rfl⟩)
  exact Option.isSome_iff_exists.mp (AList.lookup_isSome.mpr hmem)

/-! ## The merged Services -/

/-- The Services of one NodeGroup with their endpoints. -/
def groupServices (peers : List Peer) (nodeGroup : String) : List Api.Service :=
  match (byNodeGroup peers).lookup nodeGroup with
  | none => []
  | some hello => hello.services.map (mergeItem peers nodeGroup hello.configDigest)

/-- The Services of all NodeGroups. -/
def mergedServices (peers : List Peer) : List Api.Service :=
  (sortedNodeGroups peers).flatMap (groupServices peers)

theorem mergeService_eq_ok {configDigest : String} {next : Merged} {item : Api.Service}
    (hmerge : mergeService peers nodeGroup configDigest merged item = .ok next) :
    next = (merged.1.insert item.identity nodeGroup,
      merged.2 ++ [mergeItem peers nodeGroup configDigest item]) := by
  unfold mergeService at hmerge
  dsimp only at hmerge
  split at hmerge
  · split at hmerge
    · cases hmerge
    · exact (Except.ok.inj hmerge).symm
  · exact (Except.ok.inj hmerge).symm

theorem mergeNodeGroup_eq_ok {next : Merged} (hmerge : mergeNodeGroup peers merged nodeGroup = .ok next) :
    ∃ added, next.2 = merged.2 ++ added ∧ added.Perm (groupServices peers nodeGroup) := by
  unfold mergeNodeGroup at hmerge
  unfold groupServices
  cases hhello : (byNodeGroup peers).lookup nodeGroup with
  | none =>
    rw [hhello] at hmerge
    cases hmerge
    exact ⟨[], by simp, List.Perm.refl _⟩
  | some hello =>
    rw [hhello] at hmerge
    have hround : ∀ (done : List Api.Service) (item : Api.Service) (state after : Merged),
        state.2 = merged.2 ++ done.map (mergeItem peers nodeGroup hello.configDigest) →
        mergeService peers nodeGroup hello.configDigest state item = .ok after →
        after.2 = merged.2 ++ (done ++ [item]).map (mergeItem peers nodeGroup hello.configDigest) := by
      intro done item state after hdone hafter
      rw [mergeService_eq_ok hafter, hdone, List.map_append, List.append_assoc]
      rfl
    have hfinal := @foldlM_success _ _ _ _ (fun done (state : Merged) ↦
      state.2 = merged.2 ++ done.map (mergeItem peers nodeGroup hello.configDigest)) hround
      (sortSlice serviceLess hello.services) [] merged next (by simp) hmerge
    exact ⟨_, hfinal, (sortSlice_perm serviceLess hello.services).map _⟩

/-- A built snapshot holds the merged Services. -/
theorem buildClusterSnapshot_services {generation revision : Nat} {leader : String} {snapshot : Snapshot}
    (hbuild : buildClusterSnapshot generation revision leader peers = .ok snapshot) :
    snapshot.services.Perm (mergedServices peers) := by
  obtain ⟨merged, hfold, hsnapshot⟩ := bind_eq_ok.mp hbuild
  cases hsnapshot
  have hround : ∀ (done : List String) (nodeGroup : String) (state next : Merged),
      state.2.Perm (done.flatMap (groupServices peers)) →
      mergeNodeGroup peers state nodeGroup = .ok next →
      next.2.Perm ((done ++ [nodeGroup]).flatMap (groupServices peers)) := by
    intro done nodeGroup state next hdone hnext
    obtain ⟨added, hadded, hperm⟩ := mergeNodeGroup_eq_ok hnext
    rw [hadded, List.flatMap_append]
    exact hdone.append (by simpa using hperm)
  have hfinal := @foldlM_success _ _ _ _ (fun done (state : Merged) ↦
    state.2.Perm (done.flatMap (groupServices peers))) hround
    (sortedNodeGroups peers) [] (∅, []) merged (List.Perm.refl _) hfold
  exact (sortSlice_perm serviceLess merged.2).trans hfinal

/-! ## When building succeeds -/

/-- NodeGroups claim different identities. -/
def DisjointGroups (peers : List Peer) : Prop :=
  ∀ left ∈ peers, ∀ right ∈ peers, left.hello.nodeGroup ≠ right.hello.nodeGroup →
    ∀ item ∈ left.hello.services, ∀ other ∈ right.hello.services, item.identity ≠ other.identity

/-- Every identity merged so far is owned by a NodeGroup that claims it. -/
def Owned (peers : List Peer) (merged : Merged) : Prop :=
  ∀ identity owner, merged.1.lookup identity = some owner →
    ∃ peer ∈ peers, peer.hello.nodeGroup = owner ∧ ∃ item ∈ peer.hello.services, item.identity = identity

theorem mergeService_total (hdisjoint : DisjointGroups peers) {peer : Peer} (hpeer : peer ∈ peers)
    {item : Api.Service} (hitem : item ∈ peer.hello.services) (configDigest : String)
    (howned : Owned peers merged) :
    ∃ next, mergeService peers peer.hello.nodeGroup configDigest merged item = .ok next ∧
      Owned peers next := by
  have hmerge : ∃ next, mergeService peers peer.hello.nodeGroup configDigest merged item = .ok next := by
    unfold mergeService
    dsimp only
    cases howner : merged.1.lookup item.identity with
    | none => exact ⟨_, rfl⟩
    | some owner =>
      obtain ⟨other, hother, hgroup, claimed, hclaimed, hsame⟩ := howned _ _ howner
      dsimp only
      split
      · next hne =>
        rw [← hgroup] at hne
        exact absurd hsame (hdisjoint other hother peer hpeer hne claimed hclaimed item hitem)
      · exact ⟨_, rfl⟩
  obtain ⟨next, hnext⟩ := hmerge
  refine ⟨next, hnext, ?_⟩
  intro identity owner hlookup
  rw [mergeService_eq_ok hnext, GoMap.lookup_insert_eq] at hlookup
  split at hlookup
  · next hself =>
    cases hlookup
    exact ⟨peer, hpeer, rfl, item, hitem, hself.symm⟩
  · exact howned identity owner hlookup

theorem mergeNodeGroup_total (hdisjoint : DisjointGroups peers) (nodeGroup : String)
    (howned : Owned peers merged) :
    ∃ next, mergeNodeGroup peers merged nodeGroup = .ok next ∧ Owned peers next := by
  unfold mergeNodeGroup
  cases hhello : (byNodeGroup peers).lookup nodeGroup with
  | none => exact ⟨merged, rfl, howned⟩
  | some hello =>
    obtain ⟨peer, hpeer, rfl, rfl⟩ := lookup_byNodeGroup hhello
    exact foldlM_keeps (fun item hitem state hstate ↦
      mergeService_total hdisjoint hpeer (mem_sortSlice.mp hitem) peer.hello.configDigest hstate) howned

/-- Building succeeds when no identity has two owners. -/
theorem buildClusterSnapshot_total (hdisjoint : DisjointGroups peers) (generation revision : Nat)
    (leader : String) :
    ∃ snapshot, buildClusterSnapshot generation revision leader peers = .ok snapshot := by
  have hstart : Owned peers ((∅, []) : Merged) := by
    intro identity owner hlookup
    simp at hlookup
  obtain ⟨merged, hmerged, _⟩ := @foldlM_keeps _ _ _ (mergeNodeGroup peers) (Owned peers)
    (sortedNodeGroups peers) (fun nodeGroup _ _ hstate ↦ mergeNodeGroup_total hdisjoint nodeGroup hstate)
    (∅, []) hstart
  exact ⟨_, bind_eq_ok.mpr ⟨merged, hmerged, rfl⟩⟩

end Podmin.Agent.Service
